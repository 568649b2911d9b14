/-
  Foundation/Bytes.lean --- little-endian fields, slices and overlays of byte strings.

  A record is a list of fixed-width fields; a file is written by overlaying records
  and arrays of records on zeroes.  Reading a field back gives the value modulo its
  width, and an overlay changes only what lies under it.
-/
import Mathlib

set_option autoImplicit false

namespace Qalsh.Foundation

/-! ## Little-endian integers -/

/-- The low `width` bytes of `value`, least significant first. -/
def encodeLE : (width value : Nat) → List UInt8
  | 0, _ => []
  | width + 1, value => UInt8.ofNat value :: encodeLE width (value / 256)

def decodeLE : List UInt8 → Nat
  | [] => 0
  | byte :: rest => byte.toNat + 256 * decodeLE rest

@[simp] theorem length_encodeLE (width value : Nat) : (encodeLE width value).length = width := by
  induction width generalizing value with
  | zero => rfl
  | succ width ih => simp [encodeLE, ih]

theorem decodeLE_encodeLE (width value : Nat) :
    decodeLE (encodeLE width value) = value % 256 ^ width := by
  induction width generalizing value with
  | zero => simp [encodeLE, decodeLE, Nat.mod_one]
  | succ width ih =>
      have hbyte : (UInt8.ofNat value).toNat = value % 256 := by
        simp [UInt8.toNat_ofNat']
      rw [encodeLE, decodeLE, hbyte, ih, Nat.pow_succ, Nat.mul_comm (256 ^ width), Nat.mod_mul]

theorem decodeLE_lt (bytes : List UInt8) : decodeLE bytes < 256 ^ bytes.length := by
  induction bytes with
  | nil => simp [decodeLE]
  | cons byte rest ih =>
      have := byte.toNat_lt
      rw [decodeLE, List.length_cons, Nat.pow_succ]
      omega

/-! ## Slices -/

/-- `length` bytes from `offset` on. -/
def slice (bytes : List UInt8) (offset length : Nat) : List UInt8 :=
  (bytes.drop offset).take length

/-- The unsigned integer stored in `width` bytes at `offset`. -/
def readLE (bytes : List UInt8) (offset width : Nat) : Nat := decodeLE (slice bytes offset width)

theorem length_slice {bytes : List UInt8} {offset length : Nat} (h : offset + length ≤ bytes.length) :
    (slice bytes offset length).length = length := by
  simp only [slice, List.length_take, List.length_drop]
  omega

theorem readLE_lt (bytes : List UInt8) (offset width : Nat) :
    readLE bytes offset width < 256 ^ width := by
  refine Nat.lt_of_lt_of_le (decodeLE_lt _) (Nat.pow_le_pow_right (by decide) ?_)
  simp only [slice, List.length_take]
  omega

theorem slice_slice {bytes : List UInt8} {offset length o n : Nat} (h : o + n ≤ length) :
    slice (slice bytes offset length) o n = slice bytes (offset + o) n := by
  simp only [slice, List.drop_take, List.take_take, List.drop_drop]
  congr 1
  omega

/-- Reading inside a slice is reading the whole at a shifted offset. -/
theorem readLE_slice {bytes : List UInt8} {offset length o width : Nat} (h : o + width ≤ length) :
    readLE (slice bytes offset length) o width = readLE bytes (offset + o) width := by
  rw [readLE, slice_slice h, readLE]

theorem slice_append_left {front rest : List UInt8} {offset length : Nat}
    (h : offset + length ≤ front.length) :
    slice (front ++ rest) offset length = slice front offset length := by
  unfold slice
  rw [List.drop_append_of_le_length (by omega), List.take_append_of_le_length]
  simp only [List.length_drop]
  omega

theorem slice_append_right {front rest : List UInt8} {offset length : Nat}
    (h : front.length ≤ offset) :
    slice (front ++ rest) offset length = slice rest (offset - front.length) length := by
  unfold slice
  rw [List.drop_append, List.drop_eq_nil_of_le h, List.nil_append]

theorem slice_self (bytes : List UInt8) : slice bytes 0 bytes.length = bytes := by
  simp [slice]

@[simp] theorem readLE_encodeLE (width value : Nat) (rest : List UInt8) :
    readLE (encodeLE width value ++ rest) 0 width = value % 256 ^ width := by
  rw [readLE, slice_append_left (by simp)]
  have h := slice_self (encodeLE width value)
  rw [length_encodeLE] at h
  rw [h, decodeLE_encodeLE]

theorem readLE_skip {front rest : List UInt8} {offset width : Nat} (h : front.length ≤ offset) :
    readLE (front ++ rest) offset width = readLE rest (offset - front.length) width := by
  rw [readLE, slice_append_right h, readLE]

/-! ## Records -/

/-- The fields of a record, each a width and a value, one after the other. -/
def encodeFields (fields : List (Nat × Nat)) : List UInt8 :=
  fields.flatMap fun field => encodeLE field.1 field.2

/-- Where a field of a record starts. -/
def fieldOffset (fields : List (Nat × Nat)) (i : Nat) : Nat := ((fields.take i).map Prod.fst).sum

@[simp] theorem length_encodeFields (fields : List (Nat × Nat)) :
    (encodeFields fields).length = (fields.map Prod.fst).sum := by
  induction fields with
  | nil => rfl
  | cons field rest ih =>
      rw [encodeFields, List.flatMap_cons, List.length_append, length_encodeLE]
      exact congrArg (field.1 + ·) ih

theorem readLE_encodeFields {fields : List (Nat × Nat)} (tail : List UInt8) {i width value : Nat}
    (h : fields[i]? = some (width, value)) :
    readLE (encodeFields fields ++ tail) (fieldOffset fields i) width = value % 256 ^ width := by
  induction fields generalizing i with
  | nil => simp at h
  | cons field rest ih =>
      have hcons : encodeFields (field :: rest) ++ tail =
          encodeLE field.1 field.2 ++ (encodeFields rest ++ tail) := by
        simp [encodeFields, List.flatMap_cons]
      rw [hcons]
      cases i with
      | zero =>
          cases h
          exact readLE_encodeLE _ _ _
      | succ i =>
          have hoff : fieldOffset (field :: rest) (i + 1) = field.1 + fieldOffset rest i := by
            simp [fieldOffset]
          rw [hoff, readLE_skip (by simp), length_encodeLE, Nat.add_sub_cancel_left]
          exact ih (by simpa using h)

/-! ## Arrays of records -/

/-- Items of one encoded size lie at multiples of it. -/
theorem slice_flatMap {α : Type} {encode : α → List UInt8} {size : Nat}
    (hsize : ∀ a, (encode a).length = size) (items : List α) (tail : List UInt8) {i : Nat}
    (h : i < items.length) :
    slice (items.flatMap encode ++ tail) (size * i) size = encode items[i] := by
  induction items generalizing i with
  | nil => simp at h
  | cons a rest ih =>
      rw [List.flatMap_cons, List.append_assoc]
      cases i with
      | zero =>
          rw [Nat.mul_zero, slice_append_left (by rw [hsize]; omega)]
          have := slice_self (encode a)
          rwa [hsize] at this
      | succ i =>
          have hoff : size * (i + 1) = size + size * i := by rw [Nat.mul_succ]; omega
          rw [hoff, slice_append_right (by rw [hsize]; omega), hsize, Nat.add_sub_cancel_left]
          exact ih (by simpa using h)

theorem length_flatMap_const {α : Type} {encode : α → List UInt8} {size : Nat}
    (hsize : ∀ a, (encode a).length = size) (items : List α) :
    (items.flatMap encode).length = size * items.length := by
  induction items with
  | nil => simp
  | cons a rest ih =>
      rw [List.flatMap_cons, List.length_append, hsize, ih, List.length_cons, Nat.mul_succ]
      omega

/-! ## Overlays -/

/-- `bytes` with `data` written over it at `offset`. -/
def overlay (bytes : List UInt8) (offset : Nat) (data : List UInt8) : List UInt8 :=
  bytes.take offset ++ data ++ bytes.drop (offset + data.length)

theorem length_overlay {bytes data : List UInt8} {offset : Nat}
    (h : offset + data.length ≤ bytes.length) : (overlay bytes offset data).length = bytes.length := by
  simp only [overlay, List.length_append, List.length_take, List.length_drop]
  omega

/-- The bytes under an overlay are the written ones. -/
theorem slice_overlay_inside {bytes data : List UInt8} {offset o n : Nat}
    (h : offset + data.length ≤ bytes.length) (hlo : offset ≤ o)
    (hhi : o + n ≤ offset + data.length) :
    slice (overlay bytes offset data) o n = slice data (o - offset) n := by
  have htake : (bytes.take offset).length = offset := by
    simp only [List.length_take]
    omega
  unfold overlay
  rw [List.append_assoc, slice_append_right (by omega), htake, slice_append_left (by omega)]

/-- The bytes beside an overlay are the old ones. -/
theorem slice_overlay_outside {bytes data : List UInt8} {offset o n : Nat}
    (h : offset + data.length ≤ bytes.length)
    (hdisjoint : o + n ≤ offset ∨ offset + data.length ≤ o) :
    slice (overlay bytes offset data) o n = slice bytes o n := by
  have htake : (bytes.take offset).length = offset := by
    simp only [List.length_take]
    omega
  unfold overlay
  rcases hdisjoint with hbefore | hafter
  · rw [List.append_assoc, slice_append_left (by omega)]
    unfold slice
    rw [List.drop_take, List.take_take]
    congr 1
    omega
  · rw [slice_append_right (by simp only [List.length_append]; omega)]
    unfold slice
    rw [List.drop_drop, List.length_append, htake]
    congr 2
    omega

/-! ## Arrays written in place -/

/-- `items` of one encoded size written side by side from `offset` on. -/
def overlayItems {α : Type} (encode : α → List UInt8) (size offset : Nat) (items : List α)
    (bytes : List UInt8) : List UInt8 :=
  items.zipIdx.foldl (fun bytes item => overlay bytes (offset + item.2 * size) (encode item.1)) bytes

section Items

variable {α : Type} {encode : α → List UInt8} {size offset : Nat} {items : List α}
  {bytes : List UInt8}

theorem overlayItems_concat (a : α) :
    overlayItems encode size offset (items ++ [a]) bytes =
      overlay (overlayItems encode size offset items bytes) (offset + items.length * size)
        (encode a) := by
  simp [overlayItems, List.zipIdx_append]

theorem length_overlayItems (hsize : ∀ a, (encode a).length = size)
    (h : offset + items.length * size ≤ bytes.length) :
    (overlayItems encode size offset items bytes).length = bytes.length := by
  induction items using List.reverseRecOn with
  | nil => rfl
  | append_singleton items a ih =>
      have hroom : offset + items.length * size + size ≤ bytes.length := by
        rw [List.length_append, List.length_singleton, Nat.succ_mul] at h
        omega
      have hlength := ih (by omega)
      rw [overlayItems_concat, length_overlay (by rw [hsize, hlength]; exact hroom), hlength]

/-- What lies beside the items is as it was. -/
theorem slice_overlayItems_outside (hsize : ∀ a, (encode a).length = size)
    (h : offset + items.length * size ≤ bytes.length) {o n : Nat}
    (hdisjoint : o + n ≤ offset ∨ offset + items.length * size ≤ o) :
    slice (overlayItems encode size offset items bytes) o n = slice bytes o n := by
  induction items using List.reverseRecOn with
  | nil => rfl
  | append_singleton items a ih =>
      rw [List.length_append, List.length_singleton, Nat.succ_mul] at h hdisjoint
      have hlength : (overlayItems encode size offset items bytes).length = bytes.length :=
        length_overlayItems hsize (by omega)
      rw [overlayItems_concat, slice_overlay_outside (by rw [hsize, hlength]; omega)
        (by rw [hsize]; omega)]
      exact ih (by omega) (by omega)

/-- Each item lies where it was written. -/
theorem slice_overlayItems_inside (hsize : ∀ a, (encode a).length = size)
    (h : offset + items.length * size ≤ bytes.length) {i : Nat} (hi : i < items.length) :
    slice (overlayItems encode size offset items bytes) (offset + i * size) size =
      encode items[i] := by
  induction items using List.reverseRecOn with
  | nil => cases hi
  | append_singleton items a ih =>
      rw [List.length_append, List.length_singleton, Nat.succ_mul] at h
      have hlength : (overlayItems encode size offset items bytes).length = bytes.length :=
        length_overlayItems hsize (by omega)
      have hroom : offset + items.length * size + (encode a).length ≤
          (overlayItems encode size offset items bytes).length := by
        rw [hsize, hlength]
        omega
      rw [overlayItems_concat]
      rcases Nat.lt_or_ge i items.length with hlt | hge
      · have hmul : i * size + size ≤ items.length * size := by
          rw [← Nat.succ_mul]
          exact Nat.mul_le_mul_right size hlt
        rw [slice_overlay_outside hroom (Or.inl (by omega)), ih (by omega) hlt,
          List.getElem_append_left hlt]
      · obtain rfl : i = items.length := by
          rw [List.length_append, List.length_singleton] at hi
          omega
        rw [slice_overlay_inside hroom le_rfl (by rw [hsize]), Nat.sub_self, ← hsize a, slice_self,
          List.getElem_append_right le_rfl]
        simp

end Items

end Qalsh.Foundation

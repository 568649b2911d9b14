/-
  Foundation/Pieces.lean --- a file written in pieces that do not overlap.

  Each piece has its own room in a file of the final size.  After the last write every
  piece can be read back from its offset, whatever the order of the writes.
-/
import Qalsh.Foundation.FileSystem

set_option autoImplicit false

namespace Qalsh.Foundation

/-- The pieces, with their offsets, written one after the other. -/
def writePieces (pieces : List (Nat × List UInt8)) (bytes : List UInt8) : List UInt8 :=
  pieces.foldl (fun bytes piece => pwriteBytes piece.1 piece.2 bytes) bytes

/-- Two pieces without a byte in common. -/
def Beside (piece other : Nat × List UInt8) : Prop :=
  piece.1 + piece.2.length ≤ other.1 ∨ other.1 + other.2.length ≤ piece.1

/-- The pieces lie in a file of `size` bytes, side by side. -/
structure SideBySide (size : Nat) (pieces : List (Nat × List UInt8)) : Prop where
  room : ∀ piece ∈ pieces, piece.1 + piece.2.length ≤ size
  beside : pieces.Pairwise Beside

/-- Within a file, a write is an overlay. -/
theorem pwriteBytes_eq_overlay {offset : Nat} {data bytes : List UInt8}
    (h : offset + data.length ≤ bytes.length) : pwriteBytes offset data bytes = overlay bytes offset data := by
  unfold pwriteBytes
  split
  · rename_i hempty
    rw [List.isEmpty_iff] at hempty
    simp [hempty, overlay]
  · rw [Nat.sub_eq_zero_of_le h, List.replicate_zero, List.append_nil]

section Writes

variable {size : Nat} {pieces : List (Nat × List UInt8)} {bytes : List UInt8}

theorem writePieces_cons (piece : Nat × List UInt8) :
    writePieces (piece :: pieces) bytes = writePieces pieces (pwriteBytes piece.1 piece.2 bytes) := rfl

theorem length_write {piece : Nat × List UInt8} (h : piece.1 + piece.2.length ≤ bytes.length) :
    (pwriteBytes piece.1 piece.2 bytes).length = bytes.length := by
  rw [pwriteBytes_eq_overlay h, length_overlay h]

theorem length_writePieces (h : ∀ piece ∈ pieces, piece.1 + piece.2.length ≤ bytes.length) :
    (writePieces pieces bytes).length = bytes.length := by
  induction pieces generalizing bytes with
  | nil => rfl
  | cons piece rest ih =>
      have hlength := length_write (h piece List.mem_cons_self)
      rw [writePieces_cons, ih fun other hother => ?_, hlength]
      rw [hlength]
      exact h other (List.mem_cons_of_mem _ hother)

/-- What no piece covers is as it was. -/
theorem slice_writePieces_outside (h : ∀ piece ∈ pieces, piece.1 + piece.2.length ≤ bytes.length)
    {o n : Nat} (hbeside : ∀ piece ∈ pieces, o + n ≤ piece.1 ∨ piece.1 + piece.2.length ≤ o) :
    slice (writePieces pieces bytes) o n = slice bytes o n := by
  induction pieces generalizing bytes with
  | nil => rfl
  | cons piece rest ih =>
      have hroom := h piece List.mem_cons_self
      have hlength := length_write hroom
      rw [writePieces_cons, ih (fun other hother => ?_)
        fun other hother => hbeside other (List.mem_cons_of_mem _ hother), pwriteBytes_eq_overlay hroom,
        slice_overlay_outside hroom (hbeside piece List.mem_cons_self)]
      rw [hlength]
      exact h other (List.mem_cons_of_mem _ hother)

/-- Every piece is read back. -/
theorem slice_writePieces (h : SideBySide bytes.length pieces) {piece : Nat × List UInt8}
    (hpiece : piece ∈ pieces) :
    slice (writePieces pieces bytes) piece.1 piece.2.length = piece.2 := by
  induction pieces generalizing bytes with
  | nil => cases hpiece
  | cons first rest ih =>
      obtain ⟨hfirst, hrest⟩ := List.pairwise_cons.mp h.beside
      have hroom := h.room first List.mem_cons_self
      have hlength := length_write hroom
      have hrooms : ∀ other ∈ rest, other.1 + other.2.length ≤
          (pwriteBytes first.1 first.2 bytes).length := by
        intro other hother
        rw [hlength]
        exact h.room other (List.mem_cons_of_mem _ hother)
      rw [writePieces_cons]
      cases hpiece with
      | head =>
          rw [slice_writePieces_outside hrooms hfirst, pwriteBytes_eq_overlay hroom,
            slice_overlay_inside hroom le_rfl le_rfl, Nat.sub_self, slice_self]
      | tail _ hmem => exact ih ⟨hrooms, hrest⟩ hmem

end Writes

theorem length_resize_nil (size : Nat) : (resize size []).length = size := by
  simp [resize]

end Qalsh.Foundation

/-
  Foundation/OutwardRun.lean --- what a sequence of outward scans has delivered.

  A call raises the bound of a cursor and consumes one run on each side.  Over any
  sequence of calls the delivered positions below the split descend from it and the
  others ascend from it, so they are exactly the positions between `left` and
  `right` and none is delivered twice.
-/
import Qalsh.Foundation.Outward

set_option autoImplicit false

namespace Qalsh.Foundation

variable {B : Type}

/-! ## Calls -/

structure OutwardCall (B : Type) where
  bound : B
  budget : Nat
  /-- the call ends with the extent of the position it starts at -/
  ranged : Bool

/-- The extent of a call: `ext` for a ranged call, everything otherwise. -/
def callExtent {n : Nat} (ext : Extent n) (ranged : Bool) : Extent n :=
  if ranged then ext else Extent.whole n

@[simp] theorem callExtent_whole {n : Nat} (ranged : Bool) :
    callExtent (Extent.whole n) ranged = Extent.whole n := by
  unfold callExtent
  split <;> rfl

/-- One call: raise the bound, then consume. -/
def Outward.call (w : Windows B) (ext : Extent w.length) (request : OutwardCall B)
    (c : Outward B) : OutwardStep B :=
  (c.raise w.le request.bound).consume (w.inside request.bound) (callExtent ext request.ranged)
    request.ranged request.budget

/-- The cursor after some calls. -/
def Outward.after (w : Windows B) (ext : Extent w.length) :
    List (OutwardCall B) → Outward B → Outward B
  | [], c => c
  | request :: rest, c => Outward.after w ext rest (c.call w ext request).cursor

/-- The positions each call delivers. -/
def Outward.deliveries (w : Windows B) (ext : Extent w.length) :
    List (OutwardCall B) → Outward B → List (List Nat)
  | [], _ => []
  | request :: rest, c =>
      (c.call w ext request).positions c ::
        Outward.deliveries w ext rest (c.call w ext request).cursor

/-- Bounds that a cursor admits and that do not decrease. -/
def Outward.Admissible (w : Windows B) (c : Outward B) (requests : List (OutwardCall B)) : Prop :=
  (∀ request ∈ requests.head?, c.Admits w request.bound) ∧
    requests.IsChain fun a b => w.le a.bound b.bound = true

/-! ## What has been delivered -/

/-- `delivered` lists what `c` has left behind on each side, outward. -/
structure Outward.Delivered (w : Windows B) (c : Outward B) (delivered : List Nat) : Prop where
  left : delivered.filter (fun i => decide (i < w.split)) = descending w.split (w.split - c.left)
  right : delivered.filter (fun i => !decide (i < w.split)) =
    List.range' w.split (c.right - w.split)

theorem mem_descending {l count i : Nat} (h : count ≤ l) :
    i ∈ descending l count ↔ l - count ≤ i ∧ i < l := by
  simp only [descending, List.mem_map, List.mem_range]
  constructor
  · rintro ⟨j, hj, hi⟩
    omega
  · intro h
    exact ⟨l - 1 - i, by omega, by omega⟩

theorem descending_append {l a b : Nat} :
    descending l a ++ descending (l - a) b = descending l (a + b) := by
  simp only [descending, List.range_add, List.map_append, List.map_map]
  congr 1
  refine List.map_congr_left fun i _ => ?_
  show l - a - 1 - i = l - 1 - (a + i)
  omega

theorem pairwise_descending {l count : Nat} (h : count ≤ l) :
    (descending l count).Pairwise fun i j => j < i := by
  rw [descending, List.pairwise_map]
  refine List.pairwise_lt_range.imp_of_mem fun {i j} _ hj hij => ?_
  rw [List.mem_range] at hj
  omega

theorem descending_zero (l : Nat) : descending l 0 = [] := rfl

namespace Outward

variable {w : Windows B} {c : Outward B} {delivered : List Nat}

theorem Delivered.start : (Outward.start w.split : Outward B).Delivered w [] where
  left := by simp [Outward.start, descending_zero]
  right := by simp [Outward.start]

theorem Delivered.mem_iff (h : c.Delivered w delivered) (hc : c.Valid w) {i : Nat} :
    i ∈ delivered ↔ c.left ≤ i ∧ i < c.right := by
  have h₁ := hc.left_le
  have h₂ := hc.le_right
  rcases Nat.lt_or_ge i w.split with hlt | hge
  · have hmem : i ∈ delivered ↔ i ∈ descending w.split (w.split - c.left) := by
      rw [← h.left, List.mem_filter]
      simp [hlt]
    rw [hmem, mem_descending (by omega)]
    omega
  · have hmem : i ∈ delivered ↔ i ∈ List.range' w.split (c.right - w.split) := by
      rw [← h.right, List.mem_filter]
      simp [hge]
    rw [hmem, List.mem_range'_1]
    omega

theorem Delivered.nodup (h : c.Delivered w delivered) (hc : c.Valid w) : delivered.Nodup := by
  have h₁ := hc.left_le
  have hperm := List.filter_append_perm (fun i => decide (i < w.split)) delivered
  rw [← hperm.nodup_iff, List.nodup_append]
  refine ⟨?_, ?_, fun a ha b hb heq => ?_⟩
  · rw [h.left]
    exact (pairwise_descending (by omega)).imp fun hlt => (Nat.ne_of_lt hlt).symm
  · rw [h.right]
    exact List.nodup_range'
  · rw [List.mem_filter] at ha hb
    subst heq
    have := hb.2
    rw [ha.2] at this
    cases this

/-- The positions of a step on either side of the split. -/
theorem positions_split (hc : c.Valid w) (step : OutwardStep B) :
    (step.positions c).filter (fun i => decide (i < w.split)) = descending c.left step.leftTaken ∨
      c.left < step.leftTaken := by
  rcases Nat.lt_or_ge c.left step.leftTaken with hlt | hge
  · exact Or.inr hlt
  · left
    have h₁ := hc.left_le
    have h₂ := hc.le_right
    rw [OutwardStep.positions, List.filter_append, List.filter_eq_self.mpr fun i hi => ?_,
      List.filter_eq_nil_iff.mpr fun i hi => ?_, List.append_nil]
    · rw [List.mem_range'_1] at hi
      simp only [decide_eq_true_eq]
      omega
    · rw [mem_descending hge] at hi
      simp only [decide_eq_true_eq]
      omega

/-- A call adds its positions to what has been delivered. -/
theorem Delivered.consume (ext : Extent w.length) (ranged : Bool) (budget : Nat) (bound : B)
    (h : c.Delivered w delivered) (hc : c.Valid w) :
    (c.consume (w.inside bound) ext ranged budget).cursor.Delivered w
      (delivered ++ (c.consume (w.inside bound) ext ranged budget).positions c) := by
  have hlt := (Outward.leftTaken_le w c bound ext ranged budget).trans (ext.left_le c.left)
  have h₁ := hc.left_le
  have h₂ := hc.le_right
  generalize hs : c.consume (w.inside bound) ext ranged budget = s at *
  have hleft : s.cursor.left = c.left - s.leftTaken := by rw [← hs]; rfl
  have hright : s.cursor.right = c.right + s.rightTaken := by rw [← hs]; rfl
  constructor
  · rw [List.filter_append, h.left, (positions_split hc s).resolve_right (by omega), hleft]
    have happend := descending_append (l := w.split) (a := w.split - c.left) (b := s.leftTaken)
    rw [show w.split - (w.split - c.left) = c.left by omega] at happend
    rw [happend]
    congr 1
    omega
  · rw [List.filter_append, h.right, hright, OutwardStep.positions, List.filter_append,
      List.filter_eq_nil_iff.mpr fun i hi => ?_, List.filter_eq_self.mpr fun i hi => ?_,
      List.nil_append]
    · have happend := List.range'_append_1 (s := w.split) (m := c.right - w.split)
        (n := s.rightTaken)
      rw [show w.split + (c.right - w.split) = c.right by omega] at happend
      rw [happend]
      congr 1
      omega
    · rw [List.mem_range'_1] at hi
      simp only [Bool.not_eq_true', decide_eq_false_iff_not]
      omega
    · rw [mem_descending hlt] at hi
      simp only [Bool.not_eq_true', decide_eq_false_iff_not]
      omega

theorem Delivered.raise (h : c.Delivered w delivered) (bound : B) :
    (c.raise w.le bound).Delivered w delivered :=
  ⟨by rw [raise_left]; exact h.left, by rw [raise_right]; exact h.right⟩

theorem positions_raise (step : OutwardStep B) (bound : B) :
    step.positions (c.raise w.le bound) = step.positions c := by
  simp [OutwardStep.positions]

theorem call_valid (ext : Extent w.length) {request : OutwardCall B} (hc : c.Valid w)
    (hbound : c.Admits w request.bound) : (c.call w ext request).cursor.Valid w ∧
      (c.call w ext request).cursor.At w request.bound := by
  obtain ⟨hraised, hat⟩ := raise_valid hc hbound
  exact consume_valid (callExtent ext request.ranged) request.ranged request.budget hraised hat

/-- What one admissible call preserves. -/
theorem Delivered.call (ext : Extent w.length) {request : OutwardCall B}
    (h : c.Delivered w delivered) (hc : c.Valid w) (hbound : c.Admits w request.bound) :
    (c.call w ext request).cursor.Valid w ∧ (c.call w ext request).cursor.At w request.bound ∧
      (c.call w ext request).cursor.Delivered w
        (delivered ++ (c.call w ext request).positions c) := by
  obtain ⟨hvalid, hat⟩ := call_valid ext hc hbound
  refine ⟨hvalid, hat, ?_⟩
  have hdelivered := (h.raise request.bound).consume (callExtent ext request.ranged) request.ranged
    request.budget request.bound (raise_valid hc hbound).1
  rw [positions_raise] at hdelivered
  exact hdelivered

/-- A call delivers positions of its window only. -/
theorem call_inside {ext : Extent w.length} {request : OutwardCall B} {i : Nat}
    (hi : i ∈ (c.call w ext request).positions c) : w.inside request.bound i = true := by
  rw [← positions_raise (w := w) _ request.bound] at hi
  exact consume_inside hi

/-- A call delivers the positions its cursor has moved over. -/
theorem mem_positions {ext : Extent w.length} {request : OutwardCall B} {i : Nat} :
    i ∈ (c.call w ext request).positions c ↔
      ((c.call w ext request).cursor.left ≤ i ∧ i < c.left) ∨
        (c.right ≤ i ∧ i < (c.call w ext request).cursor.right) := by
  have hle := Outward.leftTaken_le w (c.raise w.le request.bound) request.bound
    (callExtent ext request.ranged) request.ranged request.budget
  have htaken := hle.trans ((callExtent ext request.ranged).left_le _)
  have hleft : (c.call w ext request).cursor.left =
      (c.raise w.le request.bound).left - (c.call w ext request).leftTaken := rfl
  have hright : (c.call w ext request).cursor.right =
      (c.raise w.le request.bound).right + (c.call w ext request).rightTaken := rfl
  change (c.call w ext request).leftTaken ≤ _ at htaken
  rw [raise_left] at htaken hleft
  rw [raise_right] at hright
  rw [OutwardStep.positions, List.mem_append, mem_descending htaken, List.mem_range'_1, hleft, hright]

/-- A call that delivers nothing finds the window complete. -/
theorem call_progress (ext : Extent w.length) {request : OutwardCall B} (hc : c.Valid w)
    (hbudget : 0 < request.budget)
    (hnone : (c.call w ext request).leftTaken + (c.call w ext request).rightTaken = 0) :
    (c.call w ext request).cursor.complete w.length = true :=
  consume_progress request.bound (callExtent ext request.ranged) request.ranged hbudget
    (by rw [raise_right]; exact hc.right_le) hnone

/-- Positions of a window on one side of the split that a cursor has not moved over. -/
def waiting (w : Windows B) (bound : B) (c : Outward B) (below : Bool) : Nat :=
  (List.range w.length).countP fun i =>
    decide (i < w.split) == below && w.inside bound i && !decide (c.left ≤ i ∧ i < c.right)

theorem waiting_left (hc : c.Valid w) (bound : B) :
    c.waiting w bound true = leftRun (w.inside bound) c.left c.left := by
  have hl := hc.left_le
  have hr := hc.le_right
  have hs := w.split_le
  have hrun : leftRun (w.inside bound) c.left c.left ≤ c.left := leading_le _ _
  refine (countP_interval (a := c.left - leftRun (w.inside bound) c.left c.left) (b := c.left)
    (by omega) (by omega) fun i hi => ?_).trans (by omega)
  simp only [Bool.and_eq_true, beq_iff_eq, decide_eq_true_eq, Bool.not_eq_true',
    decide_eq_false_iff_not]
  constructor
  · rintro ⟨⟨hbelow, hinside⟩, hnot⟩
    refine ⟨?_, by omega⟩
    by_contra hfar
    have hstop : w.inside bound (c.left - 1 - leftRun (w.inside bound) c.left c.left) = false :=
      leading_stop (p := fun j => w.inside bound (c.left - 1 - j)) (by
        change leftRun (w.inside bound) c.left c.left < c.left
        omega)
    rw [w.inside_left (by omega) (by omega) hinside] at hstop
    cases hstop
  · rintro ⟨hnear, hlt⟩
    have hholds : w.inside bound (c.left - 1 - (c.left - 1 - i)) = true :=
      leading_holds (p := fun j => w.inside bound (c.left - 1 - j)) (n := c.left) (by
        change _ < leftRun (w.inside bound) c.left c.left
        omega)
    rw [show c.left - 1 - (c.left - 1 - i) = i by omega] at hholds
    exact ⟨⟨by omega, hholds⟩, by omega⟩

theorem waiting_right (hc : c.Valid w) (bound : B) :
    c.waiting w bound false = rightRun (w.inside bound) c.right (w.length - c.right) := by
  have hl := hc.left_le
  have hr := hc.le_right
  have hle := hc.right_le
  have hrun : rightRun (w.inside bound) c.right (w.length - c.right) ≤ w.length - c.right :=
    leading_le _ _
  refine (countP_interval (a := c.right)
    (b := c.right + rightRun (w.inside bound) c.right (w.length - c.right)) (by omega) (by omega)
    fun i hi => ?_).trans (by omega)
  simp only [Bool.and_eq_true, beq_iff_eq, Bool.not_eq_true', decide_eq_false_iff_not]
  constructor
  · rintro ⟨⟨habove, hinside⟩, hnot⟩
    refine ⟨by omega, ?_⟩
    by_contra hfar
    have hstop : w.inside bound (c.right + rightRun (w.inside bound) c.right (w.length - c.right)) =
        false :=
      leading_stop (p := fun j => w.inside bound (c.right + j)) (by
        change rightRun (w.inside bound) c.right (w.length - c.right) < _
        omega)
    rw [w.inside_right (by omega) (by omega) hi hinside] at hstop
    cases hstop
  · rintro ⟨hge, hlt⟩
    have hholds : w.inside bound (c.right + (i - c.right)) = true :=
      leading_holds (p := fun j => w.inside bound (c.right + j)) (n := w.length - c.right) (by
        change _ < rightRun (w.inside bound) c.right (w.length - c.right)
        omega)
    rw [show c.right + (i - c.right) = i by omega] at hholds
    exact ⟨⟨by omega, hholds⟩, by omega⟩

/-- The share of each side in a call that is not ranged. -/
theorem call_share (ext : Extent w.length) {request : OutwardCall B} (hc : c.Valid w)
    (hbound : c.Admits w request.bound) (h : request.ranged = false) :
    (c.call w ext request).leftTaken =
        min (leftLimit false request.budget) (c.waiting w request.bound true) ∧
      (c.call w ext request).rightTaken =
        min (rightLimit false request.budget (c.call w ext request).leftTaken)
          (c.waiting w request.bound false) := by
  obtain ⟨hvalid, last, hlast, hle, hge⟩ := raise_valid hc hbound
  have hinside : ∀ {i}, i < w.length → w.inside request.bound i = w.inside last i := fun hi =>
    At.inside_iff ⟨last, hlast, hle, hge⟩ hlast hi
  have hwaiting : ∀ below, c.waiting w request.bound below =
      (c.raise w.le request.bound).waiting w request.bound below := fun below => by
    unfold waiting
    rw [raise_left, raise_right]
  rw [hwaiting, hwaiting, waiting_left hvalid, waiting_right hvalid]
  have hright : (c.raise w.le request.bound).right ≤ w.length := hvalid.right_le
  have hsplit : (c.raise w.le request.bound).left ≤ w.length := hvalid.left_le.trans w.split_le
  unfold call
  rw [h]
  generalize c.raise w.le request.bound = d at *
  constructor
  · change (if d.leftBlocked then 0 else leftRun _ d.left (min _ d.left)) = _
    split
    · rename_i hblocked
      obtain ⟨hpos, hout⟩ := hvalid.leftBlocked hblocked
      have hzero : leftRun (w.inside request.bound) d.left d.left = 0 :=
        leading_unique (Nat.zero_le _) (fun i hi => nomatch hi) fun _ => by
          rw [Nat.sub_zero, hinside (by omega)]
          exact hout last hlast
      rw [hzero, Nat.min_zero]
    · exact leading_min _ _ _
  · change (if d.rightBlocked then 0 else rightRun _ d.right (min _ (w.length - d.right))) = _
    split
    · rename_i hblocked
      obtain ⟨hpos, hout⟩ := hvalid.rightBlocked hblocked
      have hzero : rightRun (w.inside request.bound) d.right (w.length - d.right) = 0 :=
        leading_unique (Nat.zero_le _) (fun i hi => nomatch hi) fun _ => by
          rw [Nat.add_zero, hinside hpos]
          exact hout last hlast
      rw [hzero, Nat.min_zero]
    · exact leading_min _ _ _

theorem length_positions (step : OutwardStep B) (o : Outward B) :
    (step.positions o).length = step.leftTaken + step.rightTaken := by
  simp [OutwardStep.positions, descending]

theorem admits_of_at {bound bound' : B} (h : c.At w bound) (hle : w.le bound bound' = true) :
    c.Admits w bound' := by
  obtain ⟨last, hlast, h₁, -⟩ := h
  intro last' hlast'
  cases hlast.symm.trans hlast'
  exact w.le_trans h₁ hle

/-- The requests after a call are admissible for the cursor it leaves. -/
theorem Admissible.tail {ext : Extent w.length} {request : OutwardCall B}
    {requests : List (OutwardCall B)} (h : c.Admissible w (request :: requests))
    (hat : (c.call w ext request).cursor.At w request.bound) :
    (c.call w ext request).cursor.Admissible w requests := by
  obtain ⟨-, hchain⟩ := h
  rw [List.isChain_cons] at hchain
  exact ⟨fun next hnext => admits_of_at hat (hchain.1 next hnext), hchain.2⟩

/-- What any sequence of admissible calls preserves. -/
theorem Delivered.after {ext : Extent w.length} : ∀ {requests : List (OutwardCall B)}
    {c : Outward B} {delivered : List Nat}, c.Delivered w delivered → c.Valid w →
    c.Admissible w requests →
    (c.after w ext requests).Valid w ∧
      (c.after w ext requests).Delivered w (delivered ++ (c.deliveries w ext requests).flatten) := by
  intro requests
  induction requests with
  | nil =>
      intro c delivered h hc _
      simpa [Outward.after, deliveries] using And.intro hc h
  | cons request requests ih =>
      intro c delivered h hc hadmissible
      obtain ⟨hvalid, hat, hdelivered⟩ := h.call ext hc (hadmissible.1 request rfl)
      have hrest := ih hdelivered hvalid (hadmissible.tail hat)
      simpa [Outward.after, deliveries, List.append_assoc] using hrest

end Outward

end Qalsh.Foundation

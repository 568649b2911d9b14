/-
  Foundation/KBest.lean --- the best few of some candidates.

  Candidates are compared by a key in a linear order.  A list of the `k` best is
  sorted by key and leaves out only what is worse than all it keeps; there is one
  such list.  It can be kept up while candidates arrive one by one: a new candidate
  is put in its place and the list is cut to `k`.
-/
import Mathlib

set_option autoImplicit false

namespace Qalsh.Foundation

variable {α β : Type} [LinearOrder β] {key : α → β} {k : Nat} {candidates candidates' best best' : List α}

/-- The `k` best candidates, or all of them when there are fewer, best first. -/
structure KBest (key : α → β) (k : Nat) (candidates best : List α) : Prop where
  sorted : best.Pairwise fun a b => key a < key b
  mem : ∀ a ∈ best, a ∈ candidates
  length_eq : best.length = min k candidates.length
  beyond : ∀ a ∈ candidates, a ∉ best → ∀ b ∈ best, key b < key a

namespace KBest

theorem nil : KBest key k [] [] where
  sorted := List.Pairwise.nil
  mem _ h := h
  length_eq := (Nat.min_zero k).symm
  beyond _ h := nomatch h

theorem nodup (h : KBest key k candidates best) : best.Nodup :=
  h.sorted.imp fun hlt heq => (heq ▸ hlt).false

/-- The order in which candidates come does not matter. -/
theorem perm (h : KBest key k candidates best) (hperm : candidates.Perm candidates') :
    KBest key k candidates' best where
  sorted := h.sorted
  mem a ha := hperm.mem_iff.mp (h.mem a ha)
  length_eq := by rw [h.length_eq, hperm.length_eq]
  beyond a ha := h.beyond a (hperm.mem_iff.mpr ha)

/-- A list that holds less than `k` holds all candidates. -/
theorem mem_of_short (h : KBest key k candidates best) (hshort : best.length < k) {a : α}
    (ha : a ∈ candidates) : a ∈ best := by
  have hlength : candidates.length ≤ best.length := by
    have := h.length_eq
    omega
  have hperm := (List.subperm_of_subset h.nodup h.mem).perm_of_length_le hlength
  exact hperm.mem_iff.mpr ha

theorem subset (h : KBest key k candidates best) (h' : KBest key k candidates best') :
    ∀ a ∈ best, a ∈ best' := by
  intro a ha
  by_contra hout
  have hlength : best.length = best'.length := h.length_eq.trans h'.length_eq.symm
  -- what `best` has in the place of `a` is missing on the other side
  obtain ⟨b, hb, hmissing⟩ : ∃ b ∈ best', b ∉ best := by
    by_contra hall
    push Not at hall
    have hperm := (List.subperm_of_subset h'.nodup hall).perm_of_length_le hlength.le
    exact hout (hperm.mem_iff.mpr ha)
  have hbefore : key b < key a := h'.beyond a (h.mem a ha) hout b hb
  have hafter : key a < key b := h.beyond b (h'.mem b hb) hmissing a ha
  exact (hbefore.trans hafter).false

/-- There is one list of the `k` best. -/
theorem unique (h : KBest key k candidates best) (h' : KBest key k candidates best') :
    best = best' := by
  have hperm : best.Perm best' :=
    (List.perm_ext_iff_of_nodup h.nodup h'.nodup).mpr fun a => ⟨h.subset h' a, h'.subset h a⟩
  have hanti : ∀ a b, a ∈ best → b ∈ best' → key a < key b → key b < key a → a = b :=
    fun a b _ _ hab hba => absurd (hab.trans hba) (lt_irrefl _)
  exact hperm.eq_of_pairwise hanti h.sorted h'.sorted

/-- A candidate worse than a full list changes nothing. -/
theorem skip (h : KBest key k candidates best) (hfull : best.length = k) {c : α}
    (hworse : ∀ b ∈ best, key b < key c) : KBest key k (candidates ++ [c]) best where
  sorted := h.sorted
  mem a ha := List.mem_append_left _ (h.mem a ha)
  length_eq := by
    have := h.length_eq
    rw [List.length_append, List.length_singleton]
    omega
  beyond a ha hout b hb := by
    rcases List.mem_append.mp ha with ha | ha
    · exact h.beyond a ha hout b hb
    · rw [List.mem_singleton.mp ha]
      exact hworse b hb

end KBest

/-! ## Keeping the list up -/

/-- A candidate put in its place in a sorted list. -/
def insertByKey (key : α → β) (best : List α) (c : α) : List α :=
  best.takeWhile (fun a => decide (key a < key c)) ++
    c :: best.dropWhile fun a => decide (key a < key c)

theorem mem_insertByKey {c a : α} : a ∈ insertByKey key best c ↔ a = c ∨ a ∈ best := by
  have hsplit := List.takeWhile_append_dropWhile (p := fun a => decide (key a < key c)) (l := best)
  unfold insertByKey
  constructor
  · intro ha
    rcases List.mem_append.mp ha with ha | ha
    · exact Or.inr (hsplit ▸ List.mem_append_left _ ha)
    · rcases List.mem_cons.mp ha with rfl | ha
      · exact Or.inl rfl
      · exact Or.inr (hsplit ▸ List.mem_append_right _ ha)
  · rintro (rfl | ha)
    · exact List.mem_append_right _ List.mem_cons_self
    · rw [← hsplit] at ha
      rcases List.mem_append.mp ha with ha | ha
      · exact List.mem_append_left _ ha
      · exact List.mem_append_right _ (List.mem_cons_of_mem _ ha)

theorem length_insertByKey (c : α) : (insertByKey key best c).length = best.length + 1 := by
  have hsplit := congrArg List.length
    (List.takeWhile_append_dropWhile (p := fun a => decide (key a < key c)) (l := best))
  rw [List.length_append] at hsplit
  unfold insertByKey
  rw [List.length_append, List.length_cons]
  omega

/-- What the sorted list drops from its front is not better than the candidate. -/
theorem le_of_mem_dropWhile (hsorted : best.Pairwise fun a b => key a < key b) {c a : α}
    (ha : a ∈ best.dropWhile fun a => decide (key a < key c)) : key c ≤ key a := by
  induction best with
  | nil => cases ha
  | cons b rest ih =>
      rw [List.dropWhile_cons] at ha
      obtain ⟨hfirst, hrest⟩ := List.pairwise_cons.mp hsorted
      split at ha
      · exact ih hrest ha
      · rename_i hstop
        have hle : key c ≤ key b := not_lt.mp fun hlt => hstop (decide_eq_true hlt)
        rcases List.mem_cons.mp ha with rfl | ha
        · exact hle
        · exact hle.trans (hfirst a ha).le

theorem insertByKey_sorted (hsorted : best.Pairwise fun a b => key a < key b) {c : α}
    (hnew : ∀ a ∈ best, key a ≠ key c) :
    (insertByKey key best c).Pairwise fun a b => key a < key b := by
  have hsplit := List.takeWhile_append_dropWhile (p := fun a => decide (key a < key c)) (l := best)
  have hparts := hsorted
  rw [← hsplit] at hparts
  obtain ⟨hbefore, hafter, hacross⟩ := List.pairwise_append.mp hparts
  have hsmaller : ∀ a ∈ best.takeWhile (fun a => decide (key a < key c)), key a < key c :=
    fun a ha => by simpa using List.mem_takeWhile_imp ha
  have hlarger : ∀ a ∈ best.dropWhile (fun a => decide (key a < key c)), key c < key a :=
    fun a ha => lt_of_le_of_ne (le_of_mem_dropWhile hsorted ha)
      (hnew a (hsplit ▸ List.mem_append_right _ ha)).symm
  refine List.pairwise_append.mpr ⟨hbefore, List.pairwise_cons.mpr ⟨hlarger, hafter⟩, ?_⟩
  intro a ha b hb
  rcases List.mem_cons.mp hb with rfl | hb
  · exact hsmaller a ha
  · exact hacross a ha b hb

/-- One candidate more: put it in its place and cut the list to `k`. -/
theorem KBest.insert (h : KBest key k candidates best) {c : α}
    (hnew : ∀ a ∈ candidates, key a ≠ key c) :
    KBest key k (candidates ++ [c]) ((insertByKey key best c).take k) := by
  have hsorted := insertByKey_sorted h.sorted fun a ha => hnew a (h.mem a ha)
  have hlength : (insertByKey key best c).length = best.length + 1 := length_insertByKey c
  have hcount := h.length_eq
  refine ⟨hsorted.sublist (List.take_sublist _ _), fun a ha => ?_, ?_, fun a ha hout b hb => ?_⟩
  · rcases mem_insertByKey.mp (List.mem_of_mem_take ha) with rfl | ha
    · exact List.mem_append_right _ (List.mem_singleton.mpr rfl)
    · exact List.mem_append_left _ (h.mem a ha)
  · rw [List.length_take, hlength, List.length_append, List.length_singleton]
    omega
  · have hcut := hsorted
    rw [← List.take_append_drop k (insertByKey key best c)] at hcut
    have hacross := (List.pairwise_append.mp hcut).2.2
    by_cases hin : a ∈ insertByKey key best c
    · -- it has just been cut off
      rw [← List.take_append_drop k (insertByKey key best c)] at hin
      exact hacross b hb a ((List.mem_append.mp hin).resolve_left hout)
    · have hother : a ∈ candidates := by
        rcases List.mem_append.mp ha with ha | ha
        · exact ha
        · exact absurd (mem_insertByKey.mpr (Or.inl (List.mem_singleton.mp ha))) hin
      have hmissing : a ∉ best := fun ha => hin (mem_insertByKey.mpr (Or.inr ha))
      rcases mem_insertByKey.mp (List.mem_of_mem_take hb) with rfl | hmem
      · -- the list was full, so the candidate has pushed a better one out
        have hfull : ¬ best.length < k := fun hshort => hmissing (h.mem_of_short hshort hother)
        have hk : k < (insertByKey key best b).length := by omega
        have hlast : (insertByKey key best b)[k] ∈ (insertByKey key best b).drop k := by
          rw [List.drop_eq_getElem_cons hk]
          exact List.mem_cons_self
        have hlt := hacross b hb _ hlast
        rcases mem_insertByKey.mp (List.getElem_mem hk) with heq | hkept
        · rw [heq] at hlt
          exact absurd hlt (lt_irrefl _)
        · exact hlt.trans (h.beyond a hother hmissing _ hkept)
      · exact h.beyond a hother hmissing b hmem

end Qalsh.Foundation

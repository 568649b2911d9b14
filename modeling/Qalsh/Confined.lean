/-
  Confined.lean --- computations that leave the scratch of other searches alone.

  A thread is valid when each of its scratch records could have been left by earlier
  searches.  Two states are twins when they differ in their scratch only.  A confined
  computation cannot tell twins apart and keeps every leased scratch as it is: this is
  what a search owes to the search whose callback started it.
-/
import Qalsh.Scratch

set_option autoImplicit false

namespace Qalsh

open Foundation

variable {R : Type} [RadiusArithmetic R] [Platform] {σ α β : Type}

/-! ## Valid threads -/

/-- What earlier searches leave in a scratch. -/
structure QueryScratch.Valid (heap : Heap) (scratch : QueryScratch R) : Prop where
  epoch : scratch.epoch < 2 ^ 32
  stamps : ∀ stamp ∈ scratch.seenEpochs, stamp ≤ scratch.epoch
  identity : ∀ i, scratch.indexIdentity = some i → i < heap.objects.length
  owned : ∀ i object, scratch.indexIdentity = some i → heap.lock i = some object →
    ∀ cursor, some cursor ∈ scratch.cursors → object.index.owns cursor = true

/-- Every scratch of the thread is valid. -/
def Thread.Valid (thread : Thread R) : Prop :=
  ∀ scratch ∈ thread.pool, scratch.Valid thread.heap

/-- What lies between two moments of a thread: leased scratches are as they were, except
`own`, and objects have been created or destroyed. -/
structure Thread.Kept (own : Option Nat) (before after : Thread R) : Prop where
  leased : ∀ slot, own ≠ some slot → ∀ scratch : QueryScratch R, scratch.inUse = true →
    (before.pool[slot]? = some scratch ↔ after.pool[slot]? = some scratch)
  created : before.heap.objects.length ≤ after.heap.objects.length
  objects : ∀ i object, i < before.heap.objects.length → after.heap.lock i = some object →
    before.heap.lock i = some object

section Threads

omit [RadiusArithmetic R]

theorem Thread.Kept.refl (own : Option Nat) (thread : Thread R) : thread.Kept own thread :=
  ⟨fun _ _ _ _ => Iff.rfl, le_rfl, fun _ _ _ h => h⟩

theorem Thread.Kept.trans {own : Option Nat} {a b c : Thread R} (h : a.Kept own b)
    (h' : b.Kept own c) : a.Kept own c where
  leased slot hslot scratch huse := (h.leased slot hslot scratch huse).trans (h'.leased slot hslot scratch huse)
  created := h.created.trans h'.created
  objects i object hi hlock := h.objects i object hi (h'.objects i object (hi.trans_le h.created) hlock)

/-- Whoever keeps all leased scratches keeps all but one. -/
theorem Thread.Kept.weaken {own : Option Nat} {a b : Thread R} (h : a.Kept none b) : a.Kept own b :=
  ⟨fun slot _ => h.leased slot nofun, h.created, h.objects⟩

end Threads

/-! ## Twins -/

section Twins

variable [HasThread R σ]

/-- The thread of a state. -/
abbrev threadOf (s : σ) : Thread R := HasThread.thread.get s

/-- The state on another thread. -/
abbrev onThread (thread : Thread R) (s : σ) : σ := HasThread.thread.set thread s

/-- The thread with another pool. -/
def Thread.withPool (thread : Thread R) (pool : List (QueryScratch R)) : Thread R where
  heap := thread.heap
  pool := pool

/-- The states agree outside the pools of their threads, which are valid. -/
structure Twin (s t : σ) : Prop where
  same : s = onThread ((threadOf t).withPool (threadOf s).pool) t
  left : (threadOf s).Valid
  right : (threadOf t).Valid

omit [RadiusArithmetic R] in
theorem Twin.refl {s : σ} (h : (threadOf s).Valid) : Twin s s where
  same := (HasThread.set_get s).symm
  left := h
  right := h

omit [RadiusArithmetic R] in
theorem Twin.heap {s t : σ} (h : Twin s t) : (threadOf s).heap = (threadOf t).heap := by
  have hs := congrArg (fun u : σ => (threadOf u).heap) h.same
  simp only [HasThread.get_set] at hs
  exact hs

omit [RadiusArithmetic R] in
theorem Twin.symm {s t : σ} (h : Twin s t) : Twin t s where
  same := by
    have hthread : (threadOf s).withPool (threadOf t).pool = threadOf t := by
      unfold Thread.withPool
      rw [h.heap]
    rw [hthread, h.same]
    show t = HasThread.thread.set (threadOf t) (HasThread.thread.set _ t)
    rw [HasThread.set_set, HasThread.set_get]
  left := h.right
  right := h.left

omit [RadiusArithmetic R] in
theorem Twin.trans {s t u : σ} (h : Twin s t) (h' : Twin t u) : Twin s u where
  same := by
    have hs := h.same
    unfold Thread.withPool at hs ⊢
    rw [h'.heap, h'.same] at hs
    rw [hs]
    show HasThread.thread.set _ (HasThread.thread.set _ u) =
      HasThread.thread.set { heap := _, pool := (HasThread.thread.get
        (HasThread.thread.set _ (HasThread.thread.set _ u))).pool } u
    rw [HasThread.set_set, HasThread.get_set]
  left := h.left
  right := h'.right

/-- Twins at a later moment of the threads `p` and `q`, of which the first has leased `own`
since then. -/
structure Apart (own : Option Nat) (p q : Thread R) (s t : σ) : Prop where
  twin : Twin s t
  left : p.Kept own (threadOf s)
  right : q.Kept none (threadOf t)

section Pairs

omit [RadiusArithmetic R]

variable {δ : Type} {own : Option Nat} {p q : Thread R}

theorem Apart.pair {s t : σ} (h : Apart own p q s t) (d : δ) :
    Apart own p q ((d, s) : δ × σ) (d, t) :=
  ⟨⟨Prod.ext rfl h.twin.same, h.twin.left, h.twin.right⟩, h.left, h.right⟩

theorem Apart.first {s t : δ × σ} (h : Apart own p q s t) : s.1 = t.1 := by
  have h₁ := congrArg Prod.fst h.twin.same
  exact h₁

theorem Apart.second {s t : δ × σ} (h : Apart own p q s t) : Apart own p q s.2 t.2 :=
  ⟨⟨congrArg Prod.snd h.twin.same, h.twin.left, h.twin.right⟩, h.left, h.right⟩

end Pairs

/-- Two computations that do the same from twins and keep leased scratches. -/
def Alike (x y : EStateM Error σ α) : Prop :=
  ∀ p q : Thread R, Agrees (Apart none p q) (Apart none p q) x y

/-- A computation that tells no twins apart and keeps leased scratches. -/
abbrev Confined (x : EStateM Error σ α) : Prop := Alike x x

namespace Alike

omit [RadiusArithmetic R]

theorem pure (a : α) : Alike (Pure.pure a : EStateM Error σ α) (Pure.pure a) :=
  fun _ _ => Agrees.pure a

theorem throw (e : Error) : Alike (MonadExcept.throw e : EStateM Error σ α) (MonadExcept.throw e) :=
  fun _ _ _ _ h => ⟨rfl, h⟩

theorem bind {x y : EStateM Error σ β} {f g : β → EStateM Error σ α} (hx : Alike x y)
    (hf : ∀ b, Alike (f b) (g b)) : Alike (x >>= f) (y >>= g) :=
  fun p q => Agrees.bind (hx p q) fun b => hf b p q

theorem liftResult (x : Except Error α) :
    Alike (Foundation.liftResult x : EStateM Error σ α) (Foundation.liftResult x) :=
  fun _ _ => Agrees.liftResult x fun _ _ h => h

theorem ite {c : Prop} [Decidable c] {x x' y y' : EStateM Error σ α} (hx : c → Alike x y)
    (hy : ¬ c → Alike x' y') : Alike (if c then x else x') (if c then y else y') := by
  split
  · exact hx ‹_›
  · exact hy ‹_›

/-- What runs on the second part of states is alike there if it is on its own. -/
theorem outside {δ : Type} {x y : EStateM Error σ α} (hx : Alike x y) :
    Alike (Foundation.outside x : EStateM Error (δ × σ) α) (Foundation.outside y) := by
  rintro p q ⟨d, s⟩ ⟨d', t⟩ h
  obtain rfl : d = d' := h.first
  have hxy := hx p q s t h.second
  unfold Foundation.outside
  dsimp only
  cases hxs : x s with
  | ok a s' =>
      cases hxt : y t with
      | ok b t' =>
          rw [hxs, hxt] at hxy
          exact ⟨hxy.1, hxy.2.pair d⟩
      | error e t' => rw [hxs, hxt] at hxy; exact hxy.elim
  | error e s' =>
      cases hxt : y t with
      | ok b t' => rw [hxs, hxt] at hxy; exact hxy.elim
      | error e' t' =>
          rw [hxs, hxt] at hxy
          exact ⟨hxy.1, hxy.2.pair d⟩

/-- A computation on the first part of a state. -/
theorem inside {δ : Type} (x : EStateM Error δ α) :
    Confined (Foundation.inside x : EStateM Error (δ × σ) α) := by
  rintro p q ⟨d, s⟩ ⟨d', t⟩ h
  obtain rfl : d = d' := h.first
  unfold Foundation.inside
  dsimp only
  cases x d with
  | ok a d' => exact ⟨rfl, h.second.pair d'⟩
  | error e d' => exact ⟨rfl, h.second.pair d'⟩

/-- What reads the first part of a state only. -/
theorem get_first {δ : Type} {f g : δ × σ → EStateM Error (δ × σ) α}
    (h : ∀ d s t, Alike (f (d, s)) (g (d, t))) :
    Alike ((get : EStateM Error (δ × σ) (δ × σ)) >>= f) (get >>= g) := by
  intro p q
  refine Simulates.get_bind fun s t hst => ?_
  rintro s' t' ⟨rfl, rfl⟩
  obtain ⟨d, s⟩ := s'
  obtain ⟨d', t⟩ := t'
  obtain rfl : d = d' := hst.first
  exact h d s t p q _ _ hst

theorem symm {x y : EStateM Error σ α} (h : Alike x y) : Alike y x := by
  intro p q s t hst
  have hyx := h (threadOf t) (threadOf s) t s
    ⟨hst.twin.symm, Thread.Kept.refl _ _, Thread.Kept.refl _ _⟩
  have hback : ∀ s' t' : σ, Apart none (threadOf t) (threadOf s) t' s' → Apart none p q s' t' :=
    fun s' t' h' => ⟨h'.twin.symm, hst.left.trans h'.right, hst.right.trans h'.left⟩
  cases hy : y s with
  | ok a s' =>
      cases hx : x t with
      | ok a' t' => rw [hx, hy] at hyx; exact ⟨hyx.1.symm, hback _ _ hyx.2⟩
      | error e t' => rw [hx, hy] at hyx; exact hyx.elim
  | error e s' =>
      cases hx : x t with
      | ok a t' => rw [hx, hy] at hyx; exact hyx.elim
      | error e' t' => rw [hx, hy] at hyx; exact ⟨hyx.1.symm, hback _ _ hyx.2⟩

theorem trans {x y z : EStateM Error σ α} (h : Alike x y) (h' : Alike y z) : Alike x z := by
  intro p q s t hst
  have hxy := h p (threadOf s) s s ⟨Twin.refl hst.twin.left, hst.left, Thread.Kept.refl _ _⟩
  have hyz := h' (threadOf s) q s t ⟨hst.twin, Thread.Kept.refl _ _, hst.right⟩
  have hjoin : ∀ s' u' t' : σ, Apart none p (threadOf s) s' u' → Apart none (threadOf s) q u' t' →
      Apart none p q s' t' := fun s' u' t' h₁ h₂ => ⟨h₁.twin.trans h₂.twin, h₁.left, h₂.right⟩
  cases hx : x s with
  | ok a s' =>
      cases hy : y s with
      | error e u' => rw [hx, hy] at hxy; exact hxy.elim
      | ok b u' =>
          rw [hx, hy] at hxy
          cases hz : z t with
          | error e t' => rw [hy, hz] at hyz; exact hyz.elim
          | ok c t' => rw [hy, hz] at hyz; exact ⟨hxy.1.trans hyz.1, hjoin _ _ _ hxy.2 hyz.2⟩
  | error e s' =>
      cases hy : y s with
      | ok b u' => rw [hx, hy] at hxy; exact hxy.elim
      | error e' u' =>
          rw [hx, hy] at hxy
          cases hz : z t with
          | ok c t' => rw [hy, hz] at hyz; exact hyz.elim
          | error e'' t' => rw [hy, hz] at hyz; exact ⟨hxy.1.trans hyz.1, hjoin _ _ _ hxy.2 hyz.2⟩

/-- The second of two alike computations is confined. -/
theorem right {x y : EStateM Error σ α} (h : Alike x y) : Confined y := h.symm.trans h

end Alike

/-- Two strategies whose callbacks are alike. -/
structure SearchStrategy.Alike (strategy strategy' : SearchStrategy R σ) : Prop where
  start : ∀ query, Qalsh.Alike (strategy.start query) (strategy'.start query)
  next : ∀ state, Qalsh.Alike (strategy.next state) (strategy'.next state)
  onProjectionHit : ∀ hit state,
    Qalsh.Alike (strategy.onProjectionHit hit state) (strategy'.onProjectionHit hit state)
  onEvaluation : ∀ event state,
    Qalsh.Alike (strategy.onEvaluation event state) (strategy'.onEvaluation event state)
  onScanBoundary : ∀ event state,
    Qalsh.Alike (strategy.onScanBoundary event state) (strategy'.onScanBoundary event state)
  onRadiusAdvanced : ∀ state,
    Qalsh.Alike (strategy.onRadiusAdvanced state) (strategy'.onRadiusAdvanced state)

end Twins

end Qalsh

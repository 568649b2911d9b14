/-
  Foundation/Workers.lean --- workers that claim tasks from a shared counter.

  A caller starts helpers one after the other and then works beside them.  Every worker
  claims the next task with an atomic increment, does it, and stops at the first claim
  past the end.  When a helper cannot be started, the caller stores the end into the
  counter, so that nothing more is claimed, and passes the exception on.  Either way it
  waits for all helpers first.

  The steps of different workers are taken in any order.  `Pool.Sound` is what holds in
  every state of every run.
-/
import Mathlib

set_option autoImplicit false

namespace Qalsh.Foundation

variable {α : Type}

/-! ## States and steps -/

inductive Worker where
  | claiming
  | busy (task : Nat)
  | finished
  deriving DecidableEq, Repr

/-- Where the caller is. -/
inductive Stage where
  | reserving
  | starting
  | working
  | joining
  | returned
  | aborting
  | clearing
  | thrown
  deriving DecidableEq, Repr

/-- The pool: the counter, the items the tasks are about, the caller, and everyone who has
begun to work.  Helpers come in the order of their start, the caller is the last. -/
structure Pool (α : Type) where
  next : Nat
  items : List α
  stage : Stage
  crew : List Worker
  /-- who claimed which task so far -/
  claims : List (Nat × Nat)

/-- The pool before the first step. -/
def Pool.initial (items : List α) : Pool α where
  next := 0
  items := items
  stage := .reserving
  crew := []
  claims := []

/-- One step of the caller or of some worker; `work` is what a task does to its item. -/
inductive Pool.Step (work : α → α) (workers : Nat) (p : Pool α) : Pool α → Prop
  | reserved : p.stage = .reserving → Step work workers p { p with stage := .starting }
  | reserveFailed : p.stage = .reserving → Step work workers p { p with stage := .thrown }
  | started : p.stage = .starting → p.crew.length + 1 < workers →
      Step work workers p { p with crew := p.crew ++ [.claiming] }
  | startFailed : p.stage = .starting → p.crew.length + 1 < workers →
      Step work workers p { p with stage := .aborting }
  | allStarted : p.stage = .starting → workers ≤ p.crew.length + 1 →
      Step work workers p { p with stage := .working, crew := p.crew ++ [.claiming] }
  | claimed (w : Nat) : p.crew[w]? = some .claiming → p.next < p.items.length →
      Step work workers p { p with
        next := p.next + 1
        crew := p.crew.set w (.busy p.next)
        claims := p.claims ++ [(w, p.next)] }
  | refused (w : Nat) : p.crew[w]? = some .claiming → p.items.length ≤ p.next →
      Step work workers p { p with next := p.next + 1, crew := p.crew.set w .finished }
  | worked (w task : Nat) : p.crew[w]? = some (.busy task) →
      Step work workers p { p with
        items := p.items.modify task work
        crew := p.crew.set w .claiming }
  | ended : p.stage = .working → p.crew.getLast? = some .finished →
      Step work workers p { p with stage := .joining }
  | joined : p.stage = .joining → (∀ worker ∈ p.crew, worker = .finished) →
      Step work workers p { p with stage := .returned }
  | stopped : p.stage = .aborting →
      Step work workers p { p with next := p.items.length, stage := .clearing }
  | cleared : p.stage = .clearing → (∀ worker ∈ p.crew, worker = .finished) →
      Step work workers p { p with stage := .thrown }

/-- The states some run reaches. -/
def Pool.Reached (work : α → α) (workers : Nat) (items : List α) : Pool α → Prop :=
  Relation.ReflTransGen (Pool.Step work workers) (Pool.initial items)

/-! ## Items and claims -/

/-- A task has been claimed and its worker has moved on. -/
def TaskDone (crew : List Worker) (claims : List (Nat × Nat)) (task : Nat) : Prop :=
  task < claims.length ∧ ∀ w : Nat, crew[w]? ≠ some (Worker.busy task)

/-- The tasks are claimed in order, each by one worker, and the items of the tasks that are
done are those that have been worked on. -/
structure Ledger (work : α → α) (start items : List α) (crew : List Worker)
    (claims : List (Nat × Nat)) : Prop where
  length : items.length = start.length
  inOrder : claims.map Prod.snd = List.range claims.length
  claims_le : claims.length ≤ start.length
  busy : ∀ w task : Nat, crew[w]? = some (Worker.busy task) → task < claims.length
  alone : ∀ w w' task : Nat, crew[w]? = some (Worker.busy task) → crew[w']? = some (Worker.busy task) →
    w = w'
  done : ∀ task, TaskDone crew claims task → items[task]? = (start[task]?).map work
  undone : ∀ task, ¬ TaskDone crew claims task → items[task]? = start[task]?

section Ledger

variable {work : α → α} {start items : List α} {crew crew' : List Worker} {claims : List (Nat × Nat)}

theorem Ledger.initial : Ledger work start start [] [] where
  length := rfl
  inOrder := rfl
  claims_le := Nat.zero_le _
  busy w task h := by simp at h
  alone w w' task h := by simp at h
  done task h := absurd h.1 (Nat.not_lt_zero _)
  undone _ _ := rfl

/-- Only who is busy matters. -/
theorem Ledger.crew_congr (h : Ledger work start items crew claims)
    (hbusy : ∀ w task : Nat, crew'[w]? = some (Worker.busy task) ↔ crew[w]? = some (Worker.busy task)) :
    Ledger work start items crew' claims := by
  have hdone : ∀ task, TaskDone crew' claims task ↔ TaskDone crew claims task := by
    intro task
    unfold TaskDone
    simp only [ne_eq, hbusy]
  exact ⟨h.length, h.inOrder, h.claims_le, fun w task hw => h.busy w task ((hbusy w task).mp hw),
    fun w w' task hw hw' => h.alone w w' task ((hbusy w task).mp hw) ((hbusy w' task).mp hw'),
    fun task ht => h.done task ((hdone task).mp ht),
    fun task ht => h.undone task fun hc => ht ((hdone task).mpr hc)⟩

/-- A worker that is not busy may become another worker that is not busy. -/
theorem busy_set {w : Nat} {worker worker' : Worker} (hw : crew[w]? = some worker)
    (hidle : ∀ task, worker ≠ .busy task) (hidle' : ∀ task, worker' ≠ .busy task) (v task : Nat) :
    (crew.set w worker')[v]? = some (Worker.busy task) ↔ crew[v]? = some (Worker.busy task) := by
  obtain ⟨hlt, -⟩ := List.getElem?_eq_some_iff.mp hw
  by_cases hv : w = v
  · subst hv
    rw [List.getElem?_set_self hlt, hw]
    simp [hidle, hidle']
  · rw [List.getElem?_set_ne hv]

theorem busy_append {worker : Worker} (hidle : ∀ task, worker ≠ .busy task) (v task : Nat) :
    (crew ++ [worker])[v]? = some (Worker.busy task) ↔ crew[v]? = some (Worker.busy task) := by
  rcases Nat.lt_or_ge v crew.length with hv | hv
  · rw [List.getElem?_append_left hv]
  · rw [List.getElem?_append_right hv, List.getElem?_eq_none hv]
    cases v - crew.length with
    | zero => simp [hidle]
    | succ k => simp

/-- The next task is claimed. -/
theorem Ledger.claim (h : Ledger work start items crew claims) {w : Nat}
    (hw : crew[w]? = some .claiming) (hlt : claims.length < start.length) :
    Ledger work start items (crew.set w (.busy claims.length)) (claims ++ [(w, claims.length)]) := by
  obtain ⟨hwlt, -⟩ := List.getElem?_eq_some_iff.mp hw
  have hbusy : ∀ v task : Nat, (crew.set w (.busy claims.length))[v]? = some (Worker.busy task) ↔
      (v = w ∧ task = claims.length) ∨ crew[v]? = some (Worker.busy task) := by
    intro v task
    by_cases hv : w = v
    · subst hv
      rw [List.getElem?_set_self hwlt, hw]
      simp [eq_comm]
    · rw [List.getElem?_set_ne hv]
      simp [Ne.symm hv]
  have hlength : (claims ++ [(w, claims.length)]).length = claims.length + 1 := by simp
  have hdone : ∀ task, TaskDone (crew.set w (.busy claims.length)) (claims ++ [(w, claims.length)]) task ↔
      TaskDone crew claims task := by
    intro task
    unfold TaskDone
    rw [hlength]
    constructor
    · rintro ⟨htask, hnone⟩
      have hne : task ≠ claims.length := by
        rintro rfl
        exact hnone w ((hbusy w _).mpr (Or.inl ⟨rfl, rfl⟩))
      exact ⟨by omega, fun v hv => hnone v ((hbusy v task).mpr (Or.inr hv))⟩
    · rintro ⟨htask, hnone⟩
      refine ⟨by omega, fun v hv => ?_⟩
      obtain ⟨-, heq⟩ | hv := (hbusy v task).mp hv
      · omega
      · exact hnone v hv
  refine ⟨h.length, ?_, by omega, fun v task hv => ?_, fun v v' task hv hv' => ?_,
    fun task ht => h.done task ((hdone task).mp ht),
    fun task ht => h.undone task fun hc => ht ((hdone task).mpr hc)⟩
  · rw [List.map_append, h.inOrder, hlength, List.range_succ]
    rfl
  · rw [hlength]
    obtain ⟨-, rfl⟩ | hv := (hbusy v task).mp hv
    · exact Nat.lt_succ_self _
    · exact Nat.lt_succ_of_lt (h.busy v task hv)
  · obtain ⟨rfl, heq⟩ | hv := (hbusy v task).mp hv
    · obtain ⟨rfl, -⟩ | hv' := (hbusy v' task).mp hv'
      · rfl
      · exact absurd (h.busy v' task hv') (by omega)
    · obtain ⟨-, heq⟩ | hv' := (hbusy v' task).mp hv'
      · exact absurd (h.busy v task hv) (by omega)
      · exact h.alone v v' task hv hv'

/-- A worker does its task and goes on. -/
theorem Ledger.doTask (h : Ledger work start items crew claims) {w task : Nat}
    (hw : crew[w]? = some (.busy task)) :
    Ledger work start (items.modify task work) (crew.set w .claiming) claims := by
  obtain ⟨hwlt, -⟩ := List.getElem?_eq_some_iff.mp hw
  have htask := h.busy w task hw
  have hbusy : ∀ v t : Nat, (crew.set w .claiming)[v]? = some (Worker.busy t) ↔
      v ≠ w ∧ crew[v]? = some (Worker.busy t) := by
    intro v t
    by_cases hv : w = v
    · subst hv
      rw [List.getElem?_set_self hwlt]
      simp
    · rw [List.getElem?_set_ne hv]
      simp [Ne.symm hv]
  have hdone : ∀ t, TaskDone (crew.set w .claiming) claims t ↔ t = task ∨ TaskDone crew claims t := by
    intro t
    unfold TaskDone
    constructor
    · rintro ⟨ht, hnone⟩
      by_cases heq : t = task
      · exact Or.inl heq
      · refine Or.inr ⟨ht, fun v hv => ?_⟩
        by_cases hvw : v = w
        · rw [hvw, hw] at hv
          exact heq (Worker.busy.inj (Option.some.inj hv)).symm
        · exact hnone v ((hbusy v t).mpr ⟨hvw, hv⟩)
    · rintro (rfl | ⟨ht, hnone⟩)
      · exact ⟨htask, fun v hv => ((hbusy v t).mp hv).1 (h.alone v w t ((hbusy v t).mp hv).2 hw)⟩
      · exact ⟨ht, fun v hv => hnone v ((hbusy v t).mp hv).2⟩
  have hundone : ¬ TaskDone crew claims task := fun hd => hd.2 w hw
  refine ⟨(List.length_modify ..).trans h.length, h.inOrder, h.claims_le,
    fun v t hv => h.busy v t ((hbusy v t).mp hv).2,
    fun v v' t hv hv' => h.alone v v' t ((hbusy v t).mp hv).2 ((hbusy v' t).mp hv').2,
    fun t ht => ?_, fun t ht => ?_⟩
  · by_cases heq : task = t
    · subst heq
      rw [List.getElem?_modify_eq, h.undone task hundone]
      rfl
    · rw [List.getElem?_modify_ne _ _ heq]
      exact h.done t (((hdone t).mp ht).resolve_left (Ne.symm heq))
  · have hne : task ≠ t := by
      rintro rfl
      exact ht ((hdone task).mpr (Or.inl rfl))
    rw [List.getElem?_modify_ne _ _ hne]
    exact h.undone t fun hc => ht ((hdone t).mpr (Or.inr hc))

/-- Once everything is claimed and no one is busy, every item has been worked on. -/
theorem Ledger.complete (h : Ledger work start items crew claims)
    (hall : claims.length = start.length) (hidle : ∀ worker ∈ crew, worker = .finished) :
    items = start.map work := by
  refine List.ext_getElem? fun task => ?_
  rw [List.getElem?_map]
  rcases Nat.lt_or_ge task claims.length with ht | ht
  · refine h.done task ⟨ht, fun w hw => ?_⟩
    cases hidle _ (List.mem_of_getElem? hw)
  · rw [List.getElem?_eq_none (by have := h.length; omega), List.getElem?_eq_none (by omega)]
    rfl

end Ledger

/-! ## Every state of every run -/

namespace Pool

/-- How the counter and the caller stand to the work. -/
structure Course (size : Nat) (p : Pool α) : Prop where
  counted : p.stage ≠ .clearing → p.stage ≠ .thrown → p.claims.length = min p.next size
  closed : p.stage = .clearing → size ≤ p.next
  finished : Worker.finished ∈ p.crew → size ≤ p.next
  full : p.stage = .joining ∨ p.stage = .returned → size ≤ p.next
  idle : p.stage = .reserving → p.crew = []
  still : p.stage = .returned ∨ p.stage = .thrown → ∀ worker ∈ p.crew, worker = .finished
  manned : p.stage = .working → p.crew ≠ []

structure Sound (work : α → α) (start : List α) (p : Pool α) : Prop where
  ledger : Ledger work start p.items p.crew p.claims
  course : p.Course start.length

section Runs

variable {work : α → α} {workers : Nat} {start : List α} {p p' : Pool α}

theorem Sound.initial : (initial start).Sound work start where
  ledger := Ledger.initial
  course :=
    { counted := fun _ _ => (Nat.zero_min _).symm
      closed := fun h => by cases h
      finished := fun h => by cases h
      full := fun h => by obtain h | h := h <;> cases h
      idle := fun _ => rfl
      still := fun h => by obtain h | h := h <;> cases h
      manned := fun h => by cases h }

/-- Someone who has not finished keeps the run from being over. -/
theorem Course.running {size : Nat} (h : p.Course size) {w : Nat} {worker : Worker}
    (hw : p.crew[w]? = some worker) (hne : worker ≠ .finished) :
    p.stage ≠ .returned ∧ p.stage ≠ .thrown := by
  have hmem := List.mem_of_getElem? hw
  exact ⟨fun hc => hne (h.still (Or.inl hc) worker hmem),
    fun hc => hne (h.still (Or.inr hc) worker hmem)⟩

theorem Course.reserving_empty {size : Nat} (h : p.Course size) {w : Nat} {worker : Worker}
    (hw : p.crew[w]? = some worker) : p.stage ≠ .reserving := by
  intro hc
  rw [h.idle hc] at hw
  simp at hw

/-- A step of the caller that leaves the counter, the items and the claims alone. -/
theorem Sound.enter (h : p.Sound work start) {stage : Stage}
    (hcounted : p.claims.length = min p.next start.length)
    (hclosed : stage = .clearing → start.length ≤ p.next)
    (hfull : stage = .joining ∨ stage = .returned → start.length ≤ p.next)
    (hidle : stage = .reserving → p.crew = [])
    (hstill : stage = .returned ∨ stage = .thrown → ∀ worker ∈ p.crew, worker = .finished)
    (hmanned : stage = .working → p.crew ≠ []) :
    ({ p with stage := stage } : Pool α).Sound work start :=
  ⟨h.ledger, fun _ _ => hcounted, hclosed, h.course.finished, hfull, hidle, hstill, hmanned⟩

/-- Someone new begins to work. -/
theorem Sound.hire (h : p.Sound work start) {stage : Stage}
    (hstage : stage = .starting ∨ stage = .working)
    (hcounted : p.claims.length = min p.next start.length) :
    ({ p with stage := stage, crew := p.crew ++ [.claiming] } : Pool α).Sound work start := by
  refine ⟨h.ledger.crew_congr (busy_append fun _ hc => by cases hc), fun _ _ => hcounted, ?_, ?_, ?_,
    ?_, ?_, fun _ => by simp⟩
  · rintro rfl
    obtain hc | hc := hstage <;> cases hc
  · intro hmem
    obtain hmem | hmem := List.mem_append.mp hmem
    · exact h.course.finished hmem
    · cases List.mem_singleton.mp hmem
  · rintro (rfl | rfl) <;> obtain hc | hc := hstage <;> cases hc
  · rintro rfl
    obtain hc | hc := hstage <;> cases hc
  · rintro (rfl | rfl) <;> obtain hc | hc := hstage <;> cases hc

theorem Course.counted_of {size : Nat} (h : p.Course size) {stage : Stage} (hstage : p.stage = stage)
    (hclearing : stage ≠ .clearing) (hthrown : stage ≠ .thrown) :
    p.claims.length = min p.next size :=
  h.counted (hstage ▸ hclearing) (hstage ▸ hthrown)

/-- A worker at rest claims, or finds nothing left, or comes back from its task. -/
theorem Course.turn {size : Nat} (h : p.Course size) {w : Nat} {worker worker' : Worker}
    (hw : p.crew[w]? = some worker) (hne : worker ≠ .finished) {next : Nat} {items : List α}
    {claims : List (Nat × Nat)} (hnext : size ≤ p.next → size ≤ next)
    (hfinished : worker' = .finished → size ≤ next)
    (hcounted : p.stage ≠ .clearing → claims.length = min next size) :
    ({ p with next := next, items := items, crew := p.crew.set w worker', claims := claims } :
      Pool α).Course size := by
  obtain ⟨hreturned, hthrown⟩ := h.running hw hne
  refine ⟨fun hc _ => hcounted hc, fun hc => hnext (h.closed hc), fun hmem => ?_,
    fun hc => hnext (h.full hc), fun hc => absurd hc (h.reserving_empty hw), ?_, fun hc hnil => ?_⟩
  · obtain hmem | heq := List.mem_or_eq_of_mem_set hmem
    · exact hnext (h.finished hmem)
    · exact hfinished heq.symm
  · rintro (hc | hc)
    · exact absurd hc hreturned
    · exact absurd hc hthrown
  · have hlength : (p.crew.set w worker').length = 0 := congrArg List.length hnil
    rw [List.length_set] at hlength
    exact h.manned hc (List.eq_nil_of_length_eq_zero hlength)

/-- Every step keeps the invariant. -/
theorem Step.sound (h : p.Sound work start) (hstep : p.Step work workers p') :
    p'.Sound work start := by
  have hcourse := h.course
  have hlength := h.ledger.length
  cases hstep with
  | reserved hstage =>
      refine h.enter (hcourse.counted_of hstage ?_ ?_) ?_ ?_ ?_ ?_ ?_ <;> simp
  | reserveFailed hstage =>
      refine h.enter (hcourse.counted_of hstage ?_ ?_) ?_ ?_ ?_ ?_ ?_ <;> simp [hcourse.idle hstage]
  | started hstage hroom =>
      exact hstage ▸ h.hire (Or.inl rfl) (hcourse.counted_of hstage (by simp) (by simp))
  | startFailed hstage hroom =>
      refine h.enter (hcourse.counted_of hstage ?_ ?_) ?_ ?_ ?_ ?_ ?_ <;> simp
  | allStarted hstage hroom =>
      exact h.hire (Or.inr rfl) (hcourse.counted_of hstage (by simp) (by simp))
  | claimed w hw hlt =>
      rw [hlength] at hlt
      have hne : p.stage ≠ .clearing := fun hc => absurd (hcourse.closed hc) (Nat.not_le.mpr hlt)
      have hcount := hcourse.counted hne (hcourse.running hw (by simp)).2
      have hnext : p.claims.length = p.next := by omega
      refine ⟨hnext ▸ h.ledger.claim hw (by omega), hcourse.turn hw (by simp) (by omega)
        (fun hc => by cases hc) fun _ => ?_⟩
      rw [List.length_append, List.length_singleton]
      omega
  | refused w hw hle =>
      rw [hlength] at hle
      refine ⟨h.ledger.crew_congr (busy_set hw (fun _ hc => by cases hc) fun _ hc => by cases hc),
        hcourse.turn hw (by simp) (by omega) (fun _ => by omega) fun hne => ?_⟩
      have hcount := hcourse.counted hne (hcourse.running hw (by simp)).2
      omega
  | worked w task hw =>
      exact ⟨h.ledger.doTask hw, hcourse.turn hw (by simp) id (fun hc => by cases hc) fun hne =>
        hcourse.counted hne (hcourse.running hw (by simp)).2⟩
  | ended hstage hlast =>
      have hfull := hcourse.finished (List.mem_of_getLast? hlast)
      refine h.enter (hcourse.counted_of hstage ?_ ?_) ?_ (fun _ => hfull) ?_ ?_ ?_ <;> simp
  | joined hstage hall =>
      have hfull := hcourse.full (Or.inl hstage)
      refine h.enter (hcourse.counted_of hstage ?_ ?_) ?_ (fun _ => hfull) ?_ (fun _ => hall) ?_ <;>
        simp
  | stopped hstage =>
      refine ⟨h.ledger, fun hc => absurd rfl hc, fun _ => hlength.ge, fun _ => hlength.ge,
        fun _ => hlength.ge, fun hc => (by cases hc), ?_, fun hc => (by cases hc)⟩
      rintro (hc | hc) <;> cases hc
  | cleared hstage hall =>
      refine ⟨h.ledger, fun _ hc => absurd rfl hc, fun hc => (by cases hc), hcourse.finished, ?_,
        fun hc => (by cases hc), fun _ => hall, fun hc => (by cases hc)⟩
      rintro (hc | hc) <;> cases hc

theorem Reached.sound (h : p.Reached work workers start) : p.Sound work start := by
  induction h with
  | refl => exact Sound.initial
  | tail _ hstep ih => exact hstep.sound ih

/-! ## How a run ends -/

/-- When the caller returns, every task has been claimed once, every item worked on, and
everyone has finished. -/
theorem Reached.returned (h : p.Reached work workers start) (hstage : p.stage = .returned) :
    p.claims.map Prod.snd = List.range start.length ∧ p.items = start.map work ∧
      ∀ worker ∈ p.crew, worker = .finished := by
  obtain ⟨hledger, hcourse⟩ := h.sound
  have hcount := hcourse.counted_of hstage (by simp) (by simp)
  have hall : p.claims.length = start.length := by
    rw [hcount]
    exact Nat.min_eq_right (hcourse.full (Or.inr hstage))
  have hidle := hcourse.still (Or.inl hstage)
  refine ⟨?_, hledger.complete hall hidle, hidle⟩
  rw [hledger.inOrder, hall]

/-- When the exception is passed on, everyone has finished. -/
theorem Reached.thrown (h : p.Reached work workers start) (hstage : p.stage = .thrown) :
    ∀ worker ∈ p.crew, worker = .finished :=
  h.sound.course.still (Or.inr hstage)

/-- What a worker may still do before it looks at the counter again. -/
def weight : Worker → Nat
  | .claiming => 1
  | .busy _ => 2
  | .finished => 0

/-- How far the caller is from its end. -/
def distance : Stage → Nat
  | .reserving => 5
  | .starting => 4
  | .working | .aborting => 2
  | .joining | .clearing => 1
  | .returned | .thrown => 0

/-- A bound on the steps that are left. -/
def measure (workers : Nat) (p : Pool α) : Nat :=
  2 * (p.items.length - p.next) + (p.crew.map weight).sum + 3 * (workers - p.crew.length) +
    distance p.stage

theorem sum_weight_set {crew : List Worker} {w : Nat} {worker : Worker}
    (hw : crew[w]? = some worker) (worker' : Worker) :
    ((crew.set w worker').map weight).sum + weight worker = (crew.map weight).sum + weight worker' := by
  induction crew generalizing w with
  | nil => simp at hw
  | cons first rest ih =>
      cases w with
      | zero =>
          obtain rfl := Option.some.inj hw
          simp only [List.set_cons_zero, List.map_cons, List.sum_cons]
          omega
      | succ w =>
          have hrest := ih hw
          simp only [List.set_cons_succ, List.map_cons, List.sum_cons]
          omega

/-- Every step brings the run closer to its end. -/
theorem Step.measure_lt (hstep : p.Step work workers p') : measure workers p' < measure workers p := by
  unfold measure
  cases hstep with
  | reserved hstage => simp [hstage, distance]
  | reserveFailed hstage => simp [hstage, distance]
  | started hstage hroom =>
      simp only [List.map_append, List.sum_append, List.length_append, List.map_cons, List.map_nil,
        List.sum_cons, List.sum_nil, List.length_singleton, weight]
      omega
  | startFailed hstage hroom => simp [hstage, distance]
  | allStarted hstage hroom =>
      simp only [hstage, List.map_append, List.sum_append, List.length_append, List.map_cons,
        List.map_nil, List.sum_cons, List.sum_nil, List.length_singleton, weight, distance]
      omega
  | claimed w hw hlt =>
      have hsum := sum_weight_set hw (.busy p.next)
      simp only [weight, List.length_set] at hsum ⊢
      omega
  | refused w hw hle =>
      have hsum := sum_weight_set hw .finished
      simp only [weight, List.length_set] at hsum ⊢
      omega
  | worked w task hw =>
      have hsum := sum_weight_set hw .claiming
      simp only [weight, List.length_set, List.length_modify] at hsum ⊢
      omega
  | ended hstage hlast => simp [hstage, distance]
  | joined hstage hall => simp [hstage, distance]
  | stopped hstage =>
      simp only [hstage, distance]
      omega
  | cleared hstage hall => simp [hstage, distance]

/-- No run goes on for ever. -/
theorem Step.wellFounded (work : α → α) (workers : Nat) :
    WellFounded fun p' p : Pool α => p.Step work workers p' :=
  Subrelation.wf (fun hstep => hstep.measure_lt) (InvImage.wf (measure workers) Nat.lt_wfRel.wf)

/-- Whoever has not finished can take a step. -/
theorem step_of_worker {w : Nat} {worker : Worker} (hw : p.crew[w]? = some worker)
    (hne : worker ≠ .finished) : ∃ p', p.Step work workers p' ∧ p'.stage = p.stage := by
  cases worker with
  | claiming =>
      rcases Nat.lt_or_ge p.next p.items.length with hlt | hle
      · exact ⟨_, .claimed w hw hlt, rfl⟩
      · exact ⟨_, .refused w hw hle, rfl⟩
  | busy task => exact ⟨_, .worked w task hw, rfl⟩
  | finished => exact absurd rfl hne

/-- Either everyone has finished or someone can take a step. -/
theorem all_finished_or_step : (∀ worker ∈ p.crew, worker = .finished) ∨
    ∃ p', p.Step work workers p' ∧ p'.stage = p.stage := by
  by_cases hall : ∀ worker ∈ p.crew, worker = .finished
  · exact Or.inl hall
  · simp only [not_forall] at hall
    obtain ⟨worker, hmem, hne⟩ := hall
    obtain ⟨w, hw⟩ := List.mem_iff_getElem?.mp hmem
    exact Or.inr (step_of_worker hw hne)

/-- The stages of a run in which every helper could be started. -/
def Smooth (stage : Stage) : Prop :=
  stage ≠ .aborting ∧ stage ≠ .clearing ∧ stage ≠ .thrown

/-- As long as nothing failed, a run that is not over can go on without a failure. -/
theorem Reached.advance (h : p.Reached work workers start) (hsmooth : Smooth p.stage)
    (hreturned : p.stage ≠ .returned) :
    ∃ p', p.Step work workers p' ∧ Smooth p'.stage := by
  cases hstage : p.stage with
  | reserving => exact ⟨_, .reserved hstage, by simp [Smooth]⟩
  | starting =>
      rcases Nat.lt_or_ge (p.crew.length + 1) workers with hlt | hle
      · exact ⟨_, .started hstage hlt, hsmooth⟩
      · exact ⟨_, .allStarted hstage hle, by simp [Smooth]⟩
  | working =>
      have hlast := List.getLast?_eq_some_getLast (h.sound.course.manned hstage)
      generalize p.crew.getLast (h.sound.course.manned hstage) = worker at hlast
      by_cases hfinished : worker = .finished
      · exact ⟨_, .ended hstage (hfinished ▸ hlast), by simp [Smooth]⟩
      · rw [List.getLast?_eq_getElem?] at hlast
        obtain ⟨p', hstep, hsame⟩ : ∃ p', p.Step work workers p' ∧ p'.stage = p.stage :=
          step_of_worker hlast hfinished
        exact ⟨p', hstep, hsame ▸ hsmooth⟩
  | joining =>
      obtain hall | ⟨p', hstep, hsame⟩ := all_finished_or_step (p := p)
      · exact ⟨_, .joined hstage hall, by simp [Smooth]⟩
      · exact ⟨p', hstep, hsame ▸ hsmooth⟩
  | returned => exact absurd hstage hreturned
  | aborting => exact absurd hstage hsmooth.1
  | clearing => exact absurd hstage hsmooth.2.1
  | thrown => exact absurd hstage hsmooth.2.2

/-- A run that is not over can go on. -/
theorem Reached.progress (h : p.Reached work workers start) (hreturned : p.stage ≠ .returned)
    (hthrown : p.stage ≠ .thrown) : ∃ p', p.Step work workers p' := by
  by_cases hsmooth : Smooth p.stage
  · obtain ⟨p', hstep, -⟩ := h.advance hsmooth hreturned
    exact ⟨p', hstep⟩
  · by_cases haborting : p.stage = .aborting
    · exact ⟨_, .stopped haborting⟩
    · have hclearing : p.stage = .clearing := by
        by_contra hne
        exact hsmooth ⟨haborting, hne, hthrown⟩
      obtain hall | ⟨p', hstep, -⟩ := all_finished_or_step (p := p)
      · exact ⟨_, .cleared hclearing hall⟩
      · exact ⟨p', hstep⟩

/-- When nothing fails, the caller returns. -/
theorem exists_returned (work : α → α) (workers : Nat) (start : List α) :
    ∃ p : Pool α, p.Reached work workers start ∧ p.stage = .returned := by
  suffices hreturns : ∀ p : Pool α, p.Reached work workers start → Smooth p.stage →
      ∃ p' : Pool α, p'.Reached work workers start ∧ p'.stage = .returned from
    hreturns (initial start) Relation.ReflTransGen.refl (by simp [Smooth, initial])
  intro p
  induction p using (Step.wellFounded work workers).induction with
  | _ p ih =>
      intro h hsmooth
      by_cases hreturned : p.stage = .returned
      · exact ⟨p, h, hreturned⟩
      · obtain ⟨p', hstep, hsmooth'⟩ := h.advance hsmooth hreturned
        exact ih p' hstep (h.tail hstep) hsmooth'

end Runs

end Pool

end Qalsh.Foundation

/-
  Drivers.lean --- every range driver delivers its range hit by hit.

  The driver of the default strategy keeps the hit counter outside the loop and reads
  the finish flag only after evaluations.  It still does what the driver of an
  arbitrary strategy does with one hit after the other, so where a scan cuts its
  ranges does not matter.
-/
import Qalsh.LoopRelation

set_option autoImplicit false

namespace Qalsh

open Foundation

variable {R : Type} [RadiusArithmetic R] {σ ω : Type}

/-- A driver that hands each hit to `accept` and each candidate to the evaluation. -/
def RangeDriver.Delivers (driver : RangeDriver R σ)
    (accept : ProjectionHit → QuerySnapshot R → EStateM Error σ HitDecision) : Prop :=
  ∀ evaluate, Keeps evaluate → ∀ progress range,
    driver evaluate progress range = range.hits.foldlM (deliverHit accept evaluate) progress

omit [RadiusArithmetic R] in
theorem deliverRange_delivers (strategy : SearchStrategy R σ) :
    (deliverRange strategy).Delivers strategy.onProjectionHit :=
  fun _ _ _ _ => rfl

omit [RadiusArithmetic R] in
@[simp] theorem Progress.withHits_withHits (progress : Progress R) (a b : Nat) :
    (progress.withHits a).withHits b = progress.withHits b := rfl

omit [RadiusArithmetic R] in
theorem Progress.withHits_self {progress : Progress R} {hits : Nat}
    (h : progress.state.projectionHits = hits) : progress.withHits hits = progress := by
  subst h
  rfl

omit [RadiusArithmetic R] in
@[simp] theorem Progress.withHits_hits (progress : Progress R) (hits : Nat) :
    (progress.withHits hits).state.projectionHits = hits := rfl

namespace DefaultOptions

variable (options : DefaultOptions R ω)

/-- What the default driver does with one hit. -/
def acceptRanged (hit : ProjectionHit) (_ : QuerySnapshot R) :
    EStateM Error (WithDefault R ω) HitDecision :=
  match options.candidateRule with
  | some rule => acceptCustom rule hit
  | none => do
      if (← get).1.finishRequested then return .ignore
      acceptBuiltinId hit.pointId

section Custom

variable {rule : CandidateRule ω} {evaluate : Progress R → Nat →
  EStateM Error (WithDefault R ω) (Progress R)}

variable (rule) in
omit [RadiusArithmetic R] in
/-- The custom loop from position `i` on, and the same hits one by one. -/
theorem foldlM_deliverCustom (hkeeps : Keeps evaluate) (state : Nat) :
    ∀ (hits : List ProjectionHit) (i : Nat) (progress : Progress R) (s : WithDefault R ω),
      ((hits.zipIdx i).foldlM (deliverCustom rule evaluate state) progress >>= fun progress =>
        pure (progress.withHits (state + i + hits.length))) s =
      hits.foldlM (deliverHit (fun hit _ => acceptCustom rule hit) evaluate)
        (progress.withHits (state + i)) s := by
  intro hits
  induction hits with
  | nil => exact fun i progress s => rfl
  | cons hit rest ih =>
      intro i progress s
      have hnext := ih (i + 1)
      rw [show state + (i + 1) + rest.length = state + i + (hit :: rest).length by
        rw [List.length_cons]; omega] at hnext
      rw [List.zipIdx_cons, List.foldlM_cons, List.foldlM_cons, bind_assoc, bind_apply, bind_apply,
        deliverCustom, deliverHit, bind_apply, bind_apply]
      simp only [Progress.withHits_withHits, Progress.withHits_hits]
      cases acceptCustom rule hit s with
      | error e s' => rfl
      | ok decision s' =>
          dsimp only
          cases decision.hasCandidate with
          | false => exact hnext progress s'
          | true =>
              simp only [if_true]
              rw [← Nat.add_assoc] at hnext
              cases he : evaluate (progress.withHits (state + i + 1)) decision.candidate s' with
              | error e s'' => rfl
              | ok progress' s'' =>
                  have h := hnext progress' s''
                  have hhits : progress'.state.projectionHits = state + i + 1 :=
                    (hkeeps _ _ _ _ _ he).1
                  rw [Progress.withHits_self hhits] at h
                  exact h

end Custom

section Standard

variable {evaluate : Progress R → Nat → EStateM Error (WithDefault R ω) (Progress R)}

/-- `acceptRanged` in standard mode. -/
def acceptFlagged (hit : ProjectionHit) (_ : QuerySnapshot R) :
    EStateM Error (WithDefault R ω) HitDecision := do
  if (← get).1.finishRequested then return .ignore
  acceptBuiltinId hit.pointId

omit [RadiusArithmetic R] in
theorem acceptBuiltinId_finish {pointId : Nat} {s s' : WithDefault R ω} {decision : HitDecision}
    (h : acceptBuiltinId pointId s = .ok decision s') :
    s'.1.finishRequested = s.1.finishRequested := by
  simp only [acceptBuiltinId, countDown, modifyDefault, bind_apply, get_apply] at h
  split at h
  · cases h
  · simp only [bind_apply, get_apply] at h
    split at h
    · cases h
      rfl
    · simp only [bind_apply, modify_apply] at h
      split at h
      · cases h
        rfl
      · cases h
        rfl

omit [RadiusArithmetic R] in
/-- The id loop with its copy of the flag, and the same hits one by one. -/
theorem foldlM_deliverId (hkeeps : Keeps evaluate) (state : Nat) :
    ∀ (hits : List ProjectionHit) (i : Nat) (progress : Progress R) (accepting : Bool)
      (s : WithDefault R ω), accepting = !s.1.finishRequested →
      (((hits.map ProjectionHit.pointId).zipIdx i).foldlM (deliverId evaluate state)
        (progress, accepting) >>= fun out =>
        pure (out.1.withHits (state + i + hits.length))) s =
      hits.foldlM (deliverHit acceptFlagged evaluate) (progress.withHits (state + i)) s := by
  intro hits
  induction hits with
  | nil => exact fun i progress accepting s _ => rfl
  | cons hit rest ih =>
      intro i progress accepting s hflag
      have hnext := ih (i + 1)
      rw [show state + (i + 1) + rest.length = state + i + (hit :: rest).length by
        rw [List.length_cons]; omega] at hnext
      rw [List.map_cons, List.zipIdx_cons, List.foldlM_cons, List.foldlM_cons, bind_assoc, bind_apply,
        bind_apply, deliverId, deliverHit, bind_apply (acceptFlagged _ _), acceptFlagged, bind_apply,
        get_apply]
      simp only [Progress.withHits_withHits, Progress.withHits_hits]
      cases hfinish : s.1.finishRequested with
      | true =>
          rw [hfinish] at hflag
          subst hflag
          exact hnext progress false s (by rw [hfinish]; rfl)
      | false =>
          rw [hfinish] at hflag
          subst hflag
          simp only [Bool.not_false, Bool.not_true, Bool.false_eq_true, if_false, bind_apply]
          cases ha : acceptBuiltinId hit.pointId s with
          | error e s' => rfl
          | ok decision s' =>
              have hkept := acceptBuiltinId_finish ha
              dsimp only
              cases decision.hasCandidate with
              | false => exact hnext progress true s' (by rw [hkept, hfinish]; rfl)
              | true =>
                  simp only [if_true, bind_apply]
                  rw [← Nat.add_assoc] at hnext
                  cases he : evaluate (progress.withHits (state + i + 1)) decision.candidate s' with
                  | error e s'' => rfl
                  | ok progress' s'' =>
                      have h := hnext progress' _ s'' rfl
                      have hhits : progress'.state.projectionHits = state + i + 1 :=
                        (hkeeps _ _ _ _ _ he).1
                      rw [Progress.withHits_self hhits] at h
                      exact h

end Standard

omit [RadiusArithmetic R] in
theorem length_hits (range : HitRange) : range.hits.length = range.count := by
  simp [HitRange.hits, HitRange.entries]

omit [RadiusArithmetic R] in
/-- The driver of the default strategy delivers hit by hit. -/
theorem deliverRangeDefault_delivers :
    (deliverRangeDefault options).Delivers options.acceptRanged := by
  intro evaluate hkeeps progress range
  funext s
  unfold deliverRangeDefault
  cases hrule : options.candidateRule with
  | some rule =>
      have haccept : options.acceptRanged = fun hit _ => acceptCustom rule hit := by
        funext hit state
        simp only [acceptRanged, hrule]
      have h := foldlM_deliverCustom rule hkeeps progress.state.projectionHits range.hits 0
        progress s
      rw [length_hits, Nat.add_zero] at h
      rw [haccept]
      exact h
  | none =>
      have haccept : options.acceptRanged = acceptFlagged := by
        funext hit state
        simp only [acceptRanged, hrule]
        rfl
      have hids : range.entries.map Entry.pointId = range.hits.map ProjectionHit.pointId := by
        simp [HitRange.hits, hitOf]
      have h := foldlM_deliverId hkeeps progress.state.projectionHits range.hits 0 progress
        (!s.1.finishRequested) s rfl
      rw [length_hits, Nat.add_zero, ← hids] at h
      rw [haccept]
      exact h

end DefaultOptions

end Qalsh

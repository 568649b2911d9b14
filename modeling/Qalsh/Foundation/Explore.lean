/-
  Foundation/Explore.lean --- depth-first exploration with an explicit stack.

  An `Explorer` opens a node, hands out its children one at a time and closes the
  node after the last of them; every step may fail.  `run` is the loop over a stack
  of frames.  It stops because opening a node lowers a weight that closing does not
  raise.

  `Explored` is the recursive account of the same exploration.  A run that starts
  with a new node on top of the stack succeeds exactly when that node is explored
  and the rest of the run succeeds (`run_of_explored`, `explored_of_run`), so a
  property of the loop is proved by induction on the depth of a tree.
-/
import Mathlib

set_option autoImplicit false

namespace Qalsh.Foundation

variable {ε σ ν δ : Type}

/-! ## Frames and explorers -/

/-- A node on the stack: its children, what was read with them, and how many of
them have been handed out. -/
structure Frame (ν δ : Type) where
  node : ν
  children : List ν
  data : δ
  nextChild : Nat

/-- The frame of a node that has not been opened. -/
def Frame.fresh [Inhabited δ] (node : ν) : Frame ν δ where
  node := node
  children := []
  data := default
  nextChild := 0

/-- How nodes are explored; `σ` records what has been seen. -/
structure Explorer (ε σ ν δ : Type) where
  seen : σ → ν → Bool
  /-- open a node: a leaf is finished, another node has children -/
  enter : σ → ν → Except ε (σ × Option (List ν × δ))
  /-- the check before a child is put on the stack -/
  permit : σ → ν → Except ε Unit
  /-- close a node after its last child -/
  leave : σ → ν → List ν → δ → Except ε σ
  weight : σ → Nat
  enter_weight : ∀ {s n s' r}, seen s n = false → enter s n = .ok (s', r) → weight s' < weight s
  enter_seen : ∀ {s n s' r}, enter s n = .ok (s', r) →
    seen s' n = true ∧ ∀ m, seen s m = true → seen s' m = true
  permit_seen : ∀ {s n}, permit s n = .ok () → seen s n = false
  leave_weight : ∀ {s n cs d s'}, leave s n cs d = .ok s' → weight s' ≤ weight s
  leave_seen : ∀ {s n cs d s'}, leave s n cs d = .ok s' →
    ∀ m, seen s m = true → seen s' m = true

namespace Explorer

variable (E : Explorer ε σ ν δ)

/-! ## The recursive account -/

/-- The children of a node, explored one after the other. -/
inductive ExploredAll (P : ν → List ν → σ → σ → Prop) : List ν → List ν → σ → σ → Prop
  | nil (s : σ) : ExploredAll P [] [] s s
  | cons {child : ν} {children leaves leaves' : List ν} {s s' s'' : σ}
      (hpermit : E.permit s child = .ok ()) (hchild : P child leaves s s')
      (hrest : ExploredAll P children leaves' s' s'') :
      ExploredAll P (child :: children) (leaves ++ leaves') s s''

/-- A node explored from state to state, with the leaves below it from left to right;
`depth` bounds the height of its tree. -/
def Explored : (depth : Nat) → ν → List ν → σ → σ → Prop
  | 0, _, _, _, _ => False
  | depth + 1, node, leaves, s, s' =>
      E.seen s node = false ∧
      ((leaves = [node] ∧ E.enter s node = .ok (s', none)) ∨
        ∃ children data s₁ s₂, E.enter s node = .ok (s₁, some (children, data)) ∧
          E.ExploredAll (Explored depth) children leaves s₁ s₂ ∧
          E.leave s₂ node children data = .ok s')

variable {E}

theorem ExploredAll.mono {P Q : ν → List ν → σ → σ → Prop}
    (hPQ : ∀ {n leaves s s'}, P n leaves s s' → Q n leaves s s') {children leaves : List ν}
    {s s' : σ} (h : E.ExploredAll P children leaves s s') :
    E.ExploredAll Q children leaves s s' := by
  induction h with
  | nil s => exact .nil s
  | cons hpermit hchild _ ih => exact .cons hpermit (hPQ hchild) ih

theorem Explored.succ : ∀ {depth : Nat} {node : ν} {leaves : List ν} {s s' : σ},
    E.Explored depth node leaves s s' → E.Explored (depth + 1) node leaves s s' := by
  intro depth
  induction depth with
  | zero => exact fun h => h.elim
  | succ depth ih =>
      rintro node leaves s s' ⟨hseen, hleaf | ⟨children, data, s₁, s₂, henter, hall, hleave⟩⟩
      · exact ⟨hseen, Or.inl hleaf⟩
      · exact ⟨hseen, Or.inr ⟨children, data, s₁, s₂, henter, hall.mono ih, hleave⟩⟩

theorem Explored.le {depth depth' : Nat} (hle : depth ≤ depth') {node : ν} {leaves : List ν}
    {s s' : σ} (h : E.Explored depth node leaves s s') : E.Explored depth' node leaves s s' := by
  induction hle with
  | refl => exact h
  | step _ ih => exact ih.succ

/-- A fact every transition preserves holds after a list of children. -/
theorem ExploredAll.preserves {P : ν → List ν → σ → σ → Prop} {I : σ → Prop}
    (hP : ∀ {n leaves s s'}, P n leaves s s' → I s → I s') {children leaves : List ν} {s s' : σ}
    (h : E.ExploredAll P children leaves s s') (hs : I s) : I s' := by
  induction h with
  | nil s => exact hs
  | cons _ hchild _ ih => exact ih (hP hchild hs)

/-- A fact that opening and closing preserve holds after an exploration. -/
theorem Explored.preserves {I : σ → Prop}
    (henter : ∀ {s n s' r}, E.enter s n = .ok (s', r) → E.seen s n = false → I s → I s')
    (hleave : ∀ {s n cs d s'}, E.leave s n cs d = .ok s' → I s → I s') :
    ∀ {depth : Nat} {node : ν} {leaves : List ν} {s s' : σ},
      E.Explored depth node leaves s s' → I s → I s' := by
  intro depth
  induction depth with
  | zero => exact fun h => h.elim
  | succ depth ih =>
      rintro node leaves s s' ⟨hseen, ⟨-, h⟩ | ⟨children, data, s₁, s₂, h, hall, hclose⟩⟩ hs
      · exact henter h hseen hs
      · exact hleave hclose (hall.preserves (I := I) ih (henter h hseen hs))

theorem Explored.seen_mono {depth : Nat} {node : ν} {leaves : List ν} {s s' : σ}
    (h : E.Explored depth node leaves s s') {m : ν} (hm : E.seen s m = true) :
    E.seen s' m = true :=
  h.preserves (I := fun s => E.seen s m = true) (fun henter _ hm => (E.enter_seen henter).2 m hm)
    (fun hleave hm => E.leave_seen hleave m hm) hm

theorem Explored.weight_le {depth : Nat} {node : ν} {leaves : List ν} {s s' : σ}
    (h : E.Explored depth node leaves s s') : E.weight s' ≤ E.weight s :=
  h.preserves (I := fun t => E.weight t ≤ E.weight s)
    (fun henter hseen hle => (E.enter_weight hseen henter).le.trans hle)
    (fun hleave hle => (E.leave_weight hleave).trans hle) le_rfl

/-! ## The loop -/

section Loop

variable [Inhabited δ] (E)

/-- A frame whose node is open: hand out the next child, or close the node. -/
def advance (state : σ) (frame : Frame ν δ) (rest : List (Frame ν δ)) :
    Except ε (σ × List (Frame ν δ)) :=
  match frame.children[frame.nextChild]? with
  | some child =>
      match E.permit state child with
      | .error e => .error e
      | .ok () =>
          .ok (state, Frame.fresh child :: { frame with nextChild := frame.nextChild + 1 } :: rest)
  | none =>
      match E.leave state frame.node frame.children frame.data with
      | .error e => .error e
      | .ok state' => .ok (state', rest)

/-- One turn of the loop for the frame on top of the stack. -/
def step (state : σ) (frame : Frame ν δ) (rest : List (Frame ν δ)) :
    Except ε (σ × List (Frame ν δ)) :=
  if E.seen state frame.node then E.advance state frame rest
  else
    match E.enter state frame.node with
    | .error e => .error e
    | .ok (state', none) => .ok (state', rest)
    | .ok (state', some (children, data)) =>
        E.advance state' { frame with children := children, data := data } rest

/-- The children that have not been handed out. -/
def pending (stack : List (Frame ν δ)) : Nat :=
  (stack.map fun frame => frame.children.length - frame.nextChild).sum

/-- What a turn of the loop lowers. -/
def measure (state : σ) (stack : List (Frame ν δ)) : Nat ×ₗ Nat ×ₗ Nat :=
  toLex (E.weight state, toLex (pending stack, stack.length))

theorem advance_measure {state state' : σ} {frame : Frame ν δ} {rest stack' : List (Frame ν δ)}
    (h : E.advance state frame rest = .ok (state', stack')) :
    E.measure state' stack' < E.measure state (frame :: rest) := by
  unfold advance at h
  split at h
  · rename_i child hchild
    obtain ⟨hlt, -⟩ := List.getElem?_eq_some_iff.mp hchild
    split at h
    · cases h
    · cases h
      refine Prod.Lex.toLex_lt_toLex.mpr (Or.inr ⟨rfl, Prod.Lex.toLex_lt_toLex.mpr (Or.inl ?_)⟩)
      simp only [pending, List.map_cons, List.sum_cons, Frame.fresh, List.length_nil]
      omega
  · split at h
    · cases h
    · rename_i hleave
      cases h
      rcases Nat.lt_or_eq_of_le (E.leave_weight hleave) with hlt | heq
      · exact Prod.Lex.toLex_lt_toLex.mpr (Or.inl hlt)
      · refine Prod.Lex.toLex_lt_toLex.mpr (Or.inr ⟨heq, Prod.Lex.toLex_lt_toLex.mpr ?_⟩)
        simp only [pending, List.map_cons, List.sum_cons, List.length_cons]
        omega

theorem step_measure {state state' : σ} {frame : Frame ν δ} {rest stack' : List (Frame ν δ)}
    (h : E.step state frame rest = .ok (state', stack')) :
    E.measure state' stack' < E.measure state (frame :: rest) := by
  unfold step at h
  split at h
  · exact E.advance_measure h
  · rename_i hseen
    have hseen : E.seen state frame.node = false := by simpa using hseen
    split at h
    · cases h
    · rename_i henter
      cases h
      exact Prod.Lex.toLex_lt_toLex.mpr (Or.inl (E.enter_weight hseen henter))
    · rename_i henter
      refine lt_trans (E.advance_measure h) ?_
      exact Prod.Lex.toLex_lt_toLex.mpr (Or.inl (E.enter_weight hseen henter))

/-- The loop: run until the stack is empty. -/
def run (state : σ) (stack : List (Frame ν δ)) : Except ε σ :=
  match stack with
  | [] => .ok state
  | frame :: rest =>
      match _h : E.step state frame rest with
      | .error e => .error e
      | .ok (state', stack') => run state' stack'
termination_by E.measure state stack
decreasing_by exact E.step_measure _h

theorem run_nil (state : σ) : E.run state [] = .ok state := by rw [run]

theorem run_cons (state : σ) (frame : Frame ν δ) (rest : List (Frame ν δ)) :
    E.run state (frame :: rest) =
      match E.step state frame rest with
      | .error e => .error e
      | .ok (state', stack') => E.run state' stack' := by
  rw [run]
  split <;> rename_i h <;> rw [h]

/-! ## The loop and the recursion agree -/

variable {E}

/-- Frames whose children are all explored run to the closing of the node. -/
theorem run_of_exploredAll {P : ν → List ν → σ → σ → Prop}
    (hP : ∀ {n leaves s s'} (rest : List (Frame ν δ)), P n leaves s s' →
      E.run s (Frame.fresh n :: rest) = E.run s' rest)
    (hseen : ∀ {n leaves s s' m}, P n leaves s s' → E.seen s m = true → E.seen s' m = true)
    {node : ν} {children leaves : List ν} {s s' : σ}
    (h : E.ExploredAll P children leaves s s') (data : δ) (rest : List (Frame ν δ)) :
    ∀ handed : List ν, E.seen s node = true →
      E.run s (Frame.mk node (handed ++ children) data handed.length :: rest) =
        E.run s' (Frame.mk node (handed ++ children) data (handed ++ children).length :: rest) := by
  induction h with
  | nil s =>
      intro handed _
      simp
  | @cons child children leaves leaves' s s' s'' hpermit hchild _ ih =>
      intro handed hnode
      have hget : (handed ++ child :: children)[handed.length]? = some child := by simp
      rw [run_cons, step, if_pos hnode, advance]
      simp only [hget, hpermit]
      rw [hP _ hchild]
      have hrest := ih (handed ++ [child]) (hseen hchild hnode)
      simpa using hrest

/-- The loop does to an explored node what the recursion says. -/
theorem run_of_explored : ∀ {depth : Nat} {node : ν} {leaves : List ν} {s s' : σ}
    (rest : List (Frame ν δ)), E.Explored depth node leaves s s' →
    E.run s (Frame.fresh node :: rest) = E.run s' rest := by
  intro depth
  induction depth with
  | zero => exact fun _ h => h.elim
  | succ depth ih =>
      rintro node leaves s s' rest ⟨hnot, hleaf | ⟨children, data, s₁, s₂, henter, hall, hleave⟩⟩
      · rw [run_cons, step, if_neg (by simp [Frame.fresh, hnot])]
        simp only [Frame.fresh, hleaf.2]
      · have hopen := (E.enter_seen henter).1
        have hchildren := run_of_exploredAll ih (fun h => h.seen_mono) hall data rest [] hopen
        have hseen₂ : E.seen s₂ node = true := hall.preserves
          (I := fun t => E.seen t node = true) (fun h hm => h.seen_mono hm) hopen
        have hstart : E.run s (Frame.fresh node :: rest) =
            E.run s₁ (Frame.mk node children data 0 :: rest) := by
          rw [run_cons, run_cons, step, step, if_neg (by simp [Frame.fresh, hnot]), if_pos hopen]
          simp only [Frame.fresh, henter]
        rw [hstart]
        refine hchildren.trans ?_
        rw [run_cons, step, if_pos hseen₂, advance]
        simp [hleave]

/-- What a successful run has done to a new node on top of the stack. -/
theorem explored_of_run : ∀ (weight : Nat) {node : ν} {s result : σ} {rest : List (Frame ν δ)},
    E.weight s ≤ weight → E.seen s node = false →
    E.run s (Frame.fresh node :: rest) = .ok result →
    ∃ depth leaves s', E.Explored depth node leaves s s' ∧ E.run s' rest = .ok result := by
  intro weight
  induction weight using Nat.strong_induction_on with
  | _ weight outer =>
      intro node s result rest hweight hnot hrun
      rw [run_cons, step, if_neg (by simp [Frame.fresh, hnot])] at hrun
      cases henter : E.enter s (Frame.fresh node : Frame ν δ).node with
      | error e => simp [henter] at hrun
      | ok opened =>
          obtain ⟨s₁, contents⟩ := opened
          have hless := E.enter_weight hnot henter
          cases contents with
          | none =>
              simp only [henter] at hrun
              exact ⟨1, [node], s₁, ⟨hnot, Or.inl ⟨rfl, henter⟩⟩, hrun⟩
          | some contents =>
              obtain ⟨children, data⟩ := contents
              simp only [henter] at hrun
              -- the remaining children, from any later state
              have inner : ∀ (remaining : List ν) (handed : List ν) (t : σ),
                  children = handed ++ remaining → E.weight t < E.weight s →
                  E.seen t node = true →
                  (match E.advance t (Frame.mk node children data handed.length) rest with
                    | Except.error e => Except.error e
                    | Except.ok (state', stack') => E.run state' stack') = Except.ok result →
                  ∃ depth leaves t₁ t₂, E.ExploredAll (E.Explored depth) remaining leaves t t₁ ∧
                    E.leave t₁ node children data = .ok t₂ ∧ E.run t₂ rest = .ok result := by
                intro remaining
                induction remaining with
                | nil =>
                    intro handed t hsplit _ _ hgo
                    have hget : children[handed.length]? = none := by simp [hsplit]
                    rw [advance] at hgo
                    simp only [hget] at hgo
                    cases hleave : E.leave t node children data with
                    | error e => simp [hleave] at hgo
                    | ok t₂ =>
                        simp only [hleave] at hgo
                        exact ⟨0, [], t, t₂, .nil t, hleave, hgo⟩
                | cons child remaining ih =>
                    intro handed t hsplit hlt hopen hgo
                    have hget : children[handed.length]? = some child := by simp [hsplit]
                    rw [advance] at hgo
                    simp only [hget] at hgo
                    cases hpermit : E.permit t child with
                    | error e => simp [hpermit] at hgo
                    | ok u =>
                        simp only [hpermit] at hgo
                        obtain ⟨depth, leaves, t', hchild, hgo⟩ := outer (E.weight t)
                          (by omega) le_rfl (E.permit_seen hpermit) hgo
                        have hopen' := hchild.seen_mono hopen
                        rw [run_cons, step, if_pos hopen'] at hgo
                        obtain ⟨depth', leaves', t₁, t₂, hall, hleave, hdone⟩ := ih
                          (handed ++ [child]) t' (by simp [hsplit])
                          (lt_of_le_of_lt hchild.weight_le hlt) hopen' (by simpa using hgo)
                        refine ⟨max depth depth', leaves ++ leaves', t₁, t₂, ?_, hleave, hdone⟩
                        exact .cons hpermit (hchild.le (le_max_left _ _))
                          (hall.mono fun h => h.le (le_max_right _ _))
              obtain ⟨depth, leaves, s₂, s₃, hall, hleave, hdone⟩ := inner children [] s₁ rfl hless
                (E.enter_seen henter).1 hrun
              exact ⟨depth + 1, leaves, s₃,
                ⟨hnot, Or.inr ⟨children, data, s₁, s₂, henter, hall, hleave⟩⟩, hdone⟩

end Loop

end Explorer

end Qalsh.Foundation

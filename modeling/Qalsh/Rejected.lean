/-
  Rejected.lean --- rejected cursor operations lose nothing.

  A caller holds cursors of several indexes, resets and scans them, and goes on when a
  call throws.  Every check of the public calls comes before the first store, in the
  wrappers and in the three scanners, so a rejected call leaves every cursor as it was.
  What has to be known of a cursor for this is only that it stands on a table its owner
  has, and no call of any index changes that.
-/
import Qalsh.ScanRun
import Qalsh.Foundation.Replay

set_option autoImplicit false

namespace Qalsh

open Foundation

variable {R : Type} {σ γ β κ ι ω : Type}

/-! ## Cursors -/

inductive CursorKind where
  | memory
  | disk
  | array
  deriving DecidableEq, Repr

/-- The part of a cursor no scan changes. -/
structure Anchor where
  kind : CursorKind
  owner : Option Nat
  tableId : Nat
  deriving DecidableEq, Repr

def Cursor.anchor : Cursor R → Anchor
  | .memory cursor => ⟨.memory, cursor.owner, cursor.tableId⟩
  | .disk cursor => ⟨.disk, cursor.owner, cursor.tableId⟩
  | .array cursor => ⟨.array, cursor.owner, cursor.tableId⟩

def Cursor.lastBound : Cursor R → Option R
  | .memory cursor => cursor.lastBound
  | .disk cursor => cursor.lastBound
  | .array cursor => cursor.lastBound

def Backend.kind : Backend → CursorKind
  | .memory _ => .memory
  | .bPlusTree _ => .disk
  | .sortedArray _ => .array

/-- How many tables the operations of a backend can reach. -/
def Backend.tableCount : Backend → Nat
  | .memory index => index.tables.length
  | .bPlusTree index => index.roots.length
  | .sortedArray index => index.tableOffsets.length

theorem BuiltInIndex.owns_iff {index : BuiltInIndex} {cursor : Cursor R} :
    index.owns cursor = true ↔
      cursor.anchor.kind = index.backend.kind ∧ cursor.anchor.owner = some index.address := by
  unfold owns
  cases index.backend <;> cases cursor <;>
    simp [InMemoryIndex.owns, BPlusTreeIndex.owns, SortedArrayIndex.owns, Cursor.anchor, Backend.kind]

theorem BuiltInIndex.anchor_blankCursor (index : BuiltInIndex) :
    (index.blankCursor : Cursor R).anchor = ⟨index.backend.kind, some index.address, 0⟩ := by
  unfold blankCursor Backend.kind
  cases index.backend <;> rfl

/-- A cursor stands on a table of the index if the index owns it. -/
def BuiltInIndex.Reaches (index : BuiltInIndex) (anchor : Anchor) : Prop :=
  anchor.kind = index.backend.kind → anchor.owner = some index.address →
    anchor.tableId < index.backend.tableCount

/-! ## Calls -/

section Calls

variable [RadiusArithmetic R]

/-- A call on a cursor.  The callback works on what its context points to. -/
inductive CursorCall (R ω : Type) where
  | reset (tableId : Nat) (queryValue : Binary32)
  | scan (bound : R) (maxEntries : Nat) (callback : Option (ProjectionHit → EStateM Error ω Unit))
      (scope : ScanScope)

/-- The cursors of a caller, and the context of its callbacks. -/
structure Caller (R ι ω : Type) where
  cursors : ι → Cursor R
  context : ω

/-- One cursor of the caller. -/
def Caller.slot [DecidableEq ι] (i : ι) : Lens (Caller R ι ω) (Cursor R) where
  get caller := caller.cursors i
  set cursor caller := { caller with cursors := Function.update caller.cursors i cursor }

def Caller.contextOf : Lens (Caller R ι ω) ω where
  get caller := caller.context
  set context caller := { caller with context := context }

/-- A callback of the caller; it leaves the cursors alone. -/
def Caller.callback (callback : ProjectionHit → EStateM Error ω Unit) (_ : Unit)
    (hit : ProjectionHit) : EStateM Error (Caller R ι ω) Unit :=
  Caller.contextOf.zoom (callback hit)

/-- Make a call on cursor `i`; a scan returns its report. -/
def BuiltInIndex.perform [Platform] [DecidableEq ι] (index : BuiltInIndex) (i : ι) :
    CursorCall R ω → EStateM Error (Caller R ι ω) (Option ScanReport)
  | .reset tableId queryValue => do
      (Caller.slot i).zoom (index.resetCursor tableId queryValue)
      return none
  | .scan bound maxEntries callback scope => do
      let (report, _) ← index.scan (Caller.slot i) bound maxEntries (callback.map Caller.callback)
        scope ()
      return some report

/-- The bound is below the one the cursor was last scanned with. -/
def Cursor.decreases (cursor : Cursor R) (bound : R) : Bool :=
  match cursor.lastBound with
  | none => false
  | some lastBound => !RadiusArithmetic.le lastBound bound

/-- The calls an index has to reject on a cursor. -/
def BuiltInIndex.rejects (index : BuiltInIndex) (cursor : Cursor R) : CursorCall R ω → Bool
  | .reset tableId queryValue =>
      !decide (tableId < index.metadata.numHashTables) || !queryValue.isFinite || !index.owns cursor
  | .scan bound maxEntries callback scope =>
      callback.isNone || decide (maxEntries = 0) || !RadiusArithmetic.isFinite bound ||
        !RadiusArithmetic.nonnegative bound || !scope.isValid || !index.owns cursor ||
        cursor.decreases bound

end Calls

/-! ## Rejection -/

/-- A computation throws `std::invalid_argument` and leaves the state as it was. -/
def Rejected {α : Type} (x : EStateM Error σ α) (s : σ) : Prop :=
  ∃ message, x s = .error (.invalidArgument message) s

theorem Rejected.bind {α α' : Type} {x : EStateM Error σ α'} {f : α' → EStateM Error σ α} {s : σ}
    (h : Rejected x s) : Rejected (x >>= f) s := by
  obtain ⟨message, h⟩ := h
  refine ⟨message, ?_⟩
  rw [bind_apply, h]

/-- A check and what follows it: only the second may rely on the check. -/
theorem Rejected.require {α : Type} {condition : Prop} [Decidable condition] {message : String}
    {rest : Unit → EStateM Error σ α} {s : σ} (h : condition → Rejected (rest ()) s) :
    Rejected (liftResult (Qalsh.require condition message) >>= rest) s := by
  by_cases hc : condition
  · obtain ⟨message', h⟩ := h hc
    refine ⟨message', ?_⟩
    rw [bind_apply, require_of hc]
    exact h
  · refine ⟨message, ?_⟩
    rw [bind_apply, Qalsh.require, if_neg hc]
    rfl

theorem Rejected.checkedSize {α : Type} {value : Nat} {description : String}
    {rest : Nat → EStateM Error σ α} {s : σ} (h : Rejected (rest value) s) :
    Rejected (liftResult (Qalsh.checkedSize value description) >>= rest) s := by
  by_cases hle : value ≤ uint64Max
  · rw [checkedSize_eq_ok.mpr ⟨rfl, hle⟩]
    exact h
  · apply Rejected.bind
    refine ⟨description, ?_⟩
    rw [Qalsh.checkedSize, Qalsh.require, if_neg hle]
    rfl

theorem Rejected.zoom {τ α : Type} {l : Lens σ τ} {x : EStateM Error τ α} {s : σ}
    (hset : l.set (l.get s) s = s) (h : Rejected x (l.get s)) : Rejected (l.zoom x) s := by
  obtain ⟨message, h⟩ := h
  refine ⟨message, ?_⟩
  unfold Lens.zoom
  rw [h]
  simp only [hset]

section Checks

variable [RadiusArithmetic R] [Platform]

omit [Platform] in
theorem Cursor.decreases_eq_true {cursor : Cursor R} {bound : R} (h : cursor.decreases bound = true) :
    ∃ lastBound, cursor.lastBound = some lastBound ∧ RadiusArithmetic.le lastBound bound = false := by
  unfold decreases at h
  cases hlast : cursor.lastBound with
  | none =>
      rw [hlast] at h
      cases h
  | some lastBound =>
      rw [hlast] at h
      exact ⟨lastBound, rfl, (Bool.not_eq_true' _).mp h⟩

omit [Platform] in
theorem resetBoundedSides_rejected {bound lastBound : R} {sides : BoundedSides R}
    (hlast : sides.lastBound = some lastBound) (hle : RadiusArithmetic.le lastBound bound = false)
    {α : Type} (rest : BoundedSides R → EStateM Error σ α) (s : σ) :
    Rejected (liftResult (resetBoundedSides bound sides) >>= rest) s := by
  apply Rejected.bind
  refine ⟨"scan bound cannot decrease for an existing cursor", ?_⟩
  unfold resetBoundedSides
  simp only [hlast, require, hle, Bool.false_eq_true, if_false, except_error_bind]
  rfl

omit [Platform] in
/-- The wrapper rejects a call, or its scanner does. -/
theorem scanChecked_rejected {belongs : Cursor R → Bool} {foreign : String}
    {scanImpl : Cursor R → (β → HitRange → EStateM Error σ β) → β →
      EStateM Error σ (ScanReport × β)} {slot : Lens σ (Cursor R)} {bound : R} {maxEntries : Nat}
    {callback : Option (β → ProjectionHit → EStateM Error σ β)} {acc : β} {s : σ}
    (h : ∀ f, callback = some f → 0 < maxEntries → RadiusArithmetic.isFinite bound = true →
      RadiusArithmetic.nonnegative bound = true → belongs (slot.get s) = true →
      Rejected (scanImpl (slot.get s) (forEachHit f) acc) s) :
    Rejected (scanChecked belongs foreign scanImpl slot bound maxEntries callback acc) s := by
  unfold scanChecked
  refine Rejected.require fun hcallback => Rejected.require fun hbudget =>
    Rejected.require fun hfinite => Rejected.require fun hsign => ?_
  cases callback with
  | none => cases hcallback
  | some f =>
      have hcheck : Rejected (liftResult (require (belongs (slot.get s) = true) foreign) >>= fun _ =>
          scanImpl (slot.get s) (forEachHit f) acc) s :=
        Rejected.require fun hbelongs => h f rfl hbudget hfinite hsign hbelongs
      obtain ⟨message, hcheck⟩ := hcheck
      refine ⟨message, ?_⟩
      rw [bind_apply, get_apply]
      exact hcheck

/-! ## The scanners reject before they store -/

theorem InMemoryIndex.scanImpl_rejected {index : InMemoryIndex} {slot : Lens σ (Cursor R)} {bound : R}
    {maxEntries : Nat} {scope : ScanScope} {p : PositionCursor R}
    {visitor : β → HitRange → EStateM Error σ β} {acc : β} {s : σ}
    (htable : p.tableId < index.tables.length)
    (h : scope.isValid = true → (Cursor.memory p).decreases bound = true) :
    Rejected (index.scanImpl slot bound maxEntries scope (.memory p) visitor acc) s := by
  unfold scanImpl
  apply Rejected.require
  intro hvalid
  obtain ⟨lastBound, hlast, hle⟩ := Cursor.decreases_eq_true (h hvalid)
  simp only [List.getElem?_eq_getElem htable]
  exact resetBoundedSides_rejected hlast hle _ _

theorem BPlusTreeIndex.scanImpl_rejected {index : BPlusTreeIndex} {slot : Lens σ (Cursor R)}
    {bound : R} {maxEntries : Nat} {scope : ScanScope} {q : DiskCursor R}
    {visitor : β → HitRange → EStateM Error σ β} {acc : β} {s : σ}
    (h : scope.isValid = true → (Cursor.disk q).decreases bound = true) :
    Rejected (index.scanImpl slot bound maxEntries scope (.disk q) visitor acc) s := by
  unfold scanImpl
  apply Rejected.require
  intro hvalid
  obtain ⟨lastBound, hlast, hle⟩ := Cursor.decreases_eq_true (h hvalid)
  exact resetBoundedSides_rejected hlast hle _ _

theorem SortedArrayIndex.scanImpl_rejected {index : SortedArrayIndex} {slot : Lens σ (Cursor R)}
    {bound : R} {maxEntries : Nat} {scope : ScanScope} {p : PositionCursor R}
    {visitor : β → HitRange → EStateM Error σ β} {acc : β} {s : σ}
    (htable : p.tableId < index.tableOffsets.length)
    (h : scope.isValid = true → (Cursor.array p).decreases bound = true) :
    Rejected (index.scanImpl slot bound maxEntries scope (.array p) visitor acc) s := by
  unfold scanImpl
  apply Rejected.require
  intro hvalid
  obtain ⟨lastBound, hlast, hle⟩ := Cursor.decreases_eq_true (h hvalid)
  simp only [List.getElem?_eq_getElem htable]
  apply Rejected.checkedSize
  apply Rejected.require
  intro _
  exact resetBoundedSides_rejected hlast hle _ _

/-! ## The indexes reject before they store -/

/-- A scan that fails one of its checks, on a cursor that stands on a table if the index
owns it. -/
theorem BuiltInIndex.scan_rejected {index : BuiltInIndex} {slot : Lens σ (Cursor R)} {bound : R}
    {maxEntries : Nat} {callback : Option (β → ProjectionHit → EStateM Error σ β)}
    {scope : ScanScope} {acc : β} {s : σ} (hreaches : index.Reaches (slot.get s).anchor)
    (h : callback.isSome = true → 0 < maxEntries → RadiusArithmetic.isFinite bound = true →
      RadiusArithmetic.nonnegative bound = true → index.owns (slot.get s) = true →
      scope.isValid = true → (slot.get s).decreases bound = true) :
    Rejected (index.scan slot bound maxEntries callback scope acc) s := by
  have hlast : ∀ f, callback = some f → 0 < maxEntries → RadiusArithmetic.isFinite bound = true →
      RadiusArithmetic.nonnegative bound = true → index.owns (slot.get s) = true →
      scope.isValid = true → (slot.get s).decreases bound = true := by
    rintro f rfl
    exact h rfl
  have htable : index.owns (slot.get s) = true →
      (slot.get s).anchor.tableId < index.backend.tableCount := by
    intro hown
    obtain ⟨hkind, howner⟩ := owns_iff.mp hown
    exact hreaches hkind howner
  obtain ⟨address, backend⟩ := index
  generalize hcursor : slot.get s = cursor at *
  cases backend with
  | memory index =>
      refine scanChecked_rejected fun f hf hbudget hfinite hsign hown => ?_
      rw [hcursor] at hown ⊢
      cases cursor with
      | memory p =>
          exact InMemoryIndex.scanImpl_rejected (htable hown) (hlast f hf hbudget hfinite hsign hown)
      | disk _ => cases hown
      | array _ => cases hown
  | bPlusTree index =>
      refine scanChecked_rejected fun f hf hbudget hfinite hsign hown => ?_
      rw [hcursor] at hown ⊢
      cases cursor with
      | disk q => exact BPlusTreeIndex.scanImpl_rejected (hlast f hf hbudget hfinite hsign hown)
      | memory _ => cases hown
      | array _ => cases hown
  | sortedArray index =>
      refine scanChecked_rejected fun f hf hbudget hfinite hsign hown => ?_
      rw [hcursor] at hown ⊢
      cases cursor with
      | array p =>
          exact SortedArrayIndex.scanImpl_rejected (htable hown)
            (hlast f hf hbudget hfinite hsign hown)
      | memory _ => cases hown
      | disk _ => cases hown

omit [Platform] [RadiusArithmetic R] in
/-- The three checks of a reset, before whatever it does. -/
theorem resetChecked_rejected {count tableId : Nat} {queryValue : Binary32}
    {belongs : Cursor R → Bool} {range finite foreign : String}
    {place : EStateM Error (Cursor R) Unit} {cursor : Cursor R}
    (h : tableId < count → queryValue.isFinite = true → belongs cursor = false) :
    Rejected (do
      liftResult (require (tableId < count) range)
      liftResult (requireFinite queryValue finite)
      if belongs (← get) then place else throw (.invalidArgument foreign)) cursor := by
  refine Rejected.require fun hrange => Rejected.require fun hfinite => ⟨foreign, ?_⟩
  rw [bind_apply, get_apply]
  simp only [h hrange hfinite, Bool.false_eq_true, if_false, throw_apply]

omit [Platform] [RadiusArithmetic R] in
theorem BuiltInIndex.resetCursor_rejected {index : BuiltInIndex} {tableId : Nat}
    {queryValue : Binary32} {cursor : Cursor R}
    (h : tableId < index.backend.tableCount → queryValue.isFinite = true →
      index.owns cursor = false) :
    Rejected (index.resetCursor tableId queryValue) cursor := by
  obtain ⟨address, backend⟩ := index
  cases backend with
  | memory index =>
      show Rejected (index.resetCursor address tableId queryValue) cursor
      unfold InMemoryIndex.resetCursor
      exact resetChecked_rejected h
  | bPlusTree index =>
      show Rejected (index.resetCursor address tableId queryValue) cursor
      unfold BPlusTreeIndex.resetCursor
      exact resetChecked_rejected h
  | sortedArray index =>
      show Rejected (index.resetCursor address tableId queryValue) cursor
      unfold SortedArrayIndex.resetCursor
      exact resetChecked_rejected h

end Checks

/-! ## No scan moves a cursor to another table -/

/-- The steps of a loop keep a property of positions. -/
structure SideLoop.Fixes (loop : SideLoop γ) (Q : γ → Prop) : Prop where
  setBlocked : ∀ b p, Q p → Q (loop.setBlocked b p)
  advance : ∀ count available p p' stop, Q p →
    loop.advance count available p = .ok (p', stop) → Q p'

structure Scanner.Fixes (scanner : Scanner γ) (Q : γ → Prop) : Prop where
  left : scanner.left.Fixes Q
  right : scanner.right.Fixes Q
  enterLeft : ∀ p p', Q p → scanner.enterLeft p = .ok p' → Q p'
  enterRight : ∀ p p', Q p → scanner.enterRight p = .ok p' → Q p'

section Anchors

variable [RadiusArithmetic R] [Platform] {Q : γ → Prop} {I : σ → Prop} {park : γ → σ → σ}
  {bound : R} {visitor : β → HitRange → EStateM Error σ β}

/-- A loop whose steps keep `Q`, with a visitor that keeps `I`, keeps both; what it parks
on the way out is a position with `Q`. -/
theorem SideLoop.Fixes.run {loop : SideLoop γ} (h : loop.Fixes Q)
    (hpark : ∀ p s, Q p → I s → I (park p s))
    (hvisit : ∀ acc range, Triple I (visitor acc range) (fun _ => I) fun _ => I) (limit : Nat) :
    ∀ (passes scanned visited : Nat) (p : γ) (acc : β), Q p →
      Triple I (loop.run park bound visitor limit passes scanned visited p acc)
        (fun result s => Q result.1 ∧ I s) fun _ => I := by
  intro passes
  induction passes with
  | zero => exact fun _ _ _ _ hp => Triple.pure fun _ hs => ⟨hp, hs⟩
  | succ passes ih =>
      intro scanned visited p acc hp
      unfold SideLoop.run
      split
      · have hq : ∀ b, Q (loop.setBlocked b p) := fun b => h.setBlocked b p hp
        refine Triple.bind (M := fun _ => I) ?_ fun acc' =>
          Triple.bind (M := fun result s => Q result.1 ∧ I s) ?_ fun result => ?_
        · unfold deliver
          split
          · exact Triple.onThrow (hvisit acc _) fun _ s hs => hpark _ s (hq _) hs
          · exact Triple.pure fun _ hs => hs
        · refine Triple.onThrow (Triple.liftResult (E := fun _ => I) (fun result hresult s hs =>
            ⟨?_, hs⟩) fun _ _ _ hs => hs) fun _ s hs => hpark _ s (hq _) hs
          exact h.advance _ _ _ result.1 result.2 (hq _) hresult
        · refine Triple.assume fun hresult => ?_
          obtain ⟨p', stop⟩ := result
          dsimp only
          split
          · exact Triple.pure fun _ hs => ⟨hresult, hs⟩
          · exact ih _ _ p' acc' hresult
      · exact Triple.pure fun _ hs => ⟨hp, hs⟩

theorem SideLoop.Fixes.scan {loop : SideLoop γ} (h : loop.Fixes Q) {enter : γ → Except Error γ}
    (henter : ∀ p p', Q p → enter p = .ok p' → Q p') (hpark : ∀ p s, Q p → I s → I (park p s))
    (hvisit : ∀ acc range, Triple I (visitor acc range) (fun _ => I) fun _ => I)
    (limit visited : Nat) {p : γ} (acc : β) (hp : Q p) :
    Triple I (loop.scan enter park bound visitor limit visited p acc)
      (fun result s => Q result.1 ∧ I s) fun _ => I := by
  unfold SideLoop.scan
  split
  · refine Triple.bind (M := fun q s => Q q ∧ I s) (Triple.onThrow (Triple.liftResult (E := fun _ => I)
      (fun q hq s hs => ⟨henter p q hp hq, hs⟩) fun _ _ _ hs => hs) fun _ s hs => hpark _ s hp hs)
      fun q => Triple.assume fun hq => ?_
    exact h.run hpark hvisit limit limit 0 visited q acc hq
  · exact Triple.pure fun _ hs => ⟨hp, hs⟩

/-- A call stores only cursors made from positions with `Q`. -/
theorem Scanner.Fixes.call {scanner : Scanner γ} (h : scanner.Fixes Q) {park commit : γ → Cursor R}
    {slot : Lens σ (Cursor R)} (hpark : ∀ p s, Q p → I s → I (slot.set (park p) s))
    (hcommit : ∀ p s, Q p → I s → I (slot.set (commit p) s))
    (hvisit : ∀ acc range, Triple I (visitor acc range) (fun _ => I) fun _ => I)
    (maxEntries : Nat) (scope : ScanScope) (tableId : Nat) {p : γ} (acc : β) (hp : Q p) :
    Triple I (scanner.call park commit slot bound maxEntries visitor scope tableId p acc)
      (fun _ => I) fun _ => I := by
  unfold Scanner.call Scanner.scan
  refine Triple.bind (M := fun result s => Q result.1 ∧ I s) (Triple.bind
    (h.left.scan h.enterLeft hpark hvisit _ _ acc hp) fun left => Triple.assume fun hleft =>
      Triple.bind (h.right.scan h.enterRight hpark hvisit _ _ left.2.2 hleft) fun right =>
        Triple.pure fun _ hs => hs) fun result => Triple.assume fun hresult => ?_
  refine Triple.bind (M := fun _ => I) ?_ fun _ => Triple.pure fun _ hs => hs
  exact fun s hs => hcommit result.1 s hresult hs

end Anchors

section Backends

variable {owner : Option Nat} {tableId : Nat}

theorem positionScanner_fixes (entryAt : Nat → Entry) (size : Nat) (offerLeft offerRight : Nat → Nat)
    (ends : Bool) :
    (positionScanner entryAt size offerLeft offerRight ends).Fixes
      fun p : PositionCursor R => p.owner = owner ∧ p.tableId = tableId := by
  refine ⟨⟨fun _ _ hp => hp, ?_⟩, ⟨fun _ _ hp => hp, ?_⟩, ?_, ?_⟩
  · intro count available p p' stop hp hadvance
    cases hadvance
    exact hp
  · intro count available p p' stop hp hadvance
    cases hadvance
    exact hp
  · intro p p' hp henter
    cases henter
    exact hp
  · intro p p' hp henter
    cases henter
    exact hp

namespace BPlusTreeIndex

/-- The cursor a position will leave stands where it stood. -/
def Position.Anchored (owner : Option Nat) (tableId : Nat) (position : Position R) : Prop :=
  position.cursor.owner = owner ∧ position.cursor.tableId = tableId

variable {index : BPlusTreeIndex}

theorem scanLoadPage_anchored {pageId : Nat} {position position' : Position R}
    (h : index.scanLoadPage pageId position = .ok position') (hp : position.Anchored owner tableId) :
    position'.Anchored owner tableId := by
  simp only [scanLoadPage, except_unit_bind_eq_ok] at h
  obtain ⟨-, h⟩ := h
  split at h
  · cases h
    exact hp
  · split at h
    · cases h
      exact hp
    · simp only [except_bind_eq_ok] at h
      obtain ⟨offset, -, h⟩ := h
      cases h
      exact hp

theorem enterLeft_anchored {position position' : Position R} (hp : position.Anchored owner tableId)
    (h : index.enterLeft position = .ok position') : position'.Anchored owner tableId := by
  simp only [enterLeft, except_bind_eq_ok] at h
  obtain ⟨loaded, hload, _, -, h⟩ := h
  cases h
  exact scanLoadPage_anchored hload hp

theorem enterRight_anchored {position position' : Position R} (hp : position.Anchored owner tableId)
    (h : index.enterRight position = .ok position') : position'.Anchored owner tableId := by
  simp only [enterRight, except_bind_eq_ok] at h
  obtain ⟨loaded, hload, _, -, h⟩ := h
  cases h
  exact scanLoadPage_anchored hload hp

theorem leftLoop_fixes (scope : ScanScope) :
    (index.leftLoop scope).Fixes (Position.Anchored (R := R) owner tableId) := by
  refine ⟨fun _ _ hp => hp, ?_⟩
  intro count available p p' stop hp hadvance
  simp only [leftLoop] at hadvance
  split at hadvance
  · cases hadvance
    exact hp
  · split at hadvance
    · simp only [except_bind_eq_ok] at hadvance
      obtain ⟨loaded, hload, _, -, h⟩ := hadvance
      cases h
      have hloaded : loaded.Anchored owner tableId := scanLoadPage_anchored hload hp
      exact hloaded
    · cases hadvance
      exact hp

theorem rightLoop_fixes (scope : ScanScope) :
    (index.rightLoop scope).Fixes (Position.Anchored (R := R) owner tableId) := by
  refine ⟨fun _ _ hp => hp, ?_⟩
  intro count available p p' stop hp hadvance
  simp only [rightLoop] at hadvance
  split at hadvance
  · cases hadvance
    exact hp
  · split at hadvance
    · simp only [except_bind_eq_ok] at hadvance
      obtain ⟨loaded, hload, _, -, h⟩ := hadvance
      cases h
      exact scanLoadPage_anchored hload hp
    · cases hadvance
      exact hp

theorem scanner_fixes (scope : ScanScope) :
    (index.scanner scope).Fixes (Position.Anchored (R := R) owner tableId) where
  left := leftLoop_fixes scope
  right := rightLoop_fixes scope
  enterLeft _ _ hp h := enterLeft_anchored hp h
  enterRight _ _ hp h := enterRight_anchored hp h

/-- The descent places the cursor it was given. -/
theorem descend_anchored {queryValue : Binary32} {cursor cursor' : DiskCursor R} :
    ∀ {steps currentPage : Nat}, index.descend queryValue cursor steps currentPage = .ok cursor' →
      cursor'.owner = cursor.owner ∧ cursor'.tableId = cursor.tableId := by
  intro steps
  induction steps with
  | zero =>
      intro currentPage h
      cases h
  | succ steps ih =>
      intro currentPage h
      simp only [descend, except_bind_eq_ok] at h
      obtain ⟨page, -, h⟩ := h
      split at h
      · simp only [except_bind_eq_ok] at h
        obtain ⟨_, -, lo, -, placed, hplaced, h⟩ := h
        have hleft : placed.owner = cursor.owner ∧ placed.tableId = cursor.tableId := by
          unfold placeLeft at hplaced
          split at hplaced
          · cases hplaced
            exact ⟨rfl, rfl⟩
          · split at hplaced
            · simp only [except_bind_eq_ok] at hplaced
              obtain ⟨_, -, _, -, hplaced⟩ := hplaced
              cases hplaced
              exact ⟨rfl, rfl⟩
            · cases hplaced
              exact ⟨rfl, rfl⟩
        cases h
        unfold placeRight
        split
        · exact hleft
        · split
          · exact hleft
          · exact hleft
      · simp only [except_bind_eq_ok] at h
        obtain ⟨_, -, _, -, child, -, _, -, h⟩ := h
        exact ih h

end BPlusTreeIndex

end Backends

/-! ## What the calls of an index leave -/

section Index

variable [RadiusArithmetic R] [Platform] {I : σ → Prop}

omit [RadiusArithmetic R] [Platform] in
theorem forEachHit_keeps {callback : β → ProjectionHit → EStateM Error σ β}
    (h : ∀ acc hit, Triple I (callback acc hit) (fun _ => I) fun _ => I) (acc : β) (range : HitRange) :
    Triple I (forEachHit callback acc range) (fun _ => I) fun _ => I := by
  unfold forEachHit
  exact Triple.foldlM (I := fun _ _ => I) (fun _ hit _ acc' _ => h acc' hit) range.hits [] acc rfl

omit [RadiusArithmetic R] [Platform] in
theorem require_keeps {condition : Prop} [Decidable condition] {message : String} {α : Type}
    {rest : Unit → EStateM Error σ α} (h : Triple I (rest ()) (fun _ => I) fun _ => I) :
    Triple I (liftResult (require condition message) >>= rest) (fun _ => I) fun _ => I :=
  Triple.bind (Triple.liftResult (Q := fun _ => I) (fun _ _ _ hs => hs) fun _ _ _ hs => hs) fun _ => h

omit [Platform] in
theorem scanChecked_keeps {belongs : Cursor R → Bool} {foreign : String}
    {scanImpl : Cursor R → (β → HitRange → EStateM Error σ β) → β →
      EStateM Error σ (ScanReport × β)} {slot : Lens σ (Cursor R)} {bound : R} {maxEntries : Nat}
    {callback : Option (β → ProjectionHit → EStateM Error σ β)} {acc : β}
    (h : ∀ s f, I s → callback = some f →
      Triple I (scanImpl (slot.get s) (forEachHit f) acc) (fun _ => I) fun _ => I) :
    Triple I (scanChecked belongs foreign scanImpl slot bound maxEntries callback acc) (fun _ => I)
      fun _ => I := by
  unfold scanChecked
  refine require_keeps (require_keeps (require_keeps (require_keeps ?_)))
  intro s hs
  rw [bind_apply, get_apply]
  refine require_keeps (?_ : Triple I _ _ _) s hs
  cases callback with
  | none => exact Triple.throw fun _ hs => hs
  | some f => exact h s f hs rfl

/-- A scan keeps what its callback keeps, as long as that does not tell cursors apart that
stand on one table. -/
theorem BuiltInIndex.scan_keeps (index : BuiltInIndex) {slot : Lens σ (Cursor R)}
    (hset : ∀ s cursor s', I s → I s' → cursor.anchor = (slot.get s).anchor → I (slot.set cursor s'))
    (bound : R) (maxEntries : Nat) {callback : Option (β → ProjectionHit → EStateM Error σ β)}
    (hcallback : ∀ f, callback = some f → ∀ acc hit, Triple I (f acc hit) (fun _ => I) fun _ => I)
    (scope : ScanScope) (acc : β) :
    Triple I (index.scan slot bound maxEntries callback scope acc) (fun _ => I) fun _ => I := by
  obtain ⟨address, backend⟩ := index
  cases backend with
  | memory index =>
      refine scanChecked_keeps fun s f hs hf => ?_
      have hset := fun p s' => hset s p s' hs
      generalize slot.get s = cursor at *
      unfold InMemoryIndex.scanImpl
      apply require_keeps
      cases cursor with
      | disk _ => exact Triple.throw fun _ hs => hs
      | array _ => exact Triple.throw fun _ hs => hs
      | memory p =>
          dsimp only
          cases index.tables[p.tableId]? with
          | none => exact Triple.throw fun _ hs => hs
          | some entries =>
              refine Triple.bind (Triple.liftResult (Q := fun _ => I) (fun _ _ _ hs => hs)
                fun _ _ _ hs => hs) fun sides => ?_
              have hstore : ∀ (q : PositionCursor R) s', q.owner = p.owner ∧ q.tableId = p.tableId →
                  I s' → I (slot.set (.memory q) s') := by
                rintro q s' ⟨howner, htable⟩ hs'
                exact hset _ s' hs' (by rw [Cursor.anchor, howner, htable]; rfl)
              exact (positionScanner_fixes _ _ _ _ _).call hstore hstore
                (forEachHit_keeps (hcallback f hf)) maxEntries scope _ acc ⟨rfl, rfl⟩
  | bPlusTree index =>
      refine scanChecked_keeps fun s f hs hf => ?_
      have hset := fun q s' => hset s q s' hs
      generalize slot.get s = cursor at *
      unfold BPlusTreeIndex.scanImpl
      apply require_keeps
      cases cursor with
      | memory _ => exact Triple.throw fun _ hs => hs
      | array _ => exact Triple.throw fun _ hs => hs
      | disk q =>
          refine Triple.bind (Triple.liftResult (Q := fun _ => I) (fun _ _ _ hs => hs)
            fun _ _ _ hs => hs) fun sides => ?_
          have hpark : ∀ (position : BPlusTreeIndex.Position R) s',
              position.Anchored q.owner q.tableId → I s' →
              I (slot.set (BPlusTreeIndex.parkedCursor (q.withSides sides) position) s') :=
            fun _ s' _ hs' => hset _ s' hs' rfl
          have hcommit : ∀ (position : BPlusTreeIndex.Position R) s',
              position.Anchored q.owner q.tableId → I s' → I (slot.set (.disk position.cursor) s') := by
            rintro position s' ⟨howner, htable⟩ hs'
            exact hset _ s' hs' (by rw [Cursor.anchor, howner, htable]; rfl)
          exact (BPlusTreeIndex.scanner_fixes scope).call hpark hcommit
            (forEachHit_keeps (hcallback f hf)) maxEntries scope _ acc ⟨rfl, rfl⟩
  | sortedArray index =>
      refine scanChecked_keeps fun s f hs hf => ?_
      have hset := fun p s' => hset s p s' hs
      generalize slot.get s = cursor at *
      unfold SortedArrayIndex.scanImpl
      apply require_keeps
      cases cursor with
      | memory _ => exact Triple.throw fun _ hs => hs
      | disk _ => exact Triple.throw fun _ hs => hs
      | array p =>
          dsimp only
          cases index.tableOffsets[p.tableId]? with
          | none => exact Triple.throw fun _ hs => hs
          | some tableOffset =>
              refine Triple.bind (Triple.liftResult (Q := fun _ => I) (fun _ _ _ hs => hs)
                fun _ _ _ hs => hs) fun offset => require_keeps (Triple.bind (Triple.liftResult
                  (Q := fun _ => I) (fun _ _ _ hs => hs) fun _ _ _ hs => hs) fun sides => ?_)
              have hstore : ∀ (q : PositionCursor R) s', q.owner = p.owner ∧ q.tableId = p.tableId →
                  I s' → I (slot.set (.array q) s') := by
                rintro q s' ⟨howner, htable⟩ hs'
                exact hset _ s' hs' (by rw [Cursor.anchor, howner, htable]; rfl)
              exact (positionScanner_fixes _ _ _ _ _).call hstore hstore
                (forEachHit_keeps (hcallback f hf)) maxEntries scope _ acc ⟨rfl, rfl⟩

omit [RadiusArithmetic R] [Platform] in
theorem resetChecked_keeps {P : Cursor R → Prop} {count tableId : Nat} {queryValue : Binary32}
    {belongs : Cursor R → Bool} {range finite foreign : String} {place : EStateM Error (Cursor R) Unit}
    (h : tableId < count → Triple (fun cursor => belongs cursor = true ∧ P cursor) place (fun _ => P)
      fun _ => P) :
    Triple P (do
      liftResult (require (tableId < count) range)
      liftResult (requireFinite queryValue finite)
      if belongs (← get) then place else throw (.invalidArgument foreign)) (fun _ => P) fun _ => P := by
  refine Triple.bind (M := fun _ cursor => tableId < count ∧ P cursor)
    (Triple.liftResult (fun _ hrange _ hP => ⟨require_eq_ok.mp hrange, hP⟩) fun _ _ _ hP => hP)
    fun _ => Triple.assume fun hrange => require_keeps fun cursor hP => ?_
  by_cases howns : belongs cursor = true
  · simp only [bind_apply, get_apply, if_pos howns]
    exact h hrange cursor ⟨howns, hP⟩
  · simp only [bind_apply, get_apply, if_neg howns]
    exact hP

omit [RadiusArithmetic R] [Platform] in
/-- A reset leaves a cursor alone or puts it on a table of the index. -/
theorem BuiltInIndex.resetCursor_keeps (index : BuiltInIndex) {P : Cursor R → Prop} (tableId : Nat)
    (queryValue : Binary32)
    (hplaced : tableId < index.backend.tableCount → ∀ cursor : Cursor R,
      cursor.anchor = ⟨index.backend.kind, some index.address, tableId⟩ → P cursor) :
    Triple P (index.resetCursor tableId queryValue) (fun _ => P) fun _ => P := by
  obtain ⟨address, backend⟩ := index
  cases backend with
  | memory index =>
      show Triple P (index.resetCursor address tableId queryValue) _ _
      unfold InMemoryIndex.resetCursor
      exact resetChecked_keeps fun hrange _ _ => hplaced hrange _ rfl
  | bPlusTree index =>
      show Triple P (index.resetCursor address tableId queryValue) _ _
      unfold BPlusTreeIndex.resetCursor
      refine resetChecked_keeps fun hrange => Triple.bind (M := fun _ => P)
        (fun _ _ => hplaced hrange _ rfl) fun _ => Triple.bind
          (Triple.liftResult (Q := fun cursor _ => cursor.owner = some address ∧
            cursor.tableId = tableId) (fun cursor hcursor _ _ =>
              BPlusTreeIndex.descend_anchored hcursor) fun _ _ _ hP => hP) fun cursor => ?_
      rintro _ ⟨howner, htable⟩
      exact hplaced hrange _ (by rw [Cursor.anchor, howner, htable]; rfl)
  | sortedArray index =>
      show Triple P (index.resetCursor address tableId queryValue) _ _
      unfold SortedArrayIndex.resetCursor
      have hlift : ∀ {α : Type} (x : Except Error α), Triple P (liftResult x) (fun _ => P) fun _ => P :=
        fun x => Triple.liftResult (fun _ _ _ hP => hP) fun _ _ _ hP => hP
      refine resetChecked_keeps fun hrange => Triple.consequence (P := P) ?_ (fun _ h => h.2)
        (fun _ _ h => h) fun _ _ h => h
      refine Triple.bind (hlift _) fun _ => Triple.bind (hlift _) fun _ =>
        Triple.bind (hlift _) fun position _ _ => ?_
      exact hplaced hrange _ rfl

end Index

/-! ## Callers of several indexes -/

theorem SortedArrayIndex.tableOffsets_length {file : File} {path : String} {index : SortedArrayIndex}
    (h : loadHeader file path = .ok index) :
    index.tableOffsets.length = index.metadata.numHashTables := by
  simp only [loadHeader, except_bind_eq_ok] at h
  obtain ⟨headerBytes, -, _, -, _, -, _, -, _, -, _, -, tableCount, hcount, _, -, offsetBytes, -, _,
    -, _, -, _, -, _, -, _, -, _, -, _, -, _, -, hindex⟩ := h
  obtain ⟨rfl, -⟩ := checkedSize_eq_ok.mp hcount
  cases hindex
  simp [decodeOffsets, metadataFromHeader]

/-- Indexes that are alive together. -/
structure IndexFamily (κ : Type) [Platform] where
  index : κ → BuiltInIndex
  accepted : ∀ k, (index k).backend.Accepted
  apart : ∀ k k', (index k).address = (index k').address → k = k'

/-- A call of the caller: on which index, on which cursor, and what. -/
structure CallerCall (R κ ι ω : Type) where
  index : κ
  cursor : ι
  call : CursorCall R ω

theorem Backend.Accepted.tableCount_eq [Platform] {backend : Backend} (h : backend.Accepted)
    (address : Nat) :
    backend.tableCount = (BuiltInIndex.mk address backend).metadata.numHashTables := by
  cases h with
  | @memory config accessor index h =>
      simp only [InMemoryIndex.build, except_unit_bind_eq_ok] at h
      obtain ⟨-, h⟩ := h
      cases accessor with
      | none => cases h
      | some accessor =>
          simp only [except_bind_eq_ok] at h
          obtain ⟨vectors, -, tables, htables, h⟩ := h
          cases h
          obtain ⟨sorted, rfl, hlength⟩ := projectTables_spec htables
          exact (List.length_map _).trans hlength
  | bPlusTree h =>
      obtain ⟨-, -, hlength, -⟩ := BPlusTreeIndex.loadHeader_spec (BPlusTreeIndex.openFile_spec h)
      exact hlength
  | sortedArray h =>
      exact SortedArrayIndex.tableOffsets_length (SortedArrayIndex.openFile_spec h)

theorem Backend.Accepted.tableCount_pos [Platform] {backend : Backend} (h : backend.Accepted) :
    0 < backend.tableCount := by
  obtain ⟨content, ⟨b⟩⟩ := h.backing (R := Binary32) 0
  rw [h.tableCount_eq 0]
  exact b.metadata_valid.tables.1

/-- `make_cursor` of a table and a finite query value. -/
theorem Backend.Accepted.makeCursor [RadiusArithmetic R] [Platform] {backend : Backend}
    (h : backend.Accepted) (address tableId : Nat) (hrange : tableId < backend.tableCount)
    (queryValue : Binary32) (hfinite : queryValue.isFinite = true) :
    ∃ cursor : Cursor R,
      (BuiltInIndex.mk address backend).makeCursor tableId queryValue = .ok cursor := by
  obtain ⟨content, ⟨b⟩⟩ := h.backing (R := R) address
  have hlt : tableId < content.tables.length := by
    rw [b.tables_length, ← h.tableCount_eq address]
    exact hrange
  obtain ⟨placed, -, hreset⟩ := b.reset
    (t := ⟨content.tables[tableId], tableId, queryValue, hfinite⟩) (List.getElem?_eq_getElem hlt)
    (BuiltInIndex.owns_blankCursor _)
  refine ⟨placed, ?_⟩
  unfold BuiltInIndex.makeCursor
  rw [hreset]

namespace IndexFamily

variable [RadiusArithmetic R] [Platform] [DecidableEq ι] (family : IndexFamily κ)

def perform (call : CallerCall R κ ι ω) : EStateM Error (Caller R ι ω) (Option ScanReport) :=
  (family.index call.index).perform call.cursor call.call

def rejects (caller : Caller R ι ω) (call : CallerCall R κ ι ω) : Bool :=
  (family.index call.index).rejects (caller.cursors call.cursor) call.call

/-- Every cursor of the caller was made by one of the indexes. -/
def Made (caller : Caller R ι ω) : Prop :=
  ∀ i, ∃ k tableId queryValue,
    (family.index k).makeCursor tableId queryValue = .ok (caller.cursors i)

/-- Every cursor of the caller stands on a table of the index that owns it. -/
def Standing (caller : Caller R ι ω) : Prop :=
  ∀ i k, (family.index k).Reaches (caller.cursors i).anchor

omit [RadiusArithmetic R] [DecidableEq ι] in
theorem tableCount_eq (k : κ) :
    (family.index k).backend.tableCount = (family.index k).metadata.numHashTables :=
  (family.accepted k).tableCount_eq (family.index k).address

variable {family}

omit [RadiusArithmetic R] [DecidableEq ι] in
/-- A cursor of one index on one of its tables stands on a table of any index that owns it. -/
theorem reaches_of_anchor {anchor : Anchor} {k : κ} {tableId : Nat}
    (hrange : tableId < (family.index k).backend.tableCount)
    (h : anchor = ⟨(family.index k).backend.kind, some (family.index k).address, tableId⟩) (k' : κ) :
    (family.index k').Reaches anchor := by
  intro _ howner
  rw [h] at howner ⊢
  obtain rfl := family.apart k k' (Option.some.inj howner)
  exact hrange

omit [RadiusArithmetic R] in
theorem Standing.set {caller : Caller R ι ω} (h : family.Standing caller) {i : ι} {cursor : Cursor R}
    (hcursor : ∀ k, (family.index k).Reaches cursor.anchor) :
    family.Standing ((Caller.slot i).set cursor caller) := by
  intro j k
  show (family.index k).Reaches (Function.update caller.cursors i cursor j).anchor
  by_cases hij : j = i
  · rw [hij, Function.update_self]
    exact hcursor k
  · rw [Function.update_of_ne hij]
    exact h j k

theorem perform_keeps (call : CallerCall R κ ι ω) :
    Triple family.Standing (family.perform call) (fun _ => family.Standing)
      fun _ => family.Standing := by
  obtain ⟨k, i, call⟩ := call
  cases call with
  | reset tableId queryValue =>
      refine Triple.bind (M := fun _ => family.Standing) (Triple.zoom
        ((family.index k).resetCursor_keeps tableId queryValue fun hrange cursor hcursor =>
          reaches_of_anchor hrange hcursor) (fun caller h => h i) fun caller cursor h hcursor =>
            h.set hcursor) fun _ => Triple.pure fun _ h => h
  | scan bound maxEntries callback scope =>
      refine Triple.bind (M := fun _ => family.Standing) ((family.index k).scan_keeps
        (fun caller cursor caller' h h' hanchor => h'.set (hanchor ▸ h i)) bound maxEntries ?_ scope ())
        fun _ => Triple.pure fun _ h => h
      intro f hf _ hit
      obtain ⟨f, -, rfl⟩ := Option.map_eq_some_iff.mp hf
      exact Triple.zoom (P := fun _ => True) (fun s _ => by cases f hit s <;> trivial)
        (fun _ _ => trivial) fun caller context h _ => h

omit [RadiusArithmetic R] [DecidableEq ι] in
theorem Made.standing {caller : Caller R ι ω} (h : family.Made caller) : family.Standing caller := by
  intro i
  obtain ⟨k, tableId, queryValue, hmake⟩ := h i
  have htables := (family.accepted k).tableCount_pos
  have hreset := (family.index k).resetCursor_keeps (P := fun cursor : Cursor R =>
    ∀ k', (family.index k').Reaches cursor.anchor) tableId queryValue
    (fun hrange cursor hcursor => reaches_of_anchor hrange hcursor) (family.index k).blankCursor
    (reaches_of_anchor htables (BuiltInIndex.anchor_blankCursor _))
  unfold BuiltInIndex.makeCursor at hmake
  cases hr : (family.index k).resetCursor tableId queryValue (family.index k).blankCursor with
  | ok _ cursor =>
      rw [hr] at hmake hreset
      rw [← Except.ok.inj hmake]
      exact hreset
  | error e cursor =>
      rw [hr] at hmake
      cases hmake

/-- A call that has to be rejected throws and leaves all cursors as they were. -/
theorem perform_rejected {caller : Caller R ι ω} (h : family.Standing caller)
    {call : CallerCall R κ ι ω} (hrejects : family.rejects caller call = true) :
    Rejected (family.perform call) caller := by
  obtain ⟨k, i, call⟩ := call
  have hset : (Caller.slot i).set ((Caller.slot i).get caller) caller = caller := by
    show ({ caller with cursors := _ } : Caller R ι ω) = caller
    rw [show (Caller.slot i).get caller = caller.cursors i from rfl, Function.update_eq_self]
  cases call with
  | reset tableId queryValue =>
      refine (Rejected.zoom hset (BuiltInIndex.resetCursor_rejected fun hrange hfinite => ?_)).bind
      rw [family.tableCount_eq] at hrange
      simp only [rejects, BuiltInIndex.rejects, hrange, hfinite, decide_true, Bool.not_true,
        Bool.or_self, Bool.false_or, Bool.not_eq_true'] at hrejects
      exact hrejects
  | scan bound maxEntries callback scope =>
      refine (BuiltInIndex.scan_rejected (h i k)
        fun hcallback hbudget hfinite hsign hown hscope => ?_).bind
      have hcallback : callback.isNone = false := by
        rw [Option.isSome_map] at hcallback
        exact Option.isNone_eq_false_iff.mpr hcallback
      have hown : (family.index k).owns (caller.cursors i) = true := hown
      simp only [rejects, BuiltInIndex.rejects, hcallback, Nat.ne_of_gt hbudget, hfinite, hsign, hown,
        hscope, decide_false, Bool.not_true, Bool.or_self, Bool.false_or] at hrejects
      exact hrejects

/-- Rejected calls may be left out of any sequence of calls: they throw, they leave every
cursor as it was, and the other calls show the same without them. -/
theorem rejected_calls_lose_nothing (family : IndexFamily κ) {caller : Caller R ι ω}
    (hmade : family.Made caller) (calls : List (CallerCall R κ ι ω)) :
    (∀ call, family.rejects (stateAfter family.perform calls caller) call = true →
      ∃ message, family.perform call (stateAfter family.perform calls caller) =
        .error (.invalidArgument message) (stateAfter family.perform calls caller)) ∧
    stateAfter family.perform (withoutRejected family.perform family.rejects calls caller) caller =
      stateAfter family.perform calls caller ∧
    outcomes family.perform family.rejects
        (withoutRejected family.perform family.rejects calls caller) caller =
      (outcomes family.perform family.rejects calls caller).filter fun outcome => !outcome.1 := by
  refine ⟨fun call hrejects => ?_, ?_⟩
  · exact perform_rejected (stateAfter_keeps perform_keeps calls hmade.standing) hrejects
  · refine withoutRejected_replays perform_keeps (fun caller call h hrejects => ?_) calls hmade.standing
    obtain ⟨message, herror⟩ := perform_rejected h hrejects
    exact ⟨_, herror⟩

omit [Platform] in
/-- An infinite query value is rejected by the index of the single point. -/
theorem rejected_calls_lose_nothing_unit :
    ∃ (_ : Platform) (family : IndexFamily Unit) (caller : Caller Binary32 Unit Unit),
      family.Made caller ∧ ∃ message,
        family.perform ⟨(), (), .reset 0 Binary32.infinity⟩ caller =
          .error (.invalidArgument message) caller := by
  obtain ⟨index, hindex⟩ := @Projectable.build (exactPlatform true) _ _ _ unitConfig_projectable
  refine ⟨exactPlatform true, ?_⟩
  have haccepted := @Backend.Accepted.memory (exactPlatform true) _ _ _ hindex
  obtain ⟨cursor, hcursor⟩ := @Backend.Accepted.makeCursor Binary32 _ (exactPlatform true) _ haccepted 0
    0 (@Backend.Accepted.tableCount_pos (exactPlatform true) _ haccepted) one (by decide)
  let family : @IndexFamily Unit (exactPlatform true) :=
    @IndexFamily.mk Unit (exactPlatform true) (fun _ => ⟨0, .memory index⟩) (fun _ => haccepted)
      fun _ _ _ => rfl
  have hmade : @Made Binary32 Unit Unit Unit (exactPlatform true) family ⟨fun _ => cursor, ()⟩ :=
    fun _ => ⟨(), 0, one, hcursor⟩
  refine ⟨family, ⟨fun _ => cursor, ()⟩, hmade, ?_⟩
  have hinfinite : Binary32.infinity.isFinite = false := by decide
  refine (@rejected_calls_lose_nothing Binary32 Unit Unit Unit _ (exactPlatform true) _ family _ hmade
    []).1 ⟨(), (), .reset 0 Binary32.infinity⟩ ?_
  simp [rejects, BuiltInIndex.rejects, stateAfter, hinfinite]

end IndexFamily

end Qalsh

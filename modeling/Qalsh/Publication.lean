/-
  Publication.lean --- index files are published whole or not at all.

  The temporary file is a draft until it is renamed or linked.  A draft leaves the
  destination as other processes want it; once published, the destination is the
  complete file.  Each call keeps one of the two, so every moment of every run is
  accounted for.
-/
import Qalsh.Publish

set_option autoImplicit false

namespace Qalsh

open Foundation

/-! ## What is kept at every moment -/

/-- The destination is what it would be without the process, or the complete file. -/
def Foundation.Directory.Whole (image : Except Error (List UInt8)) (directory : Directory) : Prop :=
  directory.content = directory.foreign ∨
    ∃ bytes, image = .ok bytes ∧ directory.content = some bytes

/-- What the destination holds before, it holds after. -/
def Foundation.Directory.Keeps (before after : Directory) : Prop :=
  ∀ bytes, before.content = some bytes → after.content = some bytes

/-- A run so far. -/
structure Foundation.World.Sound (image : Except Error (List UInt8)) (overwrite : Bool)
    (world : World) : Prop where
  whole : ∀ directory ∈ world.moments, directory.Whole image
  kept : overwrite = false → world.moments.Pairwise Directory.Keeps
  latest : overwrite = false → ∀ directory ∈ world.moments, directory.Keeps world.directory

/-- The destination has been renamed or linked to. -/
def Foundation.World.Published (world : World) : Prop :=
  (.rename, true) ∈ world.calls ∨ (.link, true) ∈ world.calls

/-- The temporary name is gone, or the last thing the process did was an `unlink` that
failed. -/
def Foundation.World.Tidy (world : World) : Prop :=
  world.directory.temporary = none ∨ world.calls.getLast? = some (.unlink, false)

section Sound

variable {image : Except Error (List UInt8)} {overwrite : Bool} {world : World}
  {directory : Directory}

theorem Foundation.World.Sound.move (h : world.Sound image overwrite) (hwhole : directory.Whole image)
    (hkeeps : overwrite = false → world.directory.Keeps directory) :
    (world.move directory).Sound image overwrite where
  whole := by
    intro d hd
    rcases List.mem_append.mp hd with hd | hd
    · exact h.whole d hd
    · rw [List.mem_singleton.mp hd]
      exact hwhole
  kept hoverwrite := by
    refine List.pairwise_append.mpr ⟨h.kept hoverwrite, List.pairwise_singleton _ _, ?_⟩
    intro d hd d' hd' bytes hbytes
    rw [List.mem_singleton.mp hd']
    exact hkeeps hoverwrite bytes (h.latest hoverwrite d hd bytes hbytes)
  latest hoverwrite d hd bytes hbytes := by
    rcases List.mem_append.mp hd with hd | hd
    · exact hkeeps hoverwrite bytes (h.latest hoverwrite d hd bytes hbytes)
    · rw [← List.mem_singleton.mp hd]
      exact hbytes

theorem Foundation.World.Sound.note (h : world.Sound image overwrite) (call : SystemCall)
    (success : Bool) : (world.note call success).Sound image overwrite :=
  ⟨h.whole, h.kept, h.latest⟩

theorem Foundation.World.Sound.resume (h : world.Sound image overwrite) (schedule : List Turn) :
    (world.resume schedule).Sound image overwrite :=
  ⟨h.whole, h.kept, h.latest⟩

end Sound

/-! ## The states of the directory -/

/-- Nothing has been published; destination and foreign content are the same. -/
structure Foundation.Directory.Idle (directory : Directory) : Prop where
  bounded : ∀ file, directory.destination = some file → file < directory.files.length
  unchanged : directory.content = directory.foreign

/-- The temporary file, not published yet, holds `bytes`. -/
structure Foundation.Directory.Draft (own : Nat) (bytes : List UInt8) (directory : Directory) : Prop
    extends directory.Idle where
  temporary : directory.temporary = some own
  file : directory.files[own]? = some bytes
  apart : directory.destination ≠ some own

/-- The file has been published and holds `bytes`. -/
structure Foundation.Directory.Final (own : Nat) (bytes : List UInt8) (directory : Directory) : Prop where
  destination : directory.destination = some own
  file : directory.files[own]? = some bytes

namespace Foundation.Directory

variable {directory : Directory} {own : Nat} {bytes : List UInt8}

theorem Idle.content_none (h : directory.Idle) (hnone : directory.destination = none) :
    directory.content = none ∧ directory.foreign = none := by
  have hcontent : directory.content = none := by
    unfold content
    rw [hnone]
    rfl
  exact ⟨hcontent, h.unchanged.symm.trans hcontent⟩

theorem Idle.createForeign (h : directory.Idle) (data : List UInt8) :
    (directory.createForeign data).Idle ∧ directory.Keeps (directory.createForeign data) := by
  cases hd : directory.destination with
  | none =>
      obtain ⟨hcontent, hforeign⟩ := h.content_none hd
      refine ⟨⟨fun file hfile => ?_, ?_⟩, fun bytes hbytes => ?_⟩
      · rw [Directory.createForeign, hd] at hfile
        cases hfile
        simp [Directory.createForeign]
      · simp [content, Directory.createForeign, hd, hforeign]
      · rw [hcontent] at hbytes
        cases hbytes
  | some file =>
      have hlt := h.bounded file hd
      have hfile : directory.content = some directory.files[file] := by
        unfold content
        rw [hd]
        exact List.getElem?_eq_getElem hlt
      have hafter : (directory.createForeign data).content = some directory.files[file] := by
        simp [content, Directory.createForeign, hd, List.getElem?_append_left hlt]
      refine ⟨⟨fun file' hfile' => ?_, ?_⟩, fun bytes hbytes => ?_⟩
      · rw [Directory.createForeign, hd] at hfile'
        cases hfile'
        exact hlt.trans_le (by simp [Directory.createForeign])
      · rw [hafter]
        simp [Directory.createForeign, h.unchanged.symm, hfile]
      · rw [hafter, ← hfile]
        exact hbytes

theorem Idle.makeTemporary (h : directory.Idle) :
    directory.makeTemporary.Draft directory.files.length [] where
  bounded file hfile := (h.bounded file hfile).trans_le (by simp [Directory.makeTemporary])
  unchanged := by
    refine Eq.trans ?_ h.unchanged
    unfold content Directory.makeTemporary
    cases hd : directory.destination with
    | none => rfl
    | some file => exact List.getElem?_append_left (h.bounded file hd)
  temporary := rfl
  file := by simp [Directory.makeTemporary]
  apart hown := Nat.lt_irrefl _ (h.bounded _ hown)

theorem Idle.keeps_makeTemporary (h : directory.Idle) : directory.Keeps directory.makeTemporary := by
  intro bytes hbytes
  exact (h.makeTemporary.unchanged.trans h.unchanged.symm).trans hbytes

theorem Draft.createForeign (h : directory.Draft own bytes) (data : List UInt8) :
    (directory.createForeign data).Draft own bytes where
  toIdle := (h.toIdle.createForeign data).1
  temporary := h.temporary
  file := by
    obtain ⟨hlt, -⟩ := List.getElem?_eq_some_iff.mp h.file
    exact (List.getElem?_append_left hlt).trans h.file
  apart hown := by
    obtain ⟨hlt, -⟩ := List.getElem?_eq_some_iff.mp h.file
    rw [Directory.createForeign] at hown
    cases hd : directory.destination with
    | none =>
        rw [hd] at hown
        cases hown
        exact Nat.lt_irrefl _ hlt
    | some file =>
        rw [hd] at hown
        cases hown
        exact h.apart hd

theorem Draft.update (h : directory.Draft own bytes) (f : List UInt8 → List UInt8) :
    (directory.update own f).Draft own (f bytes) ∧
      (directory.update own f).content = directory.content := by
  have hcontent : (directory.update own f).content = directory.content := by
    unfold content Directory.update
    cases hd : directory.destination with
    | none => rfl
    | some file =>
        have hne : own ≠ file := fun heq => h.apart (heq ▸ hd)
        exact List.getElem?_modify_ne f directory.files hne
  refine ⟨⟨⟨fun file hfile => ?_, hcontent.trans h.unchanged⟩, h.temporary, ?_, h.apart⟩, hcontent⟩
  · exact (h.bounded file hfile).trans_eq (List.length_modify ..).symm
  · unfold Directory.update
    rw [List.getElem?_modify_eq, h.file]
    rfl

theorem Draft.rename (h : directory.Draft own bytes) : directory.rename.Final own bytes :=
  ⟨h.temporary, h.file⟩

theorem Draft.link (h : directory.Draft own bytes) {after : Directory}
    (hlink : directory.link = .ok after) :
    after.Final own bytes ∧ after.temporary = some own ∧ directory.Keeps after := by
  unfold Directory.link at hlink
  cases hd : directory.destination with
  | none =>
      rw [hd] at hlink
      cases hlink
      refine ⟨⟨h.temporary, h.file⟩, h.temporary, fun data hdata => ?_⟩
      rw [(h.content_none hd).1] at hdata
      cases hdata
  | some file =>
      rw [hd] at hlink
      cases hlink

theorem unlink_eq {after : Directory} (h : directory.unlink = .ok after) :
    after = { directory with temporary := none } := by
  unfold Directory.unlink at h
  split at h
  · cases h
    rfl
  · cases h

theorem Final.content (h : directory.Final own bytes) : directory.content = some bytes := by
  unfold Directory.content
  rw [h.destination]
  exact h.file

theorem Final.createForeign (h : directory.Final own bytes) (data : List UInt8) :
    (directory.createForeign data).Final own bytes where
  destination := by simp [Directory.createForeign, h.destination]
  file := by
    obtain ⟨hlt, -⟩ := List.getElem?_eq_some_iff.mp h.file
    exact (List.getElem?_append_left hlt).trans h.file

end Foundation.Directory

/-! ## The states of a run -/

/-- Before anything has been published. -/
structure Foundation.World.Waiting (image : Except Error (List UInt8)) (overwrite : Bool)
    (world : World) : Prop where
  idle : world.directory.Idle
  sound : world.Sound image overwrite
  unpublished : ¬ world.Published

/-- The temporary file is being written. -/
structure Foundation.World.Drafting (image : Except Error (List UInt8)) (overwrite : Bool) (own : Nat)
    (bytes : List UInt8) (world : World) : Prop extends world.Waiting image overwrite where
  draft : world.directory.Draft own bytes

/-- The complete file has been published. -/
structure Foundation.World.Done (image : Except Error (List UInt8)) (overwrite : Bool) (own : Nat)
    (bytes : List UInt8) (world : World) : Prop where
  complete : image = .ok bytes
  final : world.directory.Final own bytes
  sound : world.Sound image overwrite
  published : world.Published

/-- Nothing has been published, or the complete file. -/
def Foundation.World.Held (image : Except Error (List UInt8)) (overwrite : Bool) (world : World) :
    Prop :=
  world.Waiting image overwrite ∨ ∃ own bytes, world.Done image overwrite own bytes

/-- What holds whatever other processes do, and after calls that leave the directory alone. -/
structure Foundation.Steady (I : World → Prop) : Prop extends Stable I where
  note : ∀ world call success, (success = true → call ≠ .rename ∧ call ≠ .link) → I world →
    I (world.note call success)
  stay : ∀ world, I world → I (world.move world.directory)

section Runs

variable {image : Except Error (List UInt8)} {overwrite : Bool} {own : Nat} {bytes : List UInt8}
  {world : World} {I M : World → Prop} {call : SystemCall}
  {effect : Nat → Directory → Except String Directory} {text : String}

namespace Foundation.World

theorem published_note {call : SystemCall} {success : Bool}
    (h : success = true → call ≠ .rename ∧ call ≠ .link) :
    (world.note call success).Published ↔ world.Published := by
  unfold Published note
  simp only [List.mem_append, List.mem_singleton, Prod.mk.injEq]
  grind

theorem Published.note (h : world.Published) (call : SystemCall) (success : Bool) :
    (world.note call success).Published :=
  h.imp (List.mem_append_left _) (List.mem_append_left _)

theorem Sound.stay (h : world.Sound image overwrite) (hwhole : world.directory.Whole image) :
    (world.move world.directory).Sound image overwrite :=
  h.move hwhole fun _ _ hbytes => hbytes

theorem Waiting.steady : Steady (World.Waiting image overwrite) where
  resume _ schedule h := ⟨h.idle, h.sound.resume schedule, h.unpublished⟩
  foreign _ data h :=
    have hcreate := h.idle.createForeign data
    ⟨hcreate.1, h.sound.move (Or.inl hcreate.1.unchanged) fun _ => hcreate.2, h.unpublished⟩
  note _ call success hcall h :=
    ⟨h.idle, h.sound.note call success, fun hpublished =>
      h.unpublished ((published_note hcall).mp hpublished)⟩
  stay _ h := ⟨h.idle, h.sound.stay (Or.inl h.idle.unchanged), h.unpublished⟩

theorem Drafting.steady : Steady (World.Drafting image overwrite own bytes) where
  resume _ schedule h := ⟨Waiting.steady.resume _ schedule h.toWaiting, h.draft⟩
  foreign _ data h := ⟨Waiting.steady.foreign _ data h.toWaiting, h.draft.createForeign data⟩
  note _ call success hcall h := ⟨Waiting.steady.note _ call success hcall h.toWaiting, h.draft⟩
  stay _ h := ⟨Waiting.steady.stay _ h.toWaiting, h.draft⟩

theorem Done.whole (h : world.Done image overwrite own bytes) : world.directory.Whole image :=
  Or.inr ⟨bytes, h.complete, h.final.content⟩

theorem Done.steady : Steady (World.Done image overwrite own bytes) where
  resume _ schedule h := ⟨h.complete, h.final, h.sound.resume schedule, h.published⟩
  foreign _ data h := by
    have hfinal := h.final.createForeign data
    refine ⟨h.complete, hfinal, h.sound.move (Or.inr ⟨bytes, h.complete, hfinal.content⟩)
      fun _ bytes' hbytes => ?_, h.published⟩
    rw [hfinal.content, ← h.final.content]
    exact hbytes
  note _ call success _ h := ⟨h.complete, h.final, h.sound.note call success, h.published.note _ _⟩
  stay _ h := ⟨h.complete, h.final, h.sound.stay h.whole, h.published⟩

theorem Done.held (h : world.Done image overwrite own bytes) : world.Held image overwrite :=
  Or.inr ⟨own, bytes, h⟩

theorem Drafting.held (h : world.Drafting image overwrite own bytes) : world.Held image overwrite :=
  Or.inl h.toWaiting

theorem Held.sound (h : world.Held image overwrite) : world.Sound image overwrite := by
  rcases h with h | ⟨own, bytes, h⟩
  · exact h.sound
  · exact h.sound

theorem Held.steady : Steady (World.Held image overwrite) where
  resume _ schedule h := h.imp (Waiting.steady.resume _ schedule) fun ⟨own, bytes, h⟩ =>
    ⟨own, bytes, Done.steady.resume _ schedule h⟩
  foreign _ data h := h.imp (Waiting.steady.foreign _ data) fun ⟨own, bytes, h⟩ =>
    ⟨own, bytes, Done.steady.foreign _ data h⟩
  note _ call success hcall h := h.imp (Waiting.steady.note _ call success hcall)
    fun ⟨own, bytes, h⟩ => ⟨own, bytes, Done.steady.note _ call success hcall h⟩
  stay _ h := h.imp (Waiting.steady.stay _) fun ⟨own, bytes, h⟩ =>
    ⟨own, bytes, Done.steady.stay _ h⟩

end Foundation.World

/-! ## Calls that must succeed -/

theorem orThrow_spec {Q : World → Prop} (hstable : Stable I)
    (hdone : ∀ world count directory, I world → effect count world.directory = .ok directory →
      Q ((world.note call true).move directory))
    (hfail : ∀ world, I world → M (world.note call false)) (hstop : ∀ world, I world → M world) :
    Triple I (orThrow text (perform call effect)) (fun _ => Q) fun _ => M := by
  refine Triple.bind (M := fun outcome world => (failure outcome = none → Q world) ∧
    ∀ reason, failure outcome = some reason → M world)
    (perform_spec hstable hstop fun world outcome h => ?_) fun outcome => ?_
  · cases outcome with
    | done count =>
        cases he : effect count world.directory with
        | ok directory =>
            rw [World.answer_done he]
            exact ⟨fun _ => hdone world count directory h he, fun _ hnone => by cases hnone⟩
        | error reason =>
            rw [World.answer_refused he]
            exact ⟨fun hsome => (by cases hsome), fun _ _ => hfail world h⟩
    | interrupted => exact ⟨fun hsome => (by cases hsome), fun _ _ => hfail world h⟩
    | failed reason => exact ⟨fun hsome => (by cases hsome), fun _ _ => hfail world h⟩
  · cases hreason : failure outcome with
    | none => exact Triple.pure fun _ h => h.1 rfl
    | some reason => exact Triple.throw fun _ h => h.2 reason rfl

theorem orThrow_quietly (hsteady : Steady I) (hcall : call ≠ .rename ∧ call ≠ .link)
    (hI : ∀ world, I world → M world) :
    Triple I (orThrow text (performQuietly call)) (fun _ => I) fun _ => M := by
  refine orThrow_spec hsteady.toStable (fun world count directory h heffect => ?_)
    (fun world h => hI _ (hsteady.note world call false nofun h)) hI
  cases heffect
  exact hsteady.stay (world.note call true) (hsteady.note world call true (fun _ => hcall) h)

theorem performQuietly_spec {E : Halt Error → World → Prop} (hsteady : Steady I)
    (hcall : call ≠ .rename ∧ call ≠ .link) (hstop : ∀ world, I world → E .stopped world) :
    Triple I (performQuietly call : Process Error Outcome) (fun _ => I) E := by
  refine perform_spec hsteady.toStable hstop fun world outcome h => ?_
  cases outcome with
  | done count =>
      exact hsteady.stay (world.note call true) (hsteady.note world call true (fun _ => hcall) h)
  | interrupted => exact hsteady.note world call false nofun h
  | failed reason => exact hsteady.note world call false nofun h

/-! ## Writing the draft -/

theorem pwrite_spec (data : List UInt8) (offset : Nat) :
    Triple (World.Drafting image overwrite own bytes) (pwrite own data offset)
      (fun outcome => match outcome with
        | .done count =>
            World.Drafting image overwrite own (pwriteBytes offset (data.take count) bytes)
        | _ => World.Drafting image overwrite own bytes)
      fun _ => World.Drafting image overwrite own bytes := by
  refine perform_spec World.Drafting.steady.toStable (fun _ h => h) fun world outcome h => ?_
  cases outcome with
  | done count =>
      obtain ⟨hdraft, hcontent⟩ := h.draft.update (pwriteBytes offset (data.take count))
      have hnote := World.Waiting.steady.note world .pwrite true (fun _ => ⟨nofun, nofun⟩) h.toWaiting
      refine ⟨⟨hdraft.toIdle, hnote.sound.move (Or.inl hdraft.unchanged) fun _ bytes' hbytes => ?_,
        hnote.unpublished⟩, hdraft⟩
      exact hcontent.trans hbytes
  | interrupted => exact World.Drafting.steady.note world _ false nofun h
  | failed reason => exact World.Drafting.steady.note world _ false nofun h

/-- The loop writes the rest of the data, in any pieces. -/
theorem writeLoop_spec (data : List UInt8) (offset : Nat) (path : String) (done : Nat) :
    Triple (World.Drafting image overwrite own bytes) (writeLoop own data offset path done)
      (fun _ => World.Drafting image overwrite own
        (pwriteBytes (offset + done) (data.drop done) bytes))
      fun _ => World.Held image overwrite := by
  intro world h
  fun_induction writeLoop own data offset path done world generalizing bytes with
  | case1 done world hlt world' hrun ih =>
      have hcall := pwrite_spec (data.drop done) (offset + done) world h
      rw [hrun] at hcall
      exact ih hcall
  | case2 done world hlt world' hrun =>
      have hcall := pwrite_spec (data.drop done) (offset + done) world h
      rw [hrun] at hcall
      exact hcall.held
  | case3 done world hlt count world' hrun hcount ih =>
      have hcall := pwrite_spec (data.drop done) (offset + done) world h
      rw [hrun] at hcall
      have hstep := ih hcall
      rw [← Nat.add_assoc, ← List.drop_drop,
        pwriteBytes_pieces _ _ _ (Nat.pos_of_ne_zero hcount)] at hstep
      exact hstep
  | case4 done world hlt reason world' hrun =>
      have hcall := pwrite_spec (data.drop done) (offset + done) world h
      rw [hrun] at hcall
      exact hcall.held
  | case5 done world hlt e world' hrun =>
      have hcall := pwrite_spec (data.drop done) (offset + done) world h
      rw [hrun] at hcall
      exact hcall.held
  | case6 done world hlt =>
      rw [List.drop_eq_nil_of_le (Nat.le_of_not_lt hlt)]
      exact h

theorem check_spec {α : Type} {x : Except Error α} {Q : α → World → Prop}
    (hok : ∀ a, x = .ok a → ∀ world, I world → Q a world) (hI : ∀ world, I world → M world) :
    Triple I (check x) Q fun _ => M := by
  cases x with
  | ok a => exact Triple.pure fun world h => hok a rfl world h
  | error e => exact Triple.throw fun world h => hI world h

theorem writeAt_spec (data : List UInt8) (offset : Nat) (path : String) :
    Triple (World.Drafting image overwrite own bytes) (writeAt own data offset path)
      (fun _ => World.Drafting image overwrite own (pwriteBytes offset data bytes))
      fun _ => World.Held image overwrite := by
  unfold writeAt
  cases hdata : data.isEmpty with
  | true =>
      rw [pwriteBytes, hdata]
      exact Triple.pure fun _ h => h
  | false =>
      refine Triple.bind (check_spec (Q := fun _ => World.Drafting image overwrite own bytes)
        (fun _ _ _ h => h) fun _ h => h.held) fun _ => ?_
      refine Triple.bind (check_spec (Q := fun _ => World.Drafting image overwrite own bytes)
        (fun _ _ _ h => h) fun _ h => h.held) fun _ => ?_
      exact writeLoop_spec data offset path 0

/-- The pieces are put into the file one after the other. -/
theorem forM_pieces_spec (path : String) (pieces : List (Except Error (Nat × List UInt8)))
    (hrest : pieces.foldlM FileLayout.place bytes = image) :
    Triple (World.Drafting image overwrite own bytes)
      (pieces.forM fun piece => do
        let (offset, data) ← check piece
        writeAt own data offset path)
      (fun _ world => ∃ bytes, image = .ok bytes ∧ world.Drafting image overwrite own bytes)
      fun _ => World.Held image overwrite := by
  induction pieces generalizing bytes with
  | nil => exact Triple.pure fun world h => ⟨bytes, hrest.symm, h⟩
  | cons piece rest ih =>
      rw [List.foldlM_cons] at hrest
      refine Triple.bind (M := fun _ world => ∃ next, FileLayout.place bytes piece = .ok next ∧
        world.Drafting image overwrite own next) ?_ fun _ => ?_
      · cases piece with
        | error e => exact Triple.throw fun _ h => h.held
        | ok piece =>
            exact (writeAt_spec piece.2 piece.1 path).consequence (fun _ h => h)
              (fun _ world h => ⟨_, rfl, h⟩) fun _ _ h => h
      · rintro world ⟨next, hnext, h⟩
        rw [hnext] at hrest
        exact ih hrest world h

theorem fillTemporary_spec (texts : BuildTexts) (layout : FileLayout) (path : String) :
    Triple (World.Drafting layout.image overwrite own [])
      (fillTemporary texts layout own path)
      (fun _ world => ∃ bytes, layout.image = .ok bytes ∧
        world.Drafting layout.image overwrite own bytes)
      fun _ => World.Held layout.image overwrite := by
  unfold fillTemporary
  refine Triple.bind (orThrow_quietly World.Drafting.steady ⟨nofun, nofun⟩ fun _ h => h.held) fun _ => ?_
  refine Triple.bind (M := fun _ => World.Drafting layout.image overwrite own
    (resize layout.fileSize [])) ?_ fun _ => ?_
  · refine orThrow_spec World.Drafting.steady.toStable (fun world count directory h heffect => ?_)
      (fun world h => (World.Drafting.steady.note world _ false nofun h).held) fun _ h => h.held
    cases heffect
    obtain ⟨hdraft, hcontent⟩ := h.draft.update (resize layout.fileSize)
    have hnote := World.Waiting.steady.note world .ftruncate true (fun _ => ⟨nofun, nofun⟩) h.toWaiting
    exact ⟨⟨hdraft.toIdle, hnote.sound.move (Or.inl hdraft.unchanged) fun _ _ hbytes =>
      hcontent.trans hbytes, hnote.unpublished⟩, hdraft⟩
  · refine Triple.bind (forM_pieces_spec path layout.pieces rfl) fun _ => ?_
    rintro world ⟨bytes, hbytes, h⟩
    have hflush : Triple (World.Drafting layout.image overwrite own bytes)
        (orThrow s!"failed to flush index {path}: " (performQuietly .fsync))
        (fun _ => World.Drafting layout.image overwrite own bytes) fun _ => World.Held layout.image overwrite :=
      orThrow_quietly World.Drafting.steady ⟨nofun, nofun⟩ fun _ h => h.held
    exact hflush.consequence (fun _ h => h) (fun _ _ h => ⟨bytes, hbytes, h⟩) (fun _ _ h => h) world h

/-! ## Publishing it -/

/-- The file has been published and the temporary name is gone. -/
abbrev Foundation.World.Settled (image : Except Error (List UInt8)) (overwrite : Bool) (own : Nat)
    (bytes : List UInt8) (world : World) : Prop :=
  world.Done image overwrite own bytes ∧ world.directory.temporary = none

theorem Foundation.World.Settled.steady : Steady (World.Settled image overwrite own bytes) where
  resume _ schedule h := ⟨World.Done.steady.resume _ schedule h.1, h.2⟩
  foreign _ data h := ⟨World.Done.steady.foreign _ data h.1, h.2⟩
  note _ call success hcall h := ⟨World.Done.steady.note _ call success hcall h.1, h.2⟩
  stay _ h := ⟨World.Done.steady.stay _ h.1, h.2⟩

theorem renameOrLink_spec (hcomplete : image = .ok bytes) (temporaryPath destination : String) :
    Triple (World.Drafting image overwrite own bytes)
      (renameOrLink temporaryPath destination overwrite)
      (fun _ => World.Settled image overwrite own bytes) fun _ => World.Held image overwrite := by
  cases overwrite with
  | true =>
      refine orThrow_spec World.Drafting.steady.toStable (fun world count directory h heffect => ?_)
        (fun world h => (World.Drafting.steady.note world _ false nofun h).held) fun _ h => h.held
      cases heffect
      have hfinal := h.draft.rename
      refine ⟨⟨hcomplete, hfinal, ?_, Or.inl ?_⟩, rfl⟩
      · exact (h.sound.note _ _).move (Or.inr ⟨bytes, hcomplete, hfinal.content⟩) fun h => nomatch h
      · exact List.mem_append_right _ List.mem_cons_self
  | false =>
      refine Triple.bind (M := fun _ => World.Done image false own bytes) ?_ fun _ => ?_
      · refine orThrow_spec World.Drafting.steady.toStable (fun world count directory h heffect => ?_)
          (fun world h => (World.Drafting.steady.note world _ false nofun h).held) fun _ h => h.held
        obtain ⟨hfinal, -, hkeeps⟩ := h.draft.link heffect
        refine ⟨hcomplete, hfinal, ?_, Or.inr ?_⟩
        · exact (h.sound.note _ _).move (Or.inr ⟨bytes, hcomplete, hfinal.content⟩) fun _ => hkeeps
        · exact List.mem_append_right _ List.mem_cons_self
      · refine orThrow_spec World.Done.steady.toStable (fun world count directory h heffect => ?_)
          (fun world h => (World.Done.steady.note world _ false nofun h).held) fun _ h => h.held
        have hafter := Directory.unlink_eq heffect
        have hnote := World.Done.steady.note world .unlink true (fun _ => ⟨nofun, nofun⟩) h
        subst hafter
        exact ⟨⟨hcomplete, ⟨h.final.destination, h.final.file⟩,
          hnote.sound.move (Or.inr ⟨bytes, hcomplete, h.final.content⟩) fun _ _ hbytes => hbytes,
          hnote.published⟩, rfl⟩

theorem flushDirectory_spec :
    Triple (World.Settled image overwrite own bytes) flushDirectory
      (fun _ => World.Settled image overwrite own bytes) fun _ => World.Held image overwrite := by
  unfold flushDirectory
  refine Triple.bind (orThrow_quietly World.Settled.steady ⟨nofun, nofun⟩ fun _ h => h.1.held)
    fun _ => ?_
  refine Triple.bind (performQuietly_spec World.Settled.steady ⟨nofun, nofun⟩ fun _ h => h.1.held)
    fun outcome => ?_
  cases failure outcome with
  | none => exact orThrow_quietly World.Settled.steady ⟨nofun, nofun⟩ fun _ h => h.1.held
  | some reason =>
      exact Triple.bind (performQuietly_spec World.Settled.steady ⟨nofun, nofun⟩
        fun _ h => h.1.held) fun _ => Triple.throw fun _ h => h.1.held

theorem closeAndPublish_spec (hcomplete : image = .ok bytes) (path temporaryPath : String) :
    Triple (World.Drafting image overwrite own bytes)
      (closeAndPublish path temporaryPath overwrite)
      (fun _ => World.Settled image overwrite own bytes) fun _ => World.Held image overwrite :=
  Triple.bind (orThrow_quietly World.Drafting.steady ⟨nofun, nofun⟩ fun _ h => h.held) fun _ =>
    Triple.bind (renameOrLink_spec hcomplete temporaryPath path) fun _ => flushDirectory_spec

/-! ## Cleaning up -/

theorem Foundation.World.Held.unlink (h : world.Held image overwrite) {directory : Directory}
    (hunlink : world.directory.unlink = .ok directory) :
    ((world.note .unlink true).move directory).Held image overwrite := by
  have hafter := Directory.unlink_eq hunlink
  subst hafter
  rcases World.Held.steady.note world .unlink true (fun _ => ⟨nofun, nofun⟩) h with h | ⟨own, bytes, h⟩
  · exact Or.inl ⟨⟨h.idle.bounded, h.idle.unchanged⟩, h.sound.move (Or.inl h.idle.unchanged)
      fun _ _ hbytes => hbytes, h.unpublished⟩
  · exact Or.inr ⟨own, bytes, h.complete, ⟨h.final.destination, h.final.file⟩,
      h.sound.move (Or.inr ⟨bytes, h.complete, h.final.content⟩) fun _ _ hbytes => hbytes,
      h.published⟩

/-- The handler itself does not throw. -/
theorem cleanUp_spec {E : Halt Error → World → Prop} (descriptorOpen : Bool)
    (hstop : ∀ world, World.Held image overwrite world → E .stopped world) :
    Triple (World.Held image overwrite) (cleanUp descriptorOpen)
      (fun _ world => world.Held image overwrite ∧ world.Tidy) E := by
  let effect : Nat → Directory → Except String Directory := fun _ directory => directory.unlink
  have hunlink : Triple (World.Held image overwrite)
      (perform .unlink effect : Process Error Outcome)
      (fun _ world => world.Held image overwrite ∧ world.Tidy) E := by
    refine perform_spec World.Held.steady.toStable hstop fun world outcome h => ?_
    have hfail : ((world.note .unlink false).Held image overwrite) ∧
        (world.note .unlink false).Tidy :=
      ⟨World.Held.steady.note world _ false nofun h, Or.inr List.getLast?_concat⟩
    cases outcome with
    | done count =>
        cases he : world.directory.unlink with
        | ok directory =>
            rw [World.answer_done (show effect count world.directory = .ok directory from he)]
            exact ⟨h.unlink he, Or.inl (by rw [Directory.unlink_eq he]; rfl)⟩
        | error reason =>
            rw [World.answer_refused (show effect count world.directory = .error reason from he)]
            exact hfail
    | interrupted => exact hfail
    | failed reason => exact hfail
  unfold cleanUp
  refine Triple.bind (M := fun _ => World.Held image overwrite) ?_ fun _ => ?_
  · cases descriptorOpen with
    | true => exact performQuietly_spec World.Held.steady ⟨nofun, nofun⟩ hstop
    | false => exact Triple.pure fun _ h => h
  · exact Triple.bind hunlink fun _ => Triple.pure fun _ h => h

/-! ## Whole runs -/

/-- How a run may end. -/
def EndsWhole (layout : FileLayout) (overwrite : Bool) : EStateM.Result (Halt Error) World Unit → Prop
  | .ok _ world =>
      world.Sound layout.image overwrite ∧ world.directory.temporary = none ∧
        ∃ bytes, layout.image = .ok bytes ∧ world.directory.content = some bytes
  | .error (.threw _) world =>
      world.Sound layout.image overwrite ∧ world.Tidy ∧
        (¬ world.Published → world.directory.content = world.directory.foreign)
  | .error .stopped world => world.Sound layout.image overwrite

/-- What holds when an exception leaves `Build`, and when the process is stopped. -/
def Aborted (image : Except Error (List UInt8)) (overwrite : Bool) : Halt Error → World → Prop
  | .threw _, world => world.Held image overwrite ∧ world.Tidy
  | .stopped, world => world.Held image overwrite

theorem rethrowing_cleanUp {Q : Unit → World → Prop} {x : Process Error Unit}
    (descriptorOpen : Bool) (hx : Triple I x Q fun _ => World.Held image overwrite) :
    Triple I (rethrowing (cleanUp descriptorOpen) x) Q (Aborted image overwrite) := by
  refine Triple.rethrowing (M := World.Held image overwrite)
    (hx.consequence (fun _ h => h) (fun _ _ h => h) fun e world h => ?_)
    fun e => cleanUp_spec descriptorOpen fun _ h => h
  cases e <;> exact h

theorem writeIndexFile_spec (texts : BuildTexts) (layout : FileLayout) (path temporaryPath : String) :
    Triple (fun world => world.Waiting layout.image overwrite ∧ world.directory.temporary = none)
      (writeIndexFile texts layout path temporaryPath overwrite)
      (fun _ world => ∃ own bytes, world.Settled layout.image overwrite own bytes)
      (Aborted layout.image overwrite) := by
  have hstart : Stable fun world => world.Waiting layout.image overwrite ∧
      world.directory.temporary = none :=
    ⟨fun _ schedule h => ⟨World.Waiting.steady.resume _ schedule h.1, h.2⟩,
      fun _ data h => ⟨World.Waiting.steady.foreign _ data h.1, h.2⟩⟩
  refine Triple.bind (M := fun _ world => ∃ own, world.Drafting layout.image overwrite own [])
    ((orThrow_spec (M := fun world => world.Waiting layout.image overwrite ∧
      world.directory.temporary = none) hstart (fun world count directory h heffect => ?_)
      (fun world h => ⟨World.Waiting.steady.note world _ false nofun h.1, h.2⟩)
      fun _ h => h).consequence (fun _ h => h) (fun _ _ h => h) fun e world h => ?_) fun _ => ?_
  · cases heffect
    have hnote := World.Waiting.steady.note world .mkstemp true (fun _ => ⟨nofun, nofun⟩) h.1
    have hdraft := h.1.idle.makeTemporary
    exact ⟨_, ⟨hdraft.toIdle, hnote.sound.move (Or.inl hdraft.unchanged)
      fun _ => h.1.idle.keeps_makeTemporary, hnote.unpublished⟩, hdraft⟩
  · cases e with
    | threw e => exact ⟨Or.inl h.1, Or.inl h.2⟩
    | stopped => exact Or.inl h.1
  · rintro world ⟨own, h⟩
    rw [bind_apply, get_apply]
    dsimp only
    rw [h.draft.temporary]
    refine Triple.bind (rethrowing_cleanUp true (fillTemporary_spec texts layout temporaryPath))
      (fun _ => ?_) world h
    rintro world ⟨bytes, hbytes, h⟩
    refine Triple.consequence (rethrowing_cleanUp false
      (closeAndPublish_spec hbytes path temporaryPath)) (fun _ h => h)
      (fun _ _ h => ⟨own, bytes, h⟩) (fun _ _ h => h) world h

/-- In every run of the end of `Build`, for either format, any index file and any schedule of
failures, stops and foreign creations: the destination is whole at every moment, and without
`overwrite` what it holds stays; when the function returns the complete file is published and
the temporary name gone; when it throws before the rename or link, the destination is as others
made it, and the temporary name is gone unless `unlink` failed. -/
theorem publication_atomic (layout : FileLayout) (path temporaryPath : String) (overwrite : Bool)
    (schedule : List Turn) (existing : Option (List UInt8)) :
    EndsWhole layout overwrite
        (BPlusTreeIndex.writeFile layout path temporaryPath overwrite (World.start schedule existing)) ∧
      EndsWhole layout overwrite
        (SortedArrayIndex.writeFile layout path temporaryPath overwrite
          (World.start schedule existing)) := by
  have hcontent : (Directory.holding existing).content = existing := by
    cases existing <;> rfl
  have hidle : (Directory.holding existing).Idle := by
    refine ⟨fun file hfile => ?_, hcontent⟩
    cases existing with
    | none => cases hfile
    | some bytes =>
        cases hfile
        exact Nat.zero_lt_one
  have hwaiting : (World.start schedule existing).Waiting layout.image overwrite := by
    refine ⟨hidle, ⟨fun d hd => ?_, fun _ => List.pairwise_singleton _ _, fun _ d hd => ?_⟩, ?_⟩
    · rw [List.mem_singleton.mp hd]
      exact Or.inl hidle.unchanged
    · rw [List.mem_singleton.mp hd]
      exact fun _ h => h
    · rintro (h | h) <;> cases h
  have hends : ∀ texts, EndsWhole layout overwrite
      (writeIndexFile texts layout path temporaryPath overwrite (World.start schedule existing)) := by
    intro texts
    have hrun := writeIndexFile_spec texts layout path temporaryPath _ ⟨hwaiting, rfl⟩
    cases hr : writeIndexFile texts layout path temporaryPath overwrite
        (World.start schedule existing) with
    | ok u world =>
        rw [hr] at hrun
        obtain ⟨own, bytes, hdone, hnone⟩ := hrun
        exact ⟨hdone.sound, hnone, bytes, hdone.complete, hdone.final.content⟩
    | error e world =>
        rw [hr] at hrun
        cases e with
        | stopped => exact hrun.sound
        | threw e =>
            obtain ⟨hheld, htidy⟩ := hrun
            refine ⟨hheld.sound, htidy, fun hunpublished => ?_⟩
            rcases hheld with h | ⟨own, bytes, h⟩
            · exact h.idle.unchanged
            · exact absurd h.published hunpublished
  exact ⟨hends _, hends _⟩

end Runs

end Qalsh

/-
  Foundation/FileSystem.lean --- one process among others on a file system.

  The process has a destination name in mind and works on a temporary file beside
  it.  Its system calls follow a schedule: before any of them another process may
  create the destination, each of them may fail, and when the schedule ends the
  process has been stopped.  `moments` keeps what the directory looked like after
  every step, and `foreign` what the destination would hold had the process not run.
-/
import Mathlib
import Qalsh.Foundation.Bytes
import Qalsh.Foundation.Effect

set_option autoImplicit false

namespace Qalsh.Foundation

/-! ## Directories -/

/-- A directory with two names; files are numbered in the order of their creation. -/
structure Directory where
  files : List (List UInt8)
  destination : Option Nat
  temporary : Option Nat
  /-- what the destination would hold without the process -/
  foreign : Option (List UInt8)

namespace Directory

/-- The file under the destination name. -/
def content (directory : Directory) : Option (List UInt8) :=
  directory.destination.bind fun file => directory.files[file]?

/-- A directory with a file, or none, under the destination name. -/
def holding (existing : Option (List UInt8)) : Directory where
  files := existing.toList
  destination := existing.map fun _ => 0
  temporary := none
  foreign := existing

/-- Another process creates the destination unless it exists. -/
def createForeign (directory : Directory) (bytes : List UInt8) : Directory where
  files := directory.files ++ [bytes]
  destination := directory.destination <|> some directory.files.length
  temporary := directory.temporary
  foreign := directory.foreign <|> some bytes

/-- `mkstemp`: a new empty file under the temporary name. -/
def makeTemporary (directory : Directory) : Directory :=
  { directory with
    files := directory.files ++ [[]]
    temporary := some directory.files.length }

/-- A file gets another content. -/
def update (directory : Directory) (file : Nat) (f : List UInt8 → List UInt8) : Directory :=
  { directory with files := directory.files.modify file f }

/-- `rename` of the temporary name to the destination. -/
def rename (directory : Directory) : Directory :=
  { directory with
    destination := directory.temporary
    temporary := none }

/-- `link` of the temporary file to the destination, which must not exist. -/
def link (directory : Directory) : Except String Directory :=
  match directory.destination with
  | none => .ok { directory with destination := directory.temporary }
  | some _ => .error "File exists"

/-- `unlink` of the temporary name. -/
def unlink (directory : Directory) : Except String Directory :=
  match directory.temporary with
  | some _ => .ok { directory with temporary := none }
  | none => .error "No such file or directory"

end Directory

/-- `ftruncate` of a file to `size` bytes. -/
def resize (size : Nat) (bytes : List UInt8) : List UInt8 :=
  bytes.take size ++ List.replicate (size - bytes.length) 0

/-- `pwrite`; a file that is too short is filled with zeroes. -/
def pwriteBytes (offset : Nat) (data bytes : List UInt8) : List UInt8 :=
  if data.isEmpty then bytes
  else overlay (bytes ++ List.replicate (offset + data.length - bytes.length) 0) offset data

theorem length_pwriteBytes {offset : Nat} {data : List UInt8} (h : data ≠ []) (bytes : List UInt8) :
    (pwriteBytes offset data bytes).length = max bytes.length (offset + data.length) := by
  simp only [pwriteBytes, List.isEmpty_iff, if_neg h, overlay, List.length_append, List.length_take,
    List.length_replicate, List.length_drop]
  omega

theorem getElem?_pwriteBytes {offset : Nat} {data : List UInt8} (h : data ≠ []) (bytes : List UInt8)
    (i : Nat) : (pwriteBytes offset data bytes)[i]? =
      if i < offset then (bytes ++ List.replicate (offset - bytes.length) 0)[i]?
      else if i < offset + data.length then data[i - offset]? else bytes[i]? := by
  simp only [pwriteBytes, List.isEmpty_iff, if_neg h, overlay, List.getElem?_append,
    List.getElem?_take, List.getElem?_drop, List.length_append, List.length_take,
    List.length_replicate, List.getElem?_replicate]
  grind

/-- Data may be written piece by piece. -/
theorem pwriteBytes_pieces (offset : Nat) {count : Nat} (data bytes : List UInt8)
    (hcount : 0 < count) :
    pwriteBytes (offset + count) (data.drop count) (pwriteBytes offset (data.take count) bytes) =
      pwriteBytes offset data bytes := by
  rcases Nat.lt_or_ge count data.length with hlt | hge
  swap
  · rw [List.drop_eq_nil_of_le hge, List.take_of_length_le hge]
    rfl
  have htake : data.take count ≠ [] :=
    List.ne_nil_of_length_pos (by rw [List.length_take]; omega)
  have hdrop : data.drop count ≠ [] :=
    List.ne_nil_of_length_pos (by rw [List.length_drop]; omega)
  have hdata : data ≠ [] := List.ne_nil_of_length_pos (by omega)
  apply List.ext_getElem?
  intro i
  rw [getElem?_pwriteBytes hdrop, List.getElem?_append, length_pwriteBytes htake,
    getElem?_pwriteBytes htake, getElem?_pwriteBytes hdata]
  simp only [List.length_drop, List.length_take, List.getElem?_drop, List.getElem?_take,
    List.getElem?_append, List.getElem?_replicate]
  grind

/-! ## System calls -/

inductive SystemCall where
  | mkstemp
  | fchmod
  | ftruncate
  | pwrite
  | fsync
  | close
  | rename
  | link
  | unlink
  | openDirectory
  | fsyncDirectory
  | closeDirectory
  deriving DecidableEq, Repr

/-- How a call ends. -/
inductive Outcome where
  /-- it succeeds; `pwrite` has written `count` bytes -/
  | done (count : Nat)
  /-- it fails with `EINTR` -/
  | interrupted
  | failed (reason : String)
  deriving DecidableEq, Repr

/-- What happens next. -/
inductive Turn where
  | foreign (bytes : List UInt8)
  | call (outcome : Outcome)

structure World where
  schedule : List Turn
  directory : Directory
  /-- the calls made and whether they succeeded, the latest last -/
  calls : List (SystemCall × Bool)
  /-- the directory after every step, the latest last -/
  moments : List Directory

/-- Why a process does not return. -/
inductive Halt (ε : Type) where
  | threw (e : ε)
  | stopped

abbrev Process (ε α : Type) : Type := EStateM (Halt ε) World α

namespace World

variable {ε α : Type}

def start (schedule : List Turn) (existing : Option (List UInt8)) : World where
  schedule := schedule
  directory := Directory.holding existing
  calls := []
  moments := [Directory.holding existing]

/-- The directory changes. -/
def move (world : World) (directory : Directory) : World :=
  { world with
    directory := directory
    moments := world.moments ++ [directory] }

/-- A call has been made. -/
def note (world : World) (call : SystemCall) (success : Bool) : World :=
  { world with calls := world.calls ++ [(call, success)] }

/-- The schedule that is left. -/
def resume (world : World) (schedule : List Turn) : World :=
  { world with schedule := schedule }

/-- A call with what it does to the directory, unless it cannot. -/
def answer (world : World) (call : SystemCall) (effect : Nat → Directory → Except String Directory) :
    Outcome → Outcome × World
  | .done count =>
      match effect count world.directory with
      | .ok directory => (.done count, (world.note call true).move directory)
      | .error reason => (.failed reason, world.note call false)
  | .interrupted => (.interrupted, world.note call false)
  | .failed reason => (.failed reason, world.note call false)

theorem answer_done {world : World} {call : SystemCall}
    {effect : Nat → Directory → Except String Directory} {count : Nat} {directory : Directory}
    (h : effect count world.directory = .ok directory) :
    world.answer call effect (.done count) = (.done count, (world.note call true).move directory) := by
  unfold answer
  dsimp only
  rw [h]

theorem answer_refused {world : World} {call : SystemCall}
    {effect : Nat → Directory → Except String Directory} {count : Nat} {reason : String}
    (h : effect count world.directory = .error reason) :
    world.answer call effect (.done count) = (.failed reason, world.note call false) := by
  unfold answer
  dsimp only
  rw [h]

/-- Follow the schedule up to the end of a call. -/
def follow (call : SystemCall) (effect : Nat → Directory → Except String Directory) :
    List Turn → World → EStateM.Result (Halt ε) World Outcome
  | [], world => .error .stopped (world.resume [])
  | .foreign bytes :: rest, world =>
      follow call effect rest (world.move (world.directory.createForeign bytes))
  | .call outcome :: rest, world =>
      let answered := (world.resume rest).answer call effect outcome
      .ok answered.1 answered.2

end World

/-- A system call. -/
def perform {ε : Type} (call : SystemCall) (effect : Nat → Directory → Except String Directory) :
    Process ε Outcome :=
  fun world => World.follow call effect world.schedule world

/-- A call that changes no name and no file. -/
def performQuietly {ε : Type} (call : SystemCall) : Process ε Outcome :=
  perform call fun _ directory => .ok directory

/-- Run `x`; when it throws, run the handler and throw again. -/
def rethrowing {ε α : Type} (handler : Process ε Unit) (x : Process ε α) : Process ε α := fun world =>
  match x world with
  | .error (.threw e) world' => (handler >>= fun _ => throw (.threw e)) world'
  | result => result

/-! ## Rules -/

/-- What holds of a world whatever is left of its schedule, and whatever other processes do. -/
structure Stable (I : World → Prop) : Prop where
  resume : ∀ world schedule, I world → I (world.resume schedule)
  foreign : ∀ world bytes, I world → I (world.move (world.directory.createForeign bytes))

variable {ε α : Type} {I : World → Prop} {Q : α → World → Prop} {E : Halt ε → World → Prop}

theorem perform_spec {call : SystemCall} {effect : Nat → Directory → Except String Directory}
    {Q : Outcome → World → Prop} (hstable : Stable I) (hstop : ∀ world, I world → E .stopped world)
    (hanswer : ∀ world outcome, I world →
      Q (world.answer call effect outcome).1 (world.answer call effect outcome).2) :
    Triple I (perform call effect : Process ε Outcome) Q E := by
  have hfollow : ∀ (schedule : List Turn) (world : World), I world →
      match (World.follow call effect schedule world : EStateM.Result (Halt ε) World Outcome) with
      | .ok outcome world' => Q outcome world'
      | .error halt world' => E halt world' := by
    intro schedule
    induction schedule with
    | nil => exact fun world h => hstop _ (hstable.resume world [] h)
    | cons turn rest ih =>
        intro world h
        cases turn with
        | foreign bytes => exact ih _ (hstable.foreign world bytes h)
        | call outcome => exact hanswer _ outcome (hstable.resume world rest h)
  intro world h
  have hrun := hfollow world.schedule world h
  unfold perform
  cases hr : (World.follow call effect world.schedule world : EStateM.Result (Halt ε) World Outcome) with
  | ok outcome world' => rw [hr] at hrun; exact hrun
  | error halt world' => rw [hr] at hrun; exact hrun

theorem World.answer_schedule (world : World) (call : SystemCall)
    (effect : Nat → Directory → Except String Directory) (outcome : Outcome) :
    (world.answer call effect outcome).2.schedule = world.schedule := by
  unfold World.answer
  cases outcome with
  | done count => dsimp only; split <;> rfl
  | interrupted => rfl
  | failed reason => rfl

/-- Each call uses up a turn. -/
theorem perform_shortens {call : SystemCall} {effect : Nat → Directory → Except String Directory}
    {world world' : World} {outcome : Outcome}
    (h : (perform call effect : Process ε Outcome) world = .ok outcome world') :
    world'.schedule.length < world.schedule.length := by
  have hfollow : ∀ (schedule : List Turn) (world : World),
      (World.follow call effect schedule world : EStateM.Result (Halt ε) World Outcome) =
        .ok outcome world' → world'.schedule.length < schedule.length := by
    intro schedule
    induction schedule with
    | nil => exact nofun
    | cons turn rest ih =>
        intro world h
        cases turn with
        | foreign bytes => exact Nat.lt_succ_of_lt (ih _ h)
        | call outcome' =>
            have hschedule := World.answer_schedule (world.resume rest) call effect outcome'
            cases h
            rw [hschedule]
            exact Nat.lt_succ_self _
  exact hfollow _ _ h

theorem Triple.rethrowing {handler : Process ε Unit} {x : Process ε α} {M : World → Prop}
    (hx : Triple I x Q fun halt world => match halt with
      | .threw _ => M world
      | .stopped => E .stopped world)
    (hhandler : ∀ e, Triple M handler (fun _ world => E (.threw e) world) E) :
    Triple I (Foundation.rethrowing handler x) Q E := by
  intro world h
  have hrun := hx world h
  unfold Foundation.rethrowing
  cases hr : x world with
  | ok a world' => rw [hr] at hrun; exact hrun
  | error halt world' =>
      rw [hr] at hrun
      cases halt with
      | stopped => exact hrun
      | threw e => exact Triple.bind (hhandler e) (fun _ => Triple.throw fun _ h => h) world' hrun

end Qalsh.Foundation

/-
  Publish.lean --- writing an index file and publishing it under its name.

  The bytes go to a temporary file beside the destination.  Only a complete file is
  renamed or linked to the destination, so that whatever fails, and wherever the
  process is stopped, no one ever reads a partial index.
-/
import Qalsh.Basic
import Qalsh.Foundation.FileSystem

set_option autoImplicit false

namespace Qalsh

open Foundation

/-! ## Single calls -/

/-- Why a call failed; `strerror(errno)`. -/
def failure : Outcome → Option String
  | .done _ => none
  | .interrupted => some "Interrupted system call"
  | .failed reason => some reason

def halt {α : Type} (e : Error) : Process Error α := throw (.threw e)

/-- A step that uses no system call. -/
def check {α : Type} (x : Except Error α) : Process Error α :=
  match x with
  | .ok a => pure a
  | .error e => halt e

/-- Throw when the call fails. -/
def orThrow (text : String) (call : Process Error Outcome) : Process Error Unit := do
  match failure (← call) with
  | none => return ()
  | some reason => halt (.runtimeError (text ++ reason))

/-- The largest `off_t`. -/
def offTMax : Nat := 2 ^ 63 - 1

/-- `pwrite` to a file; the count is that of the bytes written. -/
def pwrite (fd : Nat) (data : List UInt8) (offset : Nat) : Process Error Outcome :=
  perform .pwrite fun count directory =>
    .ok (directory.update fd (pwriteBytes offset (data.take count)))

/-- The loop of `WriteAt`. -/
def writeLoop (fd : Nat) (data : List UInt8) (offset : Nat) (path : String) (done : Nat) :
    Process Error Unit := fun world =>
  if done < data.length then
    match _ : pwrite fd (data.drop done) (offset + done) world with
    | .ok .interrupted world' => writeLoop fd data offset path done world'
    | .ok (.done count) world' =>
        if count = 0 then
          halt (.runtimeError
            s!"failed to write index {path} at offset {offset + done}") world'
        else writeLoop fd data offset path (done + count) world'
    | .ok (.failed _) world' =>
        halt (.runtimeError
          s!"failed to write index {path} at offset {offset + done}") world'
    | .error e world' => .error e world'
  else .ok () world
termination_by world => world.schedule.length
decreasing_by
  all_goals exact perform_shortens ‹_›

/-- `WriteAt` -/
def writeAt (fd : Nat) (data : List UInt8) (offset : Nat) (path : String) : Process Error Unit := do
  if data.isEmpty then return ()
  check (require (offset ≤ offTMax) "index offset is not representable by the host file API")
  check (require (data.length ≤ offTMax - offset)
    "index write range is not representable by the host file API")
  writeLoop fd data offset path 0

/-! ## Publication -/

/-- The first part of `PublishIndexFile`: the complete file gets its name. -/
def renameOrLink (temporaryPath destination : String) (overwrite : Bool) : Process Error Unit :=
  if overwrite then
    orThrow s!"failed to atomically replace index {destination}: "
      (perform .rename fun _ directory => .ok directory.rename)
  else do
    orThrow s!"failed to publish index without replacement {destination}: "
      (perform .link fun _ directory => directory.link)
    orThrow s!"failed to remove temporary index {temporaryPath}: "
      (perform .unlink fun _ directory => directory.unlink)

/-- The second part of `PublishIndexFile`. -/
def flushDirectory : Process Error Unit := do
  orThrow "failed to open index directory for durability: " (performQuietly .openDirectory)
  match failure (← performQuietly .fsyncDirectory) with
  | none => orThrow "failed to close index directory: " (performQuietly .closeDirectory)
  | some reason => do
      let _ ← performQuietly .closeDirectory
      halt (.runtimeError ("failed to flush index directory: " ++ reason))

/-- `PublishIndexFile` -/
def publishIndexFile (temporaryPath destination : String) (overwrite : Bool) : Process Error Unit := do
  renameOrLink temporaryPath destination overwrite
  flushDirectory

/-- What `Build` writes to the temporary file. -/
structure FileLayout where
  fileSize : Nat
  /-- the pieces with their offsets; preparing one may throw -/
  pieces : List (Except Error (Nat × List UInt8))

/-- A piece put into a file. -/
def FileLayout.place (bytes : List UInt8) (piece : Except Error (Nat × List UInt8)) :
    Except Error (List UInt8) := do
  let (offset, data) ← piece
  return pwriteBytes offset data bytes

/-- The complete file. -/
def FileLayout.image (layout : FileLayout) : Except Error (List UInt8) :=
  layout.pieces.foldlM FileLayout.place (resize layout.fileSize [])

/-- The texts in which the two formats differ. -/
structure BuildTexts where
  create : String
  permissions : String
  size : String

/-- The part of the `try` block during which the file is open. -/
def fillTemporary (texts : BuildTexts) (layout : FileLayout) (fd : Nat) (temporaryPath : String) :
    Process Error Unit := do
  orThrow s!"{texts.permissions} {temporaryPath}: " (performQuietly .fchmod)
  orThrow s!"{texts.size} {temporaryPath}: "
    (perform .ftruncate fun _ directory => .ok (directory.update fd (resize layout.fileSize)))
  layout.pieces.forM fun piece => do
    let (offset, data) ← check piece
    writeAt fd data offset temporaryPath
  orThrow s!"failed to flush index {temporaryPath}: " (performQuietly .fsync)

/-- The rest of the `try` block; `fd` is -1 once `close` has returned, whatever it says. -/
def closeAndPublish (path temporaryPath : String) (overwrite : Bool) : Process Error Unit := do
  orThrow s!"failed to close temporary index {temporaryPath}: " (performQuietly .close)
  publishIndexFile temporaryPath path overwrite

/-- `if (fd >= 0) (void)::close(fd);` -/
def closeIfOpen (descriptorOpen : Bool) : Process Error Outcome :=
  if descriptorOpen then performQuietly .close else pure (.done 0)

/-- The handler; `published` is still false whenever it runs, because nothing throws after
it has been set. -/
def cleanUp (descriptorOpen : Bool) : Process Error Unit := do
  let _ ← closeIfOpen descriptorOpen
  let _ ← perform .unlink fun _ directory => directory.unlink

/-- The end of `Build`, from `mkstemp` on. -/
def writeIndexFile (texts : BuildTexts) (layout : FileLayout) (path temporaryPath : String)
    (overwrite : Bool) : Process Error Unit := do
  orThrow s!"{texts.create} {path}.tmp-XXXXXX: "
    (perform .mkstemp fun _ directory => .ok directory.makeTemporary)
  match (← get).directory.temporary with
  | none => return ()
  | some fd =>
      rethrowing (cleanUp true) (fillTemporary texts layout fd temporaryPath)
      rethrowing (cleanUp false) (closeAndPublish path temporaryPath overwrite)

/-- `BPlusTreeIndex::Build` from `mkstemp` on. -/
def BPlusTreeIndex.writeFile : FileLayout → String → String → Bool → Process Error Unit :=
  writeIndexFile
    { create := "failed to create temporary index"
      permissions := "failed to set permissions on temporary index"
      size := "failed to size index" }

/-- `SortedArrayIndex::Build` from `mkstemp` on. -/
def SortedArrayIndex.writeFile : FileLayout → String → String → Bool → Process Error Unit :=
  writeIndexFile
    { create := "failed to create temporary sorted-array index"
      permissions := "failed to set permissions on temporary sorted-array index"
      size := "failed to size sorted-array index" }

end Qalsh

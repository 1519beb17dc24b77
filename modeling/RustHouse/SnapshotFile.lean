import Mathlib.Logic.Function.Basic
import RustHouse.Method
import RustHouse.Paths
import RustHouse.Snapshot
import RustHouse.Wal

/-!
# Replacing a snapshot file

A snapshot is written to a temporary file beside its destination, synchronized
and renamed over it. A directory is a map from the names of its files to their
contents, and every call on it comes with the fault the operating system
answers with, if any. A name is resolved byte for byte.
-/

namespace RustHouse

open Checked Exec Words Method

/-! ## Directories -/

abbrev FileName := Bytes

/-- A failure of a call, with the number the operating system gave it. -/
structure OsError where
  rawOsError : Option Nat
  error : IoError
  deriving DecidableEq, Repr

def enametoolong : Nat := 36

/-- A call on a directory that succeeded. -/
inductive FileCall where
  | created (name : FileName)
  | written (name : FileName) (bytes : Bytes)
  | synced (name : FileName)
  | renamed (source destination : FileName)
  | removed (name : FileName)
  | syncedDirectory
  deriving DecidableEq, Repr

structure SnapshotDirectory where
  entries : FileName → Option Bytes
  /-- The calls that succeeded, in order; no call reads it. -/
  calls : List FileCall

namespace SnapshotDirectory

def fileNotFound : IoError := ⟨.notFound, "No such file or directory (os error 2)"⟩

def fileExists : OsError := ⟨some 17, .alreadyExists, "File exists (os error 17)"⟩

def complete {ε : Type} (call : FileCall) (entries : FileName → Option Bytes) : Method SnapshotDirectory ε Unit :=
  modify fun directory => ⟨entries, directory.calls ++ [call]⟩

/-- A call that the operating system may refuse. -/
def orFault {ε α : Type} (fault : Option ε) (m : Method SnapshotDirectory ε α) : Method SnapshotDirectory ε α :=
  match fault with
  | some failure => call (.error failure)
  | none => m

def create (name : FileName) (fault : Option OsError) : Method SnapshotDirectory OsError Unit :=
  orFault fault do
    let directory ← read
    call (rejectIf (directory.entries name).isSome fileExists)
    complete (.created name) (Function.update directory.entries name (some []))

def writeAll (name : FileName) (bytes : Bytes) (fault : Option WriteFault) : Method SnapshotDirectory IoError Unit := do
  let directory ← read
  match fault with
  | some fault =>
    write { directory with entries := Function.update directory.entries name (some (bytes.take fault.persisted)) }
    call (.error fault.error)
  | none => complete (.written name bytes) (Function.update directory.entries name (some bytes))

def syncAll (name : FileName) (fault : Option IoError) : Method SnapshotDirectory IoError Unit :=
  orFault fault do
    let directory ← read
    complete (.synced name) directory.entries

def entryAliasesFile (name created : FileName) (fault : Option IoError) : Method SnapshotDirectory IoError Bool :=
  orFault fault do
    let directory ← read
    return (directory.entries name).isSome && name == created

def rename (source destination : FileName) (fault : Option IoError) : Method SnapshotDirectory IoError Unit :=
  orFault fault do
    let directory ← read
    let bytes ← call (getOr (directory.entries source) fileNotFound)
    complete (.renamed source destination)
      (Function.update (Function.update directory.entries source none) destination (some bytes))

/-- Removes a file; where the answer is that there is none, it is gone. -/
def remove (name : FileName) (fault : Option IoError) : Method SnapshotDirectory IoError Unit := do
  let directory ← read
  match fault with
  | some failure =>
    if failure.kind = .notFound then write { directory with entries := Function.update directory.entries name none }
    call (.error failure)
  | none =>
    call (rejectIf (directory.entries name).isNone fileNotFound)
    complete (.removed name) (Function.update directory.entries name none)

def sync (fault : Option IoError) : Method SnapshotDirectory IoError Unit :=
  orFault fault do
    let directory ← read
    complete .syncedDirectory directory.entries

end SnapshotDirectory

/-! ## Errors -/

inductive SnapshotReplaceError where
  | encode (error : SnapshotError)
  | invalidDestination
  | openDirectory (error : IoError)
  | createTemporary (error : IoError)
  | writeTemporary (error : IoError)
  | syncTemporary (error : IoError)
  | rename (error : IoError)
  | cleanupTemporary (source : IoError) (operation : SnapshotReplaceError)
  /-- The destination has been replaced when this error is returned. -/
  | syncDirectory (error : IoError)
  deriving DecidableEq

namespace SnapshotReplaceError

def destinationWasReplaced : SnapshotReplaceError → Bool
  | syncDirectory _ => true
  | _ => false

end SnapshotReplaceError

/-! ## The replacement -/

/-- What the operating system answers to the calls on one temporary file. -/
structure TemporaryIo where
  /-- The number that the counter of temporary files gives out. -/
  sequence : UInt32
  create : Option OsError
  createSuffix : Option OsError
  stat : Option IoError
  remove : Option IoError

structure ReplaceIo where
  openDirectory : Option IoError
  processId : UInt32
  /-- For each attempt to find a name. -/
  attempt : Nat → TemporaryIo
  write : Option WriteFault
  syncTemporary : Option IoError
  rename : Option IoError
  syncDirectory : Option IoError

def temporaryCreateAttempts : Nat := 128

def temporarySnapshotSuffix (processId sequence : UInt32) : FileName :=
  ascii ".rusthouse-snapshot-" ++ utf8 (toString processId) ++ ascii "-" ++ utf8 (toString sequence) ++ ascii ".tmp"

def temporarySnapshotName (destination suffix : FileName) : FileName := destination ++ suffix

open SnapshotDirectory

/-- Removes a temporary file after a failure, and fails with it. -/
def cleanup {α : Type} (name : FileName) (fault : Option IoError) (operation : SnapshotReplaceError) :
    Method SnapshotDirectory SnapshotReplaceError α := do
  match ← Method.attempt (remove name fault) with
  | .ok () => call (.error operation)
  | .error failure =>
    if failure.kind = .notFound then call (.error operation) else call (.error (.cleanupTemporary failure operation))

def discard (name : FileName) (fault : Option IoError) : Method SnapshotDirectory IoError Unit := do
  match ← Method.attempt (remove name fault) with
  | .ok () => return ()
  | .error failure => if failure.kind = .notFound then return () else call (.error failure)

/-- Creates a temporary file under one of the two names of an attempt, or none where both are taken. -/
def createCandidate (io : TemporaryIo) (destination suffix : FileName) :
    Method SnapshotDirectory SnapshotReplaceError (Option FileName) := do
  let preferredName := temporarySnapshotName destination suffix
  match ← Method.attempt (create preferredName io.create) with
  | .ok () => return some preferredName
  | .error failure =>
    if failure.rawOsError = some enametoolong then
      if suffix = destination then return none
      match ← Method.attempt (create suffix io.createSuffix) with
      | .ok () => return some suffix
      | .error failure =>
        if failure.error.kind = .alreadyExists then return none else call (.error (.createTemporary failure.error))
    else if failure.error.kind = .alreadyExists then return none
    else call (.error (.createTemporary failure.error))

/-- Attempts to create a temporary file that is not the destination: its name and the attempt's faults. -/
def createTemporaryFrom (io : ReplaceIo) (destination : FileName) (index : Nat) :
    Nat → Method SnapshotDirectory SnapshotReplaceError (FileName × TemporaryIo)
  | 0 => call (.error (.createTemporary ⟨.alreadyExists, "could not find an unused temporary snapshot name"⟩))
  | attempts + 1 => do
    let attempt := io.attempt index
    let suffix := temporarySnapshotSuffix io.processId attempt.sequence
    match ← createCandidate attempt destination suffix with
    | none => createTemporaryFrom io destination (index + 1) attempts
    | some name =>
      match ← Method.attempt (entryAliasesFile destination name attempt.stat) with
      | .ok false => return (name, attempt)
      | .ok true =>
        match ← Method.attempt (discard name attempt.remove) with
        | .ok () => createTemporaryFrom io destination (index + 1) attempts
        | .error source =>
          call (.error (.cleanupTemporary source
            (.createTemporary ⟨.alreadyExists, "temporary snapshot name aliases the destination"⟩)))
      | .error failure => cleanup name attempt.remove (.createTemporary failure)

def createTemporarySnapshot (io : ReplaceIo) (destination : FileName) :
    Method SnapshotDirectory SnapshotReplaceError (FileName × TemporaryIo) :=
  createTemporaryFrom io destination 0 temporaryCreateAttempts

def replaceEnvelopeInDirectory (io : ReplaceIo) (destination : FileName) (envelope : Bytes) :
    Method SnapshotDirectory SnapshotReplaceError Unit := do
  let (temporary, attempt) ← createTemporarySnapshot io destination
  if let .error failure ← Method.attempt (writeAll temporary envelope io.write) then
    cleanup temporary attempt.remove (.writeTemporary failure)
  if let .error failure ← Method.attempt (syncAll temporary io.syncTemporary) then
    cleanup temporary attempt.remove (.syncTemporary failure)
  if let .error failure ← Method.attempt (rename temporary destination io.rename) then
    cleanup temporary attempt.remove (.rename failure)
  (sync io.syncDirectory).mapError .syncDirectory

def snapshotDestinationName (path : Bytes) : Exec SnapshotReplaceError FileName := do
  rejectIf (ascii "/" <:+ path ∨ ascii "/." <:+ path) .invalidDestination
  match (pathComponents path).getLast? with
  | some (.normal name) =>
    rejectIf (0 ∈ name) .invalidDestination
    .ok name
  | _ => .error .invalidDestination

def SnapshotCodec.replaceFile (codec : SnapshotCodec) (io : ReplaceIo) (path : Bytes) (payload : ByteSpan) :
    Method SnapshotDirectory SnapshotReplaceError Unit := do
  let envelope ← call (Exec.mapError .encode (codec.encode payload))
  let destination ← call (snapshotDestinationName path)
  orFault (io.openDirectory.map .openDirectory) (replaceEnvelopeInDirectory io destination envelope.val)

end RustHouse

import PageScript.Files.Store
import PageScript.Page.LineMarkup

/-!
# Rehearsals

A site in memory whose troubles are written down beforehand: reads that fail, requests that are
cancelled while a file is read or generated, and files whose scripts are given. It keeps a log of
what it was asked.
-/

namespace PageScript

/-- What a read does. -/
structure ReadOutcome where
  /-- The request is cancelled while the file is read. -/
  cancels : Bool := false
  /-- The answer; without one the file in the store is read. -/
  answer : Option (Except FileError Bytes) := none

/-- A script that is given for a file. -/
structure GivenScript where
  cancels : Bool := false
  file : GeneratedFile

namespace Rehearsal

inductive Event where
  | read (path : String)
  | generate (path : String) (size : Nat)
  deriving DecidableEq, Repr, Inhabited

def Event.display : Event → String
  | read path => s!"read {path}"
  | generate path size => s!"generate {path} {size}"

end Rehearsal

structure Rehearsal where
  files : FileStore := {}
  /-- What the next reads of a path do, the next one first. -/
  outcomes : List (String × List ReadOutcome) := []
  /-- Whether the last outcome of a path is used again and again. -/
  repeats : Bool := false
  scripts : List (String × GivenScript) := []
  isCancelled : Bool := false
  /-- What the site was asked, the last first. -/
  log : List Rehearsal.Event := []

namespace Rehearsal

def set {α : Type} (table : List (String × α)) (name : String) (value : α) : List (String × α) :=
  (name, value) :: table.filter fun entry ↦ entry.1 ≠ name

/-- The next outcome for a path, and those that are left. -/
def next (world : Rehearsal) (path : String) : ReadOutcome × List ReadOutcome :=
  match (world.outcomes.lookup path).getD [] with
  | [] => ({}, [])
  | [last] => (last, if world.repeats then [last] else [])
  | first :: rest => (first, rest)

def read (path : String) : StateM Rehearsal (Except FileError Bytes) := fun world ↦
  let (outcome, rest) := world.next path
  (outcome.answer.getD (world.files.read path),
    { world with
      outcomes := set world.outcomes path rest
      isCancelled := world.isCancelled || outcome.cancels
      log := .read path :: world.log })

def generate (path content : String) (components : List ComponentMetadata) :
    StateM Rehearsal GeneratedFile := fun world ↦
  let world := { world with log := .generate path content.utf8ByteSize :: world.log }
  match world.scripts.lookup path with
  | some given => (given.file, { world with isCancelled := world.isCancelled || given.cancels })
  | none => (LineMarkup.generate path content components, world)

/-- Paths that can be read: those in the store and those with an outcome. -/
def site : Site Rehearsal where
  read := read
  cancelled := fun world ↦ (world.isCancelled, world)
  pause _ := pure ()
  generate := generate
  fileBound world := world.files.size + world.outcomes.length

/-- What the site was asked, in the order of the requests. -/
def events (world : Rehearsal) : List Event := world.log.reverse

/-- The world for a new request. -/
def request (world : Rehearsal) (cancelled : Bool) : Rehearsal :=
  { world with isCancelled := cancelled, log := [] }

end Rehearsal

end PageScript

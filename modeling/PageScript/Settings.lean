/-!
# Settings

Everything that the page compiler can be tuned with, and the values it has when nothing is said.
-/

namespace PageScript

inductive BuildMode where
  /-- One instruction for each statement. -/
  | debug
  /-- Adjacent writes are merged. -/
  | release
  deriving DecidableEq, Repr, Inhabited

namespace BuildMode

/-- The byte that stands for the mode in a module image. -/
def tag : BuildMode → UInt8
  | debug => 0
  | release => 1

def ofTag? (tag : UInt8) : Option BuildMode :=
  if tag = 0 then some debug else if tag = 1 then some release else none

theorem ofTag?_tag (mode : BuildMode) : ofTag? mode.tag = some mode := by
  cases mode <;> rfl

end BuildMode

structure CompilerSettings where
  buildMode : BuildMode := .debug
  emitSymbols : Bool := true
  embedMarkup : Bool := true
  deriving DecidableEq, Repr, Inhabited

structure RetrySettings where
  /-- Attempts in all; zero counts as one. -/
  maxAttempts : Nat := 5
  /-- Pause between two attempts, in milliseconds. -/
  backoff : Nat := 100
  deriving DecidableEq, Repr, Inhabited

structure LimitSettings where
  /-- How deep includes may nest while a page is rendered. -/
  maxIncludeDepth : Nat := 32
  deriving DecidableEq, Repr, Inhabited

inductive Concurrency where
  /-- One compilation at a time, others are refused. -/
  | exclusive
  /-- One compilation at a time for each page, others wait. -/
  | perPath
  deriving DecidableEq, Repr, Inhabited

inductive LogLevel where
  | trace
  | debug
  | info
  | warn
  | error
  deriving DecidableEq, Repr, Inhabited

def LogLevel.severity : LogLevel → Nat
  | trace => 0
  | debug => 1
  | info => 2
  | warn => 3
  | error => 4

inductive Phase where
  | reader
  | catalog
  | projector
  | compiler
  | loader
  | runtime
  deriving DecidableEq, Repr, Inhabited

namespace Phase

def all : List Phase := [reader, catalog, projector, compiler, loader, runtime]

def name : Phase → String
  | reader => "reader"
  | catalog => "catalog"
  | projector => "projector"
  | compiler => "compiler"
  | loader => "loader"
  | runtime => "runtime"

/-- The name under which the phase logs. -/
def target (phase : Phase) : String := "kpage::" ++ phase.name

end Phase

structure LogSettings where
  level : LogLevel := .info
  phases : List (Phase × LogLevel) := []
  deriving DecidableEq, Repr, Inhabited

namespace LogSettings

def levelOf (log : LogSettings) (phase : Phase) : LogLevel :=
  (log.phases.lookup phase).getD log.level

/-- Level for each target that has one of its own. -/
def targets (log : LogSettings) : List (String × LogLevel) :=
  ("kpage::vfs", log.level) :: Phase.all.map fun phase ↦ (phase.target, log.levelOf phase)

/-- Targets are matched by their beginning; a target with no match has the general level. -/
def levelOfTarget (log : LogSettings) (target : String) : LogLevel :=
  match log.targets.find? fun entry ↦ entry.1.toList.isPrefixOf target.toList with
  | some entry => entry.2
  | none => log.level

def enabled (log : LogSettings) (target : String) (level : LogLevel) : Bool :=
  (log.levelOfTarget target).severity ≤ level.severity

end LogSettings

structure PageSettings where
  compiler : CompilerSettings := {}
  retry : RetrySettings := {}
  limits : LimitSettings := {}
  concurrency : Concurrency := .exclusive
  log : LogSettings := {}
  deriving DecidableEq, Repr, Inhabited

end PageScript

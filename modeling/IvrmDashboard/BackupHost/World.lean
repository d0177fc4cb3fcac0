import IvrmDashboard.Foundations.Shell
import Mathlib.Data.List.AList

/-!
# The backup host

What the backup programs of the Minecraft host share: the backup directory, the bucket and the
evidence directory, the variables that `minecraft-backup.sh` hands to its exit trap, and a record
of what the commands did. A file stands under its name in the backup directory.

Every external command takes a choice of the world: a signal may arrive before it, and it may
succeed, fail, or take effect and report failure all the same.
-/

namespace IvrmDashboard.BackupHost

open Shell

/-- A regular file. -/
structure File where
  content : List UInt8
  mtime : ℕ
  deriving DecidableEq, Inhabited

/-- The files of `BACKUP_DIR`, by name. -/
abbrev Directory := AList fun _ : String => File

/-- An object of the bucket, with its `ivrm-sha256` metadata and the checksum that the service
keeps. -/
structure Object where
  content : List UInt8
  sourceHash : Option String
  checksum : Option String
  deriving DecidableEq

/-- What `ivrm-backup-evidence.py` prints. -/
structure Evidence where
  sizeBytes : ℕ
  sha256Hex : String
  remoteVerified : Bool
  deriving DecidableEq

/-- A signal; `kill` stands for whatever stops a program outright. -/
inductive Signal
  | int
  | term
  | kill
  deriving DecidableEq

/-- The ending of a script that a signal stops. -/
def Signal.ending {α : Type} : Signal → Ending α
  | .int => .exited 130
  | .term => .exited 143
  | .kill => .killed

inductive Outcome
  | succeeds
  | fails
  | takesEffectAndFails
  deriving DecidableEq, Inhabited

/-- The command reports success. -/
def Outcome.ok : Outcome → Bool
  | .succeeds => true
  | .fails | .takesEffectAndFails => false

/-- The command takes effect. -/
def Outcome.took : Outcome → Bool
  | .succeeds | .takesEffectAndFails => true
  | .fails => false

theorem Outcome.took_of_ok {o : Outcome} (h : o.ok = true) : o.took = true := by
  cases o with
  | succeeds => rfl
  | fails => exact absurd h Bool.false_ne_true
  | takesEffectAndFails => exact absurd h Bool.false_ne_true

theorem Outcome.eq_succeeds {o : Outcome} (h : o.ok = true) : o = .succeeds := by
  cases o with
  | succeeds => rfl
  | fails => exact absurd h Bool.false_ne_true
  | takesEffectAndFails => exact absurd h Bool.false_ne_true

/-- What `container_state` prints. -/
inductive ContainerState
  | running
  | stopped
  | missing
  deriving DecidableEq

/-- The arguments of `rcon-cli`. -/
inductive RconCommand
  | saveOff
  | saveOn
  | saveAllFlush
  | saveAll
  deriving DecidableEq

/-- `save-all flush`, or the plain `save-all` that is tried after it. -/
def RconCommand.flushes : RconCommand → Bool
  | .saveAllFlush | .saveAll => true
  | .saveOff | .saveOn => false

/-- What the commands did, in their order. A signal is recorded with `FROZEN_CONTAINER` and whether
the exit trap had started. -/
inductive Event
  | signal (sig : Signal) (frozenContainer : Option String) (exiting : Bool)
  | state (container : String) (answer : Option ContainerState)
  | rcon (container : String) (command : RconCommand) (outcome : Outcome)
  | critical (container : String)
  | tar (container output : String) (items : List String) (outcome : Outcome)
  | mv (container output : String) (outcome : Outcome)
  | touch (marker : String) (outcome : Outcome)
  | prune (server : String) (before : Directory) (removed : List String)
  | upload (file : String)
  | verify (file : String) (content : List UInt8)
  | report (files : List String) (accepted : Bool)

/-- What the world does at a command. -/
structure Choice where
  signal : Option Signal := none
  outcome : Outcome := .succeeds
  /-- what a query prints, unless it fails -/
  printed : Option String := none
  /-- the paths that a test finds -/
  present : List String := []
  /-- what `tar` leaves in the partial archive -/
  file : Option File := none
  /-- what a `find` leaves out, or an `rm` leaves behind -/
  skipped : List String := []
  /-- the names for which the `test` that `find` runs fails -/
  untested : List String := []

instance : Inhabited Choice := ⟨{}⟩

structure World where
  /-- `FAILED` -/
  failed : Bool := false
  /-- `FROZEN_CONTAINER`, with none for the empty string -/
  frozenContainer : Option String := none
  /-- the exit trap has started -/
  exiting : Bool := false
  directory : Directory := ∅
  bucket : AList (fun _ : String => Object) := ∅
  /-- `EVIDENCE_DIR` -/
  evidence : AList (fun _ : String => Evidence) := ∅
  trace : List Event := []

abbrev Sh := Script Choice World

namespace World

def log (e : Event) (s : World) : World := { s with trace := s.trace ++ [e] }

/-- The arrival of a signal. -/
def signalled (sig : Signal) (s : World) : World :=
  s.log (.signal sig s.frozenContainer s.exiting)

@[simp] theorem trace_log (e : Event) (s : World) : (s.log e).trace = s.trace ++ [e] := rfl

@[simp] theorem frozenContainer_log (e : Event) (s : World) :
    (s.log e).frozenContainer = s.frozenContainer := rfl

@[simp] theorem failed_log (e : Event) (s : World) : (s.log e).failed = s.failed := rfl

@[simp] theorem exiting_log (e : Event) (s : World) : (s.log e).exiting = s.exiting := rfl

@[simp] theorem directory_log (e : Event) (s : World) : (s.log e).directory = s.directory := rfl

end World

/-- A command of a script: a signal that has arrived stops the script in front of it. -/
def command {α : Type} (f : Choice → World → α × World) : Sh α :=
  Script.act fun w s =>
    match w.signal with
    | some sig => (sig.ending, s.signalled sig)
    | none => (.done (f w s).1, (f w s).2)

/-- The exit code that a signal makes, and none where the script is killed. -/
def Signal.code : Signal → Option ℕ
  | .int => some 130
  | .term => some 143
  | .kill => none

section

variable {α : Type} {f : Choice → World → α × World} {Q : α → World → Prop}
  {E : Option ℕ → World → Prop} {s : World}

/-- A command is stopped by a signal or does what the world chooses. -/
theorem wp_command (hsignal : ∀ sig, E sig.code (s.signalled sig))
    (h : ∀ w, Q (f w s).1 (f w s).2) : wp (command f) Q E s := by
  apply wp_act
  intro w
  cases hw : w.signal with
  | none => exact h w
  | some sig =>
    cases sig with
    | int => exact hsignal .int
    | term => exact hsignal .term
    | kill => exact hsignal .kill

end

end IvrmDashboard.BackupHost

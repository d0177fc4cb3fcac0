import Mathlib.Algebra.Group.Nat.Defs
import IvrmDashboard.BackupHost.World
import Mathlib.Data.List.Sort

/-!
# `minecraft-backup.sh`

The script archives one server after the other and then prunes the local archives. It switches the
world saves of a running server off (`save-off`), flushes the frozen world, runs `tar`, and switches
the saves on again (`restoreSaves`). From the `save-off` on, `FROZEN_CONTAINER` names the container,
so that the exit trap (`cleanup`) can restore it wherever the script leaves.

A signal may arrive before every external command, every assignment of `FROZEN_CONTAINER`, every
`CRITICAL` line and every `exit`. Before the other builtin commands it would do what it does before
the next of these.
-/

namespace IvrmDashboard.BackupHost

open Shell Script

/-! ## Names -/

/-- A name that the pattern `<pre>*<suf>` matches. -/
def glob (pre suf name : String) : Bool :=
  pre.toList.isPrefixOf name.toList && suf.toList.isSuffixOf name.toList &&
    decide (pre.length + suf.length ≤ name.length)

/-- `${name}-${DATE}.tar.gz` -/
def outputOf (name date : String) : String := name ++ "-" ++ date ++ ".tar.gz"

/-- `${output}.partial` -/
def partialOf (output : String) : String := output ++ ".partial"

/-- `${output}.pending` -/
def pendingOf (output : String) : String := output ++ ".pending"

/-! ## Containers -/

/-- `container_state`; none where the function fails. -/
def containerState (container : String) : Sh (Option ContainerState) := do
  let state ← command fun w s => (w.printed, s)
  let answer ← match state with
    | none => do
      let containerIds ← command fun w s => (w.printed, s)
      match containerIds with
      | none => pure none
      | some ids => pure (if ids = "" then some ContainerState.missing else none)
    | some "true" => pure (some .running)
    | some "false" => pure (some .stopped)
    | some _ => pure none
  modify (World.log (.state container answer))
  pure answer

/-- `rcon_exec` -/
def rconExec (container : String) (cmd : RconCommand) : Sh Bool :=
  command fun w s => (w.outcome.ok, s.log (.rcon container cmd w.outcome))

/-- `rcon_exec … save-all flush || rcon_exec … save-all` -/
def flush (container : String) : Sh Bool := do
  if ← rconExec container .saveAllFlush then pure true else rconExec container .saveAll

/-- `restore_saves` -/
def restoreSaves (container : String) : Sh Bool := do
  match ← containerState container with
  | none => pure false
  | some .missing => pure false
  | some .running =>
    if ← rconExec container .saveOn then flush container else pure false
  | some .stopped => pure true

/-- `FROZEN_CONTAINER=…` -/
def setFrozen (container : Option String) : Sh Unit :=
  command fun _ s => ((), { s with frozenContainer := container })

/-- `FAILED=1` -/
def setFailed : Sh Unit := modify fun s => { s with failed := true }

/-- The line `CRITICAL: world saves could not be re-enabled for …`. -/
def echoCritical (container : String) : Sh Unit :=
  command fun _ s => ((), s.log (.critical container))

/-- `exit "${rc}"` -/
def exit (rc : ℕ) : Sh ℕ := command fun _ s => (rc, s)

/-- The exit trap `cleanup`, with the code the script ends with. -/
def cleanup (rc : ℕ) : Sh ℕ := do
  modify fun s => { s with exiting := true }
  match ← read World.frozenContainer with
  | none => exit rc
  | some container =>
    if ← restoreSaves container then
      setFrozen none
      exit rc
    else
      echoCritical container
      exit 1

/-! ## One server -/

/-- `has_existing_backup` -/
def hasExistingBackup (name : String) (directory : Directory) : Bool :=
  directory.keys.any (glob (name ++ "-") ".tar.gz")

/-- `[[ -d … ]]` and `[[ -f … ]]` on paths outside the backup directory. -/
def test (path : String) : Sh Bool := command fun w s => (decide (path ∈ w.present), s)

def sleep : Sh Unit := command fun _ s => ((), s)

/-- `rm -f -- …` -/
def rm (file : String) : Sh Unit :=
  command fun w s =>
    ((), { s with directory := if w.outcome.took then s.directory.erase file else s.directory })

/-- A `tar` that fails may leave a part of the archive. -/
def tar (container output : String) (items : List String) : Sh Bool :=
  command fun w s =>
    let left := if w.outcome.ok then some (w.file.getD default) else w.file
    (w.outcome.ok, { s with directory := left.elim s.directory (s.directory.insert (partialOf output)) }
      |>.log (.tar container output items w.outcome))

/-- `mv -- "${partial}" "${output}"` -/
def mv (container output : String) : Sh Bool :=
  command fun w s =>
    match s.directory.lookup (partialOf output) with
    | none => (false, s)
    | some file =>
      let moved := (s.directory.erase (partialOf output)).insert output file
      (w.outcome.ok, { s with directory := if w.outcome.took then moved else s.directory }
        |>.log (.mv container output w.outcome))

/-- `touch -- "${output}.pending"` -/
def touch (marker : String) : Sh Bool :=
  command fun w s =>
    let touched := s.directory.insert marker (w.file.getD ⟨[], 0⟩)
    (w.outcome.ok, { s with directory := if w.outcome.took then touched else s.directory }
      |>.log (.touch marker w.outcome))

/-- The line `name|container|compose_dir` of a server. -/
structure Target where
  name : String
  container : String
  composeDir : String
  deriving DecidableEq

/-- What the archive of a server is made of. -/
def archiveItems (target : Target) : Sh (List String) := do
  if target.name = "minecraft-main" then
    let compose ← test (target.composeDir ++ "/compose.yml")
    let digest ← test (target.composeDir ++ "/image-digest.txt")
    let mods ← test (target.composeDir ++ "/mods")
    let config ← test (target.composeDir ++ "/config")
    let extras ← test (target.composeDir ++ "/extras")
    pure (["data"] ++ (if compose then ["compose.yml"] else [])
      ++ (if digest then ["image-digest.txt"] else []) ++ (if mods then ["mods"] else [])
      ++ (if config then ["config"] else []) ++ (if extras then ["extras"] else []))
  else
    pure ["data"]

/-- The end of `backup_server`, after `tar` and the restoring of the saves. -/
def finalize (container output : String) (tarOk restoreFailed : Bool) : Sh Bool := do
  if !tarOk then
    rm (partialOf output)
    setFailed
    pure false
  else if !(← mv container output) then
    setFailed
    pure false
  else if !(← touch (pendingOf output)) then
    rm output
    setFailed
    pure false
  else
    pure (!restoreFailed)

/-- `backup_server` from the choice of the items on. -/
def archive (target : Target) (date : String) (running : Bool) : Sh Bool := do
  let output := outputOf target.name date
  let items ← archiveItems target
  rm (partialOf output)
  let tarOk ← tar target.container output items
  if running then
    if ← restoreSaves target.container then
      setFrozen none
      finalize target.container output tarOk false
    else
      echoCritical target.container
      setFailed
      finalize target.container output tarOk true
  else
    finalize target.container output tarOk false

/-- The freezing of a running world; the answer says whether it is frozen and flushed. -/
def freeze (container : String) : Sh Bool := do
  if !(← flush container) then
    setFailed
    pure false
  else if !(← rconExec container .saveOff) then
    setFailed
    pure false
  else
    setFrozen (some container)
    sleep
    if !(← flush container) then
      setFailed
      if ← restoreSaves container then
        setFrozen none
        pure false
      else
        pure false
    else
      pure true

/-- `backup_server`; the answer is its success. -/
def backupServer (target : Target) (date : String) : Sh Bool := do
  if !(← test (target.composeDir ++ "/data")) then
    pure true
  else
    match ← containerState target.container with
    | none =>
      setFailed
      pure false
    | some .running =>
      if ← freeze target.container then archive target date true else pure false
    | some .stopped | some .missing =>
      if ← read fun s => hasExistingBackup target.name s.directory then
        pure true
      else
        archive target date false

/-! ## The script -/

def targets : List Target :=
  [⟨"minecraft-paper", "mc-paper", "/opt/ivrm/compose/minecraft-paper"⟩,
    ⟨"minecraft-skyblock", "mc-skyblock", "/opt/ivrm/compose/minecraft-skyblock"⟩,
    ⟨"minecraft-hardcore", "mc-hardcore", "/opt/ivrm/compose/minecraft-hardcore"⟩,
    ⟨"minecraft-gtnh", "mc-gtnh", "/opt/ivrm/compose/minecraft-gtnh"⟩,
    ⟨"minecraft-atm10", "mc-atm10", "/opt/ivrm/compose/minecraft-atm10"⟩,
    ⟨"minecraft-main", "mc-main", "/opt/ivrm/compose/minecraft-main"⟩]

/-- The loop over the servers, which breaks at the first that fails. -/
def backupAll (date : String) : List Target → Sh Unit
  | [] => pure ()
  | target :: rest => do
    if ← backupServer target date then backupAll date rest else setFailed

/-- The order of `sort -rn` on the lines `<mtime> <name>`. -/
def newerFirst (a b : String × File) : Bool :=
  decide (b.2.mtime < a.2.mtime ∨ (a.2.mtime = b.2.mtime ∧ b.1 ≤ a.1))

/-- The archives of a server that `find` prints: those for which it sees no `.pending`. -/
def unmarked (server : String) (w : Choice) (directory : Directory) : List String :=
  let files := directory.entries.map fun e => (e.1, e.2)
  let found := files.filter fun f =>
    glob (server ++ "-") ".tar.gz" f.1 && decide (f.1 ∉ w.skipped) &&
      !(decide (pendingOf f.1 ∈ directory) && decide (f.1 ∉ w.untested))
  (found.mergeSort newerFirst).map Prod.fst

/-- `${backups[@]:offset}`; a negative offset counts from the end. -/
def slice (offset : ℤ) (l : List String) : List String :=
  if 0 ≤ offset then l.drop offset.toNat
  else if 0 ≤ l.length + offset then l.drop (l.length + offset).toNat
  else []

/-- The pruning of the archives of a server. -/
def prune (localKeep : ℤ) (server : String) : Sh Unit := do
  let backups ← command fun w s => (unmarked server w s.directory, s)
  if (backups.length : ℤ) > localKeep then
    command fun w s =>
      let removed := (slice localKeep backups).filter (· ∉ w.skipped)
      ((), { s with directory := removed.foldl (fun d f => d.erase f) s.directory }
        |>.log (.prune server s.directory removed))
  else
    pure ()

def pruneAll (localKeep : ℤ) : List Target → Sh Unit
  | [] => pure ()
  | target :: rest => do
    prune localKeep target.name
    pruneAll localKeep rest

/-- The script between its exit trap and its exit. -/
def body (localKeep : ℤ) (date : String) : Sh ℕ := do
  backupAll date targets
  pruneAll localKeep targets
  let failed ← read World.failed
  exit (if failed then 1 else 0)

/-- `[[ "${LOCAL_KEEP}" =~ ^[1-9][0-9]*$ ]]` -/
def positiveInteger (s : String) : Bool :=
  match s.toList with
  | [] => false
  | c :: rest => decide ('1' ≤ c ∧ c ≤ '9') && rest.all fun c => decide ('0' ≤ c ∧ c ≤ '9')

/-- The value of a numeral in shell arithmetic, which wraps around at 64 bits. -/
def shellInteger (s : String) : ℤ :=
  let n := s.toList.foldl (fun n c => n * 10 + (c.toNat - '0'.toNat)) 0
  Int.bmod n (2 ^ 64)

/-- `minecraft-backup.sh`, given `LOCAL_KEEP` and `DATE`. -/
def minecraftBackup (localKeep date : String) : Sh ℕ := do
  if positiveInteger localKeep then
    modify fun s => { s with failed := false, frozenContainer := none, exiting := false }
    onExit (body (shellInteger localKeep) date) cleanup
  else
    pure 2

end IvrmDashboard.BackupHost

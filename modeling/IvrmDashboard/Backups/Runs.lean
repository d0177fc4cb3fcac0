import IvrmDashboard.Notifications.Settings
import IvrmDashboard.Foundations.Sql.Result

/-!
# Backup runs

The rows of `backup_runs` and what the queries select of them. A run is reported under the id its
agent gave it and may be reported again: once it has ended its outcome stays, while its evidence
(checksum, remote sync, restore test, retention) is completed by later reports. Timestamps are
microseconds.
-/

namespace IvrmDashboard.Backups

open Sql Operations Notifications

/-- `outcome` -/
inductive Outcome
  | success
  | failed
  | running
  | unknown
  deriving DecidableEq

/-- `outcome in ('success', 'failed')` -/
def Outcome.ended : Outcome → Bool
  | .success | .failed => true
  | .running | .unknown => false

/-- The columns by which a run belongs to a policy. -/
structure BackupScope where
  hostId : Uuid
  backupTarget : String
  gameMode : String
  backupType : String
  deriving DecidableEq

/-- A row of `backup_runs`. -/
structure BackupRun where
  id : ℕ
  runId : Uuid
  scope : BackupScope
  destinationType : String
  startedAt : ℤ
  completedAt : Option ℤ
  outcome : Outcome
  durationSeconds : Option ℤ
  sizeBytes : Option ℤ
  sha256Verified : Option Bool
  remoteSyncedAt : Option ℤ
  restoreTestedAt : Option ℤ
  retentionExpiresAt : Option ℤ
  failureCode : Option String
  deriving DecidableEq

/-- `s ~ '^[A-Za-z0-9][A-Za-z0-9_.-]{0,63}$'` -/
def nameOk (s : String) : Bool :=
  let alnum c := Text.upperAlpha c || Text.lowerAlpha c || Text.digit c
  Text.lengthBetween 1 64 s && s.toList.head?.all alnum &&
    s.toList.all fun c => alnum c || c ∈ "_.-".toList

def backupTypes : List String := ["world", "config", "permissions", "full"]

def destinationTypes : List String := ["local", "s3"]

def failureCodes : List String :=
  ["source_unavailable", "archive_failed", "checksum_failed", "remote_sync_failed",
    "retention_failed", "timeout", "permission_denied", "insufficient_space", "unknown"]

/-- The constraints both tables put on the columns of the scope. -/
def BackupScope.ok (s : BackupScope) : Bool :=
  nameOk s.backupTarget && nameOk s.gameMode && s.backupType ∈ backupTypes

/-- Evidence comes at or after the completion. -/
def BackupRun.afterCompletion (r : BackupRun) (t : Option ℤ) : Bool :=
  t.all fun t => r.completedAt.any (· ≤ t)

/-- The constraints of a run. -/
def BackupRun.checks (r : BackupRun) : List (String × Bool) :=
  [("backup_runs_scope_check", r.scope.ok),
    ("backup_runs_destination_check", r.destinationType ∈ destinationTypes),
    ("backup_runs_duration_check", r.durationSeconds.all fun d => 0 ≤ d && d ≤ 604800),
    ("backup_runs_size_check", r.sizeBytes.all fun b => 0 ≤ b && b ≤ 9007199254740991),
    ("backup_runs_failure_code_check", r.failureCode.all (· ∈ failureCodes)),
    ("backup_runs_completion_check",
      if r.outcome.ended then r.completedAt.any (r.startedAt ≤ ·) && r.durationSeconds.isSome
      else r.completedAt.isNone && r.durationSeconds.isNone),
    ("backup_runs_failure_required_check", r.failureCode.isSome = (r.outcome = .failed)),
    ("backup_runs_remote_sync_order_check", r.afterCompletion r.remoteSyncedAt),
    ("backup_runs_restore_order_check", r.afterCompletion r.restoreTestedAt),
    ("backup_runs_retention_order_check",
      r.retentionExpiresAt.all fun t => r.completedAt.any (· < t))]

/-- `on conflict (host_id, run_id) do update set …`: the row with another report of the run. -/
def BackupRun.merge (old new : BackupRun) : BackupRun :=
  { old with
    destinationType := new.destinationType
    outcome := if old.outcome.ended then old.outcome else new.outcome
    completedAt := if old.outcome.ended then old.completedAt else new.completedAt
    durationSeconds := if old.outcome.ended then old.durationSeconds else new.durationSeconds
    failureCode := if old.outcome.ended then old.failureCode else new.failureCode
    sizeBytes := new.sizeBytes.or old.sizeBytes
    sha256Verified := new.sha256Verified.or old.sha256Verified
    remoteSyncedAt := new.remoteSyncedAt.or old.remoteSyncedAt
    restoreTestedAt := new.restoreTestedAt.or old.restoreTestedAt
    retentionExpiresAt := new.retentionExpiresAt.or old.retentionExpiresAt }

/-! ## Queries -/

/-- The scope of a policy. -/
def policyScope (p : BackupPolicy) : BackupScope := ⟨p.hostId, p.backupTarget, p.gameMode, p.backupType⟩

/-- A completed successful run, as the queries return it. -/
structure Success where
  id : ℕ
  runId : Uuid
  completedAt : ℤ
  sizeBytes : Option ℤ
  sha256Verified : Option Bool
  destinationType : String
  remoteSyncedAt : Option ℤ
  restoreTestedAt : Option ℤ
  retentionExpiresAt : Option ℤ
  deriving DecidableEq

/-- `outcome = 'success' and completed_at is not null` -/
def BackupRun.success? (r : BackupRun) : Option Success :=
  if r.outcome = .success then
    r.completedAt.map fun completedAt =>
      ⟨r.id, r.runId, completedAt, r.sizeBytes, r.sha256Verified, r.destinationType,
        r.remoteSyncedAt, r.restoreTestedAt, r.retentionExpiresAt⟩
  else none

/-- The runs of a policy. -/
def runsOf (runs : List BackupRun) (p : BackupPolicy) : List BackupRun :=
  runs.filter (·.scope = policyScope p)

/-- The completed successful runs of a policy. -/
def successesOf (runs : List BackupRun) (p : BackupPolicy) : List Success :=
  (runsOf runs p).filterMap BackupRun.success?

/-- `order by t desc, id desc` -/
def newerFirst {α : Type} (t : α → ℤ) (id : α → ℕ) (a b : α) : Bool :=
  t b < t a || (t a = t b && id b ≤ id a)

/-- The latest successful run: `order by completed_at desc, id desc limit 1`. -/
def latestSuccess (runs : List BackupRun) (p : BackupPolicy) : Option Success :=
  firstBy (newerFirst (·.completedAt) (·.id)) (successesOf runs p)

/-- A successful restore test, and the run it was made with. -/
structure RestoreTest where
  runId : ℕ
  testedAt : ℤ
  deriving DecidableEq

def Success.restoreTest? (s : Success) : Option RestoreTest := s.restoreTestedAt.map (⟨s.id, ·⟩)

/-- The newest restore test of a policy: `order by restore_tested_at desc, id desc limit 1`. -/
def newestRestoreTest (runs : List BackupRun) (p : BackupPolicy) : Option RestoreTest :=
  firstBy (newerFirst (·.testedAt) (·.runId)) ((successesOf runs p).filterMap Success.restoreTest?)

/-- The latest run: `order by started_at desc, id desc limit 1`. -/
def latestRun (runs : List BackupRun) (p : BackupPolicy) : Option BackupRun :=
  firstBy (newerFirst (·.startedAt) (·.id)) (runsOf runs p)

theorem newerFirst_total {α : Type} (t : α → ℤ) (id : α → ℕ) (a b : α) :
    newerFirst t id a b = true ∨ newerFirst t id b a = true := by
  simp only [newerFirst, Bool.or_eq_true, Bool.and_eq_true, decide_eq_true_eq]
  omega

theorem newerFirst_trans {α : Type} {t : α → ℤ} {id : α → ℕ} {a b c : α}
    (hab : newerFirst t id a b = true) (hbc : newerFirst t id b c = true) :
    newerFirst t id a c = true := by
  simp only [newerFirst, Bool.or_eq_true, Bool.and_eq_true, decide_eq_true_eq] at *
  omega

theorem le_of_newerFirst {α : Type} {t : α → ℤ} {id : α → ℕ} {a b : α}
    (h : newerFirst t id a b = true) : t b ≤ t a := by
  simp only [newerFirst, Bool.or_eq_true, Bool.and_eq_true, decide_eq_true_eq] at h
  omega

end IvrmDashboard.Backups

import IvrmDashboard.Operations.Audit

/-!
# Operation jobs

The tables of the operation queue and the reference tables its functions read. A job is requested
by a console user or through Discord; the identity columns of the row are one `Requester`, which
is what the constraint `operation_jobs_requested_actor_identity_check` says. The constraints that
a write could break are listed in `Job.checks` and tested by every write.

The reference tables (`Directory`) belong to other parts of the dashboard and may change between
any two calls.
-/

namespace IvrmDashboard.Operations

open Sql

/-! ## Enumerated columns -/

/-- `operation_type` -/
inductive OperationType
  | saveWorld
  | restartBackend
  | restartProxy
  | startBackend
  | stopBackend
  | maintenanceStart
  | maintenanceEnd
  | createBackup
  | verifyBackup
  deriving DecidableEq

/-- `status` of a job -/
inductive JobStatus
  | queued
  | leased
  | running
  | succeeded
  | failed
  | cancelled
  | expired
  deriving DecidableEq

/-- `actor_type` of an event -/
inductive ActorType
  | consoleUser
  | agent
  | system
  deriving DecidableEq

/-- The roles of the console, in increasing rank. -/
inductive Role
  | viewer
  | operator
  | administrator
  | owner
  deriving DecidableEq

/-- `lock_scope` -/
inductive LockScope
  | world
  | exclusive
  | maintenance
  deriving DecidableEq

/-- `event_type` -/
inductive EventType
  | requested
  | leased
  | leaseRenewed
  | started
  | succeeded
  | failed
  | cancelled
  | expired
  | requeued
  deriving DecidableEq

namespace OperationType

def text : OperationType → String
  | saveWorld => "save_world"
  | restartBackend => "restart_backend"
  | restartProxy => "restart_proxy"
  | startBackend => "start_backend"
  | stopBackend => "stop_backend"
  | maintenanceStart => "maintenance_start"
  | maintenanceEnd => "maintenance_end"
  | createBackup => "create_backup"
  | verifyBackup => "verify_backup"

def all : List OperationType :=
  [saveWorld, restartBackend, restartProxy, startBackend, stopBackend, maintenanceStart,
    maintenanceEnd, createBackup, verifyBackup]

/-- The operation type a text names. -/
def ofText? (s : String) : Option OperationType := all.find? fun t => t.text == s

/-- The operations the lifecycle bridge of `mc-main` carries out. -/
def lifecycle : List OperationType := [startBackend, restartBackend, stopBackend]

theorem text_of_ofText? {s : String} {t : OperationType} (h : ofText? s = some t) : t.text = s := by
  simpa using List.find?_some h

end OperationType

namespace JobStatus

def text : JobStatus → String
  | queued => "queued"
  | leased => "leased"
  | running => "running"
  | succeeded => "succeeded"
  | failed => "failed"
  | cancelled => "cancelled"
  | expired => "expired"

def all : List JobStatus := [queued, leased, running, succeeded, failed, cancelled, expired]

/-- The status a text names. -/
def ofText? (s : String) : Option JobStatus := all.find? fun t => t.text == s

/-- `status in ('queued', 'leased', 'running')` -/
def active : JobStatus → Bool
  | queued | leased | running => true
  | _ => false

/-- The job has not been started. -/
def waiting : JobStatus → Bool
  | queued | leased => true
  | _ => false

/-- `status in ('leased', 'running')` -/
def held : JobStatus → Bool
  | leased | running => true
  | _ => false

/-- `status in ('succeeded', 'failed', 'cancelled', 'expired')` -/
def terminal : JobStatus → Bool
  | succeeded | failed | cancelled | expired => true
  | _ => false

/-- The status changes `transition_operation_job` knows. -/
def edge : JobStatus → JobStatus → Bool
  | queued, new => new ∈ [leased, cancelled, expired]
  | leased, new => new ∈ [running, queued, failed, expired]
  | running, new => new ∈ [succeeded, failed, expired]
  | _, _ => false

/-- The event a status change is recorded as. -/
def eventType : JobStatus → EventType
  | queued => .requeued
  | leased => .leased
  | running => .started
  | succeeded => .succeeded
  | failed => .failed
  | cancelled => .cancelled
  | expired => .expired

theorem text_of_ofText? {s : String} {t : JobStatus} (h : ofText? s = some t) : t.text = s := by
  simpa using List.find?_some h

theorem ofText?_text (t : JobStatus) : ofText? t.text = some t := by cases t <;> decide

theorem text_injective {t u : JobStatus} (h : t.text = u.text) : t = u := by
  have := ofText?_text t
  rw [h, ofText?_text] at this
  exact (Option.some.inj this).symm

@[simp] theorem terminal_eq_not_active (t : JobStatus) : t.terminal = !t.active := by
  cases t <;> rfl

theorem active_of_held {t : JobStatus} (h : t.held = true) : t.active = true := by
  cases t <;> first | rfl | simp [held] at h

/-- No change of status leads back before the start. -/
theorem waiting_of_edge {t u : JobStatus} (h : edge t u = true) (hu : u.waiting = true) :
    t.waiting = true := by
  cases t <;> cases u <;> simp [edge, waiting] at h hu ⊢

theorem edge_source {t u : JobStatus} (h : edge t u = true) : t.active = true := by
  cases t <;> first | rfl | simp [edge] at h

end JobStatus

namespace ActorType

def text : ActorType → String
  | consoleUser => "console_user"
  | agent => "agent"
  | system => "system"

def all : List ActorType := [consoleUser, agent, system]

/-- The actor type a text names. -/
def ofText? (s : String) : Option ActorType := all.find? fun t => t.text == s

theorem text_of_ofText? {s : String} {t : ActorType} (h : ofText? s = some t) : t.text = s := by
  simpa using List.find?_some h

end ActorType

namespace Role

def text : Role → String
  | viewer => "viewer"
  | operator => "operator"
  | administrator => "administrator"
  | owner => "owner"

def rank : Role → ℕ
  | viewer => 0
  | operator => 1
  | administrator => 2
  | owner => 3

end Role

def LockScope.text : LockScope → String
  | .world => "minecraft:world"
  | .exclusive => "minecraft:exclusive"
  | .maintenance => "minecraft:maintenance"

/-! ## Reference tables -/

/-- The test on a stored e-mail address. -/
def emailOk [Server] (s : String) : Bool :=
  Text.lengthBetween 3 320 s && s == Text.lower (Text.btrim s)

/-- The test on a Discord user id, `^[0-9]{17,20}$`. -/
def discordIdOk (s : String) : Bool := Text.lengthBetween 17 20 s && s.toList.all Text.digit

/-- A row of `console_users`. -/
structure ConsoleUser [Server] where
  id : Uuid
  email : String
  role : Role
  isActive : Bool
  email_check : emailOk email = true

/-- A row of `hosts`. -/
structure Host where
  id : Uuid
  serverId : String
  enabled : Bool
  deriving DecidableEq

/-- The only server the lifecycle bridge serves. -/
def mcMainServerId : String := "oci-minecraft-01"

/-- `select * from hosts where server_id = s and enabled = true` -/
def enabledHostOf (hosts : List Host) (s : String) : Option Host :=
  hosts.find? fun h => h.serverId = s && h.enabled

/-- A row of `discord_console_sessions`. -/
structure DiscordConsoleSession where
  id : Uuid
  discordUserId : String
  consoleRole : Role
  expiresAt : ℤ
  revokedAt : Option ℤ
  user_id_check : discordIdOk discordUserId = true

/-- The reference tables as a call finds them. -/
structure Directory [Server] where
  consoleUsers : List ConsoleUser
  hosts : List Host
  discordSessions : List DiscordConsoleSession

namespace Directory

variable [Server] (d : Directory)

def consoleUser? (id : Uuid) : Option ConsoleUser := d.consoleUsers.find? (·.id = id)

def isConsoleUser (id : Uuid) : Bool := d.consoleUsers.any (·.id = id)

def isHost (id : Uuid) : Bool := d.hosts.any (·.id = id)

def enabledHost? (s : String) : Option Host := enabledHostOf d.hosts s

def discordSession? (id : Uuid) : Option DiscordConsoleSession :=
  d.discordSessions.find? (·.id = id)

end Directory

/-! ## The tables of the queue -/

/-- The columns `requested_actor_type`, `requested_by`, `requested_email` and
`requested_discord_user_id`. -/
inductive Requester
  | consoleUser (requestedBy : Uuid) (requestedEmail : String)
  | discord (userId : String)
  deriving DecidableEq

/-- `requested_by` -/
def Requester.requestedBy : Requester → Option Uuid
  | .consoleUser id _ => some id
  | .discord _ => none

/-- `requested_discord_user_id` -/
def Requester.discordUserId : Requester → Option String
  | .consoleUser .. => none
  | .discord id => some id

/-- A row of `operation_jobs`. -/
structure Job where
  id : Uuid
  hostId : Uuid
  operationType : OperationType
  lockScope : LockScope
  payload : Jsonb
  status : JobStatus
  requester : Requester
  requestedRole : Role
  idempotencyKeyHash : String
  confirmationVerified : Bool
  requestId : Uuid
  leaseOwner : Option String
  leasedAt : Option ℤ
  leaseExpiresAt : Option ℤ
  startedAt : Option ℤ
  finishedAt : Option ℤ
  errorCode : Option String
  resultSummary : Option Jsonb
  createdAt : ℤ
  updatedAt : ℤ
  deriving DecidableEq

/-- A row of `operation_events`. -/
structure OperationEvent where
  id : ℕ
  jobId : Uuid
  eventType : EventType
  previousStatus : Option JobStatus
  newStatus : JobStatus
  actorType : ActorType
  actorUserId : Option Uuid
  details : Jsonb
  createdAt : ℤ
  deriving DecidableEq

/-- The test on a lease owner, `^[A-Za-z0-9._:-]+$` and at most 120 characters. -/
def leaseOwnerOk (s : String) : Bool :=
  Text.lengthBetween 1 120 s &&
    Text.matchesPlus (fun c => Text.upperAlpha c || Text.lowerAlpha c || Text.digit c ||
      c == '.' || c == '_' || c == ':' || c == '-') s

/-- The test on an error code, `^[a-z0-9._:-]+$` and at most 120 characters. -/
def errorCodeOk (s : String) : Bool :=
  Text.lengthBetween 1 120 s &&
    Text.matchesPlus (fun c => Text.lowerAlpha c || Text.digit c || c == '.' || c == '_' ||
      c == ':' || c == '-') s

/-- The test on a stored hash, `^[0-9a-f]{64}$`. -/
def hashOk (s : String) : Bool := Text.matchesExactly Text.hexDigit 64 s

/-- The test on a stored JSON object. -/
def objectOk (v : Jsonb) : Bool := v.isObject && v.octetLength ≤ 8192

/-- A lease that has an end has a beginning before it. -/
def leaseTimeOk (leasedAt leaseExpiresAt : Option ℤ) : Bool :=
  match leaseExpiresAt, leasedAt with
  | none, _ => true
  | some e, some l => l < e
  | some _, none => false

/-- The `CHECK` constraints of `operation_jobs` on columns that are not enumerated. -/
def Job.checks [Server] (j : Job) : List (String × Bool) :=
  [("operation_jobs_error_code_check", j.errorCode.all errorCodeOk),
    ("operation_jobs_finished_status_check", j.finishedAt.isNone || j.status.terminal),
    ("operation_jobs_idempotency_hash_check", hashOk j.idempotencyKeyHash),
    ("operation_jobs_lease_owner_check",
      j.leaseOwner.all fun o => leaseOwnerOk o && o == Text.btrim o),
    ("operation_jobs_lease_time_check", leaseTimeOk j.leasedAt j.leaseExpiresAt),
    ("operation_jobs_payload_check", objectOk j.payload),
    ("operation_jobs_requested_discord_user_id_check",
      j.requester.discordUserId.all discordIdOk),
    ("operation_jobs_requested_email_check",
      match j.requester with
      | .consoleUser _ e => emailOk e
      | .discord _ => true),
    ("operation_jobs_result_summary_check", j.resultSummary.all objectOk)]

/-- Two rows the unique index `operation_jobs_active_lock_scope_key` does not accept together. -/
def Job.sameActiveScope (j k : Job) : Bool :=
  j.hostId = k.hostId && j.lockScope = k.lockScope && j.status.active && k.status.active

/-- Two rows the unique index `operation_jobs_idempotency_key` does not accept together. A `NULL`
in `requested_by` is distinct from every other one. -/
def Job.sameIdempotencyKey (j k : Job) : Bool :=
  (eq j.requester.requestedBy k.requester.requestedBy).holds && j.hostId = k.hostId &&
    j.operationType = k.operationType && j.idempotencyKeyHash = k.idempotencyKeyHash

/-- Two rows the unique index `operation_jobs_discord_idempotency_key` does not accept together. -/
def Job.sameDiscordIdempotencyKey (j k : Job) : Bool :=
  (eq j.requester.discordUserId k.requester.discordUserId).holds && j.hostId = k.hostId &&
    j.operationType = k.operationType && j.idempotencyKeyHash = k.idempotencyKeyHash

theorem Job.sameActiveScope_eq_true {j k : Job} : j.sameActiveScope k = true ↔
    j.hostId = k.hostId ∧ j.lockScope = k.lockScope ∧ j.status.active = true ∧
      k.status.active = true := by
  simp [sameActiveScope, and_assoc]

theorem Job.sameIdempotencyKey_eq_true {j k : Job} : j.sameIdempotencyKey k = true ↔
    (∃ id, j.requester.requestedBy = some id ∧ k.requester.requestedBy = some id) ∧
      j.hostId = k.hostId ∧ j.operationType = k.operationType ∧
      j.idempotencyKeyHash = k.idempotencyKeyHash := by
  simp [sameIdempotencyKey, and_assoc]

theorem Job.sameDiscordIdempotencyKey_eq_true {j k : Job} :
    j.sameDiscordIdempotencyKey k = true ↔
    (∃ id, j.requester.discordUserId = some id ∧ k.requester.discordUserId = some id) ∧
      j.hostId = k.hostId ∧ j.operationType = k.operationType ∧
      j.idempotencyKeyHash = k.idempotencyKeyHash := by
  simp [sameDiscordIdempotencyKey, and_assoc]

/-- The operation tables. `nextEventId` is the sequence behind the events' identity column. -/
structure Store where
  jobs : List Job
  events : List OperationEvent
  nextEventId : ℕ
  audit : Audit.Tables

/-- The tables after the migrations that ran at `t`. -/
def Store.initial (t : ℤ) : Store where
  jobs := []
  events := []
  nextEventId := 1
  audit := .initial t

/-- What a call finds: its clock, the reference tables and the uuids it draws. -/
structure Context [Server] where
  now : ℤ
  directory : Directory
  genRandomUuid : ℕ → Uuid

/-! ## Writes -/

namespace Store

def job? (s : Store) (id : Uuid) : Option Job := s.jobs.find? (·.id = id)

/-- The unique indexes, for a row `j` among the rows `others`. -/
def uniqueChecks (others : List Job) (j : Job) : Except DbError Unit := do
  raiseIf (others.any (·.id = j.id)) (.uniqueViolation "operation_jobs_pkey")
  raiseIf (others.any j.sameIdempotencyKey) (.uniqueViolation "operation_jobs_idempotency_key")
  raiseIf (others.any j.sameActiveScope)
    (.uniqueViolation "operation_jobs_active_lock_scope_key")
  raiseIf (others.any j.sameDiscordIdempotencyKey)
    (.uniqueViolation "operation_jobs_discord_idempotency_key")

/-- The rows with `j` in the place of the row of its id. -/
def replaceJob (s : Store) (j : Job) : List Job := s.jobs.map fun k => if k.id = j.id then j else k

variable [Server]

/-- `insert into operation_jobs` -/
def insertJob (c : Context) (j : Job) (s : Store) : Except DbError Store := do
  checkAll j.checks
  uniqueChecks s.jobs j
  raiseIf (!c.directory.isHost j.hostId) (.foreignKeyViolation "operation_jobs_host_id_fkey")
  raiseIf (!j.requester.requestedBy.all c.directory.isConsoleUser)
    (.foreignKeyViolation "operation_jobs_requested_by_fkey")
  return { s with jobs := s.jobs ++ [j] }

/-- `update operation_jobs … where id = j.id`, which leaves the row `j`. -/
def updateJob (j : Job) (s : Store) : Except DbError Store := do
  checkAll j.checks
  uniqueChecks (s.jobs.filter (·.id ≠ j.id)) j
  return { s with jobs := s.replaceJob j }

/-- The columns of an event that the functions supply. -/
structure NewEvent where
  jobId : Uuid
  eventType : EventType
  previousStatus : Option JobStatus
  newStatus : JobStatus
  actorType : ActorType
  actorUserId : Option Uuid
  details : Jsonb

/-- The event row with the next identity value. -/
def eventRow (s : Store) (now : ℤ) (e : NewEvent) : OperationEvent where
  id := s.nextEventId
  jobId := e.jobId
  eventType := e.eventType
  previousStatus := e.previousStatus
  newStatus := e.newStatus
  actorType := e.actorType
  actorUserId := e.actorUserId
  details := e.details
  createdAt := now

/-- `insert into operation_events` -/
def insertEvent (c : Context) (e : NewEvent) (s : Store) : Except DbError Store := do
  checkAll [("operation_events_details_check", objectOk e.details)]
  raiseIf (s.jobs.all (·.id ≠ e.jobId)) (.foreignKeyViolation "operation_events_job_id_fkey")
  raiseIf (!e.actorUserId.all c.directory.isConsoleUser)
    (.foreignKeyViolation "operation_events_actor_user_id_fkey")
  return { s with
    events := s.events ++ [s.eventRow c.now e]
    nextEventId := s.nextEventId + 1 }

/-- `perform append_audit_log(…)` -/
def auditLog (c : Context) (e : Audit.Entry) (s : Store) : Except DbError Store := do
  let r ← Audit.appendAuditLog c.directory.isConsoleUser c.now e s.audit
  return { s with audit := r.2 }

end Store

end IvrmDashboard.Operations

import IvrmDashboard.Foundations.Sql.Table
import IvrmDashboard.Operations.Jobs

/-!
# Enqueueing a job

The two ways a job is requested: `enqueueOperationJob` for a console user and
`enqueueDiscordOperationJob` for a Discord session. Both first look for the job the same requester
already has under the idempotency key, then for an active job of the same lock scope on the host,
and insert a row only when there is neither. The advisory lock on the host and the scope
serialises these steps, so a call is one step.
-/

namespace IvrmDashboard.Operations

open Sql

/-! ## What a type of operation needs -/

/-- The lock scope, the rank and the confirmation `enqueue_operation_job` asks for. -/
structure Policy where
  lockScope : LockScope
  requiredRank : ℕ
  confirmationRequired : Bool

def OperationType.policy : OperationType → Policy
  | saveWorld => ⟨.world, 1, false⟩
  | restartBackend => ⟨.exclusive, 1, true⟩
  | restartProxy => ⟨.exclusive, 2, true⟩
  | startBackend => ⟨.exclusive, 1, false⟩
  | stopBackend => ⟨.exclusive, 2, true⟩
  | maintenanceStart => ⟨.maintenance, 1, false⟩
  | maintenanceEnd => ⟨.maintenance, 1, false⟩
  | createBackup => ⟨.exclusive, 1, false⟩
  | verifyBackup => ⟨.exclusive, 1, false⟩

/-! ## Results -/

inductive Outcome
  | created
  | existing
  | conflict
  | denied
  deriving DecidableEq

/-- The row both functions return; `errorCode` is used for Discord only. -/
structure EnqueueResult where
  jobId : Option Uuid
  outcome : Outcome
  jobStatus : Option JobStatus
  errorCode : Option String
  deriving DecidableEq

/-- The empty JSON object. -/
def emptyObject : Jsonb := .obj []

/-! ## Looking up jobs -/

namespace Store

/-- The job a requester already has under an idempotency key. -/
def existingJob? (s : Store) (sameRequester : Requester → Bool) (hostId : Uuid)
    (operationType : OperationType) (keyHash : String) : Option Job :=
  s.jobs.find? fun j => sameRequester j.requester && j.hostId = hostId &&
    j.operationType = operationType && j.idempotencyKeyHash = keyHash

/-- The active jobs of a lock scope on a host. -/
def activeJobs (s : Store) (hostId : Uuid) (scope : LockScope) : List Job :=
  s.jobs.filter fun j => j.hostId = hostId && j.lockScope = scope && j.status.active

end Store

/-- `created_at` -/
def createdOrder (j k : Job) : Bool := j.createdAt ≤ k.createdAt

/-- `created_at, id` -/
def createdIdOrder (j k : Job) : Bool :=
  j.createdAt < k.createdAt || (j.createdAt == k.createdAt && j.id.bits.toNat ≤ k.id.bits.toNat)

/-- The row a request inserts. -/
def newJob [Server] (c : Context) (hostId : Uuid) (operationType : OperationType)
    (lockScope : LockScope) (requester : Requester) (role : Role) (keyHash : String)
    (confirmationVerified : Bool) (requestId : Uuid) : Job where
  id := c.genRandomUuid 0
  hostId := hostId
  operationType := operationType
  lockScope := lockScope
  payload := emptyObject
  status := .queued
  requester := requester
  requestedRole := role
  idempotencyKeyHash := keyHash
  confirmationVerified := confirmationVerified
  requestId := requestId
  leaseOwner := none
  leasedAt := none
  leaseExpiresAt := none
  startedAt := none
  finishedAt := none
  errorCode := none
  resultSummary := none
  createdAt := c.now
  updatedAt := c.now

/-! ## Console users -/

/-- The arguments of `enqueue_operation_job`. -/
structure EnqueueParams where
  hostId : Option Uuid
  operationType : Option String
  payload : Option Jsonb
  requestedBy : Option Uuid
  requestedEmail : Option String
  idempotencyKeyHash : Option String
  confirmationVerified : Option Bool
  requestId : Option Uuid
  actorIp : Option Inet

/-- A request whose arguments passed. -/
structure EnqueueRequest [Server] where
  hostId : Uuid
  operationType : OperationType
  actor : ConsoleUser
  keyHash : String
  confirmationVerified : Bool
  requestId : Uuid
  actorIp : Option Inet

section

variable [Server]

/-- `not v_actor.is_active or v_actor.email <> lower(btrim(p_requested_email))` does not hold. -/
def actorOk (requestedEmail : Option String) (u : ConsoleUser) : Bool :=
  u.isActive &&
    !(ne (some u.email) (requestedEmail.map fun e => Text.lower (Text.btrim e))).holds

/-- The part of `enqueue_operation_job` that raises. -/
def EnqueueParams.validate (c : Context) (p : EnqueueParams) : Except DbError EnqueueRequest := do
  let hostId ← orRaise p.hostId (.raised "operation_request_required_field_missing" "22023")
  let operationText ←
    orRaise p.operationType (.raised "operation_request_required_field_missing" "22023")
  let requestedBy ←
    orRaise p.requestedBy (.raised "operation_request_required_field_missing" "22023")
  let requestId ← orRaise p.requestId (.raised "operation_request_required_field_missing" "22023")
  let _ ← orRaise (p.payload.filter (· = emptyObject))
    (.raised "operation_payload_not_allowed" "22023")
  let keyHash ← orRaise (p.idempotencyKeyHash.filter hashOk)
    (.raised "operation_idempotency_hash_invalid" "22023")
  let actor ← orRaise ((c.directory.consoleUser? requestedBy).filter (actorOk p.requestedEmail))
    (.raised "operation_actor_invalid" "42501")
  let operationType ← orRaise (OperationType.ofText? operationText)
    (.raised "operation_type_not_allowed" "22023")
  return {
    hostId, operationType, actor, keyHash, requestId
    confirmationVerified := p.confirmationVerified.getD false
    actorIp := p.actorIp }

/-- An audit entry about a console user's request. -/
def EnqueueRequest.entry (r : EnqueueRequest) (action : String) (target : Option Uuid)
    (result : String) (metadata : List (String × Jsonb)) : Audit.Entry where
  requestId := some r.requestId
  actorUserId := some r.actor.id
  actorEmail := some r.actor.email
  actorRole := some r.actor.role.text
  actorIp := r.actorIp
  action := some action
  targetType := some "operation_job"
  targetId := target.map Uuid.text
  result := some result
  metadata := some (.buildObject (("operationType", .str r.operationType.text) :: metadata))

/-- The request is denied and recorded under `action`. -/
def EnqueueRequest.deny (c : Context) (r : EnqueueRequest) (action : String) (s : Store) :
    Except DbError (EnqueueResult × Store) := do
  let s ← s.auditLog c (r.entry action none "denied" [])
  return (⟨none, .denied, none, none⟩, s)

/-- The row of a console user's request. -/
def EnqueueRequest.job (c : Context) (r : EnqueueRequest) : Job :=
  newJob c r.hostId r.operationType r.operationType.policy.lockScope
    (.consoleUser r.actor.id r.actor.email) r.actor.role r.keyHash r.confirmationVerified
    r.requestId

/-- The insertion of a job and its first event. -/
def EnqueueRequest.create (c : Context) (r : EnqueueRequest) (s : Store) :
    Except DbError (EnqueueResult × Store) := do
  let s ← s.insertJob c (r.job c)
  let s ← s.insertEvent c {
    jobId := (r.job c).id
    eventType := .requested
    previousStatus := none
    newStatus := .queued
    actorType := .consoleUser
    actorUserId := some r.actor.id
    details := .buildObject [("operationType", .str r.operationType.text)] }
  let s ← s.auditLog c (r.entry "OPERATION_REQUESTED" (some (r.job c).id) "success"
    [("status", .str (r.job c).status.text), ("lockScope", .str (r.job c).lockScope.text)])
  return (⟨some (r.job c).id, .created, some (r.job c).status, none⟩, s)

/-- The part behind the advisory lock: replay, conflict or a new job. -/
def EnqueueRequest.accept (c : Context) (r : EnqueueRequest) (s : Store) :
    Except DbError (EnqueueResult × Store) :=
  match s.existingJob? (·.requestedBy = some r.actor.id) r.hostId r.operationType r.keyHash with
  | some j => do
    let s ← s.auditLog c (r.entry "OPERATION_REQUEST_REPLAYED" (some j.id) "success"
      [("status", .str j.status.text)])
    return (⟨some j.id, .existing, some j.status, none⟩, s)
  | none =>
    match firstBy createdOrder (s.activeJobs r.hostId r.operationType.policy.lockScope) with
    | some j => do
      let s ← s.auditLog c (r.entry "OPERATION_REQUEST_CONFLICT" (some j.id) "conflict"
        [("conflictingOperationType", .str j.operationType.text),
          ("conflictingStatus", .str j.status.text)])
      return (⟨some j.id, .conflict, some j.status, none⟩, s)
    | none => r.create c s

/-- The request as its arguments leave it: denied for its rank or a missing confirmation, or
admitted. -/
def EnqueueRequest.run (c : Context) (r : EnqueueRequest) (s : Store) :
    Except DbError (EnqueueResult × Store) :=
  if r.actor.role.rank < r.operationType.policy.requiredRank then
    r.deny c "OPERATION_REQUEST_DENIED" s
  else if r.operationType.policy.confirmationRequired && !r.confirmationVerified then
    r.deny c "OPERATION_CONFIRMATION_DENIED" s
  else r.accept c s

/-- `enqueue_operation_job` -/
def enqueueOperationJob (c : Context) (p : EnqueueParams) (s : Store) :
    Except DbError (EnqueueResult × Store) := do
  let r ← p.validate c
  r.run c s

end

/-! ## Discord -/

/-- The arguments of `enqueue_discord_operation_job`. -/
structure DiscordEnqueueParams where
  discordSessionId : Option Uuid
  serverId : Option String
  operationType : Option String
  payload : Option Jsonb
  idempotencyKeyHash : Option String
  confirmationText : Option String
  requestId : Option Uuid

/-- Why a Discord request is denied, with what the audit entry says beside the reason. -/
structure Denial where
  reason : String
  operationType : Option OperationType
  requiredRole : Option Role

/-- A Discord request that passed every check of its own. -/
structure DiscordRequest where
  host : Host
  operationType : OperationType
  keyHash : String

/-- The role and the confirmation text a lifecycle operation needs; no other operation is
offered on Discord. -/
def OperationType.discordPolicy : OperationType → Option (Role × Option String)
  | startBackend => some (.operator, none)
  | restartBackend => some (.operator, some "RESTART")
  | stopBackend => some (.administrator, some "STOP")
  | _ => none

/-- The check on the confirmation text, by the text that is asked for. -/
def confirmationDenial (required given : Option String) : Option String :=
  match required with
  | none => if given = none ∨ given = some "" then none else some "confirmation_not_allowed"
  | some text => if isDistinct given (some text) then some "confirmation_invalid" else none

section

variable [Server]

/-- The checks of `enqueue_discord_operation_job` behind the session, in order. -/
def DiscordEnqueueParams.admission (c : Context) (session : DiscordConsoleSession)
    (p : DiscordEnqueueParams) : Except Denial DiscordRequest :=
  if p.serverId ≠ some mcMainServerId then .error ⟨"target_not_allowed", none, none⟩ else
  match c.directory.enabledHost? mcMainServerId with
  | none => .error ⟨"target_unavailable", none, none⟩
  | some host =>
  match p.operationType.bind OperationType.ofText? with
  | none => .error ⟨"action_not_allowed", none, none⟩
  | some operationType =>
  match operationType.discordPolicy with
  | none => .error ⟨"action_not_allowed", none, none⟩
  | some (requiredRole, confirmation) =>
  if p.payload ≠ some emptyObject then
    .error ⟨"payload_not_allowed", some operationType, none⟩ else
  match p.idempotencyKeyHash.filter hashOk with
  | none => .error ⟨"idempotency_invalid", some operationType, none⟩
  | some keyHash =>
  if session.consoleRole.rank < requiredRole.rank then
    .error ⟨"insufficient_role", some operationType, some requiredRole⟩ else
  match confirmationDenial confirmation p.confirmationText with
  | some reason => .error ⟨reason, some operationType, none⟩
  | none => .ok ⟨host, operationType, keyHash⟩

/-- An audit entry about a Discord request. -/
def discordEntry (session : DiscordConsoleSession) (requestId : Uuid) (action : String)
    (target : Option Uuid) (result : String) (metadata : List (String × Jsonb)) :
    Audit.Entry where
  requestId := some requestId
  actorUserId := none
  actorEmail := none
  actorRole := some session.consoleRole.text
  actorIp := none
  action := some action
  targetType := some "operation_job"
  targetId := target.map Uuid.text
  result := some result
  metadata := some (.buildObject
    (("actorType", .str "discord") :: ("discordUserId", .str session.discordUserId) :: metadata))

/-- The metadata of a denial. -/
def Denial.metadata (d : Denial) : List (String × Jsonb) :=
  (d.operationType.map fun t => ("operationType", Jsonb.str t.text)).toList ++
    ("reason", .str d.reason) ::
    (d.requiredRole.map fun r => ("requiredRole", Jsonb.str r.text)).toList

/-- A Discord request is denied and recorded. -/
def discordDeny (c : Context) (session : DiscordConsoleSession) (requestId : Uuid) (d : Denial)
    (s : Store) : Except DbError (EnqueueResult × Store) := do
  let s ← s.auditLog c (discordEntry session requestId "OPERATION_REQUEST_DENIED" none "denied"
    d.metadata)
  return (⟨none, .denied, none, some d.reason⟩, s)

/-- The row of a Discord request. The operations offered there all lock `minecraft:exclusive`. -/
def DiscordRequest.job (c : Context) (session : DiscordConsoleSession) (requestId : Uuid)
    (r : DiscordRequest) : Job :=
  newJob c r.host.id r.operationType .exclusive (.discord session.discordUserId)
    session.consoleRole r.keyHash true requestId

/-- The insertion of a Discord user's job and its first event. -/
def DiscordRequest.create (c : Context) (session : DiscordConsoleSession) (requestId : Uuid)
    (r : DiscordRequest) (s : Store) : Except DbError (EnqueueResult × Store) := do
  let s ← s.insertJob c (r.job c session requestId)
  let s ← s.insertEvent c {
    jobId := (r.job c session requestId).id
    eventType := .requested
    previousStatus := none
    newStatus := .queued
    actorType := .consoleUser
    actorUserId := none
    details := .buildObject [("actorSource", .str "discord")] }
  let s ← s.auditLog c (discordEntry session requestId "OPERATION_REQUESTED"
    (some (r.job c session requestId).id) "success"
    [("operationType", .str r.operationType.text),
      ("lockScope", .str (r.job c session requestId).lockScope.text),
      ("confirmationVerified", .bool true)])
  return (⟨some (r.job c session requestId).id, .created,
    some (r.job c session requestId).status, none⟩, s)

/-- The part behind the advisory lock. A replayed request leaves no audit entry here, and a
conflict is recorded as a denial. -/
def DiscordRequest.accept (c : Context) (session : DiscordConsoleSession) (requestId : Uuid)
    (r : DiscordRequest) (s : Store) : Except DbError (EnqueueResult × Store) :=
  match s.existingJob? (·.discordUserId = some session.discordUserId) r.host.id r.operationType
    r.keyHash with
  | some j => .ok (⟨some j.id, .existing, some j.status, none⟩, s)
  | none =>
    match firstBy createdIdOrder (s.activeJobs r.host.id .exclusive) with
    | some j => do
      let s ← s.auditLog c (discordEntry session requestId "OPERATION_REQUEST_DENIED" none "denied"
        (Denial.metadata ⟨"exclusive_conflict", some r.operationType, none⟩))
      return (⟨some j.id, .conflict, some j.status, some "operation_conflict"⟩, s)
    | none => r.create c session requestId s

/-- `revoked_at is null and expires_at > clock_timestamp()` -/
def sessionOk (now : ℤ) (session : DiscordConsoleSession) : Bool :=
  session.revokedAt.isNone && now < session.expiresAt

/-- `enqueue_discord_operation_job` -/
def enqueueDiscordOperationJob (c : Context) (p : DiscordEnqueueParams) (s : Store) :
    Except DbError (EnqueueResult × Store) := do
  let sessionId ←
    orRaise p.discordSessionId (.raised "operation_request_required_field_missing" "22023")
  let requestId ← orRaise p.requestId (.raised "operation_request_required_field_missing" "22023")
  match (c.directory.discordSession? sessionId).filter (sessionOk c.now) with
  | none => return (⟨none, .denied, none, some "session_invalid"⟩, s)
  | some session =>
    match p.admission c session with
    | .error d => discordDeny c session requestId d s
    | .ok r => r.accept c session requestId s

end

end IvrmDashboard.Operations

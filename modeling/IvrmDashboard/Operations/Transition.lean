import IvrmDashboard.Operations.Enqueue

/-!
# Moving a job

`transitionOperationJob` is the only function that changes the status of a job;
`renewOperationJobLease` moves the end of a lease and `expireStaleOperationJobs` lets the system
expire the jobs whose lease has lapsed. A transition is first resolved against the job it names
(`TransitionParams.resolve`, everything that can raise) and then written: the row, one event and
one audit entry.
-/

namespace IvrmDashboard.Operations

open Sql

/-! ## Transitions -/

/-- The arguments of `transition_operation_job`. -/
structure TransitionParams where
  jobId : Option Uuid
  expectedStatus : Option String
  newStatus : Option String
  actorType : Option String
  actorUserId : Option Uuid
  requestId : Option Uuid
  details : Option Jsonb
  leaseOwner : Option String
  leaseSeconds : Option ℤ

/-- A transition that is allowed, with the row it starts from. -/
structure Transition [Server] where
  job : Job
  newStatus : JobStatus
  actorType : ActorType
  actor : Option ConsoleUser
  requestId : Uuid
  details : Jsonb
  errorCode : Option String
  leaseOwner : Option String
  leaseSeconds : Option ℤ

/-- `lease_expires_at is null or lease_expires_at > v_now` does not hold. -/
def Job.leaseLapsed (now : ℤ) (j : Job) : Bool := j.leaseExpiresAt.any (· ≤ now)

/-- `p_lease_seconds between 15 and 300` -/
def leaseSecondsOk (n : ℤ) : Bool := 15 ≤ n && n ≤ 300

/-- `nullif(p_details ->> 'errorCode', '')` -/
def detailsErrorCode (details : Jsonb) : Option String :=
  (details.getText "errorCode").filter (· ≠ "")

/-- `operation_transition_actor_denied` unless the actor is one the branch admits. -/
def requireActor (ok : Bool) : Except DbError Unit :=
  raiseIf (!ok) (.raised "operation_transition_actor_denied" "42501")

/-- `operation_lease_not_expired` while the lease of the job runs. -/
def requireLapsed (now : ℤ) (j : Job) : Except DbError Unit :=
  raiseIf (!j.leaseLapsed now) (.raised "operation_lease_not_expired" "42501")

section

variable [Server]

/-- The console user behind a `console_user` transition; no other actor may name one. -/
def TransitionParams.resolveActor (c : Context) (p : TransitionParams) :
    ActorType → Except DbError (Option ConsoleUser)
  | .consoleUser => do
    let u ← orRaise ((p.actorUserId.bind c.directory.consoleUser?).filter (·.isActive))
      (.raised "operation_transition_actor_invalid" "42501")
    return some u
  | _ => do
    raiseIf p.actorUserId.isSome (.raised "operation_transition_actor_user_not_allowed" "22023")
    return none

/-- `v_actor.id <> v_job.requested_by and v_actor.role not in ('administrator', 'owner')` -/
def cancelDenied (actor : Option ConsoleUser) (j : Job) : Bool :=
  ((ne (actor.map (·.id)) j.requester.requestedBy).and
    (notIn (actor.map (·.role)) [.administrator, .owner])).holds

/-- Who may make which change, and when. -/
def transitionGate (now : ℤ) (j : Job) (newStatus : JobStatus) (actorType : ActorType)
    (actor : Option ConsoleUser) (p : TransitionParams) : Except DbError Unit :=
  match j.status, newStatus with
  | .queued, .leased =>
    raiseIf (!(actorType = .agent && p.leaseOwner.any leaseOwnerOk &&
      p.leaseSeconds.any leaseSecondsOk)) (.raised "operation_lease_invalid" "22023")
  | .queued, .cancelled => do
    requireActor (actorType = .consoleUser || actorType = .system)
    requireActor (!(actorType = .consoleUser && cancelDenied actor j))
  | .queued, .expired => requireActor (actorType = .system)
  | .leased, .running => requireActor (actorType = .agent)
  | .leased, .queued | .leased, .failed =>
    if actorType = .system then requireLapsed now j else requireActor (actorType = .agent)
  | .leased, .expired | .running, .expired => do
    requireActor (actorType = .system)
    requireLapsed now j
  | .running, .succeeded | .running, .failed => requireActor (actorType = .agent)
  | _, _ => .ok ()

/-- The part of `transition_operation_job` that raises. -/
def TransitionParams.resolve (c : Context) (p : TransitionParams) (s : Store) :
    Except DbError Transition := do
  let jobId ← orRaise p.jobId (.raised "operation_transition_required_field_missing" "22023")
  let expected ←
    orRaise p.expectedStatus (.raised "operation_transition_required_field_missing" "22023")
  let newText ← orRaise p.newStatus (.raised "operation_transition_required_field_missing" "22023")
  let actorText ←
    orRaise p.actorType (.raised "operation_transition_required_field_missing" "22023")
  let requestId ←
    orRaise p.requestId (.raised "operation_transition_required_field_missing" "22023")
  let details ← orRaise (p.details.filter safeObject)
    (.raised "operation_transition_details_invalid" "22023")
  let actorType ← orRaise (ActorType.ofText? actorText)
    (.raised "operation_transition_actor_invalid" "22023")
  let actor ← p.resolveActor c actorType
  let job ← orRaise (s.job? jobId) (.raised "operation_job_not_found" "P0002")
  raiseIf (job.status.text ≠ expected) (.raised "operation_status_conflict" "40001")
  let newStatus ← orRaise ((JobStatus.ofText? newText).filter job.status.edge)
    (.raised "operation_transition_not_allowed" "22023")
  transitionGate c.now job newStatus actorType actor p
  raiseIf (actorType = .agent && job.status.held && isDistinct job.leaseOwner p.leaseOwner)
    (.raised "operation_lease_owner_mismatch" "42501")
  raiseIf (!(detailsErrorCode details).all errorCodeOk)
    (.raised "operation_error_code_invalid" "22023")
  return {
    job, newStatus, actorType, actor, requestId, details
    errorCode := detailsErrorCode details
    leaseOwner := p.leaseOwner
    leaseSeconds := p.leaseSeconds }

namespace Transition

/-- The row the `update` leaves. -/
def row (t : Transition) (now : ℤ) : Job :=
  { t.job with
    status := t.newStatus
    updatedAt := now
    leaseOwner :=
      match t.newStatus with
      | .leased => t.leaseOwner
      | .queued => none
      | _ => t.job.leaseOwner
    leasedAt :=
      match t.newStatus with
      | .leased => some now
      | .queued => none
      | _ => t.job.leasedAt
    leaseExpiresAt :=
      match t.newStatus with
      | .leased => t.leaseSeconds.map (now + · * second)
      | .queued => none
      | _ => t.job.leaseExpiresAt
    startedAt := if t.newStatus = .running then some now else t.job.startedAt
    finishedAt := if t.newStatus.terminal then some now else t.job.finishedAt
    errorCode :=
      match t.newStatus with
      | .failed => some (t.errorCode.getD "operation_failed")
      | .expired => some (t.errorCode.getD "operation_lease_expired")
      | _ => t.job.errorCode
    resultSummary :=
      match t.newStatus with
      | .succeeded | .failed | .expired => some t.details
      | _ => t.job.resultSummary }

/-- The event of the transition. -/
def event (t : Transition) : Store.NewEvent where
  jobId := t.job.id
  eventType := t.newStatus.eventType
  previousStatus := some t.job.status
  newStatus := t.newStatus
  actorType := t.actorType
  actorUserId := t.actor.map (·.id)
  details := t.details

/-- The audit entry of the transition. -/
def entry (t : Transition) : Audit.Entry where
  requestId := some t.requestId
  actorUserId := t.actor.map (·.id)
  actorEmail := t.actor.map (·.email)
  actorRole := t.actor.map (·.role.text)
  actorIp := none
  action := some "OPERATION_STATUS_CHANGED"
  targetType := some "operation_job"
  targetId := some t.job.id.text
  result := some (if t.newStatus = .failed ∨ t.newStatus = .expired then "error" else "success")
  metadata := some (.buildObject
    [("operationType", .str t.job.operationType.text),
      ("previousStatus", .str t.job.status.text),
      ("newStatus", .str t.newStatus.text),
      ("actorType", .str t.actorType.text)])

/-- The writes of the transition. -/
def write (c : Context) (t : Transition) (s : Store) : Except DbError Store := do
  let s ← s.updateJob (t.row c.now)
  let s ← s.insertEvent c t.event
  s.auditLog c t.entry

end Transition

/-- `transition_operation_job` -/
def transitionOperationJob (c : Context) (p : TransitionParams) (s : Store) :
    Except DbError ((Uuid × JobStatus) × Store) := do
  let t ← p.resolve c s
  let s ← t.write c s
  return ((t.job.id, t.newStatus), s)

/-! ## Renewal -/

/-- The arguments of `renew_operation_job_lease`. -/
structure RenewParams where
  jobId : Option Uuid
  leaseOwner : Option String
  requestId : Option Uuid
  leaseSeconds : Option ℤ

/-- A renewal that is allowed, with the row it starts from. -/
structure Renewal where
  job : Job
  requestId : Uuid
  leaseSeconds : ℤ

/-- The part of `renew_operation_job_lease` that raises. -/
def RenewParams.resolve (c : Context) (p : RenewParams) (s : Store) : Except DbError Renewal := do
  let jobId ← orRaise p.jobId (.raised "operation_lease_renewal_invalid" "22023")
  let requestId ← orRaise p.requestId (.raised "operation_lease_renewal_invalid" "22023")
  let leaseOwner ←
    orRaise (p.leaseOwner.filter leaseOwnerOk) (.raised "operation_lease_renewal_invalid" "22023")
  let leaseSeconds ← orRaise (p.leaseSeconds.filter leaseSecondsOk)
    (.raised "operation_lease_renewal_invalid" "22023")
  let job ← orRaise (s.job? jobId) (.raised "operation_job_not_found" "P0002")
  raiseIf (!job.status.held) (.raised "operation_lease_renewal_status_invalid" "40001")
  raiseIf (isDistinct job.leaseOwner (some leaseOwner))
    (.raised "operation_lease_owner_mismatch" "42501")
  raiseIf (!job.leaseExpiresAt.any (c.now < ·)) (.raised "operation_lease_expired" "42501")
  return { job, requestId, leaseSeconds }

namespace Renewal

/-- `v_new_expiry` -/
def newExpiry (r : Renewal) (now : ℤ) : ℤ := now + r.leaseSeconds * second

/-- The row the `update` leaves. -/
def row (r : Renewal) (now : ℤ) : Job :=
  { r.job with
    leaseExpiresAt := some (r.newExpiry now)
    updatedAt := now }

/-- The event of the renewal. -/
def event (r : Renewal) (now : ℤ) : Store.NewEvent where
  jobId := r.job.id
  eventType := .leaseRenewed
  previousStatus := some r.job.status
  newStatus := r.job.status
  actorType := .agent
  actorUserId := none
  details := .buildObject [("leaseExpiresAt", .str (jsonTimestamptz (r.newExpiry now)))]

/-- The audit entry of the renewal. -/
def entry (r : Renewal) (now : ℤ) : Audit.Entry where
  requestId := some r.requestId
  actorUserId := none
  actorEmail := none
  actorRole := none
  actorIp := none
  action := some "OPERATION_LEASE_RENEWED"
  targetType := some "operation_job"
  targetId := some r.job.id.text
  result := some "success"
  metadata := some (.buildObject
    [("operationType", .str r.job.operationType.text),
      ("status", .str r.job.status.text),
      ("leaseExpiresAt", .str (jsonTimestamptz (r.newExpiry now)))])

/-- The writes of the renewal. -/
def write (c : Context) (r : Renewal) (s : Store) : Except DbError Store := do
  let s ← s.updateJob (r.row c.now)
  let s ← s.insertEvent c (r.event c.now)
  s.auditLog c (r.entry c.now)

end Renewal

/-- The row `renew_operation_job_lease` returns. -/
structure RenewResult where
  jobId : Uuid
  jobStatus : JobStatus
  leaseExpiresAt : ℤ
  deriving DecidableEq

/-- `renew_operation_job_lease` -/
def renewOperationJobLease (c : Context) (p : RenewParams) (s : Store) :
    Except DbError (RenewResult × Store) := do
  let r ← p.resolve c s
  let s ← r.write c s
  return (⟨r.job.id, r.job.status, r.newExpiry c.now⟩, s)

/-! ## Expiry of lapsed leases -/

/-- `lease_expires_at, id`; the jobs selected all have a lease. -/
def leaseOrder (j k : Job) : Bool :=
  j.leaseExpiresAt.getD 0 < k.leaseExpiresAt.getD 0 ||
    (j.leaseExpiresAt.getD 0 == k.leaseExpiresAt.getD 0 && j.id.bits.toNat ≤ k.id.bits.toNat)

/-- The jobs a call of `expire_stale_operation_jobs` selects. -/
def Store.staleJobs (s : Store) (now : ℤ) (limit : ℕ) : List Job :=
  (orderBy leaseOrder (s.jobs.filter fun j => j.status.held && j.leaseLapsed now)).take limit

/-- The transition the reaper asks for. -/
def expireParams (j : Job) (requestId : Uuid) : TransitionParams where
  jobId := some j.id
  expectedStatus := some j.status.text
  newStatus := some "expired"
  actorType := some "system"
  actorUserId := none
  requestId := some requestId
  details := some (.buildObject
    [("errorCode", .str "operation_lease_expired"), ("reason", .str "lease_expired")])
  leaseOwner := none
  leaseSeconds := none

/-- The loop over the selected jobs; `n` counts the uuids drawn. -/
def expireLoop (c : Context) : List Job → ℕ → Store → Except DbError Store
  | [], _, s => .ok s
  | j :: jobs, n, s => do
    let r ← transitionOperationJob c (expireParams j (c.genRandomUuid n)) s
    expireLoop c jobs (n + 1) r.2

/-- `expire_stale_operation_jobs` -/
def expireStaleOperationJobs (c : Context) (limit : Option ℤ) (s : Store) :
    Except DbError (ℕ × Store) := do
  let limit ← orRaise (limit.filter fun n => 1 ≤ n && n ≤ 1000)
    (.raised "operation_expire_limit_invalid" "22023")
  let s' ← expireLoop c (s.staleJobs c.now limit.toNat) 0 s
  return ((s.staleJobs c.now limit.toNat).length, s')

end

end IvrmDashboard.Operations

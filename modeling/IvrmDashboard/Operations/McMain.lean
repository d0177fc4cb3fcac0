import IvrmDashboard.Operations.Transition

/-!
# The lifecycle bridge of `mc-main`

What the agent of `mc-main` may call: `claimMcMainOperationJob` hands it the job it already holds
under a running lease, or leases it the oldest queued lifecycle job, after the lapsed leases have
been expired; `transitionMcMainOperationJob` lets it report on such a job in fixed words. The
conditions keep the three truth values of the source: a missing operation type or phase makes a
comparison unknown, and an unknown `IF` does not raise.
-/

namespace IvrmDashboard.Operations

open Sql

/-- The arguments of `claim_mc_main_operation_job`. -/
structure ClaimParams where
  serverId : Option String
  leaseOwner : Option String
  requestId : Option Uuid
  leaseSeconds : Option ℤ

/-- The row a claim returns. -/
structure ClaimedJob where
  jobId : Uuid
  operationType : OperationType
  jobStatus : JobStatus
  leaseExpiresAt : Option ℤ
  deriving DecidableEq

def Job.claimed (j : Job) : ClaimedJob := ⟨j.id, j.operationType, j.status, j.leaseExpiresAt⟩

namespace Store

/-- The lifecycle jobs of a host its agent already holds under a running lease. -/
def resumableJobs (s : Store) (now : ℤ) (hostId : Uuid) (leaseOwner : String) : List Job :=
  s.jobs.filter fun j => j.hostId = hostId && j.leaseOwner = some leaseOwner && j.status.held &&
    j.leaseExpiresAt.any (now < ·) && j.operationType ∈ OperationType.lifecycle

/-- The lifecycle jobs of a host that wait for an agent. -/
def queuedJobs (s : Store) (hostId : Uuid) : List Job :=
  s.jobs.filter fun j =>
    j.hostId = hostId && j.status = .queued && j.operationType ∈ OperationType.lifecycle

end Store

/-- The transition by which a claim leases a job. -/
def leaseParams (j : Job) (leaseOwner : String) (requestId : Uuid) (leaseSeconds : ℤ) :
    TransitionParams where
  jobId := some j.id
  expectedStatus := some "queued"
  newStatus := some "leased"
  actorType := some "agent"
  actorUserId := none
  requestId := some requestId
  details := some (.buildObject [("phase", .str "claimed")])
  leaseOwner := some leaseOwner
  leaseSeconds := some leaseSeconds

section

variable [Server]

/-- The part of a claim behind the expiry of lapsed leases. -/
def claimFrom (c : Context) (host : Host) (leaseOwner : String) (requestId : Uuid)
    (leaseSeconds : ℤ) (s : Store) : Except DbError (Option ClaimedJob × Store) :=
  match firstBy createdIdOrder (s.resumableJobs c.now host.id leaseOwner) with
  | some j => do
    let r ← renewOperationJobLease c
      ⟨some j.id, some leaseOwner, some requestId, some leaseSeconds⟩ s
    return ((r.2.job? j.id).map Job.claimed, r.2)
  | none =>
    match firstBy createdIdOrder (s.queuedJobs host.id) with
    | none => .ok (none, s)
    | some j => do
      let r ← transitionOperationJob c (leaseParams j leaseOwner requestId leaseSeconds) s
      return ((r.2.job? j.id).map Job.claimed, r.2)

/-- `claim_mc_main_operation_job` -/
def claimMcMainOperationJob (c : Context) (p : ClaimParams) (s : Store) :
    Except DbError (Option ClaimedJob × Store) := do
  raiseIf (p.serverId ≠ some mcMainServerId) (.raised "operation_claim_invalid" "22023")
  let requestId ← orRaise p.requestId (.raised "operation_claim_invalid" "22023")
  let leaseOwner ←
    orRaise (p.leaseOwner.filter leaseOwnerOk) (.raised "operation_claim_invalid" "22023")
  let leaseSeconds ←
    orRaise (p.leaseSeconds.filter leaseSecondsOk) (.raised "operation_claim_invalid" "22023")
  let host ← orRaise (c.directory.enabledHost? mcMainServerId)
    (.raised "operation_agent_unknown" "42501")
  let r ← expireStaleOperationJobs c (some 100) s
  claimFrom c host leaseOwner requestId leaseSeconds r.2

/-! ## Reports of the agent -/

/-- The arguments of `transition_mc_main_operation_job`. -/
structure McMainTransitionParams where
  serverId : Option String
  jobId : Option Uuid
  operationType : Option String
  expectedStatus : Option String
  newStatus : Option String
  leaseOwner : Option String
  requestId : Option Uuid
  details : Option Jsonb

/-- The number of keys of a JSON object. -/
def detailCount : Jsonb → ℕ
  | .obj fields => fields.length
  | _ => 0

/-- `p_details ->> 'phase' <> phase` -/
def phaseDiffers (details : Jsonb) (phase : String) : Tri :=
  ne (details.getText "phase") (some phase)

/-- The words of a report, by the change it reports. -/
def reportGate (operationType expectedStatus newStatus : Option String) (details : Jsonb) :
    Except DbError Unit :=
  if (eq expectedStatus (some "leased")).holds && (eq newStatus (some "running")).holds then
    raiseIf (Tri.or (some (detailCount details ≠ 1)) (phaseDiffers details "executing")).holds
      (.raised "operation_transition_details_invalid" "22023")
  else if (eq expectedStatus (some "running")).holds &&
      (eq newStatus (some "succeeded")).holds then do
    raiseIf (detailCount details ≠ 1) (.raised "operation_transition_details_invalid" "22023")
    if (eq operationType (some "stop_backend")).holds then
      raiseIf (phaseDiffers details "stopped").holds
        (.raised "operation_transition_details_invalid" "22023")
    else
      raiseIf (phaseDiffers details "health_gate_passed").holds
        (.raised "operation_transition_details_invalid" "22023")
  else if (eq expectedStatus (some "running")).holds && (eq newStatus (some "failed")).holds then
    raiseIf (Tri.or (Tri.or (some (detailCount details ≠ 2))
        (phaseDiffers details "execution_failed"))
        (some (!(details.getText "errorCode").any errorCodeOk))).holds
      (.raised "operation_transition_details_invalid" "22023")
  else .error (.raised "operation_transition_not_allowed" "22023")

/-- `p_operation_type not in ('start_backend', 'restart_backend', 'stop_backend')` -/
def notLifecycle (operationType : Option String) : Tri :=
  notIn operationType (OperationType.lifecycle.map OperationType.text)

/-- The transition a report asks for. -/
def McMainTransitionParams.transition (p : McMainTransitionParams) : TransitionParams where
  jobId := p.jobId
  expectedStatus := p.expectedStatus
  newStatus := p.newStatus
  actorType := some "agent"
  actorUserId := none
  requestId := p.requestId
  details := p.details
  leaseOwner := p.leaseOwner
  leaseSeconds := none

/-- The part of `transition_mc_main_operation_job` before the transition itself. -/
def McMainTransitionParams.validate (c : Context) (p : McMainTransitionParams) (s : Store) :
    Except DbError Unit := do
  raiseIf (p.serverId ≠ some mcMainServerId || p.jobId.isNone || p.requestId.isNone ||
    (notLifecycle p.operationType).holds || !p.leaseOwner.any leaseOwnerOk)
    (.raised "operation_transition_invalid" "22023")
  let host ← orRaise (c.directory.enabledHost? mcMainServerId)
    (.raised "operation_agent_unknown" "42501")
  let job ← orRaise (p.jobId.bind s.job?) (.raised "operation_job_not_found" "P0002")
  raiseIf (Tri.or (some (job.hostId ≠ host.id))
      (ne (some job.operationType.text) p.operationType)).holds
    (.raised "operation_target_or_action_mismatch" "42501")
  let details ← orRaise (p.details.filter fun v => v.isObject && v.octetLength ≤ 2048 &&
      !jsonbContainsSensitiveKey v) (.raised "operation_transition_details_invalid" "22023")
  reportGate p.operationType p.expectedStatus p.newStatus details

/-- `transition_mc_main_operation_job` -/
def transitionMcMainOperationJob (c : Context) (p : McMainTransitionParams) (s : Store) :
    Except DbError ((Uuid × JobStatus) × Store) := do
  p.validate c s
  transitionOperationJob c p.transition s

end

end IvrmDashboard.Operations

import IvrmDashboard.Lifecycle.Helper
import IvrmDashboard.Operations.Steps

/-!
# The operation worker and its endpoints

One pass of the worker (`runOnce`) claims a job, reports that it runs, publishes a request file
for the helper, waits for the result file and reports how it ended. `WorkerState` is where a pass
stands: between two states lies one request sent, one answer received or one access to a file, so
a crash may fall between any two of them. A job claimed in `running` is one whose pass was cut
off; the pass that resumes it publishes nothing.

The endpoints turn a request of the worker into a call of the queue and the reply into an answer.
An answer other than 200 is the same to the worker as none.
-/

namespace IvrmDashboard.Lifecycle

open Sql Operations

/-! ## Messages -/

/-- The job in the answer to a claim. -/
structure ClaimedOperationJob where
  jobId : Uuid
  action : String
  status : String
  deriving DecidableEq

/-- The details of a report. -/
structure Details where
  phase : String
  errorCode : Option String
  deriving DecidableEq

/-- The details as a JSON object. -/
def Details.json (d : Details) : Jsonb :=
  .buildObject (("phase", .str d.phase) :: d.errorCode.toList.map fun code => ("errorCode", .str code))

/-- The body of a report. -/
structure TransitionRequest where
  serverId : String
  jobId : Uuid
  action : String
  expectedStatus : String
  newStatus : String
  leaseOwner : String
  requestId : Uuid
  details : Details
  deriving DecidableEq

/-- A request of the worker. -/
inductive AgentRequest
  | claim (serverId leaseOwner : String)
  | transition (body : TransitionRequest)
  deriving DecidableEq

/-- The answer 200 to a request. -/
inductive AgentAnswer
  | claimed (job : Option ClaimedOperationJob)
  | transitioned (jobId : Uuid) (status : String)
  deriving DecidableEq

/-! ## The endpoints -/

/-- `validTransitionBody` -/
def validTransitionBody (b : TransitionRequest) : Bool :=
  b.serverId = mcMainServerId && uuidPattern b.jobId.text && b.action ∈ actions &&
    b.expectedStatus ∈ ["leased", "running"] &&
    b.newStatus ∈ ["running", "succeeded", "failed"] && leaseOwnerOk b.leaseOwner &&
    uuidPattern b.requestId.text &&
    b.details.phase ∈ ["executing", "health_gate_passed", "stopped", "execution_failed"] &&
    b.details.errorCode.all errorCodeOk

/-- The call behind a request that passes the checks of its endpoint; a claim gets the request id
drawn there. -/
def AgentRequest.rpc? (requestId : Uuid) : AgentRequest → Option Rpc
  | .claim serverId leaseOwner =>
    if serverId = mcMainServerId && leaseOwnerOk leaseOwner then
      some (.claim ⟨some mcMainServerId, some leaseOwner, some requestId, some 300⟩)
    else none
  | .transition b =>
    if validTransitionBody b then
      some (.mcMainTransition ⟨some mcMainServerId, some b.jobId, some b.action,
        some b.expectedStatus, some b.newStatus, some b.leaseOwner, some b.requestId,
        some b.details.json⟩)
    else none

/-- The row of a claim as the endpoint passes it on. -/
def view? (r : ClaimedJob) : Option ClaimedOperationJob :=
  if r.operationType.text ∈ actions && r.jobStatus.text ∈ ["leased", "running"] &&
      r.leaseExpiresAt.isSome then
    some ⟨r.jobId, r.operationType.text, r.jobStatus.text⟩
  else none

/-- The answer an endpoint makes of a reply. -/
def AgentRequest.answer? : AgentRequest → Reply → Option AgentAnswer
  | .claim .., .claimed none => some (.claimed none)
  | .claim .., .claimed (some r) => (view? r).map fun job => .claimed (some job)
  | .transition b, .transitioned r =>
    if r.1 = b.jobId && r.2.text = b.newStatus then some (.transitioned b.jobId b.newStatus)
    else none
  | _, _ => none

/-! ## The worker -/

/-- What a pass reports at its end. -/
structure Report where
  newStatus : String
  details : Details
  deriving DecidableEq

/-- Where a pass of the worker stands. A number is the place of the request it waits for. -/
inductive WorkerState
  | idle
  | claiming (n : ℕ)
  | starting (job : ClaimedOperationJob)
  | started (job : ClaimedOperationJob) (n : ℕ)
  | probing (job : ClaimedOperationJob) (publishRequest : Bool)
  | probingResult (job : ClaimedOperationJob) (publishRequest : Bool)
  | linking (job : ClaimedOperationJob)
  | waiting (job : ClaimedOperationJob)
  | timedOut (job : ClaimedOperationJob)
  | concluding (job : ClaimedOperationJob) (report : Report)
  | concluded (job : ClaimedOperationJob) (report : Report) (n : ℕ)
  | cleaning (job : ClaimedOperationJob)
  deriving DecidableEq

/-- `validAction` -/
def validAction (action : String) : Bool :=
  action = "start_backend" || action = "restart_backend" || action = "stop_backend"

/-- The phase in which an action ends well. -/
def expectedPhase (action : String) : String :=
  if action = "stop_backend" then "stopped" else "health_gate_passed"

/-- The report of a failure. -/
def failure (code : String) : Report := ⟨"failed", "execution_failed", some code⟩

/-- The report a result leads to. -/
def conclusion (job : ClaimedOperationJob) (r : ExecutorResult) : Report :=
  if !r.ok then
    failure (if errorCodeOk (r.errorCode.getD "") then r.errorCode.getD "" else "executor_failed")
  else if r.phase ≠ expectedPhase job.action then failure "executor_result_invalid"
  else ⟨"succeeded", expectedPhase job.action, none⟩

namespace WorkerState

/-- The request a pass waits for. -/
def awaits : WorkerState → Option ℕ
  | .claiming n => some n
  | .started _ n => some n
  | .concluded _ _ n => some n
  | _ => none

/-- After the answer to a claim. -/
def claimed : Option ClaimedOperationJob → WorkerState
  | none => .idle
  | some job =>
    if !validAction job.action || !uuidPattern job.jobId.text ||
        (job.status ≠ "leased" && job.status ≠ "running") then .idle
    else if job.status = "leased" then .starting job
    else .probing job false

/-- After the answer to the request it waits for. -/
def receive : WorkerState → AgentAnswer → WorkerState
  | .claiming _, .claimed job => claimed job
  | .started job _, .transitioned id status =>
    if id = job.jobId && status = "running" then .probing job true else .idle
  | .concluded job report _, .transitioned id status =>
    if id = job.jobId && status = report.newStatus then .cleaning job else .idle
  | _, _ => .idle

/-- After the look at the request file, then at the result file (`executeThroughIPC`). -/
def probe (exists? : Bool) : WorkerState → WorkerState
  | .probing job publishRequest =>
    if exists? then
      if publishRequest then .concluding job (failure "executor_timeout") else .waiting job
    else .probingResult job publishRequest
  | .probingResult job publishRequest =>
    if publishRequest then
      if exists? then .concluding job (failure "executor_timeout") else .linking job
    else if exists? then .waiting job
    else .concluding job (failure "recovery_state_missing")
  | s => s

/-- After a look for the result (`readExecutorResult`). -/
def read (job : ClaimedOperationJob) : Option ExecutorResult → WorkerState
  | none => .waiting job
  | some r =>
    if r.jobId ≠ job.jobId.text || r.action ≠ job.action then
      .concluding job (failure "executor_timeout")
    else .concluding job (conclusion job r)

end WorkerState

/-- What drives a pass on: the ticker, the answer at a place of the network or the lack of one, a
request going out, an access to a file, which may fail, the end of the waiting time, a signal, or
a crash. -/
inductive WorkerInput
  | tick
  | send (requestId : Uuid)
  | answer (i : ℕ)
  | noAnswer
  | probe (fails : Bool)
  | link (mtime : ℤ) (fails : Bool)
  | read (fails : Bool)
  | deadline
  | remove (fails : Bool)
  | cancel
  | crash

end IvrmDashboard.Lifecycle

import IvrmDashboard.Lifecycle.Worker
import IvrmDashboard.Operations.Ownership

/-!
# Queue, worker and helper together

The state of the whole bridge: the tables of the queue, the worker, the two directories it shares
with the helper, and the network between worker and endpoints. A request stays in the network
once it is sent and may be delivered late, never, or again; an answer may be lost. A crash throws
away what the worker knows and leaves the rest. Every other user of the queue may call it at any
time (`OtherCall`); only the reports of an agent are left to the worker.
-/

namespace IvrmDashboard.Lifecycle

open Sql Operations

/-- The bridge, with the requests sent so far and the answers made to them. -/
structure System where
  database : World
  sent : List AgentRequest
  answers : List (ℕ × AgentAnswer)
  worker : WorkerState
  ipc : Ipc

/-- The configuration of the worker. -/
structure WorkerConfig where
  leaseOwner : String
  lease_owner_check : leaseOwnerOk leaseOwner = true

/-- A report of an agent. -/
def isAgentReport : Rpc → Bool
  | .transition p => p.actorType = some "agent"
  | .mcMainTransition _ => true
  | _ => false

section

variable [Server]

/-- A call of the queue that is no report of an agent. -/
structure OtherCall where
  call : Call
  not_report : isAgentReport call.rpc = false

/-- What a call finds when a request is delivered, and the request id its endpoint draws. -/
structure Delivery where
  elapsed : ℕ
  directory : Directory
  genRandomUuid : ℕ → Uuid
  lostEventIds : ℕ
  lostAuditIds : ℕ
  requestId : Uuid

/-- The call it makes. -/
def Delivery.call (d : Delivery) (rpc : Rpc) : Call :=
  ⟨d.elapsed, d.directory, d.genRandomUuid, d.lostEventIds, d.lostAuditIds, rpc⟩

/-- What happens: the worker goes on, the request at a place of the network reaches its endpoint,
the helper processes a request file or clears old results, or someone else calls the queue. -/
inductive Event
  | worker (input : WorkerInput)
  | deliver (n : ℕ) (d : Delivery)
  | processRequest (id : Uuid) (r : HelperRun)
  | cleanupOldResults (now : ℤ)
  | other (c : OtherCall)

namespace System

omit [Server] in
/-- Nothing has happened at time `t`. -/
def initial (t : ℤ) : System := ⟨.initial t, [], [], .idle, ⟨.empty, fun _ => none, []⟩⟩

omit [Server] in
/-- The worker sends a request and waits. -/
def send (w : System) (r : AgentRequest) (next : ℕ → WorkerState) : System :=
  { w with sent := w.sent ++ [r], worker := next w.sent.length }

omit [Server] in
/-- The body of a report. -/
def body (cfg : WorkerConfig) (job : ClaimedOperationJob) (expected : String) (report : Report)
    (requestId : Uuid) : TransitionRequest :=
  ⟨mcMainServerId, job.jobId, job.action, expected, report.newStatus, cfg.leaseOwner, requestId,
    report.details⟩

omit [Server] in
/-- `writeExclusive` -/
def writeExclusive (w : System) (job : ClaimedOperationJob) (mtime : ℤ) : System :=
  match w.ipc.requests.link job.jobId ⟨0o600, mtime, ⟨job.jobId.text, job.action⟩⟩ with
  | none => { w with worker := .concluding job (failure "executor_timeout") }
  | some requests => { w with ipc := { w.ipc with requests }, worker := .waiting job }

omit [Server] in
/-- `os.Remove` on a request file -/
def removeRequest (w : System) (id : Uuid) (fails : Bool) : Ipc :=
  if fails then w.ipc else { w.ipc with requests := w.ipc.requests.remove id }

omit [Server] in
/-- The worker goes on; an input that does not fit where it stands changes nothing. -/
def work (cfg : WorkerConfig) (w : System) (input : WorkerInput) : System :=
  match w.worker, input with
  | _, .crash => { w with worker := .idle }
  | .idle, .tick => w.send (.claim mcMainServerId cfg.leaseOwner) .claiming
  | .starting job, .send requestId =>
    w.send (.transition (body cfg job "leased" ⟨"running", "executing", none⟩ requestId))
      (.started job)
  | .concluding job report, .send requestId =>
    w.send (.transition (body cfg job "running" report requestId)) (.concluded job report)
  | s, .answer i =>
    match w.answers[i]? with
    | some (n, a) => if s.awaits = some n then { w with worker := s.receive a } else w
    | none => w
  | .claiming _, .noAnswer | .starting _, .noAnswer | .started .., .noAnswer
  | .concluding .., .noAnswer | .concluded .., .noAnswer => { w with worker := .idle }
  | .probing job _, .probe fails =>
    { w with
      worker := w.worker.probe (!fails && (w.ipc.requests.file job.jobId).isSome) }
  | .probingResult job _, .probe fails =>
    { w with worker := w.worker.probe (!fails && (w.ipc.results job.jobId).isSome) }
  | .linking job, .link mtime fails =>
    if fails then { w with worker := .concluding job (failure "executor_timeout") }
    else w.writeExclusive job mtime
  | .waiting job, .read fails =>
    if fails then { w with worker := .concluding job (failure "executor_timeout") }
    else { w with worker := .read job ((w.ipc.results job.jobId).map (·.document)) }
  | .waiting job, .deadline => { w with worker := .timedOut job }
  | .waiting _, .cancel => { w with worker := .idle }
  | .timedOut job, .remove fails =>
    { w with
      ipc := w.removeRequest job.jobId fails
      worker := .concluding job (failure "executor_timeout") }
  | .cleaning job, .remove fails =>
    { w with ipc := w.removeRequest job.jobId fails, worker := .idle }
  | _, _ => w

/-- A request reaches its endpoint, which calls the queue and may answer. -/
def deliver (w : System) (n : ℕ) (d : Delivery) : System :=
  match w.sent[n]? with
  | none => w
  | some r =>
    match r.rpc? d.requestId with
    | none => w
    | some rpc =>
      { w with
        database := w.database.step (d.call rpc)
        answers := w.answers ++
          match w.database.exec (d.call rpc) with
          | .ok (reply, _) => ((r.answer? reply).map (n, ·)).toList
          | .error _ => [] }

/-- The bridge after an event. -/
def step (cfg : WorkerConfig) (w : System) : Event → System
  | .worker input => w.work cfg input
  | .deliver n d => w.deliver n d
  | .processRequest id r => { w with ipc := Lifecycle.processRequest r id w.ipc }
  | .cleanupOldResults now => { w with ipc := Lifecycle.cleanupOldResults now w.ipc }
  | .other c => { w with database := w.database.step c.call }

/-- The bridge after a run. -/
def run (cfg : WorkerConfig) (w : System) (events : List Event) : System :=
  Runs.run (step cfg) w events

end System

end

end IvrmDashboard.Lifecycle

import IvrmDashboard.Foundations.Spool
import IvrmDashboard.Foundations.Sql.Timestamp

/-!
# The lifecycle helper

The root helper of the Minecraft host takes request files from a directory, runs `docker` for
them and leaves a result file for each (`processRequest`). What `docker` answers and how often a
waiting loop polls before its deadline are inputs of an execution; an answer that does not come
is an exception, which ends the execution with `executor_internal_error`.
-/

namespace IvrmDashboard.Lifecycle

open Sql

/-! ## Docker -/

/-- What a call of `docker` ends with. -/
inductive DockerAnswer
  | completed (returncode : ℤ) (stdout : String)
  | raised

/-- Code that calls `docker` and may raise. -/
abbrev Execution := StateT (List DockerAnswer) (Except Unit)

/-- `run_docker` -/
def runDocker : Execution (ℤ × String) := do
  match ← get with
  | .completed returncode stdout :: rest =>
    set rest
    return (returncode, stdout)
  | _ => throw ()

/-- The characters `str.strip` removes. -/
def isSpace (c : Char) : Bool :=
  (9 ≤ c.toNat && c.toNat ≤ 13) || (28 ≤ c.toNat && c.toNat ≤ 32) ||
    c.toNat ∈ [0x85, 0xa0, 0x1680, 0x2028, 0x2029, 0x202f, 0x205f, 0x3000] ||
    (0x2000 ≤ c.toNat && c.toNat ≤ 0x200a)

/-- `str.strip` -/
def strip (s : List Char) : List Char :=
  ((s.dropWhile isSpace).reverse.dropWhile isSpace).reverse

/-- The state and the health in the output of `docker inspect`. -/
def parseState (stdout : String) : String × String :=
  let raw := strip stdout.toList
  if '|' ∈ raw then
    (String.ofList (strip (raw.takeWhile (· ≠ '|'))),
      String.ofList (strip (raw.dropWhile (· ≠ '|')).tail))
  else ("unknown", "unknown")

/-- `inspect_state` -/
def inspectState : Execution (String × String) := do
  let (returncode, stdout) ← runDocker
  return if returncode ≠ 0 then ("not_found", "unknown") else parseState stdout

/-- The container does not run. -/
def isStopped (state : String) : Bool := state ∈ ["exited", "dead", "created", "not_found"]

/-- `wait_stopped`, for as many polls as fit before its deadline. -/
def waitStopped : ℕ → Execution Bool
  | 0 => return false
  | polls + 1 => do
    let (state, _) ← inspectState
    if isStopped state then return true else waitStopped polls

/-- `wait_healthy`, for as many polls as fit before its deadline. -/
def waitHealthy : ℕ → Execution Bool
  | 0 => return false
  | polls + 1 => do
    let (state, health) ← inspectState
    if state = "running" && health = "healthy" then return true
    else if state ∈ ["exited", "dead", "not_found"] then return false
    else waitHealthy polls

/-- `graceful_stop` -/
def gracefulStop (polls : ℕ) : Execution (Bool × String) := do
  let (state, _) ← inspectState
  if isStopped state then return (true, "stopped")
  let (returncode, _) ← runDocker
  if returncode ≠ 0 then return (false, "docker_term_failed")
  if ← waitStopped polls then return (true, "stopped")
  return (false, "graceful_stop_timeout")

/-- `safe_start` -/
def safeStart (polls : ℕ) : Execution (Bool × String) := do
  let (state, health) ← inspectState
  if state = "running" then
    return if health = "healthy" then (true, "health_gate_passed") else (false, "preexisting_unhealthy")
  let (returncode, _) ← runDocker
  if returncode ≠ 0 then return (false, "docker_start_failed")
  if ← waitHealthy polls then return (true, "health_gate_passed")
  return (false, "health_gate_failed")

/-- What an execution comes to. -/
structure Outcome where
  ok : Bool
  phase : String
  errorCode : Option String
  deriving DecidableEq

/-- The outcome of a step that ends well in the phase `phase`. -/
def outcome (phase : String) (r : Bool × String) : Outcome :=
  ⟨r.1, if r.1 then phase else "execution_failed", if r.1 then none else some r.2⟩

/-- `execute` -/
def execute (stopPolls startPolls : ℕ) (action : String) : Execution Outcome := do
  if action = "start_backend" then
    let r ← safeStart startPolls
    return outcome r.2 r
  if action = "stop_backend" then
    return outcome "stopped" (← gracefulStop stopPolls)
  if action = "restart_backend" then
    let r ← gracefulStop stopPolls
    if !r.1 then return ⟨false, "execution_failed", some r.2⟩
    let r ← safeStart startPolls
    return outcome r.2 r
  return ⟨false, "execution_failed", some "action_not_allowed"⟩

/-! ## Request and result files -/

/-- `ACTIONS` -/
def actions : List String := ["start_backend", "restart_backend", "stop_backend"]

/-- `[0-9a-fA-F]` -/
def hexDigit (c : Char) : Bool := Text.hexDigit c || ('A' ≤ c && c ≤ 'F')

/-- The pattern of job ids: a `uuid` of one of the versions 1 to 8. -/
def uuidPattern (s : String) : Bool :=
  s.length = 36 && s.toList.zipIdx.all fun (c, i) =>
    if i ∈ [8, 13, 18, 23] then c == '-'
    else if i = 14 then '1' ≤ c && c ≤ '8'
    else if i = 19 then c ∈ ['8', '9', 'a', 'b', 'A', 'B']
    else hexDigit c

/-- The document of a request. -/
structure ExecutorRequest where
  jobId : String
  action : String
  deriving DecidableEq

/-- The text of the document. -/
def ExecutorRequest.body (r : ExecutorRequest) : String :=
  "\x7b\"jobId\":\"" ++ r.jobId ++ "\",\"action\":\"" ++ r.action ++ "\"\x7d"

/-- A request file: its permission bits, when it was written, and its document. -/
structure RequestFile where
  mode : ℕ
  mtime : ℤ
  document : ExecutorRequest
  deriving DecidableEq

/-- The document of a result. -/
structure ExecutorResult where
  jobId : String
  action : String
  ok : Bool
  phase : String
  errorCode : Option String
  deriving DecidableEq

/-- A result file. -/
structure ResultFile where
  mtime : ℤ
  document : ExecutorResult
  deriving DecidableEq

/-- `REQUEST_MAX_AGE_SECONDS` -/
def requestMaxAge : ℤ := 30 * second

/-- `RESULT_RETENTION_SECONDS` -/
def resultRetention : ℤ := 24 * 60 * 60 * second

/-- `validate_request_file` -/
def validateRequestFile (now : ℤ) (f : RequestFile) : Except String Unit :=
  if f.mode &&& 0o077 ≠ 0 then .error "invalid_request_permissions"
  else if now - f.mtime < -5 * second || requestMaxAge < now - f.mtime then .error "stale_request"
  else .ok ()

/-- `parse_request`, for the file named after `id` -/
def parseRequest (now : ℤ) (id : Uuid) (f : RequestFile) : Except String ExecutorRequest :=
  if !uuidPattern id.text then .error "invalid_job_id"
  else
    match validateRequestFile now f with
    | .error e => .error e
    | .ok () =>
      if 1024 < f.document.body.utf8ByteSize then .error "request_too_large"
      else if f.document.jobId ≠ id.text || !uuidPattern f.document.jobId then
        .error "invalid_job_id"
      else if f.document.action ∉ actions then .error "action_not_allowed"
      else .ok f.document

/-! ## The directories -/

/-- The two directories between worker and helper, and the results written so far. -/
structure Ipc where
  requests : Spool Uuid RequestFile
  results : Uuid → Option ResultFile
  written : List ExecutorResult

/-- What happens around one execution: the clock at its ends, what `docker` answers, how many
polls fit into the loops, and whether the two attempts to write the result succeed. -/
structure HelperRun where
  now : ℤ
  finishedAt : ℤ
  docker : List DockerAnswer
  stopPolls : ℕ
  startPolls : ℕ
  firstWrite : Bool
  secondWrite : Bool

/-- What an execution reports when it raises. -/
def internalError : Outcome := ⟨false, "execution_failed", some "executor_internal_error"⟩

/-- The outcome that is written down, if one is. -/
def HelperRun.outcome? (r : HelperRun) (action : String) : Option Outcome :=
  match (execute r.stopPolls r.startPolls action).run r.docker with
  | .ok (o, _) =>
    if r.firstWrite then some o else if r.secondWrite then some internalError else none
  | .error _ => if r.secondWrite then some internalError else none

/-- The result document of an outcome; an empty error code is left out. -/
def ExecutorRequest.result (q : ExecutorRequest) (o : Outcome) : ExecutorResult :=
  ⟨q.jobId, q.action, o.ok, o.phase, o.errorCode.filter (· ≠ "")⟩

/-- `write_result` -/
def Ipc.writeResult (ipc : Ipc) (id : Uuid) (mtime : ℤ) (d : ExecutorResult) : Ipc :=
  { ipc with
    results := Function.update ipc.results id (some ⟨mtime, d⟩)
    written := ipc.written ++ [d] }

/-- `process_request`, for the file named after `id` -/
def processRequest (r : HelperRun) (id : Uuid) (ipc : Ipc) : Ipc :=
  match ipc.requests.file id with
  | none => ipc
  | some f =>
    match parseRequest r.now id f with
    | .error _ => { ipc with requests := ipc.requests.remove id }
    | .ok q =>
      let ipc := { ipc with requests := ipc.requests.take id }
      match r.outcome? q.action with
      | none => ipc
      | some o => ipc.writeResult id r.finishedAt (q.result o)

/-- `cleanup_old_results` -/
def cleanupOldResults (now : ℤ) (ipc : Ipc) : Ipc :=
  { ipc with
    results := fun id => (ipc.results id).filter fun f => !(f.mtime < now - resultRetention) }

theorem parseRequest_eq_ok {now : ℤ} {id : Uuid} {f : RequestFile} {q : ExecutorRequest}
    (h : parseRequest now id f = .ok q) : q = f.document ∧ f.document.jobId = id.text := by
  unfold parseRequest at h
  iterate 4
    split at h
    · cases h
  next hid =>
    split at h
    · cases h
    · simp only [Bool.or_eq_true, not_or, decide_eq_true_eq, ne_eq, not_not] at hid
      exact ⟨(Except.ok.inj h).symm, hid.1⟩

/-- What a request left in the directories: nothing, or the file was taken away unread, or it was
executed, with at most one result, about the job it names. -/
theorem processRequest_cases (r : HelperRun) (id : Uuid) (ipc : Ipc) :
    processRequest r id ipc = ipc ∨
      processRequest r id ipc = { ipc with requests := ipc.requests.remove id } ∨
      ∃ f, ipc.requests.file id = some f ∧ f.document.jobId = id.text ∧
        (processRequest r id ipc = { ipc with requests := ipc.requests.take id } ∨
          ∃ o, processRequest r id ipc =
            { ipc with requests := ipc.requests.take id }.writeResult id r.finishedAt
              (f.document.result o)) := by
  unfold processRequest
  split
  · exact .inl rfl
  next f hf =>
    split
    · exact .inr (.inl rfl)
    next q hq =>
      obtain ⟨rfl, hid⟩ := parseRequest_eq_ok hq
      refine .inr (.inr ⟨f, hf, hid, ?_⟩)
      dsimp only
      split
      · exact .inl rfl
      next o _ => exact .inr ⟨o, rfl⟩

end IvrmDashboard.Lifecycle

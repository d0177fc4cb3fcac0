import IvrmDashboard.Foundations.Runs
import IvrmDashboard.Foundations.Sql.Result
import IvrmDashboard.Monitoring.Incidents

/-!
# The timeline of the containers

A trigger compares every sample that comes in with the one before it and writes an event for each of
the columns that have changed. Two others write down when a maintenance begins and ends. Every event
has a key, under which it is written once.
-/

namespace IvrmDashboard.Monitoring.ContainerEvents

open Sql Incidents

/-! ## Tables -/

/-- `s ~ '^[a-zA-Z0-9][a-zA-Z0-9_.-]{0,127}$'` -/
def containerNameOk (s : String) : Bool :=
  let alnum c := Text.lowerAlpha c || Text.upperAlpha c || Text.digit c
  Text.lengthBetween 1 128 s && s.toList.head?.all alnum &&
    s.toList.all fun c => alnum c || c ∈ "_.-".toList

/-- A container of a host. -/
structure ContainerKey where
  hostId : Uuid
  containerName : String
  deriving DecidableEq

/-- A sample as it is inserted, without its id. -/
structure NewSample where
  container : ContainerKey
  receivedAt : ℤ
  state : ContainerState
  health : ContainerHealth
  restartCount : ℤ
  oomKilled : Bool
  exitCode : Option ℤ
  deriving DecidableEq

/-- A row of `container_samples`. -/
structure ContainerSample extends NewSample where
  id : ℕ
  deriving DecidableEq

def NewSample.checks (s : NewSample) : List (String × Bool) :=
  [("container_samples_container_name_check", containerNameOk s.container.containerName),
    ("container_samples_restart_count_check", 0 ≤ s.restartCount)]

/-- A row of `container_expectations`. -/
structure ContainerExpectation where
  container : ContainerKey
  expectedState : ContainerExpectedState
  maintenanceMode : Bool
  maintenanceUntil : Option ℤ
  deriving DecidableEq

/-- A row of `monitoring_events`. -/
structure MonitoringEventRow where
  eventKey : String
  container : ContainerKey
  occurredAt : ℤ
  eventType : EventType
  severity : EventSeverity
  fromValue : Option String
  toValue : Option String
  numericValue : Option ℤ
  expectedState : Option ContainerExpectedState
  sampleId : Option ℕ
  deriving DecidableEq

def MonitoringEventRow.checks (e : MonitoringEventRow) : List (String × Bool) :=
  [("monitoring_events_key_check", Text.lengthBetween 1 320 e.eventKey),
    ("monitoring_events_container_check", containerNameOk e.container.containerName),
    ("monitoring_events_from_check", e.fromValue.all (Text.lengthBetween 0 128)),
    ("monitoring_events_to_check", e.toValue.all (Text.lengthBetween 0 128))]

/-- The tables; their rows are listed in the order of their ids, and `nextSampleId` is where the
sequence of the samples stands. -/
structure Timeline where
  samples : List ContainerSample
  expectations : List ContainerExpectation
  events : List MonitoringEventRow
  nextSampleId : ℕ

/-- `insert … on conflict (event_key) do nothing` -/
def Timeline.insertEvent (w : Timeline) (e : MonitoringEventRow) : Except DbError Timeline := do
  checkAll e.checks
  pure (if w.events.any (·.eventKey = e.eventKey) then w else { w with events := w.events ++ [e] })

/-! ## Severity -/

/-- `s ~ '^-?[0-9]+$'`, and `s::bigint` -/
def integerText (s : String) : Option ℤ :=
  match s.toList with
  | '-' :: l => if l ≠ [] && l.all Char.isDigit then some (-(Js.Number.value l : ℤ)) else none
  | l => if l ≠ [] && l.all Char.isDigit then some (Js.Number.value l) else none

/-- `classify_container_monitoring_event_v2`; it does not read the numeric value. -/
def classifyContainerMonitoringEventV2 (expectedState : Option ContainerExpectedState)
    (eventType : EventType) (fromValue toValue : Option String) (maintenanceActive : Bool) :
    EventSeverity :=
  if eventType = .maintenanceStarted || eventType = .maintenanceEnded then .info
  else if eventType = .oomKilled then .critical
  else if maintenanceActive then .info
  else if eventType = .restartCountIncreased then .warning
  else if expectedState = some .stopped then
    if eventType = .stateChanged && toValue = some "running" then .warning else .info
  else if expectedState = some .absent then
    if eventType = .stateChanged && toValue = some "not_found" then .info
    else if eventType = .stateChanged then .warning
    else .info
  else if eventType = .healthChanged then
    if toValue = some "unhealthy" then .critical
    else if toValue ∈ [some "starting", some "unknown"] then .warning
    else if toValue = some "healthy" &&
        fromValue ∈ [some "unhealthy", some "starting", some "unknown"] then .recovery
    else .info
  else if eventType = .stateChanged then
    if toValue ∈ [some "dead", some "exited", some "not_found", some "removing", some "unknown"] then
      .critical
    else if toValue ∈ [some "restarting", some "paused", some "created"] then .warning
    else if toValue = some "running" && fromValue ≠ some "running" then .recovery
    else .info
  else if eventType = .exitCodeChanged then
    if (toValue.bind integerText).any (· ≠ 0) then .critical
    else if (fromValue.bind integerText).any (· ≠ 0) && toValue.getD "0" = "0" then .recovery
    else .info
  else .info

/-! ## Samples -/

/-- `n::text` -/
def integerToText (n : ℤ) : String :=
  String.ofList (if n < 0 then '-' :: Text.decimal 1 n.natAbs else Text.decimal 1 n.natAbs)

/-- `id::text` -/
def idToText (id : ℕ) : String := String.ofList (Text.decimal 1 id)

/-- `order by received_at desc, id desc` -/
def newestFirst (a b : ContainerSample) : Bool :=
  b.receivedAt < a.receivedAt || (a.receivedAt = b.receivedAt && b.id ≤ a.id)

/-- `v_previous` -/
def Timeline.previous (w : Timeline) (new : ContainerSample) : Option ContainerSample :=
  firstBy newestFirst <| w.samples.filter fun s =>
    s.container = new.container && s.receivedAt < new.receivedAt && s.id ≠ new.id

/-- The row of the container in `container_expectations`. -/
def Timeline.expectation (w : Timeline) (container : ContainerKey) : Option ContainerExpectation :=
  w.expectations.find? (·.container = container)

/-- `v_maintenance_active` -/
def maintenanceActive (expectation : Option ContainerExpectation) (receivedAt : ℤ) : Bool :=
  expectation.any fun e => e.maintenanceMode && e.maintenanceUntil.all (receivedAt < ·)

/-- The event of a column of a sample, `suffix` being the end of its key. -/
def sampleEvent (expectation : Option ContainerExpectation) (new : ContainerSample) (suffix : String)
    (eventType : EventType) (fromValue toValue : Option String) (numericValue : Option ℤ) :
    MonitoringEventRow :=
  let expectedState := expectation.map (·.expectedState)
  { eventKey := "sample:" ++ idToText new.id ++ ":" ++ suffix
    container := new.container
    occurredAt := new.receivedAt
    eventType := eventType
    severity :=
      classifyContainerMonitoringEventV2 expectedState eventType fromValue toValue
        (maintenanceActive expectation new.receivedAt)
    fromValue := fromValue
    toValue := toValue
    numericValue := numericValue
    expectedState := expectedState
    sampleId := some new.id }

/-- The events of a sample that follows another one; `oom_killed` is critical whatever is expected,
which is how it is classified too. -/
def capturedEvents (expectation : Option ContainerExpectation) (previous new : ContainerSample) :
    List MonitoringEventRow :=
  (if new.state ≠ previous.state then
    [sampleEvent expectation new "state" .stateChanged (some previous.state.text)
      (some new.state.text) none]
  else []) ++
  (if new.health ≠ previous.health then
    [sampleEvent expectation new "health" .healthChanged (some previous.health.text)
      (some new.health.text) none]
  else []) ++
  (if previous.restartCount < new.restartCount then
    [sampleEvent expectation new "restart" .restartCountIncreased
      (some (integerToText previous.restartCount)) (some (integerToText new.restartCount))
      (some (new.restartCount - previous.restartCount))]
  else []) ++
  (if !previous.oomKilled && new.oomKilled then
    [sampleEvent expectation new "oom" .oomKilled (some "false") (some "true") none]
  else []) ++
  (if new.exitCode ≠ previous.exitCode then
    [sampleEvent expectation new "exit" .exitCodeChanged (previous.exitCode.map integerToText)
      (new.exitCode.map integerToText) new.exitCode]
  else [])

/-- `capture_container_monitoring_events` -/
def Timeline.captureContainerMonitoringEvents (w : Timeline) (new : ContainerSample) :
    Except DbError Timeline :=
  match w.previous new with
  | none => .ok w
  | some previous =>
    (capturedEvents (w.expectation new.container) previous new).foldlM Timeline.insertEvent w

/-- `insert into container_samples …`, with its trigger. -/
def Timeline.insertSample (w : Timeline) (s : NewSample) : Except DbError Timeline := do
  checkAll s.checks
  let new : ContainerSample := { s with id := w.nextSampleId }
  Timeline.captureContainerMonitoringEvents
    { w with samples := w.samples ++ [new], nextSampleId := w.nextSampleId + 1 } new

/-! ## Maintenance -/

/-- `extract(epoch from t)::text` -/
def epochText (t : ℤ) : String :=
  (if t < 0 then "-" else "") ++ idToText (t.natAbs / 1000000) ++ "." ++
    String.ofList (Text.fixedDigits 10 6 (t.natAbs % 1000000))

/-- The event of a maintenance that has begun or ended. -/
def maintenanceEvent (eventKey : String) (e : ContainerExpectation) (occurredAt : ℤ)
    (eventType : EventType) (was is : Bool) : MonitoringEventRow where
  eventKey := eventKey
  container := e.container
  occurredAt := occurredAt
  eventType := eventType
  severity := .info
  fromValue := some (toString was)
  toValue := some (toString is)
  numericValue := none
  expectedState := some e.expectedState
  sampleId := none

def expiryEvent (e : ContainerExpectation) (maintenanceUntil : ℤ) : MonitoringEventRow :=
  maintenanceEvent ("maintenance-expiry:" ++ e.container.hostId.text ++ ":" ++
    e.container.containerName ++ ":" ++ epochText maintenanceUntil) e maintenanceUntil
    .maintenanceEnded true false

/-- `capture_container_maintenance_event`; `time` is the `updated_at` of the new row. -/
def Timeline.captureContainerMaintenanceEvent (w : Timeline) (time : ℤ)
    (old new : ContainerExpectation) : Except DbError Timeline := do
  let oldActive := maintenanceActive (some old) time
  let newActive := maintenanceActive (some new) time
  let w ←
    match old.maintenanceUntil with
    | none => pure w
    | some t =>
      if old.maintenanceMode && t ≤ time && !new.maintenanceMode then w.insertEvent (expiryEvent old t)
      else pure w
  if oldActive = newActive then pure w
  else
    let eventType : EventType := if newActive then .maintenanceStarted else .maintenanceEnded
    let word := if newActive then "maintenance_started" else "maintenance_ended"
    w.insertEvent (maintenanceEvent ("expectation-effective:" ++ new.container.hostId.text ++ ":" ++
      new.container.containerName ++ ":" ++ epochText time ++ ":" ++ word) new time eventType
      oldActive newActive)

/-- `update container_expectations set …` of the settings of a container, at a time. -/
def Timeline.updateExpectation (w : Timeline) (time : ℤ) (new : ContainerExpectation) :
    Except DbError Timeline :=
  match w.expectation new.container with
  | none => .ok w
  | some old =>
    Timeline.captureContainerMaintenanceEvent
      { w with
        expectations := updateWhere (·.container = new.container) (fun _ => new) w.expectations }
      time old new

/-- `insert into container_expectations …` -/
def Timeline.insertExpectation (w : Timeline) (new : ContainerExpectation) :
    Except DbError Timeline := do
  checkAll [("container_expectations_container_name_check",
    containerNameOk new.container.containerName)]
  raiseIf (w.expectation new.container).isSome (.uniqueViolation "container_expectations_pkey")
  pure { w with expectations := w.expectations ++ [new] }

/-- `capture_expired_container_maintenance_events` -/
def Timeline.captureExpiredContainerMaintenanceEvents (w : Timeline) (now : ℤ) :
    Except DbError Timeline :=
  (w.expectations.filterMap fun e =>
    match e.maintenanceUntil with
    | none => none
    | some t => if e.maintenanceMode && t ≤ now then some (expiryEvent e t) else none).foldlM
      Timeline.insertEvent w

/-! ## Runs -/

/-- A statement on the tables. -/
inductive Call
  | insertSample (s : NewSample)
  | insertExpectation (e : ContainerExpectation)
  | updateExpectation (time : ℤ) (e : ContainerExpectation)
  | expireMaintenance (now : ℤ)

def Call.perform (w : Timeline) : Call → Except DbError Timeline
  | insertSample s => w.insertSample s
  | insertExpectation e => w.insertExpectation e
  | updateExpectation time e => w.updateExpectation time e
  | expireMaintenance now => w.captureExpiredContainerMaintenanceEvents now

/-- What is left of a statement that fails is an id of the sequence. -/
def Timeline.step (w : Timeline) (c : Call) : Timeline :=
  match c.perform w with
  | .ok w' => w'
  | .error _ => { w with nextSampleId := w.nextSampleId + 1 }

def Timeline.run (w : Timeline) (calls : List Call) : Timeline := Runs.run Timeline.step w calls

/-- The tables before the first sample. -/
def Timeline.fresh (expectations : List ContainerExpectation) : Timeline :=
  ⟨[], expectations, [], 1⟩

end IvrmDashboard.Monitoring.ContainerEvents

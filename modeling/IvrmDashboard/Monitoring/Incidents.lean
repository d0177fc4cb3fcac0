import Mathlib.Data.Finset.Card
import Mathlib.Logic.Function.Basic
import IvrmDashboard.Foundations.Js.Number
import IvrmDashboard.Monitoring.Snapshot

/-!
# Incidents of the containers

The timeline of a container is read twice. `deriveOpenSignals` follows each of its signals on its
own, and the incidents that are active are told from what is open at the end and from what the
snapshot shows of the container. `deriveRecoveredContainerIncidents` follows all signals together:
an episode starts with the first one and recovers when none is left. Instants are milliseconds.
-/

namespace IvrmDashboard.Monitoring.Incidents

open Sql FirstPerKey

/-! ## Events -/

/-- `MonitoringEventType` -/
inductive EventType
  | stateChanged
  | healthChanged
  | restartCountIncreased
  | oomKilled
  | exitCodeChanged
  | maintenanceStarted
  | maintenanceEnded
  deriving DecidableEq

/-- `MonitoringEventSeverity` -/
inductive EventSeverity
  | info
  | warning
  | critical
  | recovery
  deriving DecidableEq

/-- `MonitoringEvent` -/
structure MonitoringEvent where
  id : ℤ
  hostId : Uuid
  serverId : String
  hostDisplayName : String
  containerName : String
  occurredAt : ℤ
  eventType : EventType
  severity : EventSeverity
  fromValue : Option String
  toValue : Option String
  expectedState : Option ContainerExpectedState
  deriving DecidableEq

/-- `IncidentSeverity` -/
inductive IncidentSeverity
  | warning
  | critical
  deriving DecidableEq

/-- `SignalName` -/
inductive SignalName
  | state
  | health
  | exit
  deriving DecidableEq

/-- `entityKey` -/
def entityKey (hostId : Uuid) (containerName : String) : String :=
  if containerName = "" then "host:" ++ hostId.text else hostId.text ++ ":" ++ containerName

def MonitoringEvent.key (e : MonitoringEvent) : String := entityKey e.hostId e.containerName

/-- `severityRank` -/
def severityRank : IncidentSeverity → ℕ
  | .critical => 2
  | .warning => 1

/-- `maxSeverity` -/
def maxSeverity (left right : IncidentSeverity) : IncidentSeverity :=
  if severityRank left < severityRank right then right else left

/-- `incidentSeverity` -/
def incidentSeverity : EventSeverity → Option IncidentSeverity
  | .critical => some .critical
  | .warning => some .warning
  | _ => none

/-- `signalName` -/
def signalName (event : MonitoringEvent) : Option SignalName :=
  match event.eventType with
  | .stateChanged => some .state
  | .healthChanged => some .health
  | .exitCodeChanged => some .exit
  | _ => none

/-- `resolvesSignal` -/
def resolvesSignal (event : MonitoringEvent) : Bool :=
  if event.severity = .recovery then true
  else
    match event.eventType with
    | .healthChanged => event.toValue = some "healthy"
    | .exitCodeChanged => event.toValue.any Js.Number.isZero
    | .stateChanged =>
      match event.expectedState with
      | some .stopped => event.toValue = some "exited" || event.toValue = some "created"
      | some .absent => event.toValue = some "not_found"
      | _ => event.toValue = some "running"
    | _ => false

/-- `eventTransition` -/
def eventTransition (event : MonitoringEvent) : String :=
  let arrow := event.fromValue.getD "不明" ++ " → " ++ event.toValue.getD "不明"
  match event.eventType with
  | .stateChanged => "State " ++ arrow
  | .healthChanged => "Health " ++ arrow
  | .exitCodeChanged => "ExitCode " ++ arrow
  | .restartCountIncreased => "RestartCount " ++ arrow
  | .oomKilled => "OOMKilledを検知"
  | .maintenanceStarted => "メンテナンス開始"
  | .maintenanceEnded => "メンテナンス終了"

/-- The comparison of `eventByEntity`: by time, then by id. -/
def eventLe (left right : MonitoringEvent) : Bool :=
  left.occurredAt < right.occurredAt ||
    (left.occurredAt = right.occurredAt && left.id ≤ right.id)

/-- `eventByEntity(events).get(key) ?? []` -/
def eventByEntity (events : List MonitoringEvent) (key : String) : List MonitoringEvent :=
  orderBy eventLe (events.filter (·.key = key))

/-- `eventByEntity(events).keys()` -/
def entities (events : List MonitoringEvent) : List String :=
  (firstPerKey MonitoringEvent.key events).map (·.key)

/-! ## Open signals -/

/-- `OpenSignal` -/
structure OpenSignal where
  startedAt : ℤ
  severity : IncidentSeverity
  startEvent : MonitoringEvent

/-- The variables of the loop of `deriveOpenSignals`; `expectedState` is `none` until an event was
seen. -/
structure SignalLoop where
  signals : SignalName → Option OpenSignal
  expectedState : Option (Option ContainerExpectedState)

/-- The event is about another expected state than the one before it. -/
def expectationChanges (expectedState : Option (Option ContainerExpectedState))
    (event : MonitoringEvent) : Bool :=
  expectedState.any (· ≠ event.expectedState)

/-- What an event does to the signals that are open before it. -/
def observeSignal (signals : SignalName → Option OpenSignal) (event : MonitoringEvent) :
    SignalName → Option OpenSignal :=
  match signalName event, incidentSeverity event.severity with
  | none, _ => signals
  | some signal, some startSeverity =>
    Function.update signals signal <| some <|
      match signals signal with
      | some o => { o with severity := maxSeverity o.severity startSeverity }
      | none => ⟨event.occurredAt, startSeverity, event⟩
  | some signal, none =>
    if resolvesSignal event then Function.update signals signal none else signals

/-- The body of the loop of `deriveOpenSignals`. -/
def signalStep (s : SignalLoop) (event : MonitoringEvent) : SignalLoop :=
  { signals :=
      observeSignal (if expectationChanges s.expectedState event then fun _ => none else s.signals)
        event
    expectedState := some event.expectedState }

def signalLoop (events : List MonitoringEvent) : SignalLoop :=
  events.foldl signalStep ⟨fun _ => none, none⟩

/-- `deriveOpenSignals` -/
def deriveOpenSignals (events : List MonitoringEvent) : SignalName → Option OpenSignal :=
  (signalLoop events).signals

/-! ## Active incidents -/

/-- `ActiveIncident`, of a container -/
structure ActiveIncident where
  id : String
  severity : IncidentSeverity
  hostId : Uuid
  serverId : String
  hostDisplayName : String
  containerName : String
  currentStatus : Status
  startedAt : Option ℤ
  durationSeconds : Option ℤ
  startReason : String
  latestTransitionAt : Option ℤ
  latestTransition : Option String
  relatedEventCount : ℕ
  exactStart : Bool

section

variable {F : Type}

/-- `currentStateIsIncident` -/
def currentStateIsIncident (container : ContainerOverview F) : Bool :=
  match container.expectedState with
  | some .running =>
    container.state ∈
      [.created, .paused, .restarting, .removing, .exited, .dead, .unknown, .notFound]
  | some .stopped => container.state ≠ .exited && container.state ≠ .created
  | some .absent => container.state ≠ .notFound
  | none => container.state ≠ .running

/-- `currentHealthIsIncident` -/
def currentHealthIsIncident (container : ContainerOverview F) : Bool :=
  match container.expectedState with
  | some .stopped | some .absent => false
  | some .running => container.health ∈ [.unhealthy, .starting, .unknown]
  | none => container.health = .unhealthy || container.health = .starting

/-- `fallbackSeverity` -/
def fallbackSeverity (status : Status) : IncidentSeverity :=
  if status = .stale then .warning else .critical

/-- `durationSeconds` -/
def durationSeconds (startedAt : Option ℤ) (endedAt : ℤ) : Option ℤ :=
  startedAt.bind fun start => if endedAt < start then none else some ((endedAt - start) / 1000)

/-- `ACTIVE_CONTAINER_STATUSES` -/
def activeContainerStatuses : List Status := [.error, .stale, .offline]

/-- `hostById.get(id)` -/
def hostOf (snapshot : MonitoringSnapshot F) (id : Uuid) : Option (HostOverview F) :=
  snapshot.hosts.reverse.find? (·.id = id)

/-- An event of a kill for want of memory that is a `critical` one. -/
def isOom (event : MonitoringEvent) : Bool :=
  event.eventType = .oomKilled && event.severity = .critical

/-- A signal of the container when it is still about what is expected of it. -/
def currentSignal (container : ContainerOverview F) (signal : Option OpenSignal) :
    List OpenSignal :=
  (signal.filter fun o => o.startEvent.expectedState = container.expectedState).toList

/-- `candidates`, before they are sorted -/
def candidates (container : ContainerOverview F) (events : List MonitoringEvent) :
    List OpenSignal :=
  let signals := deriveOpenSignals events
  (if currentStateIsIncident container then currentSignal container (signals .state) else []) ++
    (if currentHealthIsIncident container then currentSignal container (signals .health) else []) ++
    (if container.oomKilled then
      ((events.reverse.find? isOom).map fun e => (⟨e.occurredAt, .critical, e⟩ : OpenSignal)).toList
    else [])

/-- The candidate that started first. -/
def firstCandidate (container : ContainerOverview F) (events : List MonitoringEvent) :
    Option OpenSignal :=
  firstBy (fun left right : OpenSignal => decide (left.startedAt ≤ right.startedAt))
    (candidates container events)

/-- The incident of a container that is active. -/
def activeIncident (generatedAt : ℤ) (container : ContainerOverview F) (host : HostOverview F)
    (events : List MonitoringEvent) : ActiveIncident :=
  let first := firstCandidate container events
  let startedAt := first.map (·.startedAt)
  let related (event : MonitoringEvent) : Bool := startedAt.all (· ≤ event.occurredAt)
  let latestEvent := events.reverse.find? related
  { id := "active-container:" ++ container.hostId.text ++ ":" ++ container.name
    severity :=
      match first with
      | none => fallbackSeverity container.status
      | some o => ((candidates container events).map (·.severity)).foldl maxSeverity o.severity
    hostId := container.hostId
    serverId := host.serverId
    hostDisplayName := host.displayName
    containerName := container.name
    currentStatus := container.status
    startedAt := startedAt
    durationSeconds := durationSeconds startedAt generatedAt
    startReason :=
      match first with
      | none => "開始Transitionを監視イベントから特定できません"
      | some o => eventTransition o.startEvent
    latestTransitionAt := latestEvent.map (·.occurredAt)
    latestTransition := latestEvent.map eventTransition
    relatedEventCount := (events.filter related).length
    exactStart := first.isSome }

/-- `deriveActiveContainerIncidents` -/
def deriveActiveContainerIncidents (snapshot : MonitoringSnapshot F)
    (groupedEvents : String → List MonitoringEvent) : List ActiveIncident :=
  snapshot.containers.filterMap fun container =>
    if container.status ∉ activeContainerStatuses || container.maintenanceActive then none
    else
      (hostOf snapshot container.hostId).map fun host =>
        activeIncident snapshot.generatedAt container host
          (groupedEvents (entityKey container.hostId container.name))

end

/-! ## Recovered incidents -/

/-- `RecoveredIncident`, of a container -/
structure RecoveredIncident where
  id : String
  severity : IncidentSeverity
  hostId : Uuid
  serverId : String
  hostDisplayName : String
  containerName : String
  startedAt : ℤ
  recoveredAt : ℤ
  durationSeconds : ℤ
  startReason : String
  recoveryReason : String
  relatedEventCount : ℕ

/-- `OpenEpisode` -/
structure OpenEpisode where
  startedAt : ℤ
  severity : IncidentSeverity
  startEvent : MonitoringEvent
  eventCount : ℕ

/-- The variables of the loop of `deriveRecoveredContainerIncidents` over the events of a
container. -/
structure RecoveryLoop where
  activeSignals : Finset SignalName
  episode : Option OpenEpisode
  expectedState : Option (Option ContainerExpectedState)
  recovered : List RecoveredIncident

/-- The incident of an episode that an event ends. -/
def recoveredIncident (episode : OpenEpisode) (event : MonitoringEvent) : RecoveredIncident where
  id := "recovered-container:" ++ toString episode.startEvent.id ++ ":" ++ toString event.id
  severity := episode.severity
  hostId := event.hostId
  serverId := event.serverId
  hostDisplayName := event.hostDisplayName
  containerName := event.containerName
  startedAt := episode.startedAt
  recoveredAt := event.occurredAt
  durationSeconds := (event.occurredAt - episode.startedAt) / 1000
  startReason := eventTransition episode.startEvent
  recoveryReason := eventTransition event
  relatedEventCount := episode.eventCount

/-- A change of what is expected drops the episode. -/
def resetRecovery (s : RecoveryLoop) (event : MonitoringEvent) : RecoveryLoop :=
  if expectationChanges s.expectedState event then
    { s with activeSignals := ∅, episode := none, expectedState := some event.expectedState }
  else { s with expectedState := some event.expectedState }

/-- What an event does to the episode it meets. -/
def observeRecovery (rangeStart : ℤ) (s : RecoveryLoop) (event : MonitoringEvent) : RecoveryLoop :=
  match signalName event, incidentSeverity event.severity with
  | none, _ => s
  | some signal, some startSeverity =>
    { s with
      activeSignals := insert signal s.activeSignals
      episode := some <|
        match s.episode with
        | none => ⟨event.occurredAt, startSeverity, event, 1⟩
        | some e =>
          { e with
            severity := maxSeverity e.severity startSeverity
            eventCount := e.eventCount + 1 } }
  | some signal, none =>
    match s.episode with
    | none => s
    | some e =>
      if !resolvesSignal event || signal ∉ s.activeSignals then s
      else
        let activeSignals := s.activeSignals.erase signal
        let episode : OpenEpisode := { e with eventCount := e.eventCount + 1 }
        if activeSignals.card > 0 then
          { s with activeSignals := activeSignals, episode := some episode }
        else
          { s with
            activeSignals := activeSignals
            episode := none
            recovered :=
              if event.occurredAt ≥ e.startedAt ∧ event.occurredAt ≥ rangeStart then
                s.recovered ++ [recoveredIncident episode event]
              else s.recovered }

/-- The body of the loop of `deriveRecoveredContainerIncidents`. -/
def recoveryStep (rangeStart : ℤ) (s : RecoveryLoop) (event : MonitoringEvent) : RecoveryLoop :=
  observeRecovery rangeStart (resetRecovery s event) event

def recoveryLoop (rangeStart : ℤ) (entityEvents : List MonitoringEvent) : RecoveryLoop :=
  entityEvents.foldl (recoveryStep rangeStart) ⟨∅, none, none, []⟩

/-- `deriveRecoveredContainerIncidents` -/
def deriveRecoveredContainerIncidents (events : List MonitoringEvent) (rangeStart : ℤ) :
    List RecoveredIncident :=
  (entities events).flatMap fun key => (recoveryLoop rangeStart (eventByEntity events key)).recovered

end IvrmDashboard.Monitoring.Incidents

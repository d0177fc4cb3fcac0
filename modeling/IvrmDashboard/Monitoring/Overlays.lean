import Mathlib.Data.Prod.Lex
import IvrmDashboard.Foundations.Sql.ByKey
import IvrmDashboard.Monitoring.Incidents

/-!
# The bands over the history

The charts of the console shade the time in which something was wrong. `containerIncidentRegions`
draws a region for as long as the signals of a container show one kind of trouble. What is still
open after the last event is drawn only if the snapshot shows the container in trouble, and a
container in trouble that no region reaches gets one of its own. `mergeRegions` then joins what
belongs together. Instants are milliseconds, and `signalName` and `resolvesSignal` are those of the
incidents.
-/

namespace IvrmDashboard.Monitoring.Overlays

open Sql Incidents

/-! ## Regions -/

/-- `HistoryStatusOverlayKind` -/
inductive OverlayKind
  | stale
  | offline
  | error
  | maintenance
  deriving DecidableEq

def OverlayKind.text : OverlayKind → String
  | .stale => "stale"
  | .offline => "offline"
  | .error => "error"
  | .maintenance => "maintenance"

/-- `kindLabel` -/
def OverlayKind.label : OverlayKind → String
  | .stale => "Stale"
  | .offline => "Offline"
  | .error => "Error"
  | .maintenance => "Maintenance"

/-- `IncidentOverlayKind` -/
inductive IncidentOverlayKind
  | stale
  | error
  deriving DecidableEq

def IncidentOverlayKind.kind : IncidentOverlayKind → OverlayKind
  | .stale => .stale
  | .error => .error

/-- The `entityType` of a region. -/
inductive EntityType
  | host
  | container
  deriving DecidableEq

def EntityType.text : EntityType → String
  | .host => "host"
  | .container => "container"

/-- `HistoryStatusOverlayRegion`. Only `createRegion` makes one, and it ends after its start. -/
@[ext]
structure Region where
  id : String
  startAt : ℤ
  endAt : ℤ
  label : String
  kind : OverlayKind
  entityType : EntityType
  hostId : Uuid
  containerName : Option String
  proper : startAt < endAt
  deriving DecidableEq

/-- The instants of a region. -/
def Region.Covers (r : Region) (t : ℤ) : Prop := r.startAt ≤ t ∧ t < r.endAt

/-- The `input` of `createRegion`. -/
structure RegionInput where
  id : String
  startMs : ℤ
  endMs : ℤ
  label : String
  kind : OverlayKind
  entityType : EntityType
  hostId : Uuid
  containerName : Option String

/-- `regionLabel` -/
def regionLabel (hostDisplayName : String) (kind : OverlayKind) (containerName : Option String) :
    String :=
  match containerName.filter (· ≠ "") with
  | some name => name ++ " / " ++ hostDisplayName ++ " / " ++ kind.label
  | none => hostDisplayName ++ " / " ++ kind.label

/-- `createRegion` -/
def createRegion (input : RegionInput) (rangeStartMs rangeEndMs : ℤ) : Option Region :=
  if h : max input.startMs rangeStartMs < min input.endMs rangeEndMs then
    some {
      id := input.id
      startAt := max input.startMs rangeStartMs
      endAt := min input.endMs rangeEndMs
      label := input.label
      kind := input.kind
      entityType := input.entityType
      hostId := input.hostId
      containerName := input.containerName
      proper := h }
  else none

/-- `pushRegion` -/
def pushRegion (regions : List Region) (input : RegionInput) (rangeStartMs rangeEndMs : ℤ) :
    List Region :=
  regions ++ (createRegion input rangeStartMs rangeEndMs).toList

/-! ## The signals of a container -/

/-- `eventOverlayKind` -/
def eventOverlayKind (event : MonitoringEvent) : Option IncidentOverlayKind :=
  match event.severity with
  | .critical => some .error
  | .warning => some .stale
  | _ => none

/-- `activeSignals` -/
abbrev ActiveSignals := SignalName → Option IncidentOverlayKind

/-- `strongestSignalKind` -/
def strongestSignalKind (signals : ActiveSignals) : Option IncidentOverlayKind :=
  let values := [signals .state, signals .health, signals .exit]
  if some .error ∈ values then some .error
  else if values.any Option.isSome then some .stale
  else none

/-- What an event does to the signals. -/
def observeOverlay (signals : ActiveSignals) (event : MonitoringEvent) : ActiveSignals :=
  match signalName event with
  | none => signals
  | some signal =>
    match eventOverlayKind event with
    | some kind => Function.update signals signal (some kind)
    | none => if resolvesSignal event then Function.update signals signal none else signals

/-! ## The regions of the events -/

/-- The variables of the loop over the events of a container; `expectedState` is `none` until an
event was seen. -/
structure BandLoop where
  activeSignals : ActiveSignals
  bandKind : Option IncidentOverlayKind
  bandStartMs : Option ℤ
  expectedState : Option (Option ContainerExpectedState)
  regions : List Region

/-- The region of a band that an event closes. -/
def closedBand (key : String) (firstEvent : MonitoringEvent) (kind : IncidentOverlayKind)
    (bandStartMs eventMs : ℤ) : RegionInput where
  id := "container-incident:" ++ key ++ ":" ++ toString bandStartMs ++ ":" ++ toString eventMs ++
    ":" ++ kind.kind.text
  startMs := bandStartMs
  endMs := eventMs
  label := regionLabel firstEvent.hostDisplayName kind.kind (some firstEvent.containerName)
  kind := kind.kind
  entityType := .container
  hostId := firstEvent.hostId
  containerName := some firstEvent.containerName

section

variable (rangeStartMs rangeEndMs : ℤ)

/-- The body of the loop. -/
def bandStep (key : String) (firstEvent : MonitoringEvent) (s : BandLoop)
    (event : MonitoringEvent) : BandLoop :=
  let previousKind := strongestSignalKind s.activeSignals
  let cleared : ActiveSignals :=
    if expectationChanges s.expectedState event then fun _ => none else s.activeSignals
  let activeSignals := observeOverlay cleared event
  let expectedState := some event.expectedState
  let nextKind := strongestSignalKind activeSignals
  if previousKind = nextKind then
    if nextKind.isSome && s.bandStartMs.isNone then
      { s with activeSignals, expectedState
               bandStartMs := some event.occurredAt
               bandKind := nextKind }
    else { s with activeSignals, expectedState }
  else
    { activeSignals, expectedState
      regions :=
        match previousKind, s.bandStartMs with
        | some kind, some bandStartMs =>
          pushRegion s.regions (closedBand key firstEvent kind bandStartMs event.occurredAt)
            rangeStartMs rangeEndMs
        | _, _ => s.regions
      bandStartMs := nextKind.map fun _ => event.occurredAt
      bandKind := nextKind }

def bandLoop (key : String) (firstEvent : MonitoringEvent) (events : List MonitoringEvent) :
    BandLoop :=
  events.foldl (bandStep rangeStartMs rangeEndMs key firstEvent)
    ⟨fun _ => none, none, none, none, []⟩

variable {F : Type} (generatedAt : ℤ)

/-- `bandEndMs`: how long the snapshot lets a band last. -/
def bandEndMs (current : ContainerOverview F) : Option ℤ :=
  match current.status with
  | .error => some generatedAt
  | .stale | .offline =>
    (parseTimestamp current.receivedAt).map fun receivedMs =>
      min generatedAt (receivedMs + 1000 * onlineThresholdSeconds)
  | _ => none

/-- The region of the band that is open after the last event. -/
def activeBand (key : String) (current : ContainerOverview F) (kind : IncidentOverlayKind)
    (bandStartMs bandEndMs : ℤ) : RegionInput where
  id := "active-container-incident:" ++ key ++ ":" ++ toString bandStartMs ++ ":" ++ kind.kind.text
  startMs := bandStartMs
  endMs := bandEndMs
  label := regionLabel current.hostDisplayName kind.kind (some current.name)
  kind := kind.kind
  entityType := .container
  hostId := current.hostId
  containerName := some current.name

/-- `currentByKey.get(key)` -/
def currentByKey (containers : List (ContainerOverview F)) (key : String) :
    Option (ContainerOverview F) :=
  containers.reverse.find? fun c => Incidents.entityKey c.hostId c.name = key

/-- How long the snapshot lets the open band of a container last, where it shows it at all. -/
def drawnUntil (containers : List (ContainerOverview F)) (key : String) :
    Option (ContainerOverview F × ℤ) :=
  ((currentByKey containers key).filter fun c => !c.maintenanceActive).bind fun current =>
    (bandEndMs generatedAt current).map (current, ·)

/-- The regions of one container. -/
def entityRegions (containers : List (ContainerOverview F)) (key : String)
    (entityEvents : List MonitoringEvent) : List Region :=
  match entityEvents with
  | [] => []
  | firstEvent :: _ =>
    let s := bandLoop rangeStartMs rangeEndMs key firstEvent entityEvents
    match s.bandKind, s.bandStartMs, drawnUntil generatedAt containers key with
    | some kind, some bandStartMs, some (current, bandEndMs) =>
      pushRegion s.regions (activeBand key current kind bandStartMs bandEndMs) rangeStartMs
        rangeEndMs
    | _, _, _ => s.regions

/-- The regions that the events give. -/
def eventRegions (events : List MonitoringEvent) (containers : List (ContainerOverview F)) :
    List Region :=
  (entities events).flatMap fun key =>
    entityRegions rangeStartMs rangeEndMs generatedAt containers key (eventByEntity events key)

/-! ## Containers in trouble that no event tells of -/

/-- The region of a container that the snapshot shows in error. -/
def fallbackBand (container : ContainerOverview F) (receivedMs : ℤ) : RegionInput where
  id := "active-container-fallback:" ++ Incidents.entityKey container.hostId container.name
  startMs := receivedMs
  endMs := generatedAt
  label := regionLabel container.hostDisplayName .error (some container.name)
  kind := .error
  entityType := .container
  hostId := container.hostId
  containerName := some container.name

/-- `alreadyCovered` -/
def alreadyCovered (regions : List Region) (container : ContainerOverview F) : Bool :=
  regions.any fun region =>
    region.entityType = .container &&
      Incidents.entityKey region.hostId (region.containerName.getD "") =
        Incidents.entityKey container.hostId container.name &&
      region.kind = .error && generatedAt - 1000 ≤ region.endAt

/-- The second loop, over the containers. -/
def fallbackStep (regions : List Region) (container : ContainerOverview F) : List Region :=
  if container.maintenanceActive || container.status ≠ .error then regions
  else if alreadyCovered generatedAt regions container then regions
  else
    match parseTimestamp container.receivedAt with
    | none => regions
    | some receivedMs =>
      pushRegion regions (fallbackBand generatedAt container receivedMs) rangeStartMs rangeEndMs

/-- `containerIncidentRegions` -/
def containerIncidentRegions (events : List MonitoringEvent)
    (containers : List (ContainerOverview F)) : List Region :=
  containers.foldl (fallbackStep rangeStartMs rangeEndMs generatedAt)
    (eventRegions rangeStartMs rangeEndMs generatedAt events containers)

end

/-! ## Merging -/

/-- What two regions have to agree in to be joined. -/
abbrev RegionEntity := EntityType × Uuid × Option String × OverlayKind

def Region.entity (r : Region) : RegionEntity := (r.entityType, r.hostId, r.containerName, r.kind)

/-- The region lasts until `t` at least. -/
def Region.extend (r : Region) (t : ℤ) : Region :=
  { r with endAt := max r.endAt t, proper := lt_max_of_lt_left r.proper }

section

variable {ρ : Type} [LinearOrder ρ] (collationKey : String → ρ)

/-- The texts the regions are sorted by, as `localeCompare` compares them: by their collation
keys. -/
def collate (e : RegionEntity) : ρ ×ₗ ρ ×ₗ ρ ×ₗ ρ :=
  toLex (collationKey e.1.text, toLex (collationKey e.2.1.text,
    toLex (collationKey (e.2.2.1.getD ""), collationKey e.2.2.2.text)))

/-- The five keys of the sort. -/
def sortKey (r : Region) : (ρ ×ₗ ρ ×ₗ ρ ×ₗ ρ) ×ₗ ℤ :=
  toLex (collate collationKey r.entity, r.startAt)

/-- The body of the loop of `mergeRegions`. -/
def mergeStep (merged : List Region) (region : Region) : List Region :=
  match merged.getLast? with
  | none => merged ++ [region]
  | some previous =>
    if previous.entity = region.entity ∧ region.startAt ≤ previous.endAt + 1000 then
      merged.dropLast ++ [previous.extend region.endAt]
    else merged ++ [region]

/-- `mergeRegions` -/
def mergeRegions (regions : List Region) : List Region :=
  orderBy (byKey Region.startAt)
    ((orderBy (byKey (sortKey collationKey)) regions).foldl mergeStep [])

end

end IvrmDashboard.Monitoring.Overlays

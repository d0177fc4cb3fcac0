import IvrmDashboard.Foundations.FirstPerKey
import IvrmDashboard.Foundations.Js.Date

/-!
# The monitoring snapshot

The dashboard shows every enabled host with its latest heartbeat and every container with its latest
sample. It asks for the newest 500 heartbeats and the newest 2,000 samples, of all hosts and
containers together, and keeps the first row of every host and of every container. Timestamps of the
database are microseconds, those of JavaScript milliseconds.
-/

namespace IvrmDashboard.Monitoring

open Sql FirstPerKey

/-- How names are ordered: by the collation of the database, and by `localeCompare(…, "ja")`. -/
class Collations where
  displayNameLe : String → String → Bool
  localeLe : String → String → Bool

/-! ## Rows -/

/-- `HostRow` -/
structure HostRow where
  id : Uuid
  serverId : String
  displayName : String
  provider : String
  environment : String
  enabled : Bool

/-- `HeartbeatRow`; `F` are the numbers of a `double precision` column. -/
structure HeartbeatRow (F : Type) where
  hostId : Uuid
  agentVersion : String
  receivedAt : ℤ
  sentAt : ℤ
  cpuCount : ℤ
  memoryTotalBytes : ℤ
  memoryAvailableBytes : ℤ
  diskTotalBytes : ℤ
  diskAvailableBytes : ℤ
  loadAverage1 : F
  loadAverage5 : F
  loadAverage15 : F
  uptimeSeconds : F

/-- `ContainerState` -/
inductive ContainerState
  | created
  | running
  | paused
  | restarting
  | removing
  | exited
  | dead
  | unknown
  | notFound
  deriving DecidableEq

/-- `ContainerHealth` -/
inductive ContainerHealth
  | starting
  | healthy
  | unhealthy
  | none
  | unknown
  deriving DecidableEq

/-- The value of the column `state`. -/
def ContainerState.text : ContainerState → String
  | .created => "created"
  | .running => "running"
  | .paused => "paused"
  | .restarting => "restarting"
  | .removing => "removing"
  | .exited => "exited"
  | .dead => "dead"
  | .unknown => "unknown"
  | .notFound => "not_found"

/-- The value of the column `health`. -/
def ContainerHealth.text : ContainerHealth → String
  | .starting => "starting"
  | .healthy => "healthy"
  | .unhealthy => "unhealthy"
  | .none => "none"
  | .unknown => "unknown"

/-- `ContainerExpectedState` -/
inductive ContainerExpectedState
  | running
  | stopped
  | absent
  deriving DecidableEq

/-- `ContainerSampleRow` -/
structure ContainerSampleRow (F : Type) where
  hostId : Uuid
  containerName : String
  state : ContainerState
  health : ContainerHealth
  restartCount : ℤ
  oomKilled : Bool
  exitCode : Option ℤ
  cpuPercent : Option F
  memoryUsageBytes : Option ℤ
  memoryLimitBytes : Option ℤ
  networkRxBytes : Option ℤ
  networkTxBytes : Option ℤ
  blockReadBytes : Option ℤ
  blockWriteBytes : Option ℤ
  pids : Option ℤ
  receivedAt : ℤ

/-- `ContainerExpectationRow` -/
structure ContainerExpectationRow where
  hostId : Uuid
  containerName : String
  expectedState : ContainerExpectedState
  maintenanceMode : Bool
  maintenanceReason : Option String
  maintenanceUntil : Option ℤ

/-- The tables the snapshot is taken of. The rows of a table are listed in the order in which the
database returns those that compare equal. -/
structure Database (F : Type) where
  hosts : List HostRow
  heartbeats : List (HeartbeatRow F)
  samples : List (ContainerSampleRow F)
  expectations : List ContainerExpectationRow
  hostIds : (hosts.map (·.id)).Nodup

/-! ## Overviews -/

/-- `HostStatus` and `ContainerStatus` -/
inductive Status
  | online
  | offline
  | stale
  | error
  | standby
  | maintenance
  deriving DecidableEq

/-- `HostOverview` -/
structure HostOverview (F : Type) where
  id : Uuid
  serverId : String
  displayName : String
  provider : String
  environment : String
  status : Status
  agentVersion : Option String
  receivedAt : Option ℤ
  sentAt : Option ℤ
  ageSeconds : Option ℤ
  cpuCount : Option ℤ
  memoryTotalBytes : Option ℤ
  memoryAvailableBytes : Option ℤ
  diskTotalBytes : Option ℤ
  diskAvailableBytes : Option ℤ
  loadAverage1 : Option F
  loadAverage5 : Option F
  loadAverage15 : Option F
  uptimeSeconds : Option F

/-- `ContainerOverview` -/
structure ContainerOverview (F : Type) where
  hostId : Uuid
  hostDisplayName : String
  name : String
  status : Status
  state : ContainerState
  health : ContainerHealth
  restartCount : ℤ
  oomKilled : Bool
  exitCode : Option ℤ
  cpuPercent : Option F
  memoryUsageBytes : Option ℤ
  memoryLimitBytes : Option ℤ
  networkRxBytes : Option ℤ
  networkTxBytes : Option ℤ
  blockReadBytes : Option ℤ
  blockWriteBytes : Option ℤ
  pids : Option ℤ
  receivedAt : ℤ
  ageSeconds : ℤ
  expectedState : Option ContainerExpectedState
  maintenanceMode : Bool
  maintenanceActive : Bool
  maintenanceReason : Option String
  maintenanceUntil : Option ℤ

/-- `MonitoringSnapshot` -/
structure MonitoringSnapshot (F : Type) where
  hosts : List (HostOverview F)
  containers : List (ContainerOverview F)
  generatedAt : ℤ

/-! ## Status -/

def onlineThresholdSeconds : ℤ := 45

def staleThresholdSeconds : ℤ := 180

def heartbeatFetchLimit : ℕ := 500

def containerFetchLimit : ℕ := 2000

/-- `Date.parse` of a timestamp as the database prints it. -/
def parseTimestamp (t : ℤ) : Option ℤ :=
  if Js.dateTime (jsonTimestamptz t) then some (t / 1000) else none

/-- `ageSeconds` -/
def ageSeconds (timestamp now : ℤ) : Option ℤ :=
  (parseTimestamp timestamp).map fun milliseconds => max 0 ((now - milliseconds) / 1000)

/-- `determineHostStatus` -/
def determineHostStatus : Option ℤ → Status
  | none => .offline
  | some age =>
    if staleThresholdSeconds < age then .offline
    else if onlineThresholdSeconds < age then .stale
    else .online

/-- `isMaintenanceActive` -/
def isMaintenanceActive (expectation : Option ContainerExpectationRow) (now : ℤ) : Bool :=
  match expectation with
  | none => false
  | some e =>
    if !e.maintenanceMode then false
    else
      match e.maintenanceUntil with
      | none => true
      | some t => (parseTimestamp t).any (now < ·)

/-- The status of a container whose sample is fresh and that is not under maintenance. -/
def expectedStatus {F : Type} (container : ContainerSampleRow F) :
    Option ContainerExpectedState → Status
  | some .stopped => if container.state ∈ [.exited, .created] then .standby else .error
  | some .absent => if container.state = .notFound then .standby else .error
  | some .running =>
    if container.oomKilled || container.health = .unhealthy ||
        container.state ∈ [.dead, .exited, .created, .removing, .notFound, .unknown] then .error
    else if container.state ∈ [.restarting, .paused] ||
        container.health ∈ [.starting, .unknown] then .stale
    else if container.state = .running then .online
    else .error
  | none =>
    if container.oomKilled || container.health = .unhealthy || container.state = .dead then .error
    else if container.state ∈ [.restarting, .paused] || container.health = .starting then .stale
    else if container.state = .running then .online
    else .offline

/-- `determineContainerStatus` -/
def determineContainerStatus {F : Type} (container : ContainerSampleRow F) (age : ℤ)
    (expectation : Option ContainerExpectationRow) (now : ℤ) : Status :=
  if staleThresholdSeconds < age then .offline
  else if onlineThresholdSeconds < age then .stale
  else if isMaintenanceActive expectation now then .maintenance
  else expectedStatus container (expectation.map (·.expectedState))

/-! ## The snapshot -/

/-- The key of the maps over containers. -/
def entityKey (hostId : Uuid) (containerName : String) : String :=
  hostId.text ++ ":" ++ containerName

section

variable {F : Type}

def ContainerSampleRow.key (c : ContainerSampleRow F) : String := entityKey c.hostId c.containerName

/-- `order=received_at.desc` on the heartbeats. -/
def orderedHeartbeats (db : Database F) : List (HeartbeatRow F) :=
  orderBy (fun a b => decide (b.receivedAt ≤ a.receivedAt)) db.heartbeats

/-- `order=received_at.desc` on the samples. -/
def orderedSamples (db : Database F) : List (ContainerSampleRow F) :=
  orderBy (fun a b => decide (b.receivedAt ≤ a.receivedAt)) db.samples

/-- `enabled=eq.true` -/
def enabledHosts (db : Database F) : List HostRow := db.hosts.filter (·.enabled)

/-- `hostNameById.get(id)` -/
def hostNameOf (db : Database F) (id : Uuid) : Option String :=
  ((enabledHosts db).reverse.find? (·.id = id)).map (·.displayName)

/-- `latestByHost.get(id)` -/
def latestByHost (db : Database F) (id : Uuid) : Option (HeartbeatRow F) :=
  (firstPerKey (·.hostId) ((orderedHeartbeats db).take heartbeatFetchLimit)).find? (·.hostId = id)

/-- `latestContainerByKey.values()` -/
def latestContainers (db : Database F) : List (ContainerSampleRow F) :=
  firstPerKey (·.key) (((orderedSamples db).take containerFetchLimit).filter fun c =>
    (hostNameOf db c.hostId).isSome)

/-- `expectationByKey.get(key)` -/
def expectationOf (db : Database F) (key : String) : Option ContainerExpectationRow :=
  db.expectations.reverse.find? fun e => entityKey e.hostId e.containerName = key

/-- What is shown of a host. -/
def hostOverview (now : ℤ) (host : HostRow) (heartbeat : Option (HeartbeatRow F)) :
    HostOverview F :=
  let age := heartbeat.bind fun h => ageSeconds h.receivedAt now
  { id := host.id
    serverId := host.serverId
    displayName := host.displayName
    provider := host.provider
    environment := host.environment
    status := determineHostStatus age
    agentVersion := heartbeat.map (·.agentVersion)
    receivedAt := heartbeat.map (·.receivedAt)
    sentAt := heartbeat.map (·.sentAt)
    ageSeconds := age
    cpuCount := heartbeat.map (·.cpuCount)
    memoryTotalBytes := heartbeat.map (·.memoryTotalBytes)
    memoryAvailableBytes := heartbeat.map (·.memoryAvailableBytes)
    diskTotalBytes := heartbeat.map (·.diskTotalBytes)
    diskAvailableBytes := heartbeat.map (·.diskAvailableBytes)
    loadAverage1 := heartbeat.map (·.loadAverage1)
    loadAverage5 := heartbeat.map (·.loadAverage5)
    loadAverage15 := heartbeat.map (·.loadAverage15)
    uptimeSeconds := heartbeat.map (·.uptimeSeconds) }

/-- What is shown of a container. -/
def containerOverview (now : ℤ) (db : Database F) (container : ContainerSampleRow F) :
    ContainerOverview F :=
  let age := (ageSeconds container.receivedAt now).getD (staleThresholdSeconds + 1)
  let expectation := expectationOf db container.key
  { hostId := container.hostId
    hostDisplayName := (hostNameOf db container.hostId).getD "Unknown Host"
    name := container.containerName
    status := determineContainerStatus container age expectation now
    state := container.state
    health := container.health
    restartCount := container.restartCount
    oomKilled := container.oomKilled
    exitCode := container.exitCode
    cpuPercent := container.cpuPercent
    memoryUsageBytes := container.memoryUsageBytes
    memoryLimitBytes := container.memoryLimitBytes
    networkRxBytes := container.networkRxBytes
    networkTxBytes := container.networkTxBytes
    blockReadBytes := container.blockReadBytes
    blockWriteBytes := container.blockWriteBytes
    pids := container.pids
    receivedAt := container.receivedAt
    ageSeconds := age
    expectedState := expectation.map (·.expectedState)
    maintenanceMode := (expectation.map (·.maintenanceMode)).getD false
    maintenanceActive := isMaintenanceActive expectation now
    maintenanceReason := expectation.bind (·.maintenanceReason)
    maintenanceUntil := expectation.bind (·.maintenanceUntil) }

variable [Collations]

/-- `getMonitoringSnapshot` -/
def getMonitoringSnapshot (now : ℤ) (db : Database F) : MonitoringSnapshot F where
  generatedAt := now
  hosts :=
    (orderBy (fun a b => Collations.displayNameLe a.displayName b.displayName)
      (enabledHosts db)).map fun host => hostOverview now host (latestByHost db host.id)
  containers :=
    orderBy
      (fun left right => Collations.localeLe (left.hostDisplayName ++ ":" ++ left.name)
        (right.hostDisplayName ++ ":" ++ right.name))
      ((latestContainers db).map (containerOverview now db))

end

end IvrmDashboard.Monitoring

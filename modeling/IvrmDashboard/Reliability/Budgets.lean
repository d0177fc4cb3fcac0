import IvrmDashboard.Foundations.Doubles
import IvrmDashboard.Reliability.Downtime

/-!
# Error budgets and burn rates

A policy sets a target for a service, and what the target leaves of a range is the downtime it
allows. The budget of a range is exhausted when the downtime that counts uses all of it; the burn
rate compares the two over one, six and twenty-four hours. Both carry a flag that says whether every
active incident has a known start. Percentages and rates are doubles.
-/

namespace IvrmDashboard.Reliability

open Double (IsDouble nearest)

/-! ## Services -/

/-- `ReliabilitySloServiceId` -/
inductive SloServiceId
  | overall
  | host
  | container
  | backup
  deriving DecidableEq

namespace SloServiceId

/-- `SLO_SERVICE_IDS` -/
def all : List SloServiceId := [overall, host, container, backup]

/-- The incidents of one service are those of an entity type. -/
def entityType : SloServiceId → Option EntityType
  | overall => none
  | host => some .host
  | container => some .container
  | backup => some .backup

/-- The incident belongs to the service. -/
def covers (id : SloServiceId) (i : Incident) : Bool :=
  id.entityType.all fun type => i.entityType = type

/-- `SLO_LABELS` -/
def label : SloServiceId → String
  | overall => "Overall Reliability"
  | host => "Host Platform"
  | container => "Container Runtime"
  | backup => "Backup Protection"

end SloServiceId

/-- `ReliabilityServiceId` -/
inductive ServiceId
  | host
  | container
  | backup
  | notifications
  deriving DecidableEq

/-- The service of that name, which the overall level does not have. -/
def SloServiceId.service : SloServiceId → Option ServiceId
  | overall => none
  | host => some .host
  | container => some .container
  | backup => some .backup

/-- `ReliabilityRange` -/
inductive Range
  | day
  | week
  | month
  deriving DecidableEq

namespace Range

/-- `hours` of `INCIDENT_RANGE_CONFIG` -/
def hours : Range → ℕ
  | day => 24
  | week => 168
  | month => 720

def text : Range → String
  | day => "24h"
  | week => "7d"
  | month => "30d"

def seconds (r : Range) : ℕ := r.hours * 3600

end Range

/-- What the budgets read of a `ReliabilityService`. -/
structure ReliabilityService where
  id : ServiceId
  label : String
  knownDowntimeSeconds : Option ℤ
  incidentFreeRatio : Option ℚ
  exactCoverage : Bool
  detailHref : String

/-- What the budgets read of `overall`. -/
structure Overall where
  knownDowntimeSeconds : ℤ
  exactCoverage : Bool

/-- What the metrics read of a `UnifiedIncidentCenterSnapshot`; `generatedAt` is parsed. -/
structure IncidentSnapshot where
  generatedAt : ℤ
  backupDataAvailable : Bool
  active : List ActiveIncident
  recovered : List RecoveredIncident

/-- `Math.max(0, Math.min(1, 1 - downtimeSeconds / rangeSeconds))` -/
def incidentFree (downtimeSeconds : ℤ) (rangeSeconds : ℕ) : ℚ :=
  max 0 (min 1 (nearest (1 - nearest (downtimeSeconds / rangeSeconds))))

/-- The beginning of the last `hours` before `rangeEnd`. -/
def rangeStartOf (rangeEnd : ℤ) (hours : ℕ) : ℤ := rangeEnd - hours * 3600000

section

variable (parse : String → Option ℤ)

/-- `collectKnownDowntime` -/
def collectKnownDowntime (active : List ActiveIncident) (recovered : List RecoveredIncident)
    (rangeStart rangeEnd : ℤ) : ℤ × Bool :=
  (unionSeconds (rawIntervals parse active recovered rangeStart rangeEnd),
    active.all (·.knownStart.isSome))

/-- `buildIncidentService` -/
def buildIncidentService (type : EntityType) (id : ServiceId) (label detailHref : String)
    (s : IncidentSnapshot) (range : Range) (available : Bool) : ReliabilityService :=
  let downtime := collectKnownDowntime parse (s.active.filter (·.entityType = type))
    (s.recovered.filter (·.entityType = type)) (rangeStartOf s.generatedAt range.hours)
    s.generatedAt
  let knownDowntimeSeconds := if available then some downtime.1 else none
  { id, label, detailHref, knownDowntimeSeconds
    incidentFreeRatio := knownDowntimeSeconds.map (incidentFree · range.seconds)
    exactCoverage := available && downtime.2 }

/-- `services` of `getReliabilitySnapshot`; the last one has no budget. -/
def services (s : IncidentSnapshot) (range : Range) (notifications : ReliabilityService) :
    List ReliabilityService :=
  [buildIncidentService parse .host .host "Host Platform" "/hosts" s range true,
    buildIncidentService parse .container .container "Container Runtime" "/containers" s range true,
    buildIncidentService parse .backup .backup "Backup Protection"
      ("/backups?range=" ++ range.text) s range s.backupDataAvailable,
    notifications]

/-- `buildOverall` -/
def buildOverall (s : IncidentSnapshot) (range : Range) : Overall :=
  let downtime := collectKnownDowntime parse s.active s.recovered
    (rangeStartOf s.generatedAt range.hours) s.generatedAt
  { knownDowntimeSeconds := downtime.1
    exactCoverage := downtime.2 && s.backupDataAvailable }

/-! ## Adjustments -/

/-- `ReliabilitySloMaintenanceAdjustment` -/
structure MaintenanceAdjustment extends Downtime where
  serviceId : SloServiceId
  deriving DecidableEq

/-- The adjustment of one service. -/
def adjustmentOf (s : IncidentSnapshot) (windows : List MaintenanceWindow)
    (rangeStart rangeEnd : ℤ) (id : SloServiceId) : MaintenanceAdjustment where
  toDowntime := collectMaintenanceAdjustedDowntime parse
    (s.active.filter fun i => id.covers i.toIncident)
    (s.recovered.filter fun i => id.covers i.toIncident) windows rangeStart rangeEnd
  serviceId := id

/-- `buildReliabilityMaintenanceAdjustments` -/
def buildReliabilityMaintenanceAdjustments (s : IncidentSnapshot)
    (windows : List MaintenanceWindow) (rangeStart rangeEnd : ℤ) : List MaintenanceAdjustment :=
  SloServiceId.all.map (adjustmentOf parse s windows rangeStart rangeEnd)

end

/-! ## Policies -/

/-- A target that `parseTargetPercent` accepts. -/
structure TargetPercent where
  percent : ℚ
  isDouble : IsDouble percent
  pos : 0 < percent
  lt : percent < 100

/-- `ReliabilitySloPolicy` -/
structure SloPolicy where
  serviceId : SloServiceId
  targetPercent : Option TargetPercent
  enabled : Bool
  updatedAt : String

/-- `policyByService.get(serviceId)`: of several policies of a service the last one. -/
def policyOf (policies : List SloPolicy) (id : SloServiceId) : Option SloPolicy :=
  (policies.filter fun p => p.serviceId = id).getLast?

/-- The target of a policy that is there and enabled. -/
def enabledTarget (policy : Option SloPolicy) : Option TargetPercent :=
  (policy.filter (·.enabled)).bind (·.targetPercent)

/-- `seconds * (1 - targetPercent / 100)` -/
def TargetPercent.allowedSeconds (t : TargetPercent) (seconds : ℕ) : ℚ :=
  nearest (seconds * nearest (1 - nearest (t.percent / 100)))

/-! ## Budgets -/

/-- `ReliabilitySloBudgetState` -/
inductive BudgetState
  | unconfigured
  | withinBudget
  | exhausted
  | coverageUnknown
  | dataUnavailable
  deriving DecidableEq

/-- `ReliabilitySource` -/
structure ReliabilitySource where
  label : String
  rawDowntimeSeconds : Option ℤ
  knownDowntimeSeconds : Option ℤ
  maintenanceExcludedSeconds : Option ℤ
  incidentFreeRatio : Option ℚ
  exactCoverage : Bool
  detailHref : String

/-- `ReliabilitySloBudget` -/
structure SloBudget where
  serviceId : SloServiceId
  label : String
  state : BudgetState
  targetPercent : Option ℚ
  enabled : Bool
  updatedAt : Option String
  observedAvailabilityPercent : Option ℚ
  observedExact : Bool
  rawDowntimeSeconds : Option ℤ
  knownDowntimeSeconds : Option ℤ
  maintenanceExcludedSeconds : Option ℤ
  allowedDowntimeSeconds : Option ℚ
  remainingBudgetSeconds : Option ℚ
  remainingExact : Bool
  budgetUsedPercent : Option ℚ
  burnRate : Option ℚ
  detailHref : String

/-- The adjustment of a service, if maintenance data is there. -/
def adjustmentFor (adjustments : Option (List MaintenanceAdjustment)) (id : SloServiceId) :
    Option MaintenanceAdjustment :=
  adjustments.bind fun list => list.find? fun a => a.serviceId = id

/-- `sourceFor` -/
def sourceFor (id : SloServiceId) (services : List ReliabilityService) (overall : Overall)
    (range : Range) (adjustments : Option (List MaintenanceAdjustment)) :
    Option ReliabilitySource :=
  let adjustment := adjustmentFor adjustments id
  match id.service with
  | none => some {
      label := id.label
      rawDowntimeSeconds := some overall.knownDowntimeSeconds
      knownDowntimeSeconds := adjustment.map (·.countedDowntimeSeconds)
      maintenanceExcludedSeconds := adjustment.map (·.excludedMaintenanceSeconds)
      incidentFreeRatio :=
        adjustment.map fun a => incidentFree a.countedDowntimeSeconds range.seconds
      exactCoverage := adjustment.any fun a => overall.exactCoverage && a.exactCoverage
      detailHref := "/incidents?range=" ++ range.text }
  | some serviceId =>
    (services.find? fun s => s.id = serviceId).map fun service =>
      let available := service.knownDowntimeSeconds.isSome && service.incidentFreeRatio.isSome
      let adjustment := if available then adjustment else none
      { label := service.label
        rawDowntimeSeconds := service.knownDowntimeSeconds
        knownDowntimeSeconds := adjustment.map (·.countedDowntimeSeconds)
        maintenanceExcludedSeconds := adjustment.map (·.excludedMaintenanceSeconds)
        incidentFreeRatio :=
          adjustment.map fun a => incidentFree a.countedDowntimeSeconds range.seconds
        exactCoverage := adjustment.any fun a => service.exactCoverage && a.exactCoverage
        detailHref := service.detailHref }

/-- A budget that could not be computed. -/
def baseBudget (id : SloServiceId) (policy : Option SloPolicy) (source : Option ReliabilitySource)
    (range : Range) (state : BudgetState) : SloBudget where
  serviceId := id
  label := (source.map (·.label)).getD id.label
  state := state
  targetPercent := (policy.bind (·.targetPercent)).map (·.percent)
  enabled := (policy.map (·.enabled)).getD false
  updatedAt := policy.map (·.updatedAt)
  observedAvailabilityPercent := (source.bind (·.incidentFreeRatio)).map fun r => nearest (r * 100)
  observedExact := (source.map (·.exactCoverage)).getD false
  rawDowntimeSeconds := source.bind (·.rawDowntimeSeconds)
  knownDowntimeSeconds := source.bind (·.knownDowntimeSeconds)
  maintenanceExcludedSeconds := source.bind (·.maintenanceExcludedSeconds)
  allowedDowntimeSeconds := none
  remainingBudgetSeconds := none
  remainingExact := false
  budgetUsedPercent := none
  burnRate := none
  detailHref := (source.map (·.detailHref)).getD ("/reliability?range=" ++ range.text)

/-- What of a source the budget is computed from. -/
def ReliabilitySource.measured (source : ReliabilitySource) : Option ℤ :=
  source.incidentFreeRatio.bind fun _ => source.knownDowntimeSeconds

/-- The budget of one service, if policies and adjustments could be read. -/
def budgetOf (id : SloServiceId) (policy : Option SloPolicy) (source : Option ReliabilitySource)
    (range : Range) : SloBudget :=
  match enabledTarget policy with
  | none => baseBudget id policy source range .unconfigured
  | some target =>
    let allowed := target.allowedSeconds range.seconds
    match source.bind (·.measured) with
    | none =>
      { baseBudget id policy source range .dataUnavailable with
        allowedDowntimeSeconds := some allowed }
    | some known =>
      let exact := (source.map (·.exactCoverage)).getD false
      let burnRate := nearest (known / allowed)
      let exhausted := decide (1 ≤ burnRate)
      let state := if exhausted then .exhausted else if exact then .withinBudget else .coverageUnknown
      { baseBudget id policy source range state with
        allowedDowntimeSeconds := some allowed
        remainingBudgetSeconds := some (max 0 (nearest (allowed - known)))
        remainingExact := exact || exhausted
        budgetUsedPercent := some (nearest (burnRate * 100))
        burnRate := some burnRate }

/-- `buildReliabilitySloBudgets` -/
def buildReliabilitySloBudgets (services : List ReliabilityService) (overall : Overall)
    (policies : Option (List SloPolicy)) (range : Range)
    (adjustments : Option (List MaintenanceAdjustment)) : List SloBudget :=
  SloServiceId.all.map fun id =>
    let policy := policies.bind fun list => policyOf list id
    let source := sourceFor id services overall range adjustments
    match policies with
    | none => baseBudget id policy source range .dataUnavailable
    | some _ => budgetOf id policy source range

end IvrmDashboard.Reliability

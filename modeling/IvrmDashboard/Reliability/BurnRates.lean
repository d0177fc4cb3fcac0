import IvrmDashboard.Reliability.Budgets

/-!
# Burn rates

How fast a service uses up what its target allows, over three windows that end now. A state is
decided by two windows at a time, and only by windows in which every active incident has a known
start; where nothing is reached and a window is not exact, the state stays open.
-/

namespace IvrmDashboard.Reliability

open Double (IsDouble nearest)

/-- `ReliabilityBurnWindowId` -/
inductive BurnWindowId
  | oneHour
  | sixHours
  | twentyFourHours
  deriving DecidableEq

namespace BurnWindowId

/-- `RELIABILITY_BURN_WINDOWS` -/
def all : List BurnWindowId := [oneHour, sixHours, twentyFourHours]

def hours : BurnWindowId → ℕ
  | oneHour => 1
  | sixHours => 6
  | twentyFourHours => 24

def label : BurnWindowId → String
  | oneHour => "1時間"
  | sixHours => "6時間"
  | twentyFourHours => "24時間"

end BurnWindowId

/-- `ReliabilityBurnRateState` -/
inductive BurnRateState
  | unconfigured
  | healthy
  | warning
  | critical
  | coverageUnknown
  | dataUnavailable
  deriving DecidableEq

/-- `ReliabilityBurnRateWindow` -/
structure BurnRateWindow where
  windowId : BurnWindowId
  label : String
  hours : ℕ
  rawDowntimeSeconds : Option ℤ
  maintenanceExcludedSeconds : Option ℤ
  countedDowntimeSeconds : Option ℤ
  allowedDowntimeSeconds : Option ℚ
  burnRate : Option ℚ
  exactCoverage : Bool

/-- `findWindow` -/
def findWindow (windows : List BurnRateWindow) (id : BurnWindowId) : Option BurnRateWindow :=
  windows.find? fun w => w.windowId = id

/-- `reaches`; a rate that is not finite is `none`. -/
def reaches (window : Option BurnRateWindow) (threshold : ℚ) : Bool :=
  window.any fun w => w.exactCoverage && w.burnRate.any fun rate => threshold ≤ rate

/-- A pair of windows with the rates that both have to reach. -/
structure BurnThreshold where
  shortWindow : BurnWindowId
  shortThreshold : ℚ
  longWindow : BurnWindowId
  longThreshold : ℚ

/-- `RELIABILITY_BURN_POLICY.critical` -/
def criticalThreshold : BurnThreshold := ⟨.oneHour, nearest (144 / 10), .sixHours, 6⟩

/-- `RELIABILITY_BURN_POLICY.warning` -/
def warningThreshold : BurnThreshold := ⟨.sixHours, 6, .twentyFourHours, 3⟩

/-- Both windows reach their rates. -/
def BurnThreshold.reached (t : BurnThreshold) (windows : List BurnRateWindow) : Bool :=
  reaches (findWindow windows t.shortWindow) t.shortThreshold &&
    reaches (findWindow windows t.longWindow) t.longThreshold

/-- `stateFor` -/
def stateFor (windows : List BurnRateWindow) : BurnRateState :=
  if criticalThreshold.reached windows then .critical
  else if warningThreshold.reached windows then .warning
  else if windows.all (·.exactCoverage) then .healthy
  else .coverageUnknown

section

variable (parse : String → Option ℤ)

/-- The window of one length, for a service with a target. -/
def configuredWindow (s : IncidentSnapshot) (windows : List MaintenanceWindow)
    (target : TargetPercent) (id : SloServiceId) (window : BurnWindowId) : BurnRateWindow :=
  let adjustment := (buildReliabilityMaintenanceAdjustments parse s windows
    (rangeStartOf s.generatedAt window.hours) s.generatedAt).find? fun a => a.serviceId = id
  let allowed := target.allowedSeconds (window.hours * 3600)
  let backupCoverageRequired := id = .overall || id = .backup
  { windowId := window
    label := window.label
    hours := window.hours
    rawDowntimeSeconds := adjustment.map (·.rawDowntimeSeconds)
    maintenanceExcludedSeconds := adjustment.map (·.excludedMaintenanceSeconds)
    countedDowntimeSeconds := adjustment.map (·.countedDowntimeSeconds)
    allowedDowntimeSeconds := adjustment.map fun _ => allowed
    burnRate := adjustment.map fun a => nearest (a.countedDowntimeSeconds / allowed)
    exactCoverage := adjustment.any fun a =>
      a.exactCoverage && (!backupCoverageRequired || s.backupDataAvailable) }

/-- `ReliabilityBurnRateService` -/
structure BurnRateService where
  serviceId : SloServiceId
  label : String
  state : BurnRateState
  targetPercent : Option ℚ
  enabled : Bool
  windows : List BurnRateWindow

/-- The burn rates of one service. -/
def burnRateOf (s : IncidentSnapshot) (policies : Option (List SloPolicy))
    (windows : Option (List MaintenanceWindow)) (id : SloServiceId) : BurnRateService :=
  let policy := policies.bind fun list => policyOf list id
  let base (state : BurnRateState) (windows : List BurnRateWindow) : BurnRateService :=
    { serviceId := id
      label := id.label
      state := state
      targetPercent := (policy.bind (·.targetPercent)).map (·.percent)
      enabled := (policy.map (·.enabled)).getD false
      windows := windows }
  match policies, windows with
  | some _, some maintenance =>
    match enabledTarget policy with
    | none => base .unconfigured []
    | some target =>
      let configured := BurnWindowId.all.map (configuredWindow parse s maintenance target id)
      base (stateFor configured) configured
  | _, _ => base .dataUnavailable []

/-- `buildReliabilityBurnRates` -/
def buildReliabilityBurnRates (s : IncidentSnapshot) (policies : Option (List SloPolicy))
    (windows : Option (List MaintenanceWindow)) : List BurnRateService :=
  SloServiceId.all.map (burnRateOf parse s policies windows)

end

end IvrmDashboard.Reliability

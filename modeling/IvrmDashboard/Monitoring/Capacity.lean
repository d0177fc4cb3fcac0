import Mathlib.Algebra.Order.Field.Rat
import Mathlib.Data.Rat.Floor
import IvrmDashboard.Backups.Growth

/-!
# The forecast of a capacity

`percentForecast` puts the usage of a disk or of a memory into one of seven states. It compares the
current percentage with the two thresholds, and only below the warning threshold it looks at the
line through the history. The Capacity Center then counts the states in classes: critical, warning
and the rest.

The numbers are rational, and the thresholds are shown as `numberText` shows a number.
-/

namespace IvrmDashboard.Monitoring

open Backups

/-! ## What goes in and what comes out -/

/-- `PercentTrendPoint`; the timestamp is what `Date.parse` makes of it. -/
structure PercentTrendPoint where
  timestamp : Option ℤ
  value : Option ℚ
  sampleCount : ℚ

/-- `CapacityState` -/
inductive CapacityState
  | healthy
  | growth
  | forecastWarning
  | forecastCritical
  | warning
  | critical
  | insufficient
  deriving DecidableEq

/-- The thresholds of a resource. -/
structure CapacityThresholds where
  warningPercent : ℚ
  criticalPercent : ℚ

/-- `CapacityForecast` -/
structure CapacityForecast where
  currentPercent : Option ℚ
  state : CapacityState
  slopePercentPerDay : Option ℚ
  rSquared : Option ℚ
  confidence : ForecastConfidence
  coverageRatio : ℚ
  spanRatio : ℚ
  validPointCount : ℕ
  expectedPointCount : ℤ
  daysToWarning : Option ℚ
  daysToCritical : Option ℚ
  warningPercent : ℚ
  criticalPercent : ℚ
  reason : String

/-! ## `CAPACITY_POLICY.forecast` -/

def minimumPointCount : ℕ := 24
def minimumCoverageRatio : ℚ := 2 / 5
def minimumSpanRatio : ℚ := 1 / 2
def minimumRSquared : ℚ := 3 / 10
def mediumRSquared : ℚ := 1 / 2
def highRSquared : ℚ := 3 / 4
def mediumCoverageRatio : ℚ := 13 / 20
def highCoverageRatio : ℚ := 4 / 5
def minimumGrowthPercentPerDay : ℚ := 1 / 20
def warningHorizonDays : ℚ := 30
def criticalHorizonDays : ℚ := 7
def maximumForecastDays : ℚ := 365

def maxAcceptedPercent : ℚ := 200

/-! ## The forecast -/

/-- The last value there is. -/
def latestPercent (points : List PercentTrendPoint) : Option ℚ :=
  points.reverse.findSome? (·.value)

/-- The points that count, and how much. -/
def validPoints (points : List PercentTrendPoint) : List (RegressionPoint ℚ) :=
  points.filterMap fun point =>
    match point.value, point.timestamp with
    | some value, some timestamp =>
      if value < 0 || maxAcceptedPercent < value then none
      else some ⟨timestamp, value, max 1 point.sampleCount⟩
    | _, _ => none

/-- `regression`, on rational numbers. -/
def fittedLine (points : List (RegressionPoint ℚ)) : Option (Regression ℚ) :=
  letI := sampleNumber
  regression points

def expectedPointCount (bucketSeconds : ℚ) (range : CapacityRange) : ℤ :=
  max 1 ⌊range.hours * 3600 / max 1 bucketSeconds⌋

def coverageRatio (valid : List (RegressionPoint ℚ)) (expected : ℤ) : ℚ :=
  min 1 (valid.length / expected)

def spanRatio (fitted : Option (Regression ℚ)) (range : CapacityRange) : ℚ :=
  match fitted with
  | some f => min 1 (f.spanDays / max (1 / 24) (range.hours / 24))
  | none => 0

def confidenceFor (rSquared coverageRatio spanRatio : ℚ) : ForecastConfidence :=
  if highRSquared ≤ rSquared && highCoverageRatio ≤ coverageRatio && highCoverageRatio ≤ spanRatio
  then .high
  else if mediumRSquared ≤ rSquared && mediumCoverageRatio ≤ coverageRatio &&
    mediumCoverageRatio ≤ spanRatio
  then .medium
  else .low

def daysToThreshold (current slopePerDay threshold : ℚ) : Option ℚ :=
  if threshold ≤ current then some 0
  else if slopePerDay < minimumGrowthPercentPerDay then none
  else
    let days := (threshold - current) / slopePerDay
    if 0 ≤ days && days ≤ maximumForecastDays then some days else none

/-- Whether the line can be relied on. -/
def usable (validCount : ℕ) (coverageRatio spanRatio : ℚ) (f : Regression ℚ) : Bool :=
  minimumPointCount ≤ validCount && minimumCoverageRatio ≤ coverageRatio &&
    minimumSpanRatio ≤ spanRatio && minimumRSquared ≤ f.rSquared

/-- The fields of a forecast in which the ways out of `percentForecast` differ. -/
structure CapacityVerdict where
  state : CapacityState
  confidence : ForecastConfidence
  daysToWarning : Option ℚ
  daysToCritical : Option ℚ
  reason : String

/-- What a line says that can be relied on. -/
def lineVerdict (coverage span : ℚ) (thresholds : CapacityThresholds) (current : ℚ)
    (f : Regression ℚ) : CapacityVerdict :=
  let confidence := confidenceFor f.rSquared coverage span
  let daysToWarning := daysToThreshold current f.slopePerDay thresholds.warningPercent
  let daysToCritical := daysToThreshold current f.slopePerDay thresholds.criticalPercent
  match daysToCritical.filter (· ≤ criticalHorizonDays),
      daysToWarning.filter (· ≤ warningHorizonDays) with
  | some days, _ =>
    ⟨.forecastCritical, confidence, daysToWarning, daysToCritical,
      "現在傾向が続く場合、Critical到達まで約" ++ toString (max 1 ⌈days⌉) ++ "日です"⟩
  | none, some days =>
    ⟨.forecastWarning, confidence, daysToWarning, daysToCritical,
      "現在傾向が続く場合、Warning到達まで約" ++ toString (max 1 ⌈days⌉) ++ "日です"⟩
  | none, none =>
    if minimumGrowthPercentPerDay ≤ f.slopePerDay then
      ⟨.growth, confidence, daysToWarning, daysToCritical,
        "増加傾向を検出しましたが、30日以内のWarning到達は予測されていません"⟩
    else
      ⟨.healthy, confidence, daysToWarning, daysToCritical, "安定または減少傾向です"⟩

variable (numberText : ℚ → String)

/-- The ways out of `percentForecast`, in their order. -/
def capacityVerdict (validCount : ℕ) (coverage span : ℚ) (fitted : Option (Regression ℚ))
    (thresholds : CapacityThresholds) : Option ℚ → CapacityVerdict
  | none => ⟨.insufficient, .insufficient, none, none, "現在使用率を算出できません"⟩
  | some current =>
    if thresholds.criticalPercent ≤ current then
      { state := .critical
        confidence := match fitted with
          | some f => confidenceFor f.rSquared coverage span
          | none => .insufficient
        daysToWarning := some 0
        daysToCritical := some 0
        reason :=
          "Criticalしきい値 " ++ numberText thresholds.criticalPercent ++ "% に到達しています" }
    else if thresholds.warningPercent ≤ current then
      let used := fitted.filter (usable validCount coverage span)
      { state := .warning
        confidence := match used with
          | some f => confidenceFor f.rSquared coverage span
          | none => .insufficient
        daysToWarning := some 0
        -- The days are shown, but they do not raise the state.
        daysToCritical :=
          used.bind fun f => daysToThreshold current f.slopePerDay thresholds.criticalPercent
        reason :=
          "Warningしきい値 " ++ numberText thresholds.warningPercent ++ "% に到達しています" }
    else
      match fitted.filter fun _ => minimumPointCount ≤ validCount with
      | none =>
        ⟨.insufficient, .insufficient, none, none,
          "予測に必要な有効サンプルが不足しています（" ++ toString validCount ++ "/" ++
            toString minimumPointCount ++ "）"⟩
      | some f =>
        if coverage < minimumCoverageRatio || span < minimumSpanRatio then
          ⟨.insufficient, .insufficient, none, none,
            "観測期間またはデータ被覆率が不足しているため予測を保留しています"⟩
        else if f.rSquared < minimumRSquared then
          ⟨.insufficient, .insufficient, none, none,
            "変動が大きく、直線傾向として十分に説明できないため予測を保留しています"⟩
        else
          lineVerdict coverage span thresholds current f

/-- `percentForecast` -/
def percentForecast (points : List PercentTrendPoint) (currentOverride : Option ℚ)
    (bucketSeconds : ℚ) (range : CapacityRange) (thresholds : CapacityThresholds) :
    CapacityForecast :=
  let valid := validPoints points
  let expected := expectedPointCount bucketSeconds range
  let coverage := coverageRatio valid expected
  let fitted := fittedLine valid
  let span := spanRatio fitted range
  let currentPercent := currentOverride <|> latestPercent points
  let verdict := capacityVerdict numberText valid.length coverage span fitted thresholds
    currentPercent
  { currentPercent
    state := verdict.state
    slopePercentPerDay := fitted.map (·.slopePerDay)
    rSquared := fitted.map (·.rSquared)
    confidence := verdict.confidence
    coverageRatio := coverage
    spanRatio := span
    validPointCount := valid.length
    expectedPointCount := expected
    daysToWarning := verdict.daysToWarning
    daysToCritical := verdict.daysToCritical
    warningPercent := thresholds.warningPercent
    criticalPercent := thresholds.criticalPercent
    reason := verdict.reason }

/-! ## The classes of the summary -/

/-- The states that `criticalCount` counts. -/
def CapacityState.isCritical (s : CapacityState) : Bool := s = .critical || s = .forecastCritical

/-- The states that `warningCount` counts. -/
def CapacityState.isWarning (s : CapacityState) : Bool := s = .warning || s = .forecastWarning

/-- The counts of the states in the `summary` of a snapshot. -/
structure CapacitySummary where
  forecastAttentionCount : ℕ
  criticalCount : ℕ
  warningCount : ℕ
  growthCount : ℕ
  insufficientCount : ℕ

/-- The `summary` of the forecasts of hosts and containers. -/
def capacitySummary (forecasts : List CapacityForecast) : CapacitySummary :=
  let criticalCount := forecasts.countP (·.state.isCritical)
  let warningCount := forecasts.countP (·.state.isWarning)
  { criticalCount, warningCount
    forecastAttentionCount := criticalCount + warningCount
    growthCount := forecasts.countP (·.state = .growth)
    insufficientCount := forecasts.countP (·.state = .insufficient) }

/-- The class of a state, the higher the more urgent. -/
def CapacityState.severity (s : CapacityState) : ℕ :=
  if s.isCritical then 2 else if s.isWarning then 1 else 0

end IvrmDashboard.Monitoring

import Mathlib.Data.Rat.Floor
import IvrmDashboard.Foundations.Sql.Timestamp
import IvrmDashboard.Foundations.Sql.Unique
import IvrmDashboard.Foundations.Sql.Result
import IvrmDashboard.Reliability.BurnRates

/-!
# Burn history

Every reconciliation reports the burn rates of the four services. The history keeps one row for a
service and a bucket of five minutes. A report is merged into the row of its bucket unless the row
has been observed later; every call also deletes the rows whose bucket began more than 30 days ago.
The charts read the rows in buckets of 5, 30 or 120 minutes. Timestamps are microseconds, and rates
and targets are stored in ten-thousandths.
-/

namespace IvrmDashboard.Reliability

open Sql

/-! ## Services, states and windows -/

def SloServiceId.text : SloServiceId → String
  | overall => "overall"
  | host => "host"
  | container => "container"
  | backup => "backup"

/-- The service a text names. -/
def SloServiceId.ofText? (s : String) : Option SloServiceId := all.find? fun id => id.text == s

namespace BurnRateState

def all : List BurnRateState :=
  [unconfigured, healthy, warning, critical, coverageUnknown, dataUnavailable]

def text : BurnRateState → String
  | unconfigured => "unconfigured"
  | healthy => "healthy"
  | warning => "warning"
  | critical => "critical"
  | coverageUnknown => "coverage_unknown"
  | dataUnavailable => "data_unavailable"

/-- The state a text names. -/
def ofText? (s : String) : Option BurnRateState := all.find? fun state => state.text == s

/-- `case state when 'critical' then 6 … end` -/
def rank : BurnRateState → ℕ
  | critical => 6
  | warning => 5
  | dataUnavailable => 4
  | coverageUnknown => 3
  | healthy => 2
  | unconfigured => 1

/-- `case … when 6 then 'critical' … end` -/
def ofRank : ℕ → BurnRateState
  | 6 => critical
  | 5 => warning
  | 4 => dataUnavailable
  | 3 => coverageUnknown
  | 2 => healthy
  | _ => unconfigured

end BurnRateState

/-- The suffix of the columns of a window. -/
def BurnWindowId.text : BurnWindowId → String
  | oneHour => "1h"
  | sixHours => "6h"
  | twentyFourHours => "24h"

def BurnWindowId.seconds (id : BurnWindowId) : ℤ := id.hours * 3600

/-! ## Rows -/

/-- The columns of a row for one window. -/
structure BurnColumns where
  burnRate : Option ℤ
  exact : Bool
  countedDowntime : Option ℤ
  maintenanceExcluded : Option ℤ

/-- A row of `reliability_burn_rate_samples_5m`. -/
structure BurnRow where
  serviceId : SloServiceId
  bucketStartedAt : ℤ
  observedAt : ℤ
  state : BurnRateState
  targetPercent : Option ℤ
  window : BurnWindowId → BurnColumns

/-- One minute. -/
def minute : ℤ := 60 * second

/-- `date_bin`: the beginning of the bucket of that width; the origin begins a bucket of each width
that is used. -/
def dateBin (width t : ℤ) : ℤ := t / width * width

/-- `v between lo and hi`, for a column that may be `NULL` -/
def between (lo hi : ℤ) (v : Option ℤ) : Bool := v.all fun n => lo ≤ n && n ≤ hi

namespace BurnRow

/-- The primary key. -/
def key (r : BurnRow) : SloServiceId × ℤ := (r.serviceId, r.bucketStartedAt)

/-- The windows in the order of the names of their constraints. -/
def constraintOrder : List BurnWindowId := [.oneHour, .twentyFourHours, .sixHours]

/-- The `CHECK` constraints; those of the service and the state are met by their types. -/
def checks (r : BurnRow) : List (String × Bool) :=
  ("reliability_burn_samples_bucket_check",
    decide (r.bucketStartedAt = dateBin (5 * minute) r.bucketStartedAt)) ::
  constraintOrder.map (fun id => (s!"reliability_burn_samples_counted_{id.text}_check",
    between 0 id.seconds (r.window id).countedDowntime)) ++
  constraintOrder.map (fun id => (s!"reliability_burn_samples_excluded_{id.text}_check",
    between 0 id.seconds (r.window id).maintenanceExcluded)) ++
  ("reliability_burn_samples_observed_check",
    r.bucketStartedAt ≤ r.observedAt && r.observedAt < r.bucketStartedAt + 5 * minute) ::
  constraintOrder.map (fun id => (s!"reliability_burn_samples_rate_{id.text}_check",
    between 0 (1000000 * 10000) (r.window id).burnRate)) ++
  [("reliability_burn_samples_target_check",
    r.targetPercent.all fun n => 0 < n && n < 100 * 10000)]

end BurnRow

/-! ## What a call reports -/

/-- The fields of a sample for one window. -/
structure SampleFields where
  burnRate : Option ℚ
  exact : Option Bool
  countedDowntime : Option ℤ
  maintenanceExcluded : Option ℤ

/-- An element of `p_samples`; a field that is missing is `NULL`. -/
structure BurnSample where
  serviceId : Option String
  state : Option String
  targetPercent : Option ℚ
  window : BurnWindowId → SampleFields

/-- A number in a column with four decimals. -/
def toTenThousandths (x : ℚ) : ℤ := ⌊x * 10000 + 1 / 2⌋

namespace BurnSample

variable (s : BurnSample)

/-- The conditions on the fields of one window. -/
def windowValid (id : BurnWindowId) : Bool :=
  (s.window id).exact.isSome &&
    ((s.window id).burnRate.all fun x => 0 ≤ x && x ≤ 1000000) &&
    between 0 id.seconds (s.window id).countedDowntime &&
    between 0 id.seconds (s.window id).maintenanceExcluded

/-- The conditions under which a sample counts. -/
def valid : Bool :=
  (s.serviceId.bind SloServiceId.ofText?).isSome && (s.state.bind BurnRateState.ofText?).isSome &&
    (s.targetPercent.all fun x => 0 < x && x < 100) && BurnWindowId.all.all s.windowValid

/-- The columns that a sample has for one window. -/
def columns (id : BurnWindowId) : Except DbError BurnColumns := do
  let exact ← orRaise (s.window id).exact (.notNullViolation s!"exact_{id.text}")
  return {
    burnRate := (s.window id).burnRate.map toTenThousandths
    exact
    countedDowntime := (s.window id).countedDowntime
    maintenanceExcluded := (s.window id).maintenanceExcluded }

/-- The row that a sample proposes. -/
def row (bucket observedAt : ℤ) : Except DbError BurnRow := do
  let serviceId ← orRaise (s.serviceId.bind SloServiceId.ofText?)
    (.checkViolation "reliability_burn_samples_service_check")
  let state ← orRaise (s.state.bind BurnRateState.ofText?)
    (.checkViolation "reliability_burn_samples_state_check")
  let oneHour ← s.columns .oneHour
  let sixHours ← s.columns .sixHours
  let twentyFourHours ← s.columns .twentyFourHours
  return {
    serviceId, state, observedAt
    bucketStartedAt := bucket
    targetPercent := s.targetPercent.map toTenThousandths
    window := fun
      | .oneHour => oneHour
      | .sixHours => sixHours
      | .twentyFourHours => twentyFourHours }

end BurnSample

/-! ## Recording -/

/-- `greatest`, which leaves out `NULL` -/
def greatest : Option ℤ → Option ℤ → Option ℤ
  | some a, some b => some (max a b)
  | some a, none => some a
  | none, b => b

/-- The columns of one window after `excluded` has come in. -/
def BurnColumns.merge (stored excluded : BurnColumns) : BurnColumns where
  burnRate := greatest stored.burnRate excluded.burnRate
  exact := stored.exact && excluded.exact
  countedDowntime := greatest stored.countedDowntime excluded.countedDowntime
  maintenanceExcluded := greatest stored.maintenanceExcluded excluded.maintenanceExcluded

namespace BurnRow

/-- `on conflict … do update set …` -/
def merge (stored excluded : BurnRow) : BurnRow where
  serviceId := stored.serviceId
  bucketStartedAt := stored.bucketStartedAt
  observedAt := excluded.observedAt
  state := .ofRank (max stored.state.rank excluded.state.rank)
  targetPercent := excluded.targetPercent
  window id := (stored.window id).merge (excluded.window id)

/-- The row after a conflict: the update has a `where` clause. -/
def resolve (excluded stored : BurnRow) : BurnRow :=
  if stored.observedAt ≤ excluded.observedAt then stored.merge excluded else stored

end BurnRow

/-- `insert … on conflict (service_id, bucket_started_at) do update …` of one row. -/
def upsert (rows : List BurnRow) (excluded : BurnRow) : Except DbError (List BurnRow) := do
  checkAll excluded.checks
  if rows.any (·.key = excluded.key) then
    return updateWhere (·.key = excluded.key) excluded.resolve rows
  return rows ++ [excluded]

/-- The rows that a call proposes, once its payload has passed. -/
def proposedRows (now : ℤ) (observedAt : Option ℤ) (samples : List BurnSample) :
    Except DbError (List BurnRow) := do
  let invalid : DbError := .raised "reliability_burn_history_payload_invalid" "22023"
  let observedAt ← orRaise observedAt invalid
  raiseIf (now + 2 * minute < observedAt || observedAt < now - 10 * minute ||
    samples.length ≠ 4) invalid
  let counted := samples.filter (·.valid)
  raiseIf (counted.length ≠ 4 || (counted.map (·.serviceId)).dedup.length ≠ 4)
    (.raised "reliability_burn_history_samples_invalid" "22023")
  samples.mapM (·.row (dateBin (5 * minute) observedAt) observedAt)

/-- `record_reliability_burn_rate_samples_v1`, from one state of the table to the next. -/
def recordReliabilityBurnRateSamples (now : ℤ) (rows : List BurnRow) (observedAt : Option ℤ)
    (samples : List BurnSample) : Except DbError (List BurnRow) := do
  let proposed ← proposedRows now observedAt samples
  let rows ← proposed.foldlM upsert rows
  return rows.filter (now - 30 * day ≤ ·.bucketStartedAt)

/-! ## Reading -/

/-- The columns of a display bucket for one window. -/
structure ShownColumns where
  burnRate : Option ℤ
  exact : Bool

/-- What the charts get for a service and a display bucket. -/
structure ShownBucket where
  serviceId : SloServiceId
  bucketStartedAt : ℤ
  observedAt : ℤ
  state : BurnRateState
  targetPercent : Option ℤ
  window : BurnWindowId → ShownColumns

namespace ShownBucket

/-- The group a row goes to. -/
def keyOf (width : ℤ) (r : BurnRow) : SloServiceId × ℤ :=
  (r.serviceId, dateBin width r.bucketStartedAt)

/-- The aggregates of a group: `max`, `bool_and` and `(array_agg(… order by observed_at desc))[1]`. -/
def ofGroup (key : SloServiceId × ℤ) (r : BurnRow) (rest : List BurnRow) : ShownBucket where
  serviceId := key.1
  bucketStartedAt := key.2
  observedAt := rest.foldl (fun t q => max t q.observedAt) r.observedAt
  state := .ofRank (rest.foldl (fun n q => max n q.state.rank) r.state.rank)
  targetPercent :=
    (firstBy (fun a b => decide (b.observedAt ≤ a.observedAt)) (r :: rest)).bind (·.targetPercent)
  window id :=
    { burnRate := rest.foldl (fun v q => greatest v (q.window id).burnRate) (r.window id).burnRate
      exact := rest.foldl (fun b q => b && (q.window id).exact) (r.window id).exact }

/-- `order by display_bucket asc, service_id asc` -/
def le (a b : ShownBucket) : Bool :=
  a.bucketStartedAt < b.bucketStartedAt ||
    (a.bucketStartedAt = b.bucketStartedAt && a.serviceId.text ≤ b.serviceId.text)

end ShownBucket

/-- The rows of one group, as one. -/
def shownBucket (width : ℤ) (samples : List BurnRow) (key : SloServiceId × ℤ) :
    Option ShownBucket :=
  match samples.filter (ShownBucket.keyOf width · = key) with
  | [] => none
  | r :: rest => some (.ofGroup key r rest)

/-- `list_reliability_burn_rate_history_v1` -/
def listReliabilityBurnRateHistory (now : ℤ) (rows : List BurnRow) (since : Option ℤ)
    (bucketMinutes : ℤ) : Except DbError (List ShownBucket) := do
  let invalid : DbError := .raised "reliability_burn_history_range_invalid" "22023"
  let since ← orRaise since invalid
  raiseIf (since < now - 31 * day || now + minute < since || bucketMinutes ∉ [5, 30, 120]) invalid
  let samples := rows.filter (since ≤ ·.bucketStartedAt)
  let width := bucketMinutes * minute
  return orderBy ShownBucket.le
    ((samples.map (ShownBucket.keyOf width)).dedup.filterMap (shownBucket width samples))

/-! ## Runs -/

/-- The clock and the table. -/
structure BurnWorld where
  now : ℤ
  rows : List BurnRow

/-- A call of `record_reliability_burn_rate_samples_v1`, some time after the one before. -/
structure BurnCall where
  elapsed : ℕ
  observedAt : Option ℤ
  samples : List BurnSample

namespace BurnWorld

/-- The table before the first call. -/
def initial (now : ℤ) : BurnWorld := ⟨now, []⟩

/-- A call that aborts leaves the table as it is. -/
def step (w : BurnWorld) (c : BurnCall) : BurnWorld :=
  let now := w.now + c.elapsed
  match recordReliabilityBurnRateSamples now w.rows c.observedAt c.samples with
  | .ok rows => ⟨now, rows⟩
  | .error _ => ⟨now, w.rows⟩

/-- The rows that a call proposes, if it does not abort. -/
def reported (w : BurnWorld) (c : BurnCall) : List BurnRow :=
  let now := w.now + c.elapsed
  match proposedRows now c.observedAt c.samples,
    recordReliabilityBurnRateSamples now w.rows c.observedAt c.samples with
  | .ok proposed, .ok _ => proposed
  | _, _ => []

end BurnWorld

end IvrmDashboard.Reliability

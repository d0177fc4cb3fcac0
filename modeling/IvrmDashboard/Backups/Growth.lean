import Mathlib.Data.Rat.Defs
import IvrmDashboard.Backups.Center

/-!
# The growth of backups

For every policy the Capacity Center fits a line through the sizes of the successful runs. It picks
the runs by host, target and type, and names the forecast by the same three columns; a policy has a
fourth one, the game mode. So the forecasts of two policies mix exactly when they differ in nothing
else (`growth_of_policy`). The arithmetic plays no part in this, and the numbers are any that have
the operations of JavaScript.
-/

namespace IvrmDashboard.Backups

open Sql Operations Notifications

/-! ## Numbers -/

/-- The operations on numbers. -/
class JsNumber (N : Type) extends Add N, Sub N, Mul N, Div N, LE N, LT N where
  max : N → N → N
  min : N → N → N
  square : N → N
  epsilon : N
  /-- The number a literal or an integer stands for. -/
  ofRat : ℚ → N

variable {N : Type} [JsNumber N] [DecidableLE N] [DecidableLT N]

open JsNumber

/-! ## The regression -/

/-- `RegressionPoint`, its time in milliseconds. -/
structure RegressionPoint (N : Type) where
  timestamp : ℤ
  value : N
  weight : N

/-- `Regression` -/
structure Regression (N : Type) where
  slopePerDay : N
  rSquared : N
  pointCount : ℕ
  spanDays : N

/-- A point in days since the first one. -/
structure NormalizedPoint (N : Type) where
  x : N
  y : N
  w : N

/-- `points.reduce((sum, point) => sum + f(point), 0)` -/
def sumOf (f : NormalizedPoint N → N) (points : List (NormalizedPoint N)) : N :=
  points.foldl (fun sum point => sum + f point) (ofRat 0)

/-- Milliseconds as days. -/
def inDays (milliseconds : ℤ) : N := ofRat milliseconds / ofRat 86400000

/-- The line through the points. -/
def fitLine (points : List (NormalizedPoint N)) (spanDays : N) : Option (Regression N) :=
  let totalWeight := sumOf (·.w) points
  let meanX := sumOf (fun p => p.x * p.w) points / totalWeight
  let meanY := sumOf (fun p => p.y * p.w) points / totalWeight
  let varianceX := sumOf (fun p => p.w * square (p.x - meanX)) points
  let covariance := sumOf (fun p => p.w * (p.x - meanX) * (p.y - meanY)) points
  let slopePerDay := covariance / varianceX
  let intercept := meanY - slopePerDay * meanX
  let totalVarianceY := sumOf (fun p => p.w * square (p.y - meanY)) points
  let residual := sumOf (fun p => p.w * square (p.y - (intercept + slopePerDay * p.x))) points
  if totalWeight ≤ ofRat 0 || varianceX ≤ epsilon then none
  else some {
    slopePerDay, spanDays
    rSquared :=
      if totalVarianceY ≤ epsilon then ofRat 1
      else JsNumber.max (ofRat 0)
        (JsNumber.min (ofRat 1) (ofRat 1 - residual / totalVarianceY))
    pointCount := points.length }

/-- `regression`; the times and the values of the runs are finite. -/
def regression (points : List (RegressionPoint N)) : Option (Regression N) :=
  if points.length < 2 then none
  else
    let sorted := orderBy (fun l r => decide (l.timestamp ≤ r.timestamp)) points
    match sorted.head?, sorted.getLast? with
    | some first, some last =>
      if last.timestamp ≤ first.timestamp then none
      else
        let normalized := sorted.filterMap fun p =>
          if p.weight ≤ ofRat 0 then none
          else some ⟨inDays (p.timestamp - first.timestamp), p.value, p.weight⟩
        if normalized.length < 2 then none
        else fitLine normalized (inDays (last.timestamp - first.timestamp))
    | _, _ => none

/-! ## The forecast of a policy -/

/-- `CapacityRange` -/
inductive CapacityRange
  | day
  | week
  | month

/-- `CAPACITY_RANGE_CONFIG[range].hours` -/
def CapacityRange.hours : CapacityRange → ℚ
  | .day => 24
  | .week => 168
  | .month => 720

/-- `ForecastConfidence` -/
inductive ForecastConfidence
  | high
  | medium
  | low
  | insufficient

/-- `BackupGrowthState` -/
inductive BackupGrowthState
  | growth
  | stable
  | shrinking
  | insufficient

/-- What the forecast reads of a target: its policy, and the size of its latest successful run. -/
structure GrowthTarget where
  scope : BackupScope
  hostDisplayName : String
  latestSizeBytes : Option ℤ

/-- `BackupGrowthForecast` -/
structure BackupGrowthForecast (N : Type) where
  id : String
  hostId : Uuid
  hostDisplayName : String
  backupTarget : String
  latestSizeBytes : Option ℤ
  growthBytesPerDay : Option N
  growthPercentPerDay : Option N
  rSquared : Option N
  confidence : ForecastConfidence
  state : BackupGrowthState
  sampleCount : ℕ
  spanRatio : N
  reason : String

/-- The id of a forecast. -/
def GrowthTarget.forecastId (t : GrowthTarget) : String :=
  t.scope.hostId.text ++ ":" ++ t.scope.backupTarget ++ ":" ++ t.scope.backupType

/-- The successful runs with a size. -/
def growthPoints (runs : List BackupRun) : List (RegressionPoint N) :=
  runs.filterMap fun run =>
    match run.outcome, run.sizeBytes, run.completedAt with
    | .success, some size, some completedAt =>
      if size < 0 then none else some ⟨Js.dateParse completedAt, ofRat size, ofRat 1⟩
    | _, _, _ => none

/-- How sure a forecast is. -/
def growthConfidence (rSquared spanRatio : N) : ForecastConfidence :=
  if ofRat (3 / 4) ≤ rSquared && ofRat (4 / 5) ≤ spanRatio then .high
  else if ofRat (1 / 2) ≤ rSquared && ofRat (13 / 20) ≤ spanRatio then .medium
  else .low

/-- What the slope says. -/
def growthState (slopePerDay : N) : BackupGrowthState × String :=
  if ofRat 1048576 < slopePerDay then (.growth, "Backupサイズの増加傾向を検出しています")
  else if slopePerDay < ofRat (-1048576) then (.shrinking, "Backupサイズは減少傾向です")
  else (.stable, "Backupサイズは概ね安定しています")

/-- `backupGrowthForecast` -/
def backupGrowthForecast (target : GrowthTarget) (runs : List BackupRun) (range : CapacityRange) :
    BackupGrowthForecast N :=
  let points : List (RegressionPoint N) := growthPoints runs
  let fitted := regression points
  let rangeDays : N := ofRat range.hours / ofRat 24
  let spanRatio := match fitted with
    | some f => JsNumber.min (ofRat 1) (f.spanDays / JsNumber.max (ofRat 1 / ofRat 24) rangeDays)
    | none => ofRat 0
  let enoughData := fun f : Regression N =>
    3 ≤ points.length && ofRat (3 / 20) ≤ spanRatio && ofRat (1 / 4) ≤ f.rSquared
  let growthBytesPerDay := fitted.map (·.slopePerDay)
  let growthPercentPerDay := growthBytesPerDay.bind fun g =>
    (target.latestSizeBytes.filter (0 < ·)).map fun size => g / ofRat size * ofRat 100
  match fitted.filter enoughData with
  | none => {
      id := target.forecastId
      hostId := target.scope.hostId
      hostDisplayName := target.hostDisplayName
      backupTarget := target.scope.backupTarget
      latestSizeBytes := target.latestSizeBytes
      growthBytesPerDay, growthPercentPerDay
      rSquared := fitted.map (·.rSquared)
      confidence := .insufficient
      state := .insufficient
      sampleCount := points.length
      spanRatio
      reason := "Backupサイズ傾向を判定する履歴が不足しています" }
  | some f => {
      id := target.forecastId
      hostId := target.scope.hostId
      hostDisplayName := target.hostDisplayName
      backupTarget := target.scope.backupTarget
      latestSizeBytes := target.latestSizeBytes
      growthBytesPerDay := some f.slopePerDay
      growthPercentPerDay
      rSquared := some f.rSquared
      confidence := growthConfidence f.rSquared spanRatio
      state := (growthState f.slopePerDay).1
      sampleCount := points.length
      spanRatio
      reason := (growthState f.slopePerDay).2 }

/-- The snapshot of the Backup Center, as far as the forecasts read it. -/
structure GrowthSnapshot where
  targets : List GrowthTarget
  history : List BackupRun

/-- The runs whose columns match those of a target. -/
def matchingRuns (target : GrowthTarget) (history : List BackupRun) : List BackupRun :=
  history.filter fun run =>
    run.scope.hostId = target.scope.hostId &&
      run.scope.backupTarget = target.scope.backupTarget &&
      run.scope.backupType = target.scope.backupType

/-- The forecast of one target. -/
def growthOf (history : List BackupRun) (range : CapacityRange) (target : GrowthTarget) :
    BackupGrowthForecast N :=
  backupGrowthForecast target (matchingRuns target history) range

/-- The `backupGrowth` of `getCapacitySnapshot`; `le` compares as `localeCompare` does. -/
def backupGrowth (le : String → String → Bool) (s : GrowthSnapshot) (range : CapacityRange) :
    List (BackupGrowthForecast N) :=
  orderBy (fun l r => le (l.hostDisplayName ++ ":" ++ l.backupTarget)
    (r.hostDisplayName ++ ":" ++ r.backupTarget)) (s.targets.map (growthOf s.history range))

/-! ## What a forecast depends on -/

/-- The policies agree in the columns by which the runs are picked. -/
def BackupScope.SameGrowth (s t : BackupScope) : Prop :=
  s.hostId = t.hostId ∧ s.backupTarget = t.backupTarget ∧ s.backupType = t.backupType

/-- The forecasts of a snapshot are those of its targets. -/
theorem mem_backupGrowth {le : String → String → Bool} {s : GrowthSnapshot} {range : CapacityRange}
    {g : BackupGrowthForecast N} :
    g ∈ backupGrowth le s range ↔ ∃ t ∈ s.targets, growthOf s.history range t = g := by
  rw [backupGrowth, mem_orderBy, List.mem_map]

theorem growthOf_id (history : List BackupRun) (range : CapacityRange) (t : GrowthTarget) :
    (growthOf history range t : BackupGrowthForecast N).id = t.forecastId := by
  simp only [growthOf, backupGrowthForecast]
  split <;> rfl

theorem growthOf_sampleCount (history : List BackupRun) (range : CapacityRange)
    (t : GrowthTarget) :
    (growthOf history range t : BackupGrowthForecast N).sampleCount =
      (growthPoints (matchingRuns t history) : List (RegressionPoint N)).length := by
  simp only [growthOf, backupGrowthForecast]
  split <;> rfl

omit [JsNumber N] [DecidableLE N] [DecidableLT N] in
/-- Texts without a colon stay apart behind one. -/
theorem colon_append_inj {a b c d : String} (ha : ':' ∉ a.toList) (hb : ':' ∉ b.toList)
    (h : a ++ ":" ++ c = b ++ ":" ++ d) : a = b ∧ c = d := by
  have hlist : a.toList ++ ':' :: c.toList = b.toList ++ ':' :: d.toList := by
    have htext := congrArg String.toList h
    simpa using htext
  have hne {l : List Char} (hl : ':' ∉ l) : ∀ x ∈ l, (x != ':') = true := by
    intro x hx
    exact bne_iff_ne.2 (ne_of_mem_of_not_mem hx hl)
  obtain ⟨hfront, hback⟩ := Jsonb.append_inj_of_class (· != ':') (hne ha) (hne hb) (by simp)
    (by simp) hlist
  exact ⟨String.toList_inj.1 hfront, String.toList_inj.1 (List.cons.inj hback).2⟩

omit [JsNumber N] [DecidableLE N] [DecidableLT N] in
theorem colon_notMem_of_nameOk {s : String} (h : nameOk s = true) : ':' ∉ s.toList := by
  intro hmem
  simp only [nameOk, Bool.and_eq_true, List.all_eq_true] at h
  exact absurd (h.2 ':' hmem) (by decide)

omit [JsNumber N] [DecidableLE N] [DecidableLT N] in
/-- The id of a forecast names the three columns and no others. -/
theorem forecastId_eq {t u : GrowthTarget} (ht : t.scope.ok = true) (hu : u.scope.ok = true) :
    t.forecastId = u.forecastId ↔ t.scope.SameGrowth u.scope := by
  constructor
  · intro h
    simp only [BackupScope.ok, Bool.and_eq_true] at ht hu
    have hlist := congrArg String.toList h
    simp only [GrowthTarget.forecastId, String.append_assoc, String.toList_append] at hlist
    obtain ⟨hhost, hrest⟩ := List.append_inj hlist
      (by rw [String.length_toList, String.length_toList, Uuid.length_text, Uuid.length_text])
    have htail : t.scope.backupTarget ++ ":" ++ t.scope.backupType =
        u.scope.backupTarget ++ ":" ++ u.scope.backupType := by
      apply String.toList_inj.1
      simpa using hrest
    obtain ⟨htarget, htype⟩ := colon_append_inj (colon_notMem_of_nameOk ht.1.1)
      (colon_notMem_of_nameOk hu.1.1) htail
    exact ⟨Uuid.text_inj (String.toList_inj.1 hhost), htarget, htype⟩
  · rintro ⟨hhost, htarget, htype⟩
    rw [GrowthTarget.forecastId, GrowthTarget.forecastId, hhost, htarget, htype]

omit [JsNumber N] [DecidableLE N] [DecidableLT N] in
/-- Where no other policy agrees in the three columns, the runs that are picked are the policy's. -/
theorem matchingRuns_eq {policies : List BackupScope} {target : GrowthTarget}
    (hunique : ∀ s ∈ policies, s.SameGrowth target.scope → s = target.scope)
    {history : List BackupRun} (hhistory : ∀ r ∈ history, r.scope ∈ policies) :
    matchingRuns target history = history.filter (·.scope = target.scope) := by
  apply List.filter_congr
  intro r hr
  have hiff : r.scope.SameGrowth target.scope ↔ r.scope = target.scope :=
    ⟨hunique r.scope (hhistory r hr), fun h => h ▸ ⟨rfl, rfl, rfl⟩⟩
  rw [Bool.eq_iff_iff]
  simp only [Bool.and_eq_true, decide_eq_true_eq, and_assoc]
  exact hiff

/-- A successful run of a policy. -/
def successOf (s : BackupScope) : BackupRun where
  id := 1
  runId := ⟨0⟩
  scope := s
  destinationType := "local"
  startedAt := 0
  completedAt := some 0
  outcome := .success
  durationSeconds := some 0
  sizeBytes := some 0
  sha256Verified := none
  remoteSyncedAt := none
  restoreTestedAt := none
  retentionExpiresAt := none
  failureCode := none

/-- A run that is picked is one sample more. -/
theorem sampleCount_successOf {s : BackupScope} {target : GrowthTarget}
    (h : s.SameGrowth target.scope) (range : CapacityRange) :
    (growthOf [successOf s] range target : BackupGrowthForecast N).sampleCount = 1 := by
  obtain ⟨hhost, htarget, htype⟩ := h
  have hmatching : matchingRuns target [successOf s] = [successOf s] := by
    simp only [matchingRuns, successOf, hhost, htarget, htype, decide_true, Bool.and_self,
      List.filter_cons_of_pos, List.filter_nil]
  rw [growthOf_sampleCount, hmatching]
  rfl

theorem growth_unchanged {policies : List BackupScope} {range : CapacityRange}
    {target : GrowthTarget} :
    (∀ history history' : List BackupRun, (∀ r ∈ history ++ history', r.scope ∈ policies) →
        history.filter (·.scope = target.scope) = history'.filter (·.scope = target.scope) →
        (growthOf history range target : BackupGrowthForecast N) =
          growthOf history' range target) ↔
      ∀ s ∈ policies, s.SameGrowth target.scope → s = target.scope := by
  constructor
  · intro hsame s hs hgrowth
    by_contra hne
    have hno : [].filter (·.scope = target.scope) =
        [successOf s].filter (·.scope = target.scope) := by
      have hother : decide ((successOf s).scope = target.scope) = false := decide_eq_false hne
      simp only [List.filter_cons, hother, List.filter_nil, Bool.false_eq_true, if_false]
    have hscope : ∀ r ∈ [] ++ [successOf s], r.scope ∈ policies := by
      intro r hr
      rw [List.mem_singleton.1 hr]
      exact hs
    have hcount := congrArg BackupGrowthForecast.sampleCount (hsame [] [successOf s] hscope hno)
    rw [sampleCount_successOf hgrowth, growthOf_sampleCount] at hcount
    cases hcount
  · intro hunique history history' hpolicies hfilter
    rw [List.forall_mem_append] at hpolicies
    rw [growthOf, growthOf, matchingRuns_eq hunique hpolicies.1,
      matchingRuns_eq hunique hpolicies.2, hfilter]

omit [JsNumber N] [DecidableLE N] [DecidableLT N] in
theorem forecastId_unique {policies : List BackupScope} (hok : ∀ s ∈ policies, s.ok = true)
    {target : GrowthTarget} (hmem : target.scope ∈ policies) :
    (∀ other : GrowthTarget, other.scope ∈ policies → other.scope ≠ target.scope →
        other.forecastId ≠ target.forecastId) ↔
      ∀ s ∈ policies, s.SameGrowth target.scope → s = target.scope := by
  have htarget := hok _ hmem
  constructor
  · intro hids s hs hgrowth
    by_contra hne
    have hid := hids ⟨s, "", none⟩ hs hne
    have hsame := forecastId_eq (t := ⟨s, "", none⟩) (hok s hs) htarget
    exact hid (hsame.2 hgrowth)
  · intro hunique other hother hne hid
    exact hne (hunique _ hother ((forecastId_eq (hok _ hother) htarget).1 hid))

/-- **A forecast belongs to its policy** exactly when no other policy differs from it in the game
mode alone: then the runs of other policies do not change it, and no other forecast has its id. -/
theorem growth_of_policy {policies : List BackupScope} (hok : ∀ s ∈ policies, s.ok = true)
    (range : CapacityRange) {target : GrowthTarget} (hmem : target.scope ∈ policies) :
    ((∀ history history' : List BackupRun, (∀ r ∈ history ++ history', r.scope ∈ policies) →
        history.filter (·.scope = target.scope) = history'.filter (·.scope = target.scope) →
        (growthOf history range target : BackupGrowthForecast N) =
          growthOf history' range target) ↔
      ∀ s ∈ policies, s.SameGrowth target.scope → s = target.scope) ∧
    ((∀ other : GrowthTarget, other.scope ∈ policies → other.scope ≠ target.scope →
        ∀ history, (growthOf history range other : BackupGrowthForecast N).id ≠
          (growthOf history range target : BackupGrowthForecast N).id) ↔
      ∀ s ∈ policies, s.SameGrowth target.scope → s = target.scope) := by
  refine ⟨growth_unchanged, ?_⟩
  simp only [growthOf_id, forall_const]
  exact forecastId_unique hok hmem

/-! ## Policies of one world -/

/-- Rational numbers to evaluate the forecast with. -/
@[reducible]
def sampleNumber : JsNumber ℚ where
  max a b := if a ≤ b then b else a
  min a b := if a ≤ b then a else b
  square a := a * a
  epsilon := 1 / 2 ^ 52
  ofRat := id

/-- The policy of a target in a game mode. -/
def worldPolicy (backupTarget gameMode : String) : BackupScope where
  hostId := ⟨1⟩
  backupTarget := backupTarget
  gameMode := gameMode
  backupType := "world"

/-- The target of a world. -/
def worldTarget (backupTarget gameMode : String) : GrowthTarget :=
  ⟨worldPolicy backupTarget gameMode, "host", none⟩

theorem other_target_unmixed :
    letI := sampleNumber
    (growthOf [successOf (worldPolicy "lobby" "survival")] .day (worldTarget "main" "survival") :
        BackupGrowthForecast ℚ) = growthOf [] .day (worldTarget "main" "survival") := by
  let := sampleNumber
  have hok : ∀ s ∈ [worldPolicy "main" "survival", worldPolicy "lobby" "survival"],
      s.ok = true := by decide
  have hmem : (worldTarget "main" "survival").scope ∈
      [worldPolicy "main" "survival", worldPolicy "lobby" "survival"] := List.mem_cons_self
  have hunique : ∀ s ∈ [worldPolicy "main" "survival", worldPolicy "lobby" "survival"],
      s.SameGrowth (worldTarget "main" "survival").scope →
        s = (worldTarget "main" "survival").scope := by
    simp [BackupScope.SameGrowth, worldPolicy, worldTarget]
  refine ((growth_of_policy hok .day hmem).1.2 hunique) _ _ ?_ ?_
  · simp [successOf]
  · simp [successOf, worldPolicy, worldTarget]

/-- A run of the creative world is a sample of the survival world, and their forecasts have one
id. -/
theorem game_modes_mix :
    letI := sampleNumber
    worldPolicy "main" "survival" ≠ worldPolicy "main" "creative" ∧
      (growthOf [successOf (worldPolicy "main" "creative")] .day (worldTarget "main" "survival") :
        BackupGrowthForecast ℚ).sampleCount = 1 ∧
      (growthOf [] .day (worldTarget "main" "survival") :
        BackupGrowthForecast ℚ).sampleCount = 0 ∧
      (growthOf [] .day (worldTarget "main" "creative") : BackupGrowthForecast ℚ).id =
        (growthOf [] .day (worldTarget "main" "survival") : BackupGrowthForecast ℚ).id := by
  let := sampleNumber
  have hgrowth : (worldPolicy "main" "creative").SameGrowth
      (worldTarget "main" "survival").scope := ⟨rfl, rfl, rfl⟩
  refine ⟨by decide, sampleCount_successOf hgrowth .day, ?_, ?_⟩
  · rw [growthOf_sampleCount]
    rfl
  · rw [growthOf_id, growthOf_id]
    rfl

end IvrmDashboard.Backups

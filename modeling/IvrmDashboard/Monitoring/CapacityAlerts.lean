import Mathlib.Algebra.Order.Field.Basic
import Mathlib.Tactic.Linarith
import IvrmDashboard.Foundations.Sql.ByKey
import IvrmDashboard.Monitoring.Capacity

/-!
# How urgent a capacity is

A resource that fills up should not become less urgent. But a resource below the warning threshold
is critical as soon as the line meets the critical threshold within a week, and one above the
warning threshold only when it has reached the critical one: between the two the days to the
critical threshold are computed and not used, although the page promises that what is critical
within seven days calls for attention as critical. So the urgency falls exactly when the resource
crosses the warning threshold on such a line (`Steps`). All else is in order (`forecast_in_order`): the days that are left, and
the line, which depends neither on the order of the points nor on where the time starts.
-/

namespace IvrmDashboard.Monitoring

open Sql Backups

/-! ## The line does not depend on the order of the points -/

section Line

variable {N : Type} [JsNumber N]

theorem sumOf_perm (hadd : ∀ a b c : N, a + b + c = a + c + b) (f : NormalizedPoint N → N)
    {points points' : List (NormalizedPoint N)} (h : points.Perm points') :
    sumOf f points = sumOf f points' :=
  h.foldl_eq' (fun p _ q _ sum => hadd sum (f p) (f q)) _

variable [DecidableLE N]

theorem fitLine_perm (hadd : ∀ a b c : N, a + b + c = a + c + b)
    {points points' : List (NormalizedPoint N)} (h : points.Perm points') (spanDays : N) :
    fitLine points spanDays = fitLine points' spanDays := by
  unfold fitLine
  simp only [sumOf_perm hadd _ h, h.length_eq]

/-- The points in days since the first one. -/
def normalizedFrom (first : ℤ) (points : List (RegressionPoint N)) : List (NormalizedPoint N) :=
  points.filterMap fun p =>
    if p.weight ≤ JsNumber.ofRat 0 then none
    else some ⟨inDays (p.timestamp - first), p.value, p.weight⟩

/-- The line between the first and the last time. -/
def lineBetween (first last : Option ℤ) (points : List (RegressionPoint N)) :
    Option (Regression N) :=
  match first, last with
  | some first, some last =>
    if last ≤ first then none
    else if (normalizedFrom first points).length < 2 then none
    else fitLine (normalizedFrom first points) (inDays (last - first))
  | _, _ => none

/-- The points in the order of their times. -/
def inTime (points : List (RegressionPoint N)) : List (RegressionPoint N) :=
  orderBy (byKey (·.timestamp)) points

theorem regression_eq (points : List (RegressionPoint N)) :
    regression points = if points.length < 2 then none else
      lineBetween ((inTime points).map (·.timestamp)).head?
        ((inTime points).map (·.timestamp)).getLast? (inTime points) := by
  unfold regression
  rw [List.head?_map, List.getLast?_map]
  congr 1
  have hsorted : orderBy (fun l r => decide (l.timestamp ≤ r.timestamp)) points = inTime points := rfl
  simp only [hsorted]
  cases (inTime points).head? with
  | none => rfl
  | some first =>
    cases (inTime points).getLast? with
    | none => rfl
    | some last => rfl

theorem lineBetween_perm (hadd : ∀ a b c : N, a + b + c = a + c + b) (first last : Option ℤ)
    {points points' : List (RegressionPoint N)} (h : points.Perm points') :
    lineBetween first last points = lineBetween first last points' := by
  have hnormalized (first : ℤ) : (normalizedFrom first points).Perm (normalizedFrom first points') :=
    h.filterMap _
  unfold lineBetween
  simp only [(hnormalized _).length_eq, fitLine_perm hadd (hnormalized _)]

/-- The line is the same for every order of the points. -/
theorem regression_perm (hadd : ∀ a b c : N, a + b + c = a + c + b)
    {points points' : List (RegressionPoint N)} (h : points.Perm points') :
    regression points = regression points' := by
  have hperm : (inTime points).Perm (inTime points') :=
    ((orderBy_perm _).trans h).trans (orderBy_perm _).symm
  have hkeys : (inTime points).map (·.timestamp) = (inTime points').map (·.timestamp) :=
    map_key_orderBy _ h
  rw [regression_eq, regression_eq, h.length_eq, hkeys, lineBetween_perm hadd _ _ hperm]


/-- The same point at another time. -/
def shifted (c : ℤ) (p : RegressionPoint N) : RegressionPoint N :=
  { p with timestamp := p.timestamp + c }

theorem normalizedFrom_shifted (c first : ℤ) (points : List (RegressionPoint N)) :
    normalizedFrom (first + c) (points.map (shifted c)) = normalizedFrom first points := by
  unfold normalizedFrom
  rw [List.filterMap_map]
  congr 1
  funext p
  simp only [Function.comp_apply, shifted, add_sub_add_right_eq_sub]

omit [JsNumber N] [DecidableLE N] in
theorem inTime_shifted (c : ℤ) (points : List (RegressionPoint N)) :
    inTime (points.map (shifted c)) = (inTime points).map (shifted c) := by
  refine orderBy_map (fun p q => ?_) points
  simp only [byKey, shifted, add_le_add_iff_right]

/-- The line is the same when all times move together. -/
theorem regression_shifted (c : ℤ) (points : List (RegressionPoint N)) :
    regression (points.map (shifted c)) = regression points := by
  have htimes : ((inTime points).map (shifted c)).map (·.timestamp) =
      ((inTime points).map (·.timestamp)).map (· + c) := by
    simp only [List.map_map, Function.comp_def, shifted]
  rw [regression_eq, regression_eq, List.length_map, inTime_shifted, htimes, List.head?_map,
    List.getLast?_map]
  congr 1
  cases ((inTime points).map (·.timestamp)).head? with
  | none => rfl
  | some first =>
    cases ((inTime points).map (·.timestamp)).getLast? with
    | none => rfl
    | some last =>
      simp only [lineBetween, Option.map_some, normalizedFrom_shifted, add_le_add_iff_right,
        add_sub_add_right_eq_sub]

end Line

/-! ## The line of a forecast -/

/-- The same point at another time. -/
def PercentTrendPoint.shifted (c : ℤ) (p : PercentTrendPoint) : PercentTrendPoint :=
  { p with timestamp := p.timestamp.map (· + c) }

theorem validPoints_shifted (c : ℤ) (points : List PercentTrendPoint) :
    validPoints (points.map (.shifted c)) = (validPoints points).map (shifted c) := by
  unfold validPoints
  rw [List.filterMap_map, List.map_filterMap]
  congr 1
  funext p
  obtain ⟨timestamp, value, sampleCount⟩ := p
  cases timestamp with
  | none => cases value <;> rfl
  | some timestamp =>
    cases value with
    | none => rfl
    | some value =>
      simp only [Function.comp_apply, PercentTrendPoint.shifted, Option.map_some]
      split <;> rfl

theorem fittedLine_perm {points points' : List PercentTrendPoint} (h : points.Perm points') :
    fittedLine (validPoints points) = fittedLine (validPoints points') :=
  letI := sampleNumber
  regression_perm (fun a b c : ℚ => add_right_comm a b c) (h.filterMap _)

theorem fittedLine_shifted (c : ℤ) (points : List PercentTrendPoint) :
    fittedLine (validPoints (points.map (.shifted c))) = fittedLine (validPoints points) := by
  rw [validPoints_shifted]
  exact @regression_shifted ℚ sampleNumber _ c _

/-! ## What the forecast comes to -/

/-- The line through the points, where it can be relied on. -/
def reliableLine (points : List PercentTrendPoint) (bucketSeconds : ℚ) (range : CapacityRange) :
    Option (Regression ℚ) :=
  (fittedLine (validPoints points)).filter (usable (validPoints points).length
    (coverageRatio (validPoints points) (expectedPointCount bucketSeconds range))
    (spanRatio (fittedLine (validPoints points)) range))

/-! ## The days that are left -/

section Days

variable {a b slope threshold : ℚ}

theorem minimumGrowth_pos : (0 : ℚ) < minimumGrowthPercentPerDay := by
  norm_num [minimumGrowthPercentPerDay]

theorem mem_daysToThreshold {d : ℚ} :
    d ∈ daysToThreshold a slope threshold ↔
      threshold ≤ a ∧ d = 0 ∨ a < threshold ∧ minimumGrowthPercentPerDay ≤ slope ∧
        d = (threshold - a) / slope ∧ d ≤ maximumForecastDays := by
  unfold daysToThreshold
  rw [Option.mem_def]
  split_ifs with hreached hslope
  · simp [hreached, hreached.not_gt, eq_comm]
  · simp [hreached, not_le.2 hslope]
  · have hpos : 0 < slope := minimumGrowth_pos.trans_le (not_lt.1 hslope)
    have hdays : 0 ≤ (threshold - a) / slope :=
      div_nonneg (sub_nonneg.2 (not_le.1 hreached).le) hpos.le
    simp only [hdays, decide_true, Bool.true_and, decide_eq_true_eq, Option.ite_none_right_eq_some,
      Option.some.injEq, hreached, false_and, false_or, not_le.1 hreached, not_lt.1 hslope, true_and]
    constructor
    · rintro ⟨hmax, rfl⟩
      exact ⟨rfl, hmax⟩
    · rintro ⟨rfl, hmax⟩
      exact ⟨hmax, rfl⟩

theorem daysToThreshold_nonneg {d : ℚ} (h : d ∈ daysToThreshold a slope threshold) : 0 ≤ d := by
  rcases mem_daysToThreshold.1 h with ⟨-, rfl⟩ | ⟨hlt, hslope, rfl, -⟩
  · exact le_rfl
  · exact div_nonneg (sub_nonneg.2 hlt.le) (minimumGrowth_pos.trans_le hslope).le

/-- A nearer threshold is met earlier, also from where more is used. -/
theorem daysToThreshold_le {threshold' d d' : ℚ} (hab : a ≤ b) (ht : threshold' ≤ threshold)
    (h : d ∈ daysToThreshold a slope threshold) (h' : d' ∈ daysToThreshold b slope threshold') :
    d' ≤ d := by
  rcases mem_daysToThreshold.1 h' with ⟨-, rfl⟩ | ⟨hlt', hslope, rfl, -⟩
  · exact daysToThreshold_nonneg h
  · rcases mem_daysToThreshold.1 h with ⟨hle, rfl⟩ | ⟨hlt, -, rfl, -⟩
    · exact absurd (ht.trans (hle.trans hab)) hlt'.not_ge
    · have hpos : 0 < slope := minimumGrowth_pos.trans_le hslope
      exact div_le_div_of_nonneg_right (sub_le_sub ht hab) hpos.le

/-- The threshold is met within a horizon when the slope covers the gap. -/
theorem within_iff {horizon : ℚ} (hlt : a < threshold) (hmax : horizon ≤ maximumForecastDays) :
    ((daysToThreshold a slope threshold).filter (· ≤ horizon)).isSome ↔
      minimumGrowthPercentPerDay ≤ slope ∧ threshold - a ≤ horizon * slope := by
  simp only [Option.isSome_iff_exists, Option.filter_eq_some_iff, decide_eq_true_eq]
  constructor
  · rintro ⟨d, hd, hle⟩
    obtain ⟨hreached, -⟩ | ⟨-, hslope, rfl, -⟩ := mem_daysToThreshold.1 hd
    · exact absurd hreached hlt.not_ge
    · exact ⟨hslope, (div_le_iff₀ (minimumGrowth_pos.trans_le hslope)).1 hle⟩
  · rintro ⟨hslope, hgap⟩
    have hle := (div_le_iff₀ (minimumGrowth_pos.trans_le hslope)).2 hgap
    exact ⟨_, mem_daysToThreshold.2 (.inr ⟨hlt, hslope, rfl, hle.trans hmax⟩), hle⟩

end Days

/-! ## How urgent a percentage is -/

/-- The line covers the gap within the horizon. -/
def reaches (line : Option (Regression ℚ)) (horizon gap : ℚ) : Bool :=
  line.any fun f => minimumGrowthPercentPerDay ≤ f.slopePerDay && gap ≤ horizon * f.slopePerDay

/-- How urgent a percentage is: by its level first, and below both thresholds by the line. -/
def urgency (line : Option (Regression ℚ)) (t : CapacityThresholds) (current : ℚ) : ℕ :=
  if t.criticalPercent ≤ current then 2
  else if t.warningPercent ≤ current then 1
  else if reaches line criticalHorizonDays (t.criticalPercent - current) then 2
  else if reaches line warningHorizonDays (t.warningPercent - current) then 1
  else 0

section Urgency

variable {line : Option (Regression ℚ)} {t : CapacityThresholds} {a b : ℚ}

theorem reaches_mono {horizon gap gap' : ℚ} (h : gap' ≤ gap) (hr : reaches line horizon gap) :
    reaches line horizon gap' := by
  simp only [reaches, Option.any_eq_true, Bool.and_eq_true, decide_eq_true_eq] at hr ⊢
  obtain ⟨f, hf, hslope, hgap⟩ := hr
  exact ⟨f, hf, hslope, h.trans hgap⟩

theorem urgency_le_two (current : ℚ) : urgency line t current ≤ 2 := by
  unfold urgency
  split_ifs <;> decide

theorem urgency_of_warning (hw : t.warningPercent ≤ a) (hc : a < t.criticalPercent) :
    urgency line t a = 1 := by
  rw [urgency, if_neg hc.not_ge, if_pos hw]

/-- Below the warning threshold the line counts, and a smaller gap is closed before a larger one. -/
theorem urgency_le_of_lt (ht : t.warningPercent < t.criticalPercent) (hab : a ≤ b)
    (hb : b < t.warningPercent) : urgency line t a ≤ urgency line t b := by
  have ha := hab.trans_lt hb
  have hcritical : reaches line criticalHorizonDays (t.criticalPercent - a) →
      reaches line criticalHorizonDays (t.criticalPercent - b) :=
    reaches_mono (sub_le_sub_left hab _)
  have hwarning : reaches line warningHorizonDays (t.warningPercent - a) →
      reaches line warningHorizonDays (t.warningPercent - b) :=
    reaches_mono (sub_le_sub_left hab _)
  simp only [urgency, if_neg (hb.trans ht).not_ge, if_neg hb.not_ge, if_neg (ha.trans ht).not_ge,
    if_neg ha.not_ge]
  split_ifs <;> simp_all

/-- The resource crosses the warning threshold, and the line would meet the critical one within the
week. -/
def Steps (line : Option (Regression ℚ)) (t : CapacityThresholds) (a b : ℚ) : Prop :=
  a < t.warningPercent ∧ t.warningPercent ≤ b ∧ b < t.criticalPercent ∧
    reaches line criticalHorizonDays (t.criticalPercent - a)

theorem urgency_le_iff (ht : t.warningPercent < t.criticalPercent) (hab : a ≤ b) :
    urgency line t a ≤ urgency line t b ↔ ¬ Steps line t a b := by
  rcases lt_or_ge b t.warningPercent with hbw | hbw
  · exact iff_of_true (urgency_le_of_lt ht hab hbw) fun h => h.2.1.not_gt hbw
  rcases lt_or_ge b t.criticalPercent with hbc | hbc
  · rw [urgency_of_warning hbw hbc]
    rcases lt_or_ge a t.warningPercent with haw | haw
    · rw [urgency, if_neg (haw.trans ht).not_ge, if_neg haw.not_ge, Steps]
      simp only [haw, hbw, hbc, true_and]
      split_ifs <;> simp_all
    · rw [urgency_of_warning haw (hab.trans_lt hbc)]
      exact iff_of_true le_rfl fun h => h.1.not_ge haw
  · refine iff_of_true ?_ fun h => h.2.2.1.not_ge hbc
    rw [urgency.eq_def line t b, if_pos hbc]
    exact urgency_le_two a

end Urgency

section Verdict

variable (numberText : ℚ → String) (validCount : ℕ) (coverage span : ℚ)
  (fitted : Option (Regression ℚ)) {t : CapacityThresholds} {current : ℚ}

theorem capacityVerdict_of_critical (h : t.criticalPercent ≤ current) :
    let v := capacityVerdict numberText validCount coverage span fitted t (some current)
    v.state = .critical ∧ v.daysToWarning = some 0 ∧ v.daysToCritical = some 0 := by
  simp only [capacityVerdict, if_pos h, and_self]

theorem capacityVerdict_of_warning (hcritical : current < t.criticalPercent)
    (h : t.warningPercent ≤ current) :
    let v := capacityVerdict numberText validCount coverage span fitted t (some current)
    v.state = .warning ∧ v.daysToWarning = some 0 ∧ v.daysToCritical =
      (fitted.filter (usable validCount coverage span)).bind fun f =>
        daysToThreshold current f.slopePerDay t.criticalPercent := by
  simp only [capacityVerdict, if_neg hcritical.not_ge, if_pos h, and_self]

theorem capacityVerdict_of_unused (hcritical : current < t.criticalPercent)
    (hwarning : current < t.warningPercent)
    (h : fitted.filter (usable validCount coverage span) = none) :
    let v := capacityVerdict numberText validCount coverage span fitted t (some current)
    v.state = .insufficient ∧ v.daysToWarning = none ∧ v.daysToCritical = none := by
  simp only [capacityVerdict, if_neg hcritical.not_ge, if_neg hwarning.not_ge]
  split
  · simp
  · next f hf =>
    obtain ⟨hfitted, hcount⟩ := Option.filter_eq_some_iff.1 hf
    have hnot : usable validCount coverage span f = false := by
      simpa using Option.filter_eq_none_iff.1 h f hfitted
    split_ifs with hdata hfit
    · simp
    · simp
    · rw [Bool.or_eq_true, decide_eq_true_eq, decide_eq_true_eq, not_or, not_lt, not_lt] at hdata
      have : usable validCount coverage span f = true := by
        simp only [usable, Bool.and_eq_true, decide_eq_true_eq]
        exact ⟨⟨⟨of_decide_eq_true hcount, hdata.1⟩, hdata.2⟩, not_lt.1 hfit⟩
      rw [hnot] at this
      cases this

theorem lineVerdict_days (f : Regression ℚ) :
    (lineVerdict coverage span t current f).daysToWarning =
        daysToThreshold current f.slopePerDay t.warningPercent ∧
      (lineVerdict coverage span t current f).daysToCritical =
        daysToThreshold current f.slopePerDay t.criticalPercent := by
  unfold lineVerdict
  dsimp only
  split
  · exact ⟨rfl, rfl⟩
  · exact ⟨rfl, rfl⟩
  · split <;> exact ⟨rfl, rfl⟩

/-- The state of the verdict of a line is as urgent as the nearest horizon that a threshold is in. -/
theorem lineVerdict_severity (f : Regression ℚ) :
    (lineVerdict coverage span t current f).state.severity =
      if ((daysToThreshold current f.slopePerDay t.criticalPercent).filter
        (· ≤ criticalHorizonDays)).isSome then 2
      else if ((daysToThreshold current f.slopePerDay t.warningPercent).filter
        (· ≤ warningHorizonDays)).isSome then 1
      else 0 := by
  unfold lineVerdict
  dsimp only
  split
  · next days _ hdays => rw [hdays]; rfl
  · next days hnone hdays => rw [hnone, hdays]; rfl
  · next hnone hnone' =>
    rw [hnone, hnone']
    split <;> rfl

theorem capacityVerdict_of_used (hcritical : current < t.criticalPercent)
    (hwarning : current < t.warningPercent) {f : Regression ℚ}
    (h : fitted.filter (usable validCount coverage span) = some f) :
    capacityVerdict numberText validCount coverage span fitted t (some current) =
      lineVerdict coverage span t current f := by
  obtain ⟨hfitted, hused⟩ := Option.filter_eq_some_iff.1 h
  simp only [usable, Bool.and_eq_true, decide_eq_true_eq] at hused
  obtain ⟨⟨⟨hcount, hcoverage⟩, hspan⟩, hfit⟩ := hused
  have hfilter : (fitted.filter fun _ => minimumPointCount ≤ validCount) = some f :=
    Option.filter_eq_some_iff.2 ⟨hfitted, decide_eq_true hcount⟩
  have hdata : ¬ (decide (coverage < minimumCoverageRatio) || decide (span < minimumSpanRatio)) :=
    by simp [hcoverage, hspan]
  simp only [capacityVerdict, if_neg hcritical.not_ge, if_neg hwarning.not_ge, hfilter, if_neg hdata,
    if_neg hfit.not_gt]

/-- The state of a verdict is as urgent as the percentage. -/
theorem capacityVerdict_severity :
    (capacityVerdict numberText validCount coverage span fitted t (some current)).state.severity =
      urgency (fitted.filter (usable validCount coverage span)) t current := by
  rcases lt_or_ge current t.criticalPercent with hcritical | hcritical
  · rcases lt_or_ge current t.warningPercent with hwarning | hwarning
    · rw [urgency, if_neg hcritical.not_ge, if_neg hwarning.not_ge]
      cases hline : fitted.filter (usable validCount coverage span) with
      | none =>
        rw [(capacityVerdict_of_unused _ _ _ _ _ hcritical hwarning hline).1]
        rfl
      | some f =>
        rw [capacityVerdict_of_used _ _ _ _ _ hcritical hwarning hline, lineVerdict_severity]
        simp only [within_iff hcritical (by decide : criticalHorizonDays ≤ _),
          within_iff hwarning (by decide : warningHorizonDays ≤ _), reaches, Option.any_some,
          Bool.and_eq_true, decide_eq_true_eq]
    · rw [(capacityVerdict_of_warning _ _ _ _ _ hcritical hwarning).1,
        urgency_of_warning hwarning hcritical]
      rfl
  · rw [(capacityVerdict_of_critical _ _ _ _ _ hcritical).1, urgency, if_pos hcritical]
    rfl

theorem capacityVerdict_daysToWarning :
    (capacityVerdict numberText validCount coverage span fitted t (some current)).daysToWarning =
      if t.criticalPercent ≤ current then some 0
      else if t.warningPercent ≤ current then some 0
      else (fitted.filter (usable validCount coverage span)).bind fun f =>
        daysToThreshold current f.slopePerDay t.warningPercent := by
  split_ifs with hcritical hwarning
  · exact (capacityVerdict_of_critical _ _ _ _ _ hcritical).2.1
  · exact (capacityVerdict_of_warning _ _ _ _ _ (not_le.1 hcritical) hwarning).2.1
  · rw [not_le] at hcritical hwarning
    cases hline : fitted.filter (usable validCount coverage span) with
    | none => exact (capacityVerdict_of_unused _ _ _ _ _ hcritical hwarning hline).2.1
    | some f =>
      rw [capacityVerdict_of_used _ _ _ _ _ hcritical hwarning hline, (lineVerdict_days _ _ f).1]
      rfl

theorem capacityVerdict_daysToCritical :
    (capacityVerdict numberText validCount coverage span fitted t (some current)).daysToCritical =
      if t.criticalPercent ≤ current then some 0
      else (fitted.filter (usable validCount coverage span)).bind fun f =>
        daysToThreshold current f.slopePerDay t.criticalPercent := by
  split_ifs with hcritical
  · exact (capacityVerdict_of_critical _ _ _ _ _ hcritical).2.2
  · rw [not_le] at hcritical
    rcases lt_or_ge current t.warningPercent with hwarning | hwarning
    · cases hline : fitted.filter (usable validCount coverage span) with
      | none => exact (capacityVerdict_of_unused _ _ _ _ _ hcritical hwarning hline).2.2
      | some f =>
        rw [capacityVerdict_of_used _ _ _ _ _ hcritical hwarning hline, (lineVerdict_days _ _ f).2]
        rfl
    · exact (capacityVerdict_of_warning _ _ _ _ _ hcritical hwarning).2.2

end Verdict

/-! ## The forecast -/

section Forecast

variable (numberText : ℚ → String) (points : List PercentTrendPoint) (bucketSeconds : ℚ)
  (range : CapacityRange) {t : CapacityThresholds} {a b : ℚ}

theorem percentForecast_severity :
    (percentForecast numberText points (some a) bucketSeconds range t).state.severity =
      urgency (reliableLine points bucketSeconds range) t a :=
  capacityVerdict_severity _ _ _ _ _

/-- The warning threshold is met before the critical one. -/
theorem daysToWarning_le (ht : t.warningPercent < t.criticalPercent) (current : Option ℚ) {w c : ℚ}
    (hw : w ∈ (percentForecast numberText points current bucketSeconds range t).daysToWarning)
    (hc : c ∈ (percentForecast numberText points current bucketSeconds range t).daysToCritical) :
    w ≤ c := by
  unfold percentForecast at hw hc
  dsimp only at hw hc
  cases hcurrent : current <|> latestPercent points with
  | none =>
    rw [hcurrent] at hw
    cases hw
  | some current =>
    rw [hcurrent, capacityVerdict_daysToWarning] at hw
    rw [hcurrent, capacityVerdict_daysToCritical] at hc
    split_ifs at hw hc with hcritical hwarning
    · cases hw; cases hc; exact le_rfl
    · cases hw
      obtain ⟨f, -, hc⟩ := Option.bind_eq_some_iff.1 hc
      exact daysToThreshold_nonneg hc
    · obtain ⟨f, hf, hw⟩ := Option.bind_eq_some_iff.1 hw
      obtain ⟨f', hf', hc⟩ := Option.bind_eq_some_iff.1 hc
      cases hf.symm.trans hf'
      exact daysToThreshold_le le_rfl ht.le hc hw

/-- Where more is used, the critical threshold is met earlier. -/
theorem daysToCritical_antitone (hab : a ≤ b) {c c' : ℚ}
    (hc : c ∈ (percentForecast numberText points (some a) bucketSeconds range t).daysToCritical)
    (hc' : c' ∈ (percentForecast numberText points (some b) bucketSeconds range t).daysToCritical) :
    c' ≤ c := by
  have hdays (current : ℚ) :
      (percentForecast numberText points (some current) bucketSeconds range t).daysToCritical =
        if t.criticalPercent ≤ current then some 0
        else (reliableLine points bucketSeconds range).bind fun f =>
          daysToThreshold current f.slopePerDay t.criticalPercent :=
    capacityVerdict_daysToCritical _ _ _ _ _
  rw [hdays] at hc hc'
  split_ifs at hc hc' with ha hb hb
  · cases hc; cases hc'; exact le_rfl
  · exact absurd (ha.trans hab) hb
  · cases hc'
    obtain ⟨f, -, hc⟩ := Option.bind_eq_some_iff.1 hc
    exact daysToThreshold_nonneg hc
  · obtain ⟨f, hf, hc⟩ := Option.bind_eq_some_iff.1 hc
    obtain ⟨f', hf', hc'⟩ := Option.bind_eq_some_iff.1 hc'
    cases hf.symm.trans hf'
    exact daysToThreshold_le hab le_rfl hc hc'

/-- **Forecasts are in order** but for one step: a resource that fills up is at least as urgent as
before, exactly when it does not cross the warning threshold on a line that would meet the critical
one within the week. The warning threshold is never met after the critical one, a resource that is
fuller never meets the critical one later, and the line depends neither on the order of the points
nor on where the time starts. -/
theorem forecast_in_order (ht : t.warningPercent < t.criticalPercent) :
    (∀ a b, a ≤ b →
      ((percentForecast numberText points (some a) bucketSeconds range t).state.severity ≤
        (percentForecast numberText points (some b) bucketSeconds range t).state.severity ↔
        ¬ Steps (reliableLine points bucketSeconds range) t a b)) ∧
    (∀ current,
      ∀ w ∈ (percentForecast numberText points current bucketSeconds range t).daysToWarning,
      ∀ c ∈ (percentForecast numberText points current bucketSeconds range t).daysToCritical,
        w ≤ c) ∧
    (∀ a b, a ≤ b →
      ∀ c ∈ (percentForecast numberText points (some a) bucketSeconds range t).daysToCritical,
      ∀ c' ∈ (percentForecast numberText points (some b) bucketSeconds range t).daysToCritical,
        c' ≤ c) ∧
    (∀ points', (points'.Perm points ∨ ∃ c, points' = points.map (.shifted c)) →
      ∀ current current',
        (percentForecast numberText points' current' bucketSeconds range t).slopePercentPerDay =
            (percentForecast numberText points current bucketSeconds range t).slopePercentPerDay ∧
          (percentForecast numberText points' current' bucketSeconds range t).rSquared =
            (percentForecast numberText points current bucketSeconds range t).rSquared) := by
  refine ⟨fun a b hab => ?_, fun current w hw c hc => ?_, fun a b hab c hc c' hc' => ?_,
    fun points' hpoints current current' => ?_⟩
  · rw [percentForecast_severity, percentForecast_severity]
    exact urgency_le_iff ht hab
  · exact daysToWarning_le numberText points bucketSeconds range ht current hw hc
  · exact daysToCritical_antitone numberText points bucketSeconds range hab hc hc'
  · have hline : fittedLine (validPoints points') = fittedLine (validPoints points) := by
      rcases hpoints with hperm | ⟨c, rfl⟩
      · exact fittedLine_perm hperm
      · exact fittedLine_shifted c points
    simp only [percentForecast, hline, and_self]

end Forecast

/-! ## The summary -/

theorem counts_of_severity_le {s s' : CapacityState} (h : s.severity ≤ s'.severity) :
    (if s.isCritical = true then 1 else 0) ≤ (if s'.isCritical = true then 1 else 0) ∧
      (if s.isCritical = true then 1 else 0) + (if s.isWarning = true then 1 else 0) ≤
        (if s'.isCritical = true then 1 else 0) + (if s'.isWarning = true then 1 else 0) := by
  revert h
  cases s <;> cases s' <;> decide

/-- When every resource is at least as urgent as before, no fewer are critical, and no fewer call for
attention. -/
theorem capacitySummary_mono {forecasts forecasts' : List CapacityForecast}
    (h : List.Forall₂ (fun f f' => f.state.severity ≤ f'.state.severity) forecasts forecasts') :
    (capacitySummary forecasts).criticalCount ≤ (capacitySummary forecasts').criticalCount ∧
      (capacitySummary forecasts).forecastAttentionCount ≤
        (capacitySummary forecasts').forecastAttentionCount := by
  induction h with
  | nil => exact ⟨le_rfl, le_rfl⟩
  | @cons f f' l l' hle _ ih =>
    obtain ⟨hcritical, hattention⟩ := counts_of_severity_le hle
    simp only [capacitySummary, List.countP_cons] at ih ⊢
    omega

/-! ## A disk that fills up -/

/-- `CAPACITY_POLICY.disk` -/
def diskThresholds : CapacityThresholds := ⟨80, 90⟩

/-- A disk that fills up by a percent in every hour of a day, from 56 percent on. -/
def fillingDisk : List PercentTrendPoint :=
  (List.range 24).map fun hour => ⟨some (3600000 * hour), some (56 + hour), 1⟩

/-- The forecast of the disk when so much of it is used. -/
def fillingForecast (current : ℚ) : CapacityForecast :=
  percentForecast (fun _ => "") fillingDisk (some current) 3600 .day diskThresholds

theorem fillingDisk_in_order :
    (fillingForecast 70).state.severity ≤ (fillingForecast 79).state.severity ∧
      (1 / 24 : ℚ) ≤ 11 / 24 ∧ (11 / 24 : ℚ) ≤ 20 / 24 ∧
      (percentForecast (fun _ => "") fillingDisk.reverse none 3600 .day
        diskThresholds).slopePercentPerDay = (fillingForecast 79).slopePercentPerDay := by
  have hlt : diskThresholds.warningPercent < diskThresholds.criticalPercent := by decide
  obtain ⟨hurgent, hdays, hfuller, hline⟩ :=
    forecast_in_order (fun _ => "") fillingDisk 3600 .day hlt
  refine ⟨(hurgent 70 79 (by decide)).2 fun h => ?_, ?_, ?_, ?_⟩
  · exact absurd h.2.1 (by decide)
  · exact hdays (some 79) _ (by decide +kernel) _ (by decide +kernel)
  · exact hfuller 70 79 (by decide +kernel) _ (by decide +kernel) _ (by decide +kernel)
  · exact (hline _ (.inl fillingDisk.reverse_perm) _ _).1

/-- At 79 percent the disk is critical, and at 81 percent it is not. -/
theorem filling_disk_steps :
    ¬ ∀ (points : List PercentTrendPoint) (a b : ℚ), a ≤ b →
      (percentForecast (fun _ => "") points (some a) 3600 .day diskThresholds).state.severity ≤
        (percentForecast (fun _ => "") points (some b) 3600 .day diskThresholds).state.severity := by
  intro h
  have hcritical : (percentForecast (fun _ => "") fillingDisk (some 79) 3600 .day
      diskThresholds).state = .forecastCritical := by decide +kernel
  have hwarning : (percentForecast (fun _ => "") fillingDisk (some 81) 3600 .day
      diskThresholds).state = .warning := by decide
  have hle := h fillingDisk 79 81 (by decide)
  rw [hcritical, hwarning] at hle
  exact absurd hle (by decide)

end IvrmDashboard.Monitoring

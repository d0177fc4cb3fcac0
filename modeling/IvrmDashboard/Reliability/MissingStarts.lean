import IvrmDashboard.Reliability.BurnRates
import IvrmDashboard.Reliability.UncoveredTime

/-!
# Verdicts while starts are missing

An active incident whose start is not known adds nothing to the downtime that counts. A completion
gives every such incident a start (`Completes`); the downtime of a completion is at least the one
that was computed (`counted_le_of_completes`). So an exhausted budget is exhausted in every
completion, and the verdicts that call a service sound are given only where nothing is missing.
-/

namespace IvrmDashboard.Reliability

open Double (IsDouble nearest)

/-! ## Allowances -/

/-- A target of a hundred per cent is not rounded up to. -/
theorem TargetPercent.nearest_lt_one (t : TargetPercent) : nearest (t.percent / 100) < 1 := by
  have hdouble : IsDouble ((2 ^ 53 - 1 : ℤ) * (2 : ℚ) ^ (-53 : ℤ)) :=
    Double.isDouble_mul_two_pow (by decide) (by decide) _
  have hlast : t.percent ≤ 100 - (2 : ℚ) ^ (-46 : ℤ) := by
    rcases le_or_gt t.percent 64 with hsmall | hlarge
    · exact hsmall.trans (by norm_num)
    · -- between 64 and 128 the last place is `2 ^ -46`
      have hlow : (6 : ℤ) ≤ Int.log 2 t.percent := by
        rw [← Int.zpow_le_iff_le_log (b := 2) one_lt_two t.pos]
        norm_num
        exact hlarge.le
      have hhigh : Int.log 2 t.percent < 7 := by
        rw [← Int.lt_zpow_iff_log_lt (b := 2) one_lt_two t.pos]
        norm_num
        linarith [t.lt]
      have hulp : Double.ulp t.percent = (2 : ℚ) ^ (-46 : ℤ) := by
        rw [Double.ulp]
        congr 1
        omega
      have hpercent : (Double.significand t.percent : ℚ) * (2 : ℚ) ^ (-46 : ℤ) = t.percent := by
        rw [← hulp]
        exact t.isDouble
      have hlt : (Double.significand t.percent : ℚ) < 100 * 2 ^ 46 := by
        have := t.lt
        rw [← hpercent] at this
        norm_num at this ⊢
        linarith
      have hsig : (Double.significand t.percent : ℚ) + 1 ≤ 100 * 2 ^ 46 := by exact_mod_cast hlt
      rw [← hpercent]
      norm_num at hsig ⊢
      linarith
  have hle : t.percent / 100 ≤ (2 ^ 53 - 1 : ℤ) * (2 : ℚ) ^ (-53 : ℤ) := by
    rw [div_le_iff₀ (by norm_num)]
    refine hlast.trans ?_
    norm_num
  refine (Double.nearest_le_of_le (by have := t.pos; positivity) hle hdouble).trans_lt ?_
  norm_num

/-- Every target allows some downtime. -/
theorem TargetPercent.allowedSeconds_pos (t : TargetPercent) {seconds : ℕ} (h : 0 < seconds) :
    0 < t.allowedSeconds seconds := by
  have hrest : 0 < 1 - nearest (t.percent / 100) := sub_pos.2 t.nearest_lt_one
  exact Double.nearest_pos (mul_pos (Nat.cast_pos.2 h) (Double.nearest_pos hrest))

theorem Range.seconds_pos (r : Range) : 0 < r.seconds := by cases r <;> decide

/-- A rate below one leaves something of the allowance. -/
theorem lt_of_burnRate_lt {known : ℤ} {allowed : ℚ} (hallowed : 0 < allowed)
    (h : nearest (known / allowed) < 1) : (known : ℚ) < allowed := by
  by_contra hge
  have hone : (1 : ℚ) ≤ known / allowed := by
    rw [le_div_iff₀ hallowed, one_mul]
    exact not_lt.1 hge
  have hdouble : IsDouble (1 : ℚ) := by exact_mod_cast Double.isDouble_natCast (n := 1) (by decide)
  exact absurd (Double.le_nearest_of_le zero_le_one hone hdouble) (not_le.2 h)

theorem burnRate_mono {known known' : ℤ} {allowed : ℚ} (hallowed : 0 < allowed)
    (hnonneg : 0 ≤ known) (hle : known ≤ known') :
    nearest (known / allowed) ≤ nearest (known' / allowed) := by
  have hknown : (0 : ℚ) ≤ known := Int.cast_nonneg hnonneg
  have hle : (known : ℚ) ≤ known' := Int.cast_le.2 hle
  exact Double.nearest_mono (by positivity) (by gcongr)

/-! ## Completions -/

variable {parse : String → Option ℤ}

/-- The incident itself, or the incident with a start at or before the end of the range. -/
def CompletedBy (parse : String → Option ℤ) (rangeEnd : ℤ) (i i' : ActiveIncident) : Prop :=
  i'.toIncident = i.toIncident ∧
    if i.knownStart.isSome then i' = i
    else ∃ startedAt ∈ i'.knownStart, ∃ s ∈ parse startedAt, s ≤ rangeEnd

/-- `s'` is `s` with a start for every active incident. -/
structure Completes (parse : String → Option ℤ) (s s' : IncidentSnapshot) : Prop where
  generatedAt : s'.generatedAt = s.generatedAt
  backupDataAvailable : s'.backupDataAvailable = s.backupDataAvailable
  recovered : s'.recovered = s.recovered
  active : List.Forall₂ (CompletedBy parse s.generatedAt) s.active s'.active

section

variable {s s' : IncidentSnapshot}

theorem mem_of_forall₂ {rangeEnd : ℤ} {active active' : List ActiveIncident}
    (h : List.Forall₂ (CompletedBy parse rangeEnd) active active') {i : ActiveIncident}
    (hi : i ∈ active) (hknown : i.knownStart.isSome = true) : i ∈ active' := by
  induction h with
  | nil => exact hi
  | cons hij _ ih =>
    rcases List.mem_cons.1 hi with rfl | hi
    · have heq := hij.2
      rw [if_pos hknown] at heq
      exact heq ▸ List.mem_cons_self
    · exact List.mem_cons_of_mem _ (ih hi)

/-- Where no start is missing there is nothing to complete. -/
theorem filter_eq_of_forall₂ {rangeEnd : ℤ} {active active' : List ActiveIncident}
    (h : List.Forall₂ (CompletedBy parse rangeEnd) active active') (p : Incident → Bool)
    (hknown : ∀ i ∈ active, p i.toIncident = true → i.knownStart.isSome = true) :
    active'.filter (fun i => p i.toIncident) = active.filter fun i => p i.toIncident := by
  induction h with
  | nil => rfl
  | @cons i i' _ _ hij _ ih =>
    have htail := ih fun j hj => hknown j (List.mem_cons_of_mem _ hj)
    by_cases hp : p i.toIncident = true
    · have heq := hij.2
      rw [if_pos (hknown i List.mem_cons_self hp)] at heq
      rw [heq, List.filter_cons_of_pos (by simpa using hp), List.filter_cons_of_pos (by simpa using hp),
        htail]
    · have hp' : ¬ p i'.toIncident = true := by rwa [hij.1]
      rw [List.filter_cons_of_neg (by simpa using hp'), List.filter_cons_of_neg (by simpa using hp),
        htail]

theorem counted_nonneg (s : IncidentSnapshot) (windows : List MaintenanceWindow)
    (rangeStart rangeEnd : ℤ) (id : SloServiceId) :
    0 ≤ (adjustmentOf parse s windows rangeStart rangeEnd id).countedDowntimeSeconds :=
  Int.ediv_nonneg hasLength_counted.nonneg (by decide)

/-- **Missing starts hide downtime and never add any.** -/
theorem counted_le_of_completes (h : Completes parse s s') (windows : List MaintenanceWindow)
    (rangeStart rangeEnd : ℤ) (id : SloServiceId) :
    (adjustmentOf parse s windows rangeStart rangeEnd id).countedDowntimeSeconds ≤
      (adjustmentOf parse s' windows rangeStart rangeEnd id).countedDowntimeSeconds := by
  apply Int.ediv_le_ediv (by decide)
  refine hasLength_counted.mono hasLength_counted
    (downInstants_subset (fun i hi hknown => ?_) (fun i hi => ?_) fun i t hi => hi)
  · obtain ⟨hmem, hcovers⟩ := List.mem_filter.1 hi
    exact List.mem_filter.2 ⟨mem_of_forall₂ h.active hmem hknown, hcovers⟩
  · rwa [h.recovered]

/-- Every active incident of the service has a known start. -/
def NothingMissing (s : IncidentSnapshot) (id : SloServiceId) : Prop :=
  ∀ i ∈ s.active, id.covers i.toIncident = true → i.knownStart.isSome = true

theorem nothingMissing_of_exactCoverage {windows : List MaintenanceWindow}
    {rangeStart rangeEnd : ℤ} {id : SloServiceId}
    (h : (adjustmentOf parse s windows rangeStart rangeEnd id).exactCoverage = true) :
    NothingMissing s id := by
  intro i hi hcovers
  exact List.all_eq_true.1 h i (List.mem_filter.2 ⟨hi, hcovers⟩)

theorem adjustmentOf_eq_of_nothingMissing (h : Completes parse s s') {id : SloServiceId}
    (hknown : NothingMissing s id) (windows : List MaintenanceWindow) (rangeStart rangeEnd : ℤ) :
    adjustmentOf parse s' windows rangeStart rangeEnd id =
      adjustmentOf parse s windows rangeStart rangeEnd id := by
  rw [adjustmentOf, adjustmentOf, h.recovered, filter_eq_of_forall₂ h.active id.covers hknown]

end

/-! ## Budgets -/

section

variable {s s' : IncidentSnapshot} {windows : Option (List MaintenanceWindow)} {range : Range}
  {notifications : ReliabilityService} {id : SloServiceId}

theorem adjustmentFor_some (list : List MaintenanceWindow) (rangeStart rangeEnd : ℤ) :
    adjustmentFor (some (buildReliabilityMaintenanceAdjustments parse s list rangeStart rangeEnd))
      id = some (adjustmentOf parse s list rangeStart rangeEnd id) := by
  cases id <;> rfl

variable (parse s windows range notifications id) in
/-- The source of a service in a snapshot. -/
def snapshotSource : Option ReliabilitySource :=
  sourceFor id (services parse s range notifications) (buildOverall parse s range) range
    (windows.map fun list => buildReliabilityMaintenanceAdjustments parse s list
      (rangeStartOf s.generatedAt range.hours) s.generatedAt)

variable (parse s windows range notifications) in
/-- `sloBudgets` of `getReliabilitySnapshot`. -/
def sloBudgets (policies : Option (List SloPolicy)) : List SloBudget :=
  buildReliabilitySloBudgets (services parse s range notifications) (buildOverall parse s range)
    policies range (windows.map fun list => buildReliabilityMaintenanceAdjustments parse s list
      (rangeStartOf s.generatedAt range.hours) s.generatedAt)

/-- The downtime a budget is computed from is the one that counts. -/
theorem measured_snapshotSource :
    (snapshotSource parse s windows range notifications id).bind (·.measured) =
      if id = .backup ∧ s.backupDataAvailable = false then none
      else windows.map fun list => (adjustmentOf parse s list
        (rangeStartOf s.generatedAt range.hours) s.generatedAt id).countedDowntimeSeconds := by
  cases windows with
  | none =>
    cases id <;> simp [snapshotSource, sourceFor, adjustmentFor, SloServiceId.service, services,
      buildIncidentService, ReliabilitySource.measured]
  | some list =>
    cases hbackup : s.backupDataAvailable <;> cases id <;>
      simp [snapshotSource, sourceFor, adjustmentFor_some, SloServiceId.service, services,
        buildIncidentService, ReliabilitySource.measured, hbackup]

/-- A source is exact only where no start is missing. -/
theorem nothingMissing_of_exact
    (h : ((snapshotSource parse s windows range notifications id).map (·.exactCoverage)).getD false =
      true) : NothingMissing s id := by
  cases windows with
  | none =>
    cases id <;> simp [snapshotSource, sourceFor, adjustmentFor, SloServiceId.service, services,
      buildIncidentService] at h
  | some list =>
    have hcoverage : (adjustmentOf parse s list (rangeStartOf s.generatedAt range.hours)
        s.generatedAt id).exactCoverage = true := by
      cases hbackup : s.backupDataAvailable <;> cases id <;>
        simp [snapshotSource, sourceFor, adjustmentFor_some, SloServiceId.service, services,
          buildIncidentService, hbackup] at h <;> exact h.2
    exact nothingMissing_of_exactCoverage hcoverage

section

variable {policy : Option SloPolicy} {source : Option ReliabilitySource}

/-- A budget that is computed. -/
theorem budgetOf_eq {target : TargetPercent} {known : ℤ}
    (htarget : enabledTarget policy = some target)
    (hknown : source.bind (·.measured) = some known) :
    (budgetOf id policy source range).allowedDowntimeSeconds =
        some (target.allowedSeconds range.seconds) ∧
      (budgetOf id policy source range).state =
        if 1 ≤ nearest (known / target.allowedSeconds range.seconds) then .exhausted
        else if (source.map (·.exactCoverage)).getD false then .withinBudget
        else .coverageUnknown := by
  rw [budgetOf, htarget]
  simp [hknown, baseBudget]

/-- Without a target and a measurement there is no verdict. -/
theorem measured_of_verdict
    (h : (budgetOf id policy source range).state = .exhausted ∨
      (budgetOf id policy source range).state = .withinBudget) :
    ∃ target known, enabledTarget policy = some target ∧
      source.bind (·.measured) = some known := by
  rw [budgetOf] at h
  cases htarget : enabledTarget policy with
  | none => simp [htarget, baseBudget] at h
  | some target =>
    cases hknown : source.bind (·.measured) with
    | none => simp [htarget, hknown, baseBudget] at h
    | some known => exact ⟨target, known, rfl, rfl⟩

theorem knownDowntimeSeconds_of_measured {known : ℤ}
    (h : source.bind (·.measured) = some known) :
    (budgetOf id policy source range).knownDowntimeSeconds = some known := by
  obtain ⟨src, rfl, hmeasured⟩ := Option.bind_eq_some_iff.1 h
  obtain ⟨ratio, hratio, hknown⟩ := Option.bind_eq_some_iff.1 hmeasured
  rw [budgetOf]
  cases enabledTarget policy with
  | none => exact hknown
  | some target =>
    simp only [h]
    exact hknown

end

/-- What the verdict on a snapshot promises for its completion. -/
structure BudgetSound (s : IncidentSnapshot) (b b' : SloBudget) : Prop where
  serviceId : b'.serviceId = b.serviceId
  exhausted : b.state = .exhausted → b'.state = .exhausted
  withinBudget : b.state = .withinBudget → NothingMissing s b.serviceId ∧
    ∃ counted allowed, b'.knownDowntimeSeconds = some counted ∧
      b'.allowedDowntimeSeconds = some allowed ∧ (counted : ℚ) < allowed

theorem serviceId_budgetOf (policy : Option SloPolicy) (source : Option ReliabilitySource) :
    (budgetOf id policy source range).serviceId = id := by
  unfold budgetOf
  split
  · rfl
  · dsimp only
    split <;> rfl

/-- The measurement of a completion is there when that of the snapshot is, and is not smaller. -/
theorem measured_of_completes (h : Completes parse s s') {known : ℤ}
    (hknown : (snapshotSource parse s windows range notifications id).bind (·.measured) =
      some known) :
    ∃ known', (snapshotSource parse s' windows range notifications id).bind (·.measured) =
      some known' ∧ 0 ≤ known ∧ known ≤ known' ∧ (NothingMissing s id → known' = known) := by
  rw [measured_snapshotSource] at hknown
  split_ifs at hknown with hbackup
  obtain ⟨list, rfl, rfl⟩ := Option.map_eq_some_iff.1 hknown
  refine ⟨_, ?_, counted_nonneg .., counted_le_of_completes h .., fun hmissing => ?_⟩
  · rw [measured_snapshotSource, h.backupDataAvailable, if_neg hbackup, h.generatedAt]
    rfl
  · rw [adjustmentOf_eq_of_nothingMissing h hmissing]

theorem budgetSound (h : Completes parse s s') (policy : Option SloPolicy) :
    BudgetSound s
      (budgetOf id policy (snapshotSource parse s windows range notifications id) range)
      (budgetOf id policy (snapshotSource parse s' windows range notifications id) range) where
  serviceId := by rw [serviceId_budgetOf, serviceId_budgetOf]
  exhausted hstate := by
    obtain ⟨target, known, htarget, hknown⟩ := measured_of_verdict (.inl hstate)
    obtain ⟨known', hknown', hnonneg, hle, -⟩ := measured_of_completes h hknown
    have hallowed := target.allowedSeconds_pos range.seconds_pos
    rw [(budgetOf_eq htarget hknown).2] at hstate
    rw [(budgetOf_eq htarget hknown').2, if_pos]
    refine le_trans ?_ (burnRate_mono hallowed hnonneg hle)
    by_contra hlt
    rw [if_neg hlt] at hstate
    split_ifs at hstate
  withinBudget hstate := by
    obtain ⟨target, known, htarget, hknown⟩ := measured_of_verdict (.inr hstate)
    obtain ⟨known', hknown', -, -, hsame⟩ := measured_of_completes h hknown
    have hallowed := target.allowedSeconds_pos range.seconds_pos
    rw [(budgetOf_eq htarget hknown).2] at hstate
    split_ifs at hstate with hexhausted hexact
    have hmissing := nothingMissing_of_exact hexact
    rw [serviceId_budgetOf]
    refine ⟨hmissing, known', _, knownDowntimeSeconds_of_measured hknown',
      (budgetOf_eq htarget hknown').1, ?_⟩
    rw [hsame hmissing]
    exact lt_of_burnRate_lt hallowed (not_le.1 hexhausted)

/-- The lists of budgets correspond, service by service. -/
theorem sloBudgets_sound (h : Completes parse s s') (policies : Option (List SloPolicy)) :
    List.Forall₂ (BudgetSound s) (sloBudgets parse s windows range notifications policies)
      (sloBudgets parse s' windows range notifications policies) := by
  refine List.forall₂_map_left_iff.2 (List.forall₂_map_right_iff.2
    (List.forall₂_same.2 fun id _ => ?_))
  cases policies with
  | none => exact ⟨rfl, nofun, nofun⟩
  | some list => exact budgetSound h (policyOf list id)

end

/-! ## Burn rates -/

/-- The window is there and exact. -/
def ExactWindow (windows : List BurnRateWindow) (id : BurnWindowId) : Prop :=
  ∃ w ∈ findWindow windows id, w.exactCoverage = true

theorem exactWindow_of_reaches {windows : List BurnRateWindow} {id : BurnWindowId} {threshold : ℚ}
    (h : reaches (findWindow windows id) threshold = true) : ExactWindow windows id := by
  obtain ⟨w, hw, hreach⟩ := (Option.any_eq_true _ _).1 h
  rw [Bool.and_eq_true] at hreach
  exact ⟨w, hw, hreach.1⟩

theorem exactWindows_of_reached {t : BurnThreshold} {windows : List BurnRateWindow}
    (h : t.reached windows = true) :
    ExactWindow windows t.shortWindow ∧ ExactWindow windows t.longWindow := by
  rw [BurnThreshold.reached, Bool.and_eq_true] at h
  exact ⟨exactWindow_of_reaches h.1, exactWindow_of_reaches h.2⟩

/-- The windows that decide a state are exact. -/
structure DecidedExactly (windows : List BurnRateWindow) : Prop where
  critical : stateFor windows = .critical →
    ExactWindow windows .oneHour ∧ ExactWindow windows .sixHours
  warning : stateFor windows = .warning →
    ExactWindow windows .sixHours ∧ ExactWindow windows .twentyFourHours
  healthy : stateFor windows = .healthy → ∀ w ∈ windows, w.exactCoverage = true

theorem decidedExactly (windows : List BurnRateWindow) : DecidedExactly windows := by
  constructor <;> intro h <;> unfold stateFor at h <;> split_ifs at h with hcritical hwarning hall
  · exact exactWindows_of_reached hcritical
  · exact exactWindows_of_reached hwarning
  · exact List.all_eq_true.1 hall

/-- The state says that the service is sound or that it is not. -/
def BurnRateState.Decided (state : BurnRateState) : Prop :=
  state = .critical ∨ state = .warning ∨ state = .healthy

/-- A decided state has an exact window. -/
theorem exists_exact_of_decided {windows : List BurnRateWindow} (hne : windows ≠ [])
    (h : (stateFor windows).Decided) : ∃ w ∈ windows, w.exactCoverage = true := by
  have hdecided := decidedExactly windows
  have hfound {id : BurnWindowId} (hexact : ExactWindow windows id) :
      ∃ w ∈ windows, w.exactCoverage = true := by
    obtain ⟨w, hw, hexact⟩ := hexact
    exact ⟨w, List.mem_of_find?_eq_some hw, hexact⟩
  rcases h with h | h | h
  · exact hfound (hdecided.critical h).1
  · exact hfound (hdecided.warning h).1
  · obtain ⟨w, hw⟩ := List.exists_mem_of_ne_nil windows hne
    exact ⟨w, hw, hdecided.healthy h w hw⟩

/-- What a decided burn state promises for the completion. -/
structure BurnSound (s : IncidentSnapshot) (r r' : BurnRateService) : Prop where
  serviceId : r'.serviceId = r.serviceId
  decided : r.state.Decided → NothingMissing s r.serviceId ∧ r' = r

section

variable {s s' : IncidentSnapshot}

theorem find?_adjustments (list : List MaintenanceWindow) (rangeStart rangeEnd : ℤ)
    (id : SloServiceId) :
    (buildReliabilityMaintenanceAdjustments parse s list rangeStart rangeEnd).find?
      (fun a => a.serviceId = id) = some (adjustmentOf parse s list rangeStart rangeEnd id) :=
  adjustmentFor_some list rangeStart rangeEnd

theorem nothingMissing_of_exactWindow {list : List MaintenanceWindow} {target : TargetPercent}
    {id : SloServiceId} {window : BurnWindowId}
    (h : (configuredWindow parse s list target id window).exactCoverage = true) :
    NothingMissing s id := by
  simp only [configuredWindow, find?_adjustments, Option.any_some, Bool.and_eq_true] at h
  exact nothingMissing_of_exactCoverage h.1

theorem configuredWindow_eq_of_nothingMissing (h : Completes parse s s') {id : SloServiceId}
    (hmissing : NothingMissing s id) (list : List MaintenanceWindow) (target : TargetPercent)
    (window : BurnWindowId) :
    configuredWindow parse s' list target id window =
      configuredWindow parse s list target id window := by
  simp only [configuredWindow, find?_adjustments, h.generatedAt, h.backupDataAvailable,
    adjustmentOf_eq_of_nothingMissing h hmissing]

theorem burnSound (h : Completes parse s s') (policies : Option (List SloPolicy))
    (windows : Option (List MaintenanceWindow)) (id : SloServiceId) :
    BurnSound s (burnRateOf parse s policies windows id)
      (burnRateOf parse s' policies windows id) := by
  have hundecided : ¬ BurnRateState.dataUnavailable.Decided ∧
      ¬ BurnRateState.unconfigured.Decided := by
    constructor <;> rintro (h | h | h) <;> cases h
  cases policies with
  | none => exact ⟨rfl, fun hstate => absurd hstate hundecided.1⟩
  | some policies =>
    cases windows with
    | none => exact ⟨rfl, fun hstate => absurd hstate hundecided.1⟩
    | some list =>
      unfold burnRateOf
      dsimp only
      cases htarget : enabledTarget ((some policies).bind fun list => policyOf list id) with
      | none => exact ⟨rfl, fun hstate => absurd hstate hundecided.2⟩
      | some target =>
        refine ⟨rfl, fun hstate => ?_⟩
        obtain ⟨w, hw, hexact⟩ := exists_exact_of_decided (by simp [BurnWindowId.all]) hstate
        obtain ⟨window, -, rfl⟩ := List.mem_map.1 hw
        have hmissing : NothingMissing s id := nothingMissing_of_exactWindow hexact
        refine ⟨hmissing, ?_⟩
        have hsame : configuredWindow parse s' list target id =
            configuredWindow parse s list target id := by
          funext window
          exact configuredWindow_eq_of_nothingMissing h hmissing list target window
        simp only [hsame]

theorem burnRates_sound (h : Completes parse s s') (policies : Option (List SloPolicy))
    (windows : Option (List MaintenanceWindow)) :
    List.Forall₂ (BurnSound s) (buildReliabilityBurnRates parse s policies windows)
      (buildReliabilityBurnRates parse s' policies windows) :=
  List.forall₂_map_left_iff.2 (List.forall₂_map_right_iff.2
    (List.forall₂_same.2 fun id _ => burnSound h policies windows id))

end

/-! ## The main result -/

/-- **Verdicts are sound under missing starts.** For every snapshot, every completion of it, all
windows, policies and ranges: the counted downtime of each service is at most that of the
completion; an exhausted budget is exhausted in the completion; a budget is within bounds only when
nothing is missing for the service and the downtime of the completion is below the allowance; and
the burn states that are decided are decided by exact windows, so that nothing is missing for the
service and the completion has the same state. -/
theorem missing_starts_sound (parse : String → Option ℤ) {s s' : IncidentSnapshot}
    (h : Completes parse s s') (notifications : ReliabilityService)
    (policies : Option (List SloPolicy)) (windows : Option (List MaintenanceWindow))
    (range : Range) :
    (∀ list rangeStart rangeEnd, List.Forall₂
      (fun a a' => a'.serviceId = a.serviceId ∧
        a.countedDowntimeSeconds ≤ a'.countedDowntimeSeconds)
      (buildReliabilityMaintenanceAdjustments parse s list rangeStart rangeEnd)
      (buildReliabilityMaintenanceAdjustments parse s' list rangeStart rangeEnd)) ∧
    List.Forall₂ (BudgetSound s) (sloBudgets parse s windows range notifications policies)
      (sloBudgets parse s' windows range notifications policies) ∧
    (∀ burnWindows, DecidedExactly burnWindows) ∧
    List.Forall₂ (BurnSound s) (buildReliabilityBurnRates parse s policies windows)
      (buildReliabilityBurnRates parse s' policies windows) := by
  refine ⟨fun list rangeStart rangeEnd => ?_, sloBudgets_sound h policies, decidedExactly,
    burnRates_sound h policies windows⟩
  exact List.forall₂_map_left_iff.2 (List.forall₂_map_right_iff.2 (List.forall₂_same.2
    fun id _ => ⟨rfl, counted_le_of_completes h list rangeStart rangeEnd id⟩))

/-! ## A host without a start -/

namespace Sample

/-- The host is down; when that began is not known, or it began at `startedAt`. -/
def hostDown (startedAt : Option String) : ActiveIncident where
  entityType := .host
  startReason := "heartbeat"
  hostId := "host-a"
  containerName := none
  backupTarget := none
  gameMode := none
  backupType := none
  startedAt := startedAt
  exactStart := startedAt.isSome

def snapshot (startedAt : Option String) : IncidentSnapshot where
  generatedAt := 5000
  backupDataAvailable := true
  active := [hostDown startedAt]
  recovered := []

/-- Half of the time. -/
def target : TargetPercent where
  percent := 50
  isDouble := by exact_mod_cast Double.isDouble_natCast (n := 50) (by decide)
  pos := by norm_num
  lt := by norm_num

def policies : List SloPolicy := [⟨.host, some target, true, "00"⟩]

def notifications : ReliabilityService := ⟨.notifications, "", none, none, false, ""⟩

theorem completes_snapshot : Completes Sample.parse (snapshot none) (snapshot (some "01")) where
  generatedAt := rfl
  backupDataAvailable := rfl
  recovered := rfl
  active := .cons ⟨rfl, "01", rfl, 1000, by decide, by decide⟩ .nil

theorem missing_starts_sound_snapshot :
    List.Forall₂ (BudgetSound (snapshot none))
      (sloBudgets Sample.parse (snapshot none) (some [window]) .day notifications (some policies))
      (sloBudgets Sample.parse (snapshot (some "01")) (some [window]) .day notifications
        (some policies)) ∧
    List.Forall₂ (BurnSound (snapshot none))
      (buildReliabilityBurnRates Sample.parse (snapshot none) (some policies) (some [window]))
      (buildReliabilityBurnRates Sample.parse (snapshot (some "01")) (some policies) (some [window])) :=
  have h := missing_starts_sound Sample.parse completes_snapshot notifications (some policies)
    (some [window]) .day
  ⟨h.2.1, h.2.2.2⟩

end Sample

end IvrmDashboard.Reliability

import IvrmDashboard.Reliability.Downtime

/-!
# Downtime is a length of time

The loops of `Reliability.Downtime` compute lengths of sets: `unionSeconds` that of the instants the
intervals cover together, `subtractIntervals` intervals that cover what the exclusions leave. So the
downtime that counts is the length of the instants at which some incident runs that no effective
window covers (`collect_measures`), whatever the order of the lists.
-/

open MeasureTheory

namespace IvrmDashboard.Reliability

open Period

/-! ## The union -/

instance : Std.Total intervalOrder := ⟨fun a b => by simp only [intervalOrder]; omega⟩

instance : IsTrans Period intervalOrder := ⟨fun a b c => by simp only [intervalOrder]; omega⟩

theorem pairwise_start_insertionSort (l : List Period) :
    (l.insertionSort intervalOrder).Pairwise fun a b => a.start ≤ b.start :=
  (List.pairwise_insertionSort intervalOrder l).imp fun h => by
    simp only [intervalOrder] at h
    omega

/-- The loop adds up the instants of the intervals that are left. -/
theorem hasLength_unionMilliseconds {current : Period} {l : List Period} (ms : ℤ)
    (hsorted : (current :: l).Pairwise fun a b => a.start ≤ b.start)
    (hvalid : ∀ i ∈ current :: l, i.start ≤ i.finish) :
    HasLength (current.points ∪ covered l) (unionMilliseconds current ms l - ms) := by
  induction l generalizing current ms with
  | nil =>
    have hlength := HasLength.points (hvalid current List.mem_cons_self)
    rw [covered_nil, Set.union_empty, unionMilliseconds]
    convert hlength using 1
    ring
  | cons i l ih =>
    obtain ⟨hcurrent, hsorted⟩ := List.pairwise_cons.1 hsorted
    obtain ⟨hi, htail⟩ := List.pairwise_cons.1 hsorted
    have hstart : current.start ≤ i.start := hcurrent i List.mem_cons_self
    have hfinish : current.start ≤ current.finish := hvalid current List.mem_cons_self
    rw [unionMilliseconds, covered_cons]
    split_ifs with htouch
    · -- one interval more in the same block
      rw [← Set.union_assoc, points_union_points hstart htouch]
      refine ih ms (List.pairwise_cons.2 ⟨fun j hj => ?_, htail⟩) fun j hj => ?_
      · exact hcurrent j (List.mem_cons_of_mem _ hj)
      · rcases List.mem_cons.1 hj with rfl | hj
        · exact hfinish.trans (le_max_left _ _)
        · exact hvalid j (List.mem_cons_of_mem _ (List.mem_cons_of_mem _ hj))
    · -- a gap: the block is done
      have hrest := @ih i (ms + (current.finish - current.start)) hsorted fun j hj =>
        hvalid j (List.mem_cons_of_mem _ hj)
      have hapart : Disjoint current.points (i.points ∪ covered l) := by
        rw [← covered_cons]
        apply disjoint_covered
        intro j hj
        rcases List.mem_cons.1 hj with rfl | hj
        · omega
        · have := hi j hj
          omega
      convert (HasLength.points hfinish).union hrest hapart using 1
      ring

/-- **The sum before rounding is the length of what the intervals cover.** -/
theorem hasLength_unionTotal {l : List Period} (hvalid : ∀ i ∈ l, i.start ≤ i.finish) :
    HasLength (covered l) (unionTotal l) := by
  have hperm := List.perm_insertionSort intervalOrder l
  have hsorted := pairwise_start_insertionSort l
  rw [← covered_perm hperm, unionTotal]
  have hvalid : ∀ i ∈ l.insertionSort intervalOrder, i.start ≤ i.finish := fun i hi =>
    hvalid i (hperm.mem_iff.1 hi)
  generalize l.insertionSort intervalOrder = sorted at hsorted hvalid
  cases sorted with
  | nil =>
    rw [covered_nil]
    exact .empty
  | cons first rest =>
    rw [covered_cons]
    convert hasLength_unionMilliseconds 0 hsorted hvalid using 1
    exact (sub_zero _).symm

/-! ## The subtraction -/

/-- What is pushed from the cursor on covers what the exclusions leave there. -/
theorem mem_covered_subtractFrom {source : Period} {cursor : ℤ} {l : List Period}
    (hsorted : l.Pairwise fun a b => a.start ≤ b.start) {t : ℝ} :
    t ∈ covered (subtractFrom source cursor l) ↔
      (cursor : ℝ) ≤ t ∧ t < source.finish ∧ t ∉ covered l := by
  induction l generalizing cursor with
  | nil =>
    rw [subtractFrom]
    split_ifs with h
    · simp [mem_points]
    · have hle : (source.finish : ℝ) ≤ cursor := Int.cast_le.2 (not_lt.1 h)
      simp only [covered_nil, Set.mem_empty_iff_false, not_false_eq_true, and_true, false_iff,
        not_and, not_lt]
      exact hle.trans
  | cons e l ih =>
    obtain ⟨he, hsorted⟩ := List.pairwise_cons.1 hsorted
    have hlater : t ∈ covered l → (e.start : ℝ) ≤ t := by
      rintro ⟨i, hi, ht⟩
      exact (Int.cast_le.2 (he i hi)).trans ht.1
    rw [subtractFrom, covered_cons, Set.mem_union, not_or, mem_points]
    split_ifs with hskip hgap hbreak hbreak
    · -- the exclusion is over before the cursor
      have hskip : (e.finish : ℝ) ≤ cursor := Int.cast_le.2 hskip
      rw [ih hsorted]
      grind
    · have hgap : (cursor : ℝ) < e.start := Int.cast_lt.2 hgap
      have hbreak : (source.finish : ℝ) ≤ max (cursor : ℝ) e.finish := by exact_mod_cast hbreak
      simp only [List.append_nil, covered_cons, covered_nil, Set.union_empty, mem_points,
        Int.cast_min]
      grind
    · have hgap : (cursor : ℝ) < e.start := Int.cast_lt.2 hgap
      rw [covered_append, Set.mem_union, ih hsorted]
      simp only [covered_cons, covered_nil, Set.union_empty, mem_points, Int.cast_min, Int.cast_max]
      grind
    · have hgap : (e.start : ℝ) ≤ cursor := Int.cast_le.2 (not_lt.1 hgap)
      have hbreak : (source.finish : ℝ) ≤ max (cursor : ℝ) e.finish := by exact_mod_cast hbreak
      simp only [List.append_nil, covered_nil, Set.mem_empty_iff_false]
      grind
    · have hgap : (e.start : ℝ) ≤ cursor := Int.cast_le.2 (not_lt.1 hgap)
      rw [List.nil_append, ih hsorted, Int.cast_max]
      grind

theorem covered_filter_nonempty (l : List Period) :
    covered (l.filter fun i => i.start < i.finish) = covered l := by
  ext t
  simp only [mem_covered, List.mem_filter, decide_eq_true_eq]
  constructor
  · rintro ⟨i, ⟨hi, -⟩, ht⟩
    exact ⟨i, hi, ht⟩
  · rintro ⟨i, hi, ht⟩
    exact ⟨i, ⟨hi, Int.cast_lt.1 (ht.1.trans_lt ht.2)⟩, ht⟩

theorem nonempty_eq_some {i j : Period} : nonempty i = some j ↔ i.start < i.finish ∧ i = j := by
  simp [nonempty]

/-- Inside the source the clipped exclusions cover what the exclusions cover. -/
theorem mem_covered_clippedExclusions {source : Period} {exclusions : List Period} {t : ℝ}
    (ht : t ∈ source.points) :
    t ∈ covered (clippedExclusions source exclusions) ↔ t ∈ covered exclusions := by
  rw [clippedExclusions, covered_perm (List.perm_insertionSort intervalOrder _)]
  simp only [mem_covered, List.mem_filterMap, nonempty_eq_some]
  constructor
  · rintro ⟨i, ⟨e, he, -, rfl⟩, hs, hf⟩
    rw [Int.cast_max, max_le_iff] at hs
    rw [Int.cast_min, lt_min_iff] at hf
    exact ⟨e, he, hs.2, hf.2⟩
  · rintro ⟨e, he, hs, hf⟩
    have hs : ((max source.start e.start : ℤ) : ℝ) ≤ t := by
      rw [Int.cast_max]
      exact max_le ht.1 hs
    have hf : t < ((min source.finish e.finish : ℤ) : ℝ) := by
      rw [Int.cast_min]
      exact lt_min ht.2 hf
    exact ⟨_, ⟨e, he, Int.cast_lt.1 (hs.trans_lt hf), rfl⟩, hs, hf⟩

/-- **The subtraction leaves the instants of the source that no exclusion covers.** -/
theorem mem_covered_subtractIntervals {source : Period} {exclusions : List Period} {t : ℝ} :
    t ∈ covered (subtractIntervals source exclusions) ↔
      t ∈ source.points ∧ t ∉ covered exclusions := by
  have hsorted : (clippedExclusions source exclusions).Pairwise fun a b => a.start ≤ b.start :=
    pairwise_start_insertionSort _
  have hclipped := @mem_covered_clippedExclusions source exclusions t
  unfold subtractIntervals
  generalize clippedExclusions source exclusions = clipped at hsorted hclipped
  cases clipped with
  | nil =>
    simp only [covered_cons, covered_nil, Set.union_empty, Set.mem_empty_iff_false, false_iff]
      at hclipped ⊢
    exact ⟨fun ht => ⟨ht, hclipped ht⟩, fun ht => ht.1⟩
  | cons e l =>
    rw [covered_filter_nonempty, mem_covered_subtractFrom hsorted]
    constructor
    · rintro ⟨hs, hf, hnot⟩
      exact ⟨⟨hs, hf⟩, fun h => hnot ((hclipped ⟨hs, hf⟩).2 h)⟩
    · rintro ⟨ht, hnot⟩
      exact ⟨ht.1, ht.2, fun h => hnot ((hclipped ht).1 h)⟩

theorem valid_of_mem_subtractIntervals {source : Period} {exclusions : List Period}
    (hsource : source.start ≤ source.finish) {i : Period}
    (hi : i ∈ subtractIntervals source exclusions) : i.start ≤ i.finish := by
  unfold subtractIntervals at hi
  split at hi
  · obtain rfl := List.mem_singleton.1 hi
    exact hsource
  · exact (of_decide_eq_true (List.mem_filter.1 hi).2).le

/-! ## Incidents and windows as sets of instants -/

/-- A cut interval has the instants between its ends that lie in the range. -/
theorem exists_mem_clipInterval {startedAt endedAt : Option ℤ} {rangeStart rangeEnd : ℤ} {t : ℝ} :
    (∃ i ∈ clipInterval startedAt endedAt rangeStart rangeEnd, t ∈ i.points) ↔
      (∃ s ∈ startedAt, ∃ e ∈ endedAt, (s : ℝ) ≤ t ∧ t < e) ∧
        (rangeStart : ℝ) ≤ t ∧ t < rangeEnd := by
  simp only [clipInterval, Option.mem_def, Option.bind_eq_bind, Option.bind_eq_some_iff,
    nonempty_eq_some]
  constructor
  · rintro ⟨i, ⟨s, hs, e, he, -, rfl⟩, hstart, hfinish⟩
    rw [Int.cast_max, max_le_iff] at hstart
    rw [Int.cast_min, lt_min_iff] at hfinish
    exact ⟨⟨s, hs, e, he, hstart.1, hfinish.1⟩, hstart.2, hfinish.2⟩
  · rintro ⟨⟨s, hs, e, he, hst, hte⟩, hrange⟩
    have hstart : ((max s rangeStart : ℤ) : ℝ) ≤ t := by
      rw [Int.cast_max]
      exact max_le hst hrange.1
    have hfinish : t < ((min e rangeEnd : ℤ) : ℝ) := by
      rw [Int.cast_min]
      exact lt_min hte hrange.2
    exact ⟨_, ⟨s, hs, e, he, Int.cast_lt.1 (hstart.trans_lt hfinish), rfl⟩, hstart, hfinish⟩

theorem valid_of_mem_clipInterval {startedAt endedAt : Option ℤ} {rangeStart rangeEnd : ℤ}
    {i : Period} (h : i ∈ clipInterval startedAt endedAt rangeStart rangeEnd) :
    i.start ≤ i.finish := by
  simp only [clipInterval, Option.mem_def, Option.bind_eq_bind, Option.bind_eq_some_iff,
    nonempty_eq_some] at h
  obtain ⟨s, -, e, -, hlt, rfl⟩ := h
  exact hlt.le

section

variable (parse : String → Option ℤ)

/-- The incident, which is over, covers the instant. -/
def RecoveredIncident.Covers (i : RecoveredIncident) (t : ℝ) : Prop :=
  ∃ s ∈ parse i.startedAt, ∃ e ∈ parse i.recoveredAt, (s : ℝ) ≤ t ∧ t < e

/-- The incident, which has a known start and is not over, covers the instant. -/
def ActiveIncident.Covers (i : ActiveIncident) (t : ℝ) : Prop :=
  ∃ startedAt ∈ i.knownStart, ∃ s ∈ parse startedAt, (s : ℝ) ≤ t

/-- The window covers the instant before it ends or is cancelled. -/
def MaintenanceWindow.EffectiveAt (w : MaintenanceWindow) (t : ℝ) : Prop :=
  ∃ s ∈ parse w.startsAt, ∃ e ∈ w.effectiveEnd parse, (s : ℝ) ≤ t ∧ t < e

/-- Some window that applies to the incident is effective. -/
def Excluded (windows : List MaintenanceWindow) (i : Incident) (t : ℝ) : Prop :=
  ∃ w ∈ windows, w.appliesToIncident i = true ∧ w.EffectiveAt parse t

/-- The instants of the range at which an incident runs that is not excluded then. -/
def downInstants (active : List ActiveIncident) (recovered : List RecoveredIncident)
    (excluded : Incident → ℝ → Prop) (rangeStart rangeEnd : ℤ) : Set ℝ :=
  {t | ((rangeStart : ℝ) ≤ t ∧ t < rangeEnd) ∧
    ((∃ i ∈ recovered, i.Covers parse t ∧ ¬ excluded i.toIncident t) ∨
      ∃ i ∈ active, i.Covers parse t ∧ ¬ excluded i.toIncident t)}

variable {parse} {active : List ActiveIncident} {recovered : List RecoveredIncident}
  {windows : List MaintenanceWindow} {rangeStart rangeEnd : ℤ} {t : ℝ}

theorem RecoveredIncident.exists_mem_interval {i : RecoveredIncident} :
    (∃ interval ∈ i.interval parse rangeStart rangeEnd, t ∈ interval.points) ↔
      i.Covers parse t ∧ (rangeStart : ℝ) ≤ t ∧ t < rangeEnd :=
  exists_mem_clipInterval

theorem ActiveIncident.exists_mem_interval {i : ActiveIncident} :
    (∃ interval ∈ i.interval parse rangeStart rangeEnd, t ∈ interval.points) ↔
      i.Covers parse t ∧ (rangeStart : ℝ) ≤ t ∧ t < rangeEnd := by
  have hclip (startedAt : String) := @exists_mem_clipInterval (parse startedAt) (some rangeEnd)
    rangeStart rangeEnd t
  simp only [Option.mem_some_iff, exists_eq_left'] at hclip
  simp only [ActiveIncident.interval, ActiveIncident.Covers]
  cases i.knownStart with
  | none => simp
  | some startedAt =>
    simp only [Option.bind_some, Option.mem_some_iff, exists_eq_left', hclip]
    constructor
    · rintro ⟨⟨s, hs, hst, -⟩, hrange⟩
      exact ⟨⟨s, hs, hst⟩, hrange⟩
    · rintro ⟨⟨s, hs, hst⟩, hrange⟩
      exact ⟨⟨s, hs, hst, hrange.2⟩, hrange⟩

theorem mem_covered_exclusionsOf {i : Incident}
    (hrange : (rangeStart : ℝ) ≤ t ∧ t < rangeEnd) :
    t ∈ covered (exclusionsOf parse windows rangeStart rangeEnd i) ↔ Excluded parse windows i t := by
  have hclip (w : MaintenanceWindow) := @exists_mem_clipInterval (parse w.startsAt)
    (w.effectiveEnd parse) rangeStart rangeEnd t
  simp only [mem_covered, exclusionsOf, List.mem_filterMap, Excluded]
  constructor
  · rintro ⟨interval, ⟨w, hw, hinterval⟩, ht⟩
    split_ifs at hinterval with happlies
    exact ⟨w, hw, happlies, ((hclip w).1 ⟨interval, hinterval, ht⟩).1⟩
  · rintro ⟨w, hw, happlies, heffective⟩
    obtain ⟨interval, hinterval, ht⟩ := (hclip w).2 ⟨heffective, hrange⟩
    exact ⟨interval, ⟨w, hw, by rw [if_pos happlies]; exact hinterval⟩, ht⟩

/-- What is left of an incident, by the instants of its interval. -/
theorem mem_covered_countedOf {i : Incident} {interval : Option Period} {covers : Prop}
    (hinterval : (∃ j ∈ interval, t ∈ j.points) ↔ covers ∧ (rangeStart : ℝ) ≤ t ∧ t < rangeEnd) :
    t ∈ covered (countedOf parse windows rangeStart rangeEnd i interval) ↔
      ((rangeStart : ℝ) ≤ t ∧ t < rangeEnd) ∧ covers ∧ ¬ Excluded parse windows i t := by
  rw [countedOf, covered_flatMap, Set.mem_ofPred_eq]
  simp only [Option.mem_toList, mem_covered_subtractIntervals]
  constructor
  · rintro ⟨j, hj, ht, hnot⟩
    obtain ⟨hcovers, hrange⟩ := hinterval.1 ⟨j, hj, ht⟩
    rw [mem_covered_exclusionsOf hrange] at hnot
    exact ⟨hrange, hcovers, hnot⟩
  · rintro ⟨hrange, hcovers, hnot⟩
    obtain ⟨j, hj, ht⟩ := hinterval.2 ⟨hcovers, hrange⟩
    rw [← mem_covered_exclusionsOf hrange] at hnot
    exact ⟨j, hj, ht, hnot⟩

theorem covered_countedIntervals :
    covered (countedIntervals parse active recovered windows rangeStart rangeEnd) =
      downInstants parse active recovered (Excluded parse windows) rangeStart rangeEnd := by
  ext t
  simp only [countedIntervals, covered_append, Set.mem_union, covered_flatMap, Set.mem_ofPred_eq,
    mem_covered_countedOf RecoveredIncident.exists_mem_interval,
    mem_covered_countedOf ActiveIncident.exists_mem_interval, downInstants]
  constructor
  · rintro (⟨i, hi, hrange, h⟩ | ⟨i, hi, hrange, h⟩)
    · exact ⟨hrange, .inl ⟨i, hi, h⟩⟩
    · exact ⟨hrange, .inr ⟨i, hi, h⟩⟩
  · rintro ⟨hrange, ⟨i, hi, h⟩ | ⟨i, hi, h⟩⟩
    · exact .inl ⟨i, hi, hrange, h⟩
    · exact .inr ⟨i, hi, hrange, h⟩

theorem covered_rawIntervals :
    covered (rawIntervals parse active recovered rangeStart rangeEnd) =
      downInstants parse active recovered (fun _ _ => False) rangeStart rangeEnd := by
  ext t
  simp only [rawIntervals, covered_append, Set.mem_union, mem_covered, List.mem_filterMap,
    downInstants, Set.mem_ofPred_eq, not_false_eq_true, and_true]
  constructor
  · rintro (⟨j, ⟨i, hi, hj⟩, ht⟩ | ⟨j, ⟨i, hi, hj⟩, ht⟩)
    · obtain ⟨hcovers, hrange⟩ := RecoveredIncident.exists_mem_interval.1 ⟨j, hj, ht⟩
      exact ⟨hrange, .inl ⟨i, hi, hcovers⟩⟩
    · obtain ⟨hcovers, hrange⟩ := ActiveIncident.exists_mem_interval.1 ⟨j, hj, ht⟩
      exact ⟨hrange, .inr ⟨i, hi, hcovers⟩⟩
  · rintro ⟨hrange, ⟨i, hi, hcovers⟩ | ⟨i, hi, hcovers⟩⟩
    · obtain ⟨j, hj, ht⟩ := RecoveredIncident.exists_mem_interval.2 ⟨hcovers, hrange⟩
      exact .inl ⟨j, ⟨i, hi, hj⟩, ht⟩
    · obtain ⟨j, hj, ht⟩ := ActiveIncident.exists_mem_interval.2 ⟨hcovers, hrange⟩
      exact .inr ⟨j, ⟨i, hi, hj⟩, ht⟩

theorem valid_of_mem_countedOf {i : Incident} {interval : Option Period}
    (hvalid : ∀ j ∈ interval, j.start ≤ j.finish) {j : Period}
    (hj : j ∈ countedOf parse windows rangeStart rangeEnd i interval) : j.start ≤ j.finish := by
  obtain ⟨source, hsource, hj⟩ := List.mem_flatMap.1 hj
  exact valid_of_mem_subtractIntervals (hvalid source (Option.mem_toList.1 hsource)) hj

theorem RecoveredIncident.valid_interval {i : RecoveredIncident} :
    ∀ j ∈ i.interval parse rangeStart rangeEnd, j.start ≤ j.finish :=
  fun _ => valid_of_mem_clipInterval

theorem ActiveIncident.valid_interval {i : ActiveIncident} :
    ∀ j ∈ i.interval parse rangeStart rangeEnd, j.start ≤ j.finish := by
  intro j hj
  obtain ⟨startedAt, -, hj⟩ := Option.bind_eq_some_iff.1 hj
  exact valid_of_mem_clipInterval hj

/-- **The milliseconds of the counted intervals** are those of the instants that count. -/
theorem hasLength_counted :
    HasLength (downInstants parse active recovered (Excluded parse windows) rangeStart rangeEnd)
      (unionTotal (countedIntervals parse active recovered windows rangeStart rangeEnd)) := by
  rw [← covered_countedIntervals]
  apply hasLength_unionTotal
  intro j hj
  rcases List.mem_append.1 hj with hj | hj
  · obtain ⟨i, -, hj⟩ := List.mem_flatMap.1 hj
    exact valid_of_mem_countedOf RecoveredIncident.valid_interval hj
  · obtain ⟨i, -, hj⟩ := List.mem_flatMap.1 hj
    exact valid_of_mem_countedOf ActiveIncident.valid_interval hj

theorem hasLength_raw :
    HasLength (downInstants parse active recovered (fun _ _ => False) rangeStart rangeEnd)
      (unionTotal (rawIntervals parse active recovered rangeStart rangeEnd)) := by
  rw [← covered_rawIntervals]
  apply hasLength_unionTotal
  intro j hj
  rcases List.mem_append.1 hj with hj | hj
  · obtain ⟨i, -, hj⟩ := List.mem_filterMap.1 hj
    exact i.valid_interval j hj
  · obtain ⟨i, -, hj⟩ := List.mem_filterMap.1 hj
    exact i.valid_interval j hj

/-- A total in whole seconds. -/
theorem unionSeconds_eq_floor {l : List Period} {s : Set ℝ} (h : HasLength s (unionTotal l)) :
    unionSeconds l = ⌊volume.real s / 1000⌋ := by
  have hfloor := Int.floor_div_natCast (unionTotal l : ℝ) 1000
  rw [Int.floor_intCast] at hfloor
  rw [h.real_volume, unionSeconds]
  exact_mod_cast hfloor.symm

/-- Fewer exclusions and more incidents make more downtime. -/
theorem downInstants_subset {active' : List ActiveIncident} {recovered' : List RecoveredIncident}
    {excluded excluded' : Incident → ℝ → Prop}
    (hactive : ∀ i ∈ active, i.knownStart.isSome = true → i ∈ active')
    (hrecovered : ∀ i ∈ recovered, i ∈ recovered')
    (hexcluded : ∀ i t, excluded' i t → excluded i t) :
    downInstants parse active recovered excluded rangeStart rangeEnd ⊆
      downInstants parse active' recovered' excluded' rangeStart rangeEnd := by
  rintro t ⟨hrange, ⟨i, hi, hcovers, hnot⟩ | ⟨i, hi, hcovers, hnot⟩⟩
  · exact ⟨hrange, .inl ⟨i, hrecovered i hi, hcovers, fun h => hnot (hexcluded _ _ h)⟩⟩
  · obtain ⟨startedAt, hknown, -⟩ := id hcovers
    have hi := hactive i hi (Option.isSome_of_mem hknown)
    exact ⟨hrange, .inr ⟨i, hi, hcovers, fun h => hnot (hexcluded _ _ h)⟩⟩

end

/-! ## The main result -/

/-- **Downtime that counts is the uncovered time of the incidents.** For all incidents, windows and
ranges: the counted downtime is the length, in whole seconds, of the instants of the range at which
an incident with a known start runs and no window that applies to it is effective; the raw downtime
is the same without the windows, so it is not smaller; and the order of the lists does not matter. -/
theorem collect_measures (parse : String → Option ℤ) (active : List ActiveIncident)
    (recovered : List RecoveredIncident) (windows : List MaintenanceWindow)
    (rangeStart rangeEnd : ℤ) :
    let downtime :=
      collectMaintenanceAdjustedDowntime parse active recovered windows rangeStart rangeEnd
    downtime.countedDowntimeSeconds = ⌊volume.real (downInstants parse active recovered
      (Excluded parse windows) rangeStart rangeEnd) / 1000⌋ ∧
    downtime.rawDowntimeSeconds = ⌊volume.real (downInstants parse active recovered
      (fun _ _ => False) rangeStart rangeEnd) / 1000⌋ ∧
    downtime.countedDowntimeSeconds ≤ downtime.rawDowntimeSeconds ∧
    ∀ active' recovered' windows', active.Perm active' → recovered.Perm recovered' →
      windows.Perm windows' →
      collectMaintenanceAdjustedDowntime parse active' recovered' windows' rangeStart rangeEnd =
        downtime := by
  intro downtime
  refine ⟨unionSeconds_eq_floor hasLength_counted, unionSeconds_eq_floor hasLength_raw, ?_, ?_⟩
  · apply Int.ediv_le_ediv (by decide)
    exact hasLength_counted.mono hasLength_raw
      (downInstants_subset (fun i hi _ => hi) (fun i hi => hi) fun i t h => h.elim)
  · intro active' recovered' windows' hactive hrecovered hwindows
    have hset (excluded excluded' : Incident → ℝ → Prop)
        (heq : ∀ i t, excluded' i t ↔ excluded i t) :
        downInstants parse active' recovered' excluded' rangeStart rangeEnd =
          downInstants parse active recovered excluded rangeStart rangeEnd := by
      ext t
      simp only [downInstants, Set.mem_ofPred_eq, hactive.mem_iff, hrecovered.mem_iff, heq]
    have hexcluded (i : Incident) (t : ℝ) :
        Excluded parse windows' i t ↔ Excluded parse windows i t := by
      simp only [Excluded, hwindows.mem_iff]
    have hraw : unionSeconds (rawIntervals parse active' recovered' rangeStart rangeEnd) =
        unionSeconds (rawIntervals parse active recovered rangeStart rangeEnd) := by
      rw [unionSeconds_eq_floor hasLength_raw, unionSeconds_eq_floor hasLength_raw,
        hset _ _ fun _ _ => Iff.rfl]
    have hcounted :
        unionSeconds (countedIntervals parse active' recovered' windows' rangeStart rangeEnd) =
          unionSeconds (countedIntervals parse active recovered windows rangeStart rangeEnd) := by
      rw [unionSeconds_eq_floor hasLength_counted, unionSeconds_eq_floor hasLength_counted,
        hset _ _ hexcluded]
    have hcoverage : active'.all (·.knownStart.isSome) = active.all (·.knownStart.isSome) := by
      rw [Bool.eq_iff_iff, List.all_eq_true, List.all_eq_true]
      simp only [hactive.mem_iff]
    simp only [downtime, collectMaintenanceAdjustedDowntime, hraw, hcounted, hcoverage]

/-! ## Two hosts and a window -/

namespace Sample

/-- A clock that shows seconds. -/
def parse (date : String) : Option ℤ :=
  (["00", "01", "02", "03", "04", "05"].idxOf? date).map fun n => n * 1000

def hostIncident (hostId startedAt recoveredAt : String) : RecoveredIncident where
  entityType := .host
  startReason := "heartbeat"
  hostId := hostId
  containerName := none
  backupTarget := none
  gameMode := none
  backupType := none
  startedAt := startedAt
  recoveredAt := recoveredAt

/-- Maintenance of the first host, planned until 05 and cancelled at 03. -/
def window : MaintenanceWindow where
  scopeType := .host
  serviceId := none
  hostId := some "host-a"
  containerName := none
  backupTarget := none
  gameMode := none
  backupType := none
  startsAt := "00"
  endsAt := "05"
  cancelledAt := some "03"

/-- The first host is down from 00 to 04, the second from 02 to 03: two of the four seconds count. -/
theorem collect_measures_swap :
    (collectMaintenanceAdjustedDowntime parse [] [hostIncident "host-a" "00" "04",
        hostIncident "host-b" "02" "03"] [window] 0 5000).countedDowntimeSeconds = 2 ∧
      collectMaintenanceAdjustedDowntime parse [] [hostIncident "host-b" "02" "03",
        hostIncident "host-a" "00" "04"] [window] 0 5000 =
      collectMaintenanceAdjustedDowntime parse [] [hostIncident "host-a" "00" "04",
        hostIncident "host-b" "02" "03"] [window] 0 5000 :=
  ⟨by decide +kernel, (collect_measures parse [] _ [window] 0 5000).2.2.2 _ _ _ (.refl _)
    (.swap _ _ _) (.refl _)⟩

end Sample

end IvrmDashboard.Reliability

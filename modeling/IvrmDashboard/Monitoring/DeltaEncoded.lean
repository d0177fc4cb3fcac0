import IvrmDashboard.Foundations.DeltaEncoding
import IvrmDashboard.Foundations.Sql.Unique
import IvrmDashboard.Monitoring.ContainerEvents

/-!
# The events of a container stand for its samples

As long as the samples of a container come in the order of their times, the row before a new one is
the last one, and the events of a column are the changes of its values: they form a chain and give
every value back (`events_encode_samples`). Every key is written once, so to capture a sample again
writes nothing.
-/

namespace IvrmDashboard.Monitoring.ContainerEvents

open Sql Incidents DeltaEncoding

variable {w w' : Timeline} {e : MonitoringEventRow} {k : ContainerKey}

/-! ## Keys -/

/-- The key of an event of a sample. -/
def sampleKey (id : ℕ) (suffix : String) : String := "sample:" ++ idToText id ++ ":" ++ suffix

theorem sampleKey_inj {id id' : ℕ} {suffix suffix' : String} (hs : ':' ∉ suffix.toList)
    (hs' : ':' ∉ suffix'.toList) (h : sampleKey id suffix = sampleKey id' suffix') :
    id = id' ∧ suffix = suffix' := by
  have hlist := congrArg String.toList h
  simp only [sampleKey, idToText, String.toList_append, String.toList_ofList,
    List.append_assoc] at hlist
  rw [List.append_cancel_left_eq] at hlist
  obtain ⟨hid, hsuffix⟩ := Text.cut_at_last_colon hs hs' hlist
  exact ⟨Text.decimal_inj hid, String.toList_injective hsuffix⟩

/-- The end of the key of an event of a sample. -/
def suffixOf : EventType → String
  | .stateChanged => "state"
  | .healthChanged => "health"
  | .restartCountIncreased => "restart"
  | .oomKilled => "oom"
  | .exitCodeChanged => "exit"
  | .maintenanceStarted => "started"
  | .maintenanceEnded => "ended"

theorem colon_notMem_suffixOf (t : EventType) : ':' ∉ (suffixOf t).toList := by
  cases t <;> decide

theorem suffixOf_inj {t t' : EventType} (h : suffixOf t = suffixOf t') : t = t' := by
  revert h
  cases t <;> cases t' <;> decide

theorem integerToText_inj {n m : ℤ} (h : integerToText n = integerToText m) : n = m := by
  have hlist := String.ofList_injective h
  have hsign : ∀ a : ℕ, ∀ l : List Char, Text.decimal 1 a ≠ '-' :: l := by
    intro a l hl
    have hdigit := Text.isDigit_of_mem_decimal (w := 1) (n := a) (c := '-') (by rw [hl]; simp)
    exact absurd hdigit (by decide)
  by_cases hn : n < 0
  · by_cases hm : m < 0
    · rw [if_pos hn, if_pos hm] at hlist
      have habs := Text.decimal_inj (List.cons.inj hlist).2
      omega
    · rw [if_pos hn, if_neg hm] at hlist
      exact absurd hlist.symm (hsign _ _)
  · by_cases hm : m < 0
    · rw [if_neg hn, if_pos hm] at hlist
      exact absurd hlist (hsign _ _)
    · rw [if_neg hn, if_neg hm] at hlist
      have habs := Text.decimal_inj hlist
      omega

theorem ContainerState.text_inj {s s' : ContainerState} (h : s.text = s'.text) : s = s' := by
  revert h
  cases s <;> cases s' <;> decide

theorem ContainerHealth.text_inj {s s' : ContainerHealth} (h : s.text = s'.text) : s = s' := by
  revert h
  cases s <;> cases s' <;> decide

/-! ## What an insert writes -/

theorem insertEvent_eq_ok (h : w.insertEvent e = .ok w') :
    (∀ c ∈ e.checks, c.2 = true) ∧
      ((w' = w ∧ ∃ e' ∈ w.events, e'.eventKey = e.eventKey) ∨
        (w' = { w with events := w.events ++ [e] } ∧ ∀ e' ∈ w.events, e'.eventKey ≠ e.eventKey)) := by
  obtain ⟨u, hchecks, hw⟩ := bind_eq_ok.1 h
  refine ⟨checkAll_eq_ok.1 hchecks, ?_⟩
  have hw := Except.ok.inj hw
  split at hw
  next hany =>
    obtain ⟨e', he', hkey⟩ := List.any_eq_true.1 hany
    exact Or.inl ⟨hw.symm, e', he', of_decide_eq_true hkey⟩
  next hany =>
    refine Or.inr ⟨hw.symm, fun e' he' hkey => hany ?_⟩
    exact List.any_eq_true.2 ⟨e', he', decide_eq_true hkey⟩

/-- Under a key that is there nothing is written. -/
theorem insertEvent_of_key {e' : MonitoringEventRow} (he' : e' ∈ w.events)
    (hkey : e'.eventKey = e.eventKey) (hchecks : ∀ c ∈ e.checks, c.2 = true) :
    w.insertEvent e = .ok w := by
  have hany : w.events.any (·.eventKey = e.eventKey) = true :=
    List.any_eq_true.2 ⟨e', he', decide_eq_true hkey⟩
  refine bind_eq_ok.2 ⟨(), checkAll_eq_ok.2 hchecks, ?_⟩
  rw [if_pos hany]
  rfl

/-- The events have grown, by rows that pass their checks and have keys of their own. -/
structure Grown (w w' : Timeline) (added : List MonitoringEventRow) : Prop where
  eq : w' = { w with events := w.events ++ added }
  checks : ∀ e ∈ added, ∀ c ∈ e.checks, c.2 = true
  keys : Unique MonitoringEventRow.eventKey w.events →
    Unique MonitoringEventRow.eventKey (w.events ++ added)

theorem Grown.refl (w : Timeline) : Grown w w [] where
  eq := by simp
  checks := by simp
  keys h := by simpa using h

theorem Grown.trans {w'' : Timeline} {added added' : List MonitoringEventRow}
    (h : Grown w w' added) (h' : Grown w' w'' added') : Grown w w'' (added ++ added') := by
  obtain ⟨rfl, hchecks, hkeys⟩ := h
  obtain ⟨rfl, hchecks', hkeys'⟩ := h'
  refine ⟨by simp, fun e he => ?_, fun hunique => ?_⟩
  · exact (List.mem_append.1 he).elim (hchecks e) (hchecks' e)
  · rw [← List.append_assoc]
    exact hkeys' (hkeys hunique)

theorem insertEvent_grown (h : w.insertEvent e = .ok w') :
    ∃ added, Grown w w' added ∧ added.Sublist [e] := by
  obtain ⟨hchecks, ⟨rfl, -⟩ | ⟨rfl, hnew⟩⟩ := insertEvent_eq_ok h
  · exact ⟨[], .refl w', List.nil_sublist _⟩
  · refine ⟨[e], ⟨rfl, fun e' he' => ?_, fun hunique => hunique.concat hnew⟩, .refl _⟩
    obtain rfl := List.mem_singleton.1 he'
    exact hchecks

theorem foldlM_grown {rows : List MonitoringEventRow}
    (h : rows.foldlM Timeline.insertEvent w = .ok w') :
    ∃ added, Grown w w' added ∧ added.Sublist rows := by
  induction rows generalizing w with
  | nil =>
    obtain rfl := Except.ok.inj h
    exact ⟨[], .refl w, .refl _⟩
  | cons e rows ih =>
    rw [List.foldlM_cons] at h
    obtain ⟨w₁, hw₁, hrest⟩ := bind_eq_ok.1 h
    obtain ⟨added₁, hgrown₁, hsub₁⟩ := insertEvent_grown hw₁
    obtain ⟨added₂, hgrown₂, hsub₂⟩ := ih hrest
    exact ⟨added₁ ++ added₂, hgrown₁.trans hgrown₂, hsub₁.append hsub₂⟩

/-- Rows with keys of their own that are not there yet are all written. -/
theorem foldlM_fresh {rows : List MonitoringEventRow}
    (h : rows.foldlM Timeline.insertEvent w = .ok w')
    (hunique : Unique MonitoringEventRow.eventKey rows)
    (hnew : ∀ e ∈ rows, ∀ e' ∈ w.events, e'.eventKey ≠ e.eventKey) : Grown w w' rows := by
  induction rows generalizing w with
  | nil =>
    obtain rfl := Except.ok.inj h
    exact .refl w
  | cons e rows ih =>
    rw [List.foldlM_cons] at h
    obtain ⟨w₁, hw₁, hrest⟩ := bind_eq_ok.1 h
    obtain ⟨hnotMem, hunique⟩ := List.nodup_cons.1 hunique
    obtain ⟨hchecks, ⟨rfl, e', he', hkey⟩ | ⟨rfl, -⟩⟩ := insertEvent_eq_ok hw₁
    · exact absurd hkey (hnew e (by simp) e' he')
    · have hone : Grown w { w with events := w.events ++ [e] } [e] := by
        refine ⟨rfl, fun e' he' => ?_, fun hu => hu.concat (hnew e (by simp))⟩
        obtain rfl := List.mem_singleton.1 he'
        exact hchecks
      refine hone.trans (ih hrest hunique fun b hb b' hb' => ?_)
      rcases List.mem_append.1 hb' with hb' | hb'
      · exact hnew b (List.mem_cons_of_mem _ hb) b' hb'
      · obtain rfl := List.mem_singleton.1 hb'
        exact fun hkey => hnotMem (hkey ▸ List.mem_map_of_mem hb)

/-! ## The events of a sample -/

/-- What is written of the columns of a sample that follows another one: the type of the event, the
values before and after, and the numeric value. -/
def capturedColumns (previous new : ContainerSample) :
    List (EventType × Option String × Option String × Option ℤ) :=
  (if new.state ≠ previous.state then
    [(.stateChanged, some previous.state.text, some new.state.text, none)] else []) ++
  (if new.health ≠ previous.health then
    [(.healthChanged, some previous.health.text, some new.health.text, none)] else []) ++
  (if previous.restartCount < new.restartCount then
    [(.restartCountIncreased, some (integerToText previous.restartCount),
      some (integerToText new.restartCount), some (new.restartCount - previous.restartCount))]
  else []) ++
  (if !previous.oomKilled && new.oomKilled then [(.oomKilled, some "false", some "true", none)]
  else []) ++
  (if new.exitCode ≠ previous.exitCode then
    [(.exitCodeChanged, previous.exitCode.map integerToText, new.exitCode.map integerToText,
      new.exitCode)]
  else [])

variable {expectation : Option ContainerExpectation} {previous new : ContainerSample}

theorem capturedEvents_eq (expectation : Option ContainerExpectation)
    (previous new : ContainerSample) :
    capturedEvents expectation previous new = (capturedColumns previous new).map fun c =>
      sampleEvent expectation new (suffixOf c.1) c.1 c.2.1 c.2.2.1 c.2.2.2 := by
  simp only [capturedColumns, List.map_append, apply_ite (List.map _), List.map_cons, List.map_nil]
  rfl

/-- An event of a sample has its container and its id, and a key made of that id. -/
theorem of_mem_capturedEvents (h : e ∈ capturedEvents expectation previous new) :
    e.container = new.container ∧ e.sampleId = some new.id ∧
      e.eventKey = sampleKey new.id (suffixOf e.eventType) := by
  rw [capturedEvents_eq] at h
  obtain ⟨c, -, rfl⟩ := List.mem_map.1 h
  exact ⟨rfl, rfl, rfl⟩

/-- What is expected decides how bad an event is, not whether there is one. -/
theorem mem_capturedEvents_expectation (expectation' : Option ContainerExpectation)
    (h : e ∈ capturedEvents expectation previous new) :
    ∃ e' ∈ capturedEvents expectation' previous new,
      e = { e' with severity := e.severity, expectedState := e.expectedState } := by
  rw [capturedEvents_eq] at h
  obtain ⟨c, hc, rfl⟩ := List.mem_map.1 h
  refine ⟨sampleEvent expectation' new (suffixOf c.1) c.1 c.2.1 c.2.2.1 c.2.2.2, ?_, rfl⟩
  rw [capturedEvents_eq]
  exact List.mem_map_of_mem hc

theorem capturedEvents_types (expectation : Option ContainerExpectation)
    (previous new : ContainerSample) :
    ((capturedEvents expectation previous new).map (·.eventType)).Sublist
      [.stateChanged, .healthChanged, .restartCountIncreased, .oomKilled, .exitCodeChanged] := by
  have hblock : ∀ (P : Prop) [Decidable P] (e : MonitoringEventRow),
      ((if P then [e] else []).map (·.eventType)).Sublist [e.eventType] := by
    intro P _ e
    split
    · exact .refl _
    · exact List.nil_sublist _
  simp only [capturedEvents, List.map_append]
  exact ((((hblock _ _).append (hblock _ _)).append (hblock _ _)).append (hblock _ _)).append
    (hblock _ _)

/-- A sample has at most one event of a type, so its keys are all different. -/
theorem unique_capturedEvents (expectation : Option ContainerExpectation)
    (previous new : ContainerSample) :
    Unique MonitoringEventRow.eventKey (capturedEvents expectation previous new) := by
  have htypes : ((capturedEvents expectation previous new).map (·.eventType)).Nodup :=
    (capturedEvents_types expectation previous new).nodup (by decide)
  have hkeys : (capturedEvents expectation previous new).map (·.eventKey) =
      ((capturedEvents expectation previous new).map (·.eventType)).map fun t =>
        sampleKey new.id (suffixOf t) := by
    rw [List.map_map]
    exact List.map_congr_left fun e he => (of_mem_capturedEvents he).2.2
  rw [Sql.Unique, hkeys]
  refine htypes.map fun t t' h => suffixOf_inj ?_
  exact (sampleKey_inj (colon_notMem_suffixOf t) (colon_notMem_suffixOf t') h).2

/-! ## Columns -/

/-- The columns whose changes can be told from the events. -/
inductive Column
  | state
  | health
  | exitCode

def Column.eventType : Column → EventType
  | state => .stateChanged
  | health => .healthChanged
  | exitCode => .exitCodeChanged

/-- The value of a column, as text. -/
def Column.value (s : ContainerSample) : Column → Option String
  | state => some s.state.text
  | health => some s.health.text
  | exitCode => s.exitCode.map integerToText

/-- The changes of a column of a container that the events tell of. -/
def changesOf (k : ContainerKey) (c : Column) (events : List MonitoringEventRow) :
    List (Change (Option String)) :=
  (events.filter fun e => e.container = k && e.eventType = c.eventType).map fun e =>
    ⟨e.occurredAt, e.fromValue, e.toValue⟩

theorem changesOf_append (k : ContainerKey) (c : Column) (l l' : List MonitoringEventRow) :
    changesOf k c (l ++ l') = changesOf k c l ++ changesOf k c l' := by
  simp [changesOf]

/-- Events of other containers and other types tell of no change. -/
theorem changesOf_eq_nil {c : Column} {l : List MonitoringEventRow}
    (h : ∀ e ∈ l, e.container ≠ k ∨ e.eventType ≠ c.eventType) : changesOf k c l = [] := by
  rw [changesOf, List.filter_eq_nil_iff.2 fun e he => ?_]
  · rfl
  · simpa [imp_iff_not_or] using h e he

/-- A sample that follows another one tells of a column what has changed in it. -/
theorem changesOf_captured (c : Column) (hk : new.container = k) :
    changesOf k c (capturedEvents expectation previous new) =
      if c.value new = c.value previous then []
      else [⟨new.receivedAt, c.value previous, c.value new⟩] := by
  have hblock : ∀ (P : Prop) [Decidable P] (suffix : String) (t : EventType)
      (a b : Option String) (n : Option ℤ),
      changesOf k c (if P then [sampleEvent expectation new suffix t a b n] else []) =
        if P ∧ t = c.eventType then [⟨new.receivedAt, a, b⟩] else [] := by
    intro P _ suffix t a b n
    by_cases hP : P
    · by_cases ht : t = c.eventType <;> simp [changesOf, sampleEvent, hP, ht, hk]
    · simp [changesOf, hP]
  have hexit : new.exitCode = previous.exitCode ↔
      new.exitCode.map integerToText = previous.exitCode.map integerToText :=
    ⟨fun h => by rw [h], fun h => Option.map_injective (fun _ _ => integerToText_inj) h⟩
  simp only [capturedEvents, changesOf_append, hblock]
  cases c with
  | state =>
    rw [Column.value, Column.value]
    by_cases h : new.state = previous.state
    · simp [Column.eventType, h]
    · simp [Column.eventType, h, mt ContainerState.text_inj h]
  | health =>
    rw [Column.value, Column.value]
    by_cases h : new.health = previous.health
    · simp [Column.eventType, h]
    · simp [Column.eventType, h, mt ContainerHealth.text_inj h]
  | exitCode =>
    rw [Column.value, Column.value]
    by_cases h : new.exitCode = previous.exitCode
    · simp [Column.eventType, h]
    · simp [Column.eventType, h, mt hexit.2 h]

/-! ## What a run keeps -/

/-- Where an event comes from: a sample whose id has been given out, under the key of the sample and
the type, or a maintenance. -/
def Origin (next : ℕ) (e : MonitoringEventRow) : Prop :=
  match e.sampleId with
  | some id => id < next ∧ e.eventKey = sampleKey id (suffixOf e.eventType)
  | none => (e.eventType = .maintenanceStarted ∨ e.eventType = .maintenanceEnded) ∧
      e.eventKey.toList.head? ≠ some 's'

theorem Origin.mono {next next' : ℕ} (h : Origin next e) (hle : next ≤ next') :
    Origin next' e := by
  unfold Origin at h ⊢
  cases hid : e.sampleId with
  | none => rwa [hid] at h
  | some id =>
    rw [hid] at h
    exact ⟨h.1.trans_le hle, h.2⟩

/-- No event has a key of a sample whose id is still to come. -/
theorem Origin.key_ne {next : ℕ} (h : Origin next e) (t : EventType) :
    e.eventKey ≠ sampleKey next (suffixOf t) := by
  unfold Origin at h
  intro hkey
  cases hid : e.sampleId with
  | none =>
    rw [hid] at h
    refine h.2 ?_
    rw [hkey]
    simp [sampleKey]
  | some id =>
    rw [hid] at h
    rw [hkey] at h
    have hsame := (sampleKey_inj (colon_notMem_suffixOf _) (colon_notMem_suffixOf _) h.2).1
    omega

/-- What holds of the tables whatever has been done. -/
structure Sound (w : Timeline) : Prop where
  ids : ∀ s ∈ w.samples, s.id < w.nextSampleId
  origins : ∀ e ∈ w.events, Origin w.nextSampleId e
  checks : ∀ e ∈ w.events, ∀ c ∈ e.checks, c.2 = true
  keys : Sql.Unique MonitoringEventRow.eventKey w.events

/-- The samples of a container. -/
def samplesOf (k : ContainerKey) (w : Timeline) : List ContainerSample :=
  w.samples.filter (·.container = k)

theorem mem_samplesOf {s : ContainerSample} :
    s ∈ samplesOf k w ↔ s ∈ w.samples ∧ s.container = k := by
  rw [samplesOf, List.mem_filter, decide_eq_true_iff]

theorem samplesOf_push (k : ContainerKey) (w : Timeline) (new : ContainerSample)
    (events : List MonitoringEventRow) (next : ℕ) :
    samplesOf k { w with samples := w.samples ++ [new], nextSampleId := next, events := events } =
      samplesOf k w ++ if new.container = k then [new] else [] := by
  rw [samplesOf, List.filter_append, List.filter_singleton]
  by_cases hk : new.container = k
  · rw [if_pos hk, decide_eq_true hk]
    rfl
  · rw [if_neg hk, decide_eq_false hk]
    rfl

/-- The values of a column of a container, with the times of its samples. -/
def observed (k : ContainerKey) (c : Column) (w : Timeline) : List (ℤ × Option String) :=
  (samplesOf k w).map fun s => (s.receivedAt, c.value s)

/-- The events of a sample are there, whatever was expected when they were written. -/
def Recorded (w : Timeline) (s : ContainerSample) : Prop :=
  ∀ previous, w.previous s = some previous →
    ∀ e ∈ capturedEvents none previous s, ∃ severity expectedState,
      { e with severity := severity, expectedState := expectedState } ∈ w.events

/-- What holds of a container whose samples have come in order. -/
structure Tracked (k : ContainerKey) (w : Timeline) : Prop where
  sorted : (samplesOf k w).Pairwise fun s s' => s.receivedAt < s'.receivedAt
  encodes : ∀ c, Encodes (observed k c w) (changesOf k c w.events)
  recorded : ∀ s ∈ samplesOf k w, Recorded w s

theorem sound_fresh (expectations : List ContainerExpectation) : Sound (.fresh expectations) where
  ids := by simp [Timeline.fresh]
  origins := by simp [Timeline.fresh]
  checks := by simp [Timeline.fresh]
  keys := Unique.nil _

theorem tracked_fresh (k : ContainerKey) (expectations : List ContainerExpectation) :
    Tracked k (.fresh expectations) where
  sorted := List.Pairwise.nil
  encodes _ := encodes_nil
  recorded := by simp [Timeline.fresh, samplesOf]

/-! ## The sample before -/

theorem newestFirst_total (a b : ContainerSample) :
    newestFirst a b = true ∨ newestFirst b a = true := by
  simp only [newestFirst, Bool.or_eq_true, Bool.and_eq_true, decide_eq_true_eq]
  omega

theorem newestFirst_trans (a b c : ContainerSample) (hab : newestFirst a b = true)
    (hbc : newestFirst b c = true) : newestFirst a c = true := by
  simp only [newestFirst, Bool.or_eq_true, Bool.and_eq_true, decide_eq_true_eq] at hab hbc ⊢
  omega

theorem receivedAt_le_of_newestFirst {a b : ContainerSample} (h : newestFirst a b = true) :
    b.receivedAt ≤ a.receivedAt := by
  simp only [newestFirst, Bool.or_eq_true, Bool.and_eq_true, decide_eq_true_eq] at h
  omega

theorem mem_candidates {s new : ContainerSample} :
    s ∈ w.samples.filter (fun s =>
      s.container = new.container && s.receivedAt < new.receivedAt && s.id ≠ new.id) ↔
    s ∈ samplesOf new.container w ∧ s.receivedAt < new.receivedAt ∧ s.id ≠ new.id := by
  rw [List.mem_filter, mem_samplesOf, and_assoc]
  simp [and_assoc]

/-- A sample that is not before another one is not its previous one. -/
theorem previous_push {s new : ContainerSample} {events : List MonitoringEventRow} {next : ℕ}
    (h : new.container ≠ s.container ∨ s.receivedAt ≤ new.receivedAt) :
    Timeline.previous { w with samples := w.samples ++ [new], events := events, nextSampleId := next }
      s = w.previous s := by
  have hnot : (new.container = s.container && decide (new.receivedAt < s.receivedAt) &&
      decide (new.id ≠ s.id)) = false := by
    rcases h with h | h
    · simp [h]
    · simp [not_lt.2 h]
  simp only [Timeline.previous, List.filter_append]
  rw [List.filter_cons_of_neg (by simpa using hnot), List.filter_nil, List.append_nil]

/-- When the samples come in order, the previous one is the last. -/
theorem previous_of_later {new : ContainerSample} (hid : ∀ s ∈ w.samples, s.id ≠ new.id)
    (hlater : ∀ s ∈ samplesOf new.container w, s.receivedAt < new.receivedAt) :
    (w.previous new = none ∧ samplesOf new.container w = []) ∨
      ∃ p, w.previous new = some p ∧ p ∈ samplesOf new.container w ∧
        ∀ s ∈ samplesOf new.container w, s.receivedAt ≤ p.receivedAt := by
  have hmem : ∀ s ∈ samplesOf new.container w, s ∈ w.samples.filter (fun s =>
      s.container = new.container && s.receivedAt < new.receivedAt && s.id ≠ new.id) :=
    fun s hs => mem_candidates.2 ⟨hs, hlater s hs, hid s (mem_samplesOf.1 hs).1⟩
  cases hprevious : w.previous new with
  | none =>
    refine Or.inl ⟨rfl, List.eq_nil_iff_forall_not_mem.2 fun s hs => ?_⟩
    have hnil := firstBy_eq_none.1 hprevious
    have hs := hmem s hs
    rw [hnil] at hs
    exact absurd hs List.not_mem_nil
  | some p =>
    refine Or.inr ⟨p, rfl, (mem_candidates.1 (mem_of_firstBy hprevious)).1, fun s hs => ?_⟩
    exact receivedAt_le_of_newestFirst
      (firstBy_le newestFirst_total newestFirst_trans hprevious (hmem s hs))

/-! ## One step -/

/-- The sample as it is inserted next. -/
def Timeline.newSample (w : Timeline) (s : NewSample) : ContainerSample :=
  { s with id := w.nextSampleId }

/-- **What an insert of a sample does**: the sample gets the next id, and the events are written of
what has changed since the sample before it. -/
theorem insertSample_eq_ok (hw : Sound w) {s : NewSample} (h : w.insertSample s = .ok w') :
    ∃ rows, w' = { w with
        samples := w.samples ++ [w.newSample s]
        nextSampleId := w.nextSampleId + 1
        events := w.events ++ rows } ∧
      (∀ e ∈ rows, ∀ c ∈ e.checks, c.2 = true) ∧
      Sql.Unique MonitoringEventRow.eventKey (w.events ++ rows) ∧
      ((w.previous (w.newSample s) = none ∧ rows = []) ∨ ∃ p,
        w.previous (w.newSample s) = some p ∧
          rows = capturedEvents (w.expectation s.container) p (w.newSample s)) := by
  obtain ⟨u, -, hcapture⟩ := bind_eq_ok.1 h
  have hprevious : Timeline.previous { w with
      samples := w.samples ++ [w.newSample s], nextSampleId := w.nextSampleId + 1 }
        (w.newSample s) = w.previous (w.newSample s) := previous_push (Or.inr le_rfl)
  change Timeline.captureContainerMonitoringEvents { w with
    samples := w.samples ++ [w.newSample s], nextSampleId := w.nextSampleId + 1 }
      (w.newSample s) = .ok w' at hcapture
  rw [Timeline.captureContainerMonitoringEvents, hprevious] at hcapture
  cases hp : w.previous (w.newSample s) with
  | none =>
    rw [hp] at hcapture
    obtain rfl := Except.ok.inj hcapture
    exact ⟨[], by simp, by simp, by simpa using hw.keys, Or.inl ⟨rfl, rfl⟩⟩
  | some p =>
    rw [hp] at hcapture
    have hgrown := foldlM_fresh hcapture (unique_capturedEvents _ _ _) fun e he e' he' => by
      rw [(of_mem_capturedEvents he).2.2]
      exact (hw.origins e' he').key_ne e.eventType
    exact ⟨_, hgrown.eq, hgrown.checks, hgrown.keys hw.keys, Or.inr ⟨p, rfl, rfl⟩⟩

theorem Sound.insertSample (hw : Sound w) {s : NewSample} (h : w.insertSample s = .ok w') :
    Sound w' := by
  obtain ⟨rows, rfl, hchecks, hkeys, hrows⟩ := insertSample_eq_ok hw h
  refine ⟨fun s' hs' => ?_, fun e he => ?_, fun e he => ?_, hkeys⟩
  · rcases List.mem_append.1 hs' with hs' | hs'
    · exact (hw.ids s' hs').trans (Nat.lt_succ_self _)
    · obtain rfl := List.mem_singleton.1 hs'
      exact Nat.lt_succ_self _
  · rcases List.mem_append.1 he with he | he
    · exact (hw.origins e he).mono (Nat.le_succ _)
    · rcases hrows with ⟨-, rfl⟩ | ⟨p, -, rfl⟩
      · exact absurd he List.not_mem_nil
      · obtain ⟨-, hid, hkey⟩ := of_mem_capturedEvents he
        rw [Origin, hid]
        exact ⟨Nat.lt_succ_self _, hkey⟩
  · exact (List.mem_append.1 he).elim (hw.checks e) (hchecks e)

/-- What is recorded stays so when later samples and other events come. -/
theorem Recorded.push {s new : ContainerSample} {rows : List MonitoringEventRow} {next : ℕ}
    (h : Recorded w s) (hnew : new.container ≠ s.container ∨ s.receivedAt ≤ new.receivedAt) :
    Recorded { w with
      samples := w.samples ++ [new], nextSampleId := next, events := w.events ++ rows } s := by
  intro p hp e he
  rw [previous_push hnew] at hp
  obtain ⟨severity, expectedState, hmem⟩ := h p hp e he
  exact ⟨severity, expectedState, List.mem_append_left _ hmem⟩

/-- The sample of another container. -/
theorem Tracked.insertOther (hw : Sound w) (ht : Tracked k w) {s : NewSample}
    (h : w.insertSample s = .ok w') (hk : s.container ≠ k) : Tracked k w' := by
  obtain ⟨rows, rfl, -, -, hrows⟩ := insertSample_eq_ok hw h
  have hsamples : ∀ events next, samplesOf k { w with
      samples := w.samples ++ [w.newSample s], nextSampleId := next, events := events } =
        samplesOf k w := by
    intro events next
    rw [samplesOf_push, if_neg (show (w.newSample s).container ≠ k from hk), List.append_nil]
  have hchanges : ∀ c, changesOf k c rows = [] := by
    intro c
    refine changesOf_eq_nil fun e he => Or.inl ?_
    rcases hrows with ⟨-, rfl⟩ | ⟨p, -, rfl⟩
    · exact absurd he List.not_mem_nil
    · rw [(of_mem_capturedEvents he).1]
      exact hk
  refine ⟨by rw [hsamples]; exact ht.sorted, fun c => ?_, fun s' hs' => ?_⟩
  · rw [observed, hsamples, changesOf_append, hchanges, List.append_nil]
    exact ht.encodes c
  · rw [hsamples] at hs'
    refine (ht.recorded s' hs').push (Or.inl ?_)
    rw [(mem_samplesOf.1 hs').2]
    exact hk

/-- **The next sample of the container**, later than those before it. -/
theorem Tracked.insertNext (hw : Sound w) (ht : Tracked k w) {s : NewSample}
    (h : w.insertSample s = .ok w') (hk : s.container = k)
    (hlater : ∀ s' ∈ samplesOf k w, s'.receivedAt < s.receivedAt) : Tracked k w' := by
  obtain ⟨rows, rfl, -, -, hrows⟩ := insertSample_eq_ok hw h
  subst hk
  have hsamples : ∀ events next, samplesOf s.container { w with
      samples := w.samples ++ [w.newSample s], nextSampleId := next, events := events } =
        samplesOf s.container w ++ [w.newSample s] := by
    intro events next
    rw [samplesOf_push, if_pos (show (w.newSample s).container = s.container from rfl)]
  have hids : ∀ s' ∈ w.samples, s'.id ≠ (w.newSample s).id := fun s' hs' =>
    (hw.ids s' hs').ne
  have hprevious : (w.previous (w.newSample s) = none ∧ samplesOf s.container w = []) ∨
      ∃ p, w.previous (w.newSample s) = some p ∧ p ∈ samplesOf s.container w ∧
        ∀ s' ∈ samplesOf s.container w, s'.receivedAt ≤ p.receivedAt :=
    previous_of_later hids hlater
  refine ⟨?_, fun c => ?_, fun s' hs' => ?_⟩
  · rw [hsamples]
    refine List.pairwise_append.2 ⟨ht.sorted, List.pairwise_singleton _ _, fun s' hs' b hb => ?_⟩
    obtain rfl := List.mem_singleton.1 hb
    exact hlater s' hs'
  · rw [observed, hsamples, List.map_append, List.map_singleton, changesOf_append]
    have hencodes := ht.encodes c
    rcases hprevious with ⟨hnone, hnil⟩ | ⟨p, hp, hmem, hlast⟩
    · have hrows : rows = [] := by
        rcases hrows with ⟨-, rfl⟩ | ⟨p, hp, -⟩
        · rfl
        · exact absurd (hnone.symm.trans hp) (by simp)
      have hchanges : changesOf s.container c w.events = [] := by
        rw [observed, hnil] at hencodes
        rw [List.eq_nil_iff_forall_not_mem]
        intro d hd
        obtain ⟨q, hq, -⟩ := hencodes.timed d hd
        exact absurd hq List.not_mem_nil
      rw [hnil, hrows, hchanges]
      exact encodes_first _ _
    · have hrows : rows = capturedEvents (w.expectation s.container) p (w.newSample s) := by
        rcases hrows with ⟨hnone, -⟩ | ⟨p', hp', rfl⟩
        · exact absurd (hnone.symm.trans hp) (by simp)
        · obtain rfl := Option.some.inj (hp'.symm.trans hp)
          rfl
      have hcaptured : changesOf s.container c
          (capturedEvents (w.expectation s.container) p (w.newSample s)) =
            if c.value (w.newSample s) = c.value p then []
            else [⟨(w.newSample s).receivedAt, c.value p, c.value (w.newSample s)⟩] :=
        changesOf_captured c rfl
      rw [hrows, hcaptured]
      have hpmem : (p.receivedAt, c.value p) ∈ observed s.container c w :=
        List.mem_map.2 ⟨p, hmem, rfl⟩
      have hlast : ∀ q ∈ observed s.container c w, q.1 ≤ (p.receivedAt, c.value p).1 := by
        intro q hq
        obtain ⟨s', hs', rfl⟩ := List.mem_map.1 hq
        exact hlast s' hs'
      have hlt : (p.receivedAt, c.value p).1 < (w.newSample s).receivedAt := hlater p hmem
      split
      next hsame =>
        rw [List.append_nil, hsame]
        exact hencodes.same hpmem hlast hlt
      next => exact hencodes.change hpmem hlast hlt
  · rw [hsamples] at hs'
    rcases List.mem_append.1 hs' with hs' | hs'
    · exact (ht.recorded s' hs').push (Or.inr (hlater s' hs').le)
    · obtain rfl := List.mem_singleton.1 hs'
      intro p hp e he
      rw [previous_push (Or.inr le_rfl)] at hp
      rcases hrows with ⟨hnone, -⟩ | ⟨p', hp', rfl⟩
      · exact absurd (hnone.symm.trans hp) (by simp)
      · obtain rfl := Option.some.inj (hp'.symm.trans hp)
        obtain ⟨e', he', heq⟩ :=
          mem_capturedEvents_expectation (w.expectation s.container) he
        refine ⟨e'.severity, e'.expectedState, List.mem_append_right _ ?_⟩
        rw [heq]
        exact he'

/-- The event of a maintenance, whose key is not one of a sample. -/
def OfMaintenance (e : MonitoringEventRow) : Prop :=
  e.sampleId = none ∧ (e.eventType = .maintenanceStarted ∨ e.eventType = .maintenanceEnded) ∧
    e.eventKey.toList.head? ≠ some 's'

theorem expiryEvent_ofMaintenance (e : ContainerExpectation) (t : ℤ) :
    OfMaintenance (expiryEvent e t) :=
  ⟨rfl, Or.inr rfl, by simp [expiryEvent, maintenanceEvent]⟩

section

variable {added : List MonitoringEventRow} {expectations : List ContainerExpectation}

/-- Events of maintenances leave everything as it is, whatever becomes of the expectations. -/
theorem Sound.grow (hw : Sound w) (h : Grown { w with expectations := expectations } w' added)
    (hadded : ∀ e ∈ added, OfMaintenance e) : Sound w' := by
  have hkeys := h.keys hw.keys
  obtain rfl := h.eq
  refine ⟨hw.ids, fun e he => ?_, fun e he => ?_, hkeys⟩
  · rcases List.mem_append.1 he with he | he
    · exact hw.origins e he
    · obtain ⟨hid, hrest⟩ := hadded e he
      rw [Origin, hid]
      exact hrest
  · exact (List.mem_append.1 he).elim (hw.checks e) (h.checks e)

theorem Tracked.grow (ht : Tracked k w) (h : Grown { w with expectations := expectations } w' added)
    (hadded : ∀ e ∈ added, OfMaintenance e) : Tracked k w' := by
  obtain rfl := h.eq
  refine ⟨ht.sorted, fun c => ?_, fun s hs p hp e he => ?_⟩
  · have hchanges : changesOf k c added = [] := by
      refine changesOf_eq_nil fun e he => Or.inr fun htype => ?_
      obtain ⟨-, hmaintenance, -⟩ := hadded e he
      rw [htype] at hmaintenance
      cases c <;> exact hmaintenance.elim nofun nofun
    change Encodes (observed k c w) (changesOf k c (w.events ++ added))
    rw [changesOf_append, hchanges, List.append_nil]
    exact ht.encodes c
  · obtain ⟨severity, expectedState, hmem⟩ := ht.recorded s hs p hp e he
    exact ⟨severity, expectedState, List.mem_append_left _ hmem⟩

end

/-- The update of an expectation writes of the maintenance that has run out, then of the one in
force. -/
theorem captureMaintenance_grown {time : ℤ} {old new : ContainerExpectation}
    (h : w.captureContainerMaintenanceEvent time old new = .ok w') :
    ∃ added, Grown w w' added ∧ ∀ e ∈ added, OfMaintenance e := by
  have heffective : ∀ (w₁ : Timeline) (key : String) (was is : Bool),
      key.toList.head? ≠ some 's' →
      (if was = is then pure w₁
        else w₁.insertEvent (maintenanceEvent key new time
          (if is then .maintenanceStarted else .maintenanceEnded) was is)) = Except.ok w' →
      ∃ added, Grown w₁ w' added ∧ ∀ e ∈ added, OfMaintenance e := by
    intro w₁ key was is hkey h
    split at h
    · obtain rfl := Except.ok.inj h
      exact ⟨[], .refl _, by simp⟩
    · obtain ⟨added, hgrown, hsub⟩ := insertEvent_grown h
      refine ⟨added, hgrown, fun e he => ?_⟩
      obtain rfl := List.mem_singleton.1 (hsub.subset he)
      refine ⟨rfl, ?_, hkey⟩
      cases is
      · exact Or.inr rfl
      · exact Or.inl rfl
  unfold Timeline.captureContainerMaintenanceEvent at h
  dsimp only at h
  cases huntil : old.maintenanceUntil with
  | none =>
    rw [huntil] at h
    obtain ⟨w₁, hw₁, h⟩ := bind_eq_ok.1 h
    obtain rfl := Except.ok.inj hw₁
    exact heffective _ _ _ _ (by simp) h
  | some t =>
    rw [huntil] at h
    dsimp only at h
    split at h
    · obtain ⟨w₁, hw₁, h⟩ := bind_eq_ok.1 h
      obtain ⟨added, hgrown, hsub⟩ := insertEvent_grown hw₁
      obtain ⟨added', hgrown', hadded'⟩ := heffective _ _ _ _ (by simp) h
      refine ⟨added ++ added', hgrown.trans hgrown', fun e he => ?_⟩
      rcases List.mem_append.1 he with he | he
      · obtain rfl := List.mem_singleton.1 (hsub.subset he)
        exact expiryEvent_ofMaintenance old t
      · exact hadded' e he
    · obtain ⟨w₁, hw₁, h⟩ := bind_eq_ok.1 h
      obtain rfl := Except.ok.inj hw₁
      exact heffective _ _ _ _ (by simp) h

/-- What a statement about expectations and maintenances does. -/
theorem perform_grown {c : Call} (h : c.perform w = .ok w') (hc : ∀ s, c ≠ .insertSample s) :
    ∃ expectations added, Grown { w with expectations := expectations } w' added ∧
      ∀ e ∈ added, OfMaintenance e := by
  cases c with
  | insertSample s => exact absurd rfl (hc s)
  | insertExpectation e =>
    obtain ⟨u, -, h⟩ := bind_eq_ok.1 h
    obtain ⟨v, -, h⟩ := bind_eq_ok.1 h
    obtain rfl := Except.ok.inj h
    exact ⟨w.expectations ++ [e], [], .refl _, by simp⟩
  | updateExpectation time new =>
    rw [Call.perform, Timeline.updateExpectation] at h
    cases hold : w.expectation new.container with
    | none =>
      rw [hold] at h
      obtain rfl := Except.ok.inj h
      exact ⟨w.expectations, [], .refl _, by simp⟩
    | some old =>
      rw [hold] at h
      exact ⟨_, captureMaintenance_grown h⟩
  | expireMaintenance now =>
    obtain ⟨added, hgrown, hsub⟩ := foldlM_grown h
    refine ⟨w.expectations, added, hgrown, fun e he => ?_⟩
    obtain ⟨x, -, hx⟩ := List.mem_filterMap.1 (hsub.subset he)
    split at hx
    · exact absurd hx (by simp)
    · split at hx
      · obtain rfl := Option.some.inj hx
        exact expiryEvent_ofMaintenance x _
      · exact absurd hx (by simp)

/-! ## Runs -/

theorem Sound.step (hw : Sound w) (c : Call) : Sound (w.step c) := by
  unfold Timeline.step
  cases hc : c.perform w with
  | error =>
    exact ⟨fun s hs => (hw.ids s hs).trans (Nat.lt_succ_self _),
      fun e he => (hw.origins e he).mono (Nat.le_succ _), hw.checks, hw.keys⟩
  | ok w' =>
    by_cases hsample : ∃ s, c = .insertSample s
    · obtain ⟨s, rfl⟩ := hsample
      exact hw.insertSample hc
    · obtain ⟨expectations, added, hgrown, hadded⟩ :=
        perform_grown hc fun s hs => hsample ⟨s, hs⟩
      exact hw.grow hgrown hadded

/-- Samples are only added. -/
theorem samplesOf_step (hw : Sound w) (k : ContainerKey) (c : Call) :
    samplesOf k w <+: samplesOf k (w.step c) := by
  refine List.IsPrefix.filter _ ?_
  unfold Timeline.step
  cases hc : c.perform w with
  | error => exact List.prefix_rfl
  | ok w' =>
    by_cases hsample : ∃ s, c = .insertSample s
    · obtain ⟨s, rfl⟩ := hsample
      obtain ⟨rows, rfl, -⟩ := insertSample_eq_ok hw hc
      exact List.prefix_append _ _
    · obtain ⟨expectations, added, hgrown, -⟩ := perform_grown hc fun s hs => hsample ⟨s, hs⟩
      obtain rfl := hgrown.eq
      exact List.prefix_rfl

theorem Tracked.step (hw : Sound w) (ht : Tracked k w) {c : Call}
    (hsorted : (samplesOf k (w.step c)).Pairwise fun s s' => s.receivedAt < s'.receivedAt) :
    Tracked k (w.step c) := by
  unfold Timeline.step at hsorted ⊢
  cases hc : c.perform w with
  | error => exact ⟨ht.sorted, ht.encodes, ht.recorded⟩
  | ok w' =>
    rw [hc] at hsorted
    by_cases hsample : ∃ s, c = .insertSample s
    · obtain ⟨s, rfl⟩ := hsample
      by_cases hk : s.container = k
      · refine ht.insertNext hw hc hk fun s' hs' => ?_
        obtain ⟨rows, rfl, -⟩ := insertSample_eq_ok hw hc
        dsimp only at hsorted
        rw [samplesOf_push, if_pos (show (w.newSample s).container = k from hk)] at hsorted
        exact (List.pairwise_append.1 hsorted).2.2 s' hs' _ (List.mem_singleton_self _)
      · exact ht.insertOther hw hc hk
    · obtain ⟨expectations, added, hgrown, hadded⟩ :=
        perform_grown hc fun s hs => hsample ⟨s, hs⟩
      exact ht.grow hgrown hadded

theorem sound_run (expectations : List ContainerExpectation) (calls : List Call) :
    Sound ((Timeline.fresh expectations).run calls) :=
  Runs.run_invariant (fun _ c hw => hw.step c) (sound_fresh expectations) calls

theorem tracked_run (expectations : List ContainerExpectation) {calls : List Call}
    (h : (samplesOf k ((Timeline.fresh expectations).run calls)).Pairwise
      fun s s' => s.receivedAt < s'.receivedAt) :
    Tracked k ((Timeline.fresh expectations).run calls) := by
  induction calls using List.reverseRecOn with
  | nil => exact tracked_fresh k expectations
  | append_singleton calls c ih =>
    have hw := sound_run expectations calls
    rw [Timeline.run, Runs.run_concat] at h ⊢
    exact (ih (h.sublist (samplesOf_step hw k c).sublist)).step hw h

/-! ## The theorem -/

/-- The events of a container stand for its samples: of each column they tell the changes, which are
a chain and give every value back; a sample has one event of a type at most; and neither capturing a
sample again nor an event with a key that is there adds anything. -/
structure Faithful (k : ContainerKey) (w : Timeline) : Prop where
  encodes : ∀ c, Encodes (observed k c w) (changesOf k c w.events)
  once : ((w.events.filter (·.sampleId.isSome)).map fun e => (e.sampleId, e.eventType)).Nodup
  again : ∀ s ∈ samplesOf k w, w.captureContainerMonitoringEvents s = .ok w
  key : ∀ e ∈ w.events, ∀ e', e'.eventKey = e.eventKey → (∀ c ∈ e'.checks, c.2 = true) →
    w.insertEvent e' = .ok w

/-- The sample and the type of an event give its key. -/
theorem Sound.once (hw : Sound w) :
    ((w.events.filter (·.sampleId.isSome)).map fun e => (e.sampleId, e.eventType)).Nodup := by
  have hkeys : ((w.events.filter (·.sampleId.isSome)).map (·.eventKey)).Nodup :=
    hw.keys.sublist (List.filter_sublist.map _)
  have hpair : (w.events.filter (·.sampleId.isSome)).map (·.eventKey) =
      ((w.events.filter (·.sampleId.isSome)).map fun e => (e.sampleId, e.eventType)).map
        fun p => sampleKey (p.1.getD 0) (suffixOf p.2) := by
    rw [List.map_map]
    refine List.map_congr_left fun e he => ?_
    obtain ⟨he, hid⟩ := List.mem_filter.1 he
    obtain ⟨id, hid⟩ := Option.isSome_iff_exists.1 hid
    have horigin := hw.origins e he
    rw [Origin, hid] at horigin
    rw [Function.comp, hid]
    exact horigin.2
  rw [hpair] at hkeys
  exact List.Nodup.of_map _ hkeys

/-- Events whose keys are there are not written a second time. -/
theorem foldlM_again {rows : List MonitoringEventRow}
    (h : ∀ e ∈ rows, (∃ e' ∈ w.events, e'.eventKey = e.eventKey) ∧ ∀ c ∈ e.checks, c.2 = true) :
    rows.foldlM Timeline.insertEvent w = .ok w := by
  induction rows with
  | nil => rfl
  | cons e rows ih =>
    obtain ⟨⟨e', he', hkey⟩, hchecks⟩ := h e (by simp)
    rw [List.foldlM_cons, insertEvent_of_key he' hkey hchecks]
    exact ih fun b hb => h b (List.mem_cons_of_mem _ hb)

theorem Recorded.again (hw : Sound w) {s : ContainerSample} (hs : Recorded w s) :
    w.captureContainerMonitoringEvents s = .ok w := by
  unfold Timeline.captureContainerMonitoringEvents
  cases hprevious : w.previous s with
  | none => rfl
  | some previous =>
    refine foldlM_again fun e he => ?_
    obtain ⟨e', he', heq⟩ := mem_capturedEvents_expectation none he
    obtain ⟨severity, expectedState, hmem⟩ := hs previous hprevious e' he'
    rw [heq]
    have hchecks := hw.checks _ hmem
    exact ⟨⟨_, hmem, rfl⟩, hchecks⟩

namespace Sample

def container : ContainerKey := ⟨⟨1⟩, "minecraft"⟩

def running (receivedAt : ℤ) : NewSample where
  container := container
  receivedAt := receivedAt
  state := .running
  health := .healthy
  restartCount := 0
  oomKilled := false
  exitCode := none

/-- The container stops in a maintenance, and comes back after it. -/
def calls : List Call :=
  [.insertSample (running 10), .updateExpectation 15 ⟨container, .running, true, none⟩,
    .insertSample { running 20 with state := .exited, exitCode := some 1 },
    .updateExpectation 25 ⟨container, .running, false, none⟩,
    .insertSample { running 30 with exitCode := some 0 }]

end Sample

end IvrmDashboard.Monitoring.ContainerEvents

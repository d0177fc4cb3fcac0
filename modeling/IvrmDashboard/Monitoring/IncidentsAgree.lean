import Mathlib
import IvrmDashboard.Monitoring.Episodes

/-!
# Active and recovered incidents agree

What recovers is told from one episode for all signals of a container, what is active from the start
of every signal that is open and shows. Both see the same signals open, and the recovered incidents
come one after the other. But an incident that is active loses the time before the signals that are
left have started, and it is not there at all when only the exit code is open, when the signal does
not show in the container, or when the container is not shown as being in trouble.
-/

namespace IvrmDashboard.Monitoring.Incidents

open Sql FirstPerKey OpenSpans Runs

variable {F : Type} {events l : List MonitoringEvent} {key : String} {rangeStart t : ℤ}
  {container : ContainerOverview F} {snapshot : MonitoringSnapshot F}

/-! ## The stream of a container -/

theorem eventByEntity_sorted (events : List MonitoringEvent) (key : String) :
    Sorted (eventByEntity events key) := by
  have : Std.Total fun a b => eventLe a b = true := ⟨fun a b => by
    simp only [eventLe, Bool.or_eq_true, Bool.and_eq_true, decide_eq_true_eq]
    omega⟩
  have : IsTrans MonitoringEvent fun a b => eventLe a b = true := ⟨fun a b c hab hbc => by
    simp only [eventLe, Bool.or_eq_true, Bool.and_eq_true, decide_eq_true_eq] at hab hbc ⊢
    omega⟩
  have hsorted : (eventByEntity events key).Pairwise fun a b => eventLe a b = true :=
    List.pairwise_insertionSort _ _
  refine hsorted.imp fun h => ?_
  simp only [eventLe, Bool.or_eq_true, Bool.and_eq_true, decide_eq_true_eq] at h
  omega

theorem mem_eventByEntity {e : MonitoringEvent} :
    e ∈ eventByEntity events key ↔ e ∈ events ∧ e.key = key := by
  rw [eventByEntity, mem_orderBy, List.mem_filter, decide_eq_true_iff]

/-- The recovered incidents of a container. -/
def recoveredOf (events : List MonitoringEvent) (rangeStart : ℤ) (key : String) :
    List RecoveredIncident :=
  (deriveRecoveredContainerIncidents events rangeStart).filter fun r =>
    entityKey r.hostId r.containerName = key

/-- They are those of the loop over its events. -/
theorem recoveredOf_eq (events : List MonitoringEvent) (rangeStart : ℤ) (key : String) :
    recoveredOf events rangeStart key =
      (recoveryLoop rangeStart (eventByEntity events key)).recovered := by
  have hkey : ∀ key', ∀ r ∈ (recoveryLoop rangeStart (eventByEntity events key')).recovered,
      entityKey r.hostId r.containerName = key' := by
    intro key' r hr
    obtain ⟨-, b, hb, -, hr⟩ := (follows (eventByEntity_sorted events key')).past r hr
    exact hr.trans (mem_eventByEntity.1 hb).2
  have hself : (recoveryLoop rangeStart (eventByEntity events key)).recovered.filter
      (fun r => entityKey r.hostId r.containerName = key) =
        (recoveryLoop rangeStart (eventByEntity events key)).recovered :=
    List.filter_eq_self.2 fun r hr => decide_eq_true (hkey key r hr)
  rw [recoveredOf, deriveRecoveredContainerIncidents, List.filter_flatMap]
  by_cases hmem : key ∈ entities events
  · have hnodup : ((entities events).map id).Nodup := by
      rw [List.map_id]
      exact nodup_map_firstPerKey events
    rw [flatMap_eq_of_unique hnodup hmem fun key' _ hne => ?_, hself]
    exact List.filter_eq_nil_iff.2 fun r hr => by
      rw [decide_eq_true_iff, hkey key' r hr]
      exact hne
  · have hnil : eventByEntity events key = [] := by
      rw [List.eq_nil_iff_forall_not_mem]
      intro e he
      obtain ⟨hevent, rfl⟩ := mem_eventByEntity.1 he
      exact hmem (key_mem_map_firstPerKey hevent)
    rw [hnil, List.flatMap_eq_nil_iff.2 fun key' hkey' => ?_]
    · rfl
    · exact List.filter_eq_nil_iff.2 fun r hr => by
        rw [decide_eq_true_iff, hkey key' r hr]
        rintro rfl
        exact hmem hkey'

/-! ## The start of what is active -/

/-- The container is shown as being in trouble. -/
def Shown (snapshot : MonitoringSnapshot F) (container : ContainerOverview F) : Prop :=
  container.status ∈ activeContainerStatuses ∧ container.maintenanceActive = false ∧
    ∃ host ∈ snapshot.hosts, host.id = container.hostId

/-- By the instant something has started that the container still shows: a state or a health that is
open, under what is expected of the container now, or the last kill for want of memory. -/
def ExplainedBy (container : ContainerOverview F) (l : List MonitoringEvent) (t : ℤ) : Prop :=
  (currentStateIsIncident container = true ∧ ∃ e, OpenedBy signalling .state l e ∧
    e.expectedState = container.expectedState ∧ e.occurredAt ≤ t) ∨
  (currentHealthIsIncident container = true ∧ ∃ e, OpenedBy signalling .health l e ∧
    e.expectedState = container.expectedState ∧ e.occurredAt ≤ t) ∨
  (container.oomKilled = true ∧ (∃ e ∈ l, isOom e = true) ∧
    ∀ e ∈ l, isOom e = true → e.occurredAt ≤ t)

/-- The last kill for want of memory. -/
theorem find?_isOom (h : Sorted l) :
    (∃ e ∈ l.reverse.find? isOom, e.occurredAt ≤ t) ↔
      (∃ e ∈ l, isOom e = true) ∧ ∀ e ∈ l, isOom e = true → e.occurredAt ≤ t := by
  constructor
  · rintro ⟨e, he, ht⟩
    refine ⟨⟨e, List.mem_reverse.1 (List.mem_of_find?_eq_some he), List.find?_some he⟩, ?_⟩
    intro b hb hoom
    obtain ⟨-, later, earlier, hsplit, hlater⟩ := List.find?_eq_some_iff_append.1 he
    have hl : l = earlier.reverse ++ e :: later.reverse := by
      rw [← List.reverse_reverse l, hsplit]
      simp
    subst hl
    rcases List.mem_append.1 hb with hb | hb
    · exact ((List.pairwise_append.1 h).2.2 b hb e (by simp)).trans ht
    · rcases List.mem_cons.1 hb with rfl | hb
      · exact ht
      · have hnot := hlater b (List.mem_reverse.1 hb)
        simp [hoom] at hnot
  · rintro ⟨⟨e, he, hoom⟩, hall⟩
    cases hfind : l.reverse.find? isOom with
    | none => exact absurd hoom (List.find?_eq_none.1 hfind e (List.mem_reverse.2 he))
    | some b =>
      exact ⟨b, rfl, hall b (List.mem_reverse.1 (List.mem_of_find?_eq_some hfind))
        (List.find?_some hfind)⟩

/-- What opens a signal is about the last expected state. -/
theorem OpenedBy.expectedState_eq {x : SignalName} {e e' : MonitoringEvent}
    (h : OpenedBy signalling x l e) (h' : OpenedBy signalling x l e') :
    e.expectedState = e'.expectedState :=
  Option.some.inj (h.phase_eq.symm.trans h'.phase_eq)

theorem exists_candidate_iff (h : Sorted l) :
    (∃ o ∈ candidates container l, o.startedAt ≤ t) ↔ ExplainedBy container l t := by
  have hsignal : ∀ x, (∃ o ∈ currentSignal container (deriveOpenSignals l x), o.startedAt ≤ t) ↔
      ∃ e, OpenedBy signalling x l e ∧ e.expectedState = container.expectedState ∧
        e.occurredAt ≤ t :=
    fun x => (deriveOpenSignals_tells h x).exists_iff fun e e' => OpenedBy.expectedState_eq
  have hoom := find?_isOom (t := t) h
  rw [ExplainedBy, ← hsignal, ← hsignal, ← hoom, candidates]
  simp only [List.mem_append, or_and_right, exists_or, or_assoc]
  refine or_congr ?_ (or_congr ?_ ?_)
  · cases currentStateIsIncident container <;> simp
  · cases currentHealthIsIncident container <;> simp
  · cases container.oomKilled <;> simp

/-- The incident starts with the candidate that started first. -/
theorem exists_firstCandidate_iff :
    (∃ s ∈ (firstCandidate container l).map (·.startedAt), s ≤ t) ↔
      ∃ o ∈ candidates container l, o.startedAt ≤ t := by
  constructor
  · rintro ⟨s, hs, ht⟩
    obtain ⟨o, ho, rfl⟩ := Option.map_eq_some_iff.1 hs
    exact ⟨o, mem_of_firstBy ho, ht⟩
  · rintro ⟨o, ho, ht⟩
    cases hfirst : firstCandidate container l with
    | none =>
      rw [firstCandidate, firstBy_eq_none] at hfirst
      simp [hfirst] at ho
    | some first =>
      have hle := firstBy_le (fun a b => by simpa using le_total a.startedAt b.startedAt)
        (fun a b c hab hbc => by simpa using (of_decide_eq_true hab).trans (of_decide_eq_true hbc))
        hfirst ho
      exact ⟨first.startedAt, rfl, (of_decide_eq_true hle).trans ht⟩

theorem hostOf_isSome {id : Uuid} :
    (∃ host, hostOf snapshot id = some host) ↔ ∃ host ∈ snapshot.hosts, host.id = id := by
  rw [← Option.isSome_iff_exists, hostOf, List.find?_isSome]
  simp

/-- **When an incident of the container is active that started by an instant.** -/
theorem exists_active_iff :
    (∃ i ∈ deriveActiveContainerIncidents snapshot (eventByEntity events),
      entityKey i.hostId i.containerName = key ∧ ∃ s ∈ i.startedAt, s ≤ t) ↔
    ∃ c ∈ snapshot.containers, entityKey c.hostId c.name = key ∧ Shown snapshot c ∧
      ExplainedBy c (eventByEntity events key) t := by
  simp only [deriveActiveContainerIncidents, List.mem_filterMap]
  constructor
  · rintro ⟨i, ⟨c, hc, hi⟩, hkey, hs⟩
    split at hi
    next => exact absurd hi (by simp)
    next hshown =>
      obtain ⟨host, hhost, rfl⟩ := Option.map_eq_some_iff.1 hi
      have hkey : entityKey c.hostId c.name = key := hkey
      simp only [Bool.or_eq_true, decide_eq_true_eq, not_or, not_not, Bool.not_eq_true] at hshown
      refine ⟨c, hc, hkey, ⟨hshown.1, hshown.2, hostOf_isSome.1 ⟨host, hhost⟩⟩, ?_⟩
      rw [← hkey, ← exists_candidate_iff (eventByEntity_sorted events _)]
      exact exists_firstCandidate_iff.1 hs
  · rintro ⟨c, hc, rfl, ⟨hstatus, hmaintenance, hhost⟩, hexplained⟩
    obtain ⟨host, hhost⟩ := hostOf_isSome.2 hhost
    refine ⟨activeIncident snapshot.generatedAt c host
      (eventByEntity events (entityKey c.hostId c.name)), ⟨c, hc, ?_⟩, rfl, ?_⟩
    · rw [if_neg (by simp [hstatus, hmaintenance]), hhost, Option.map_some]
    · rw [← exists_candidate_iff (eventByEntity_sorted events _)] at hexplained
      exact exists_firstCandidate_iff.2 hexplained

/-! ## Nothing is lost -/

/-- The two readings of the events of a container agree: they see the same signals open, the
recovered incidents are disjoint and in order, and every instant of the range at which a signal is
open lies in a recovered incident or in one that is active. An incident lasts until it has
recovered, and an active one until the snapshot. -/
structure IncidentsAgree (snapshot : MonitoringSnapshot F) (events : List MonitoringEvent)
    (rangeStart : ℤ) (key : String) : Prop where
  signals : ∀ x, (deriveOpenSignals (eventByEntity events key) x).isSome ↔
    x ∈ (recoveryLoop rangeStart (eventByEntity events key)).activeSignals
  valid : ∀ r ∈ recoveredOf events rangeStart key, r.startedAt ≤ r.recoveredAt
  ordered : (recoveredOf events rangeStart key).Pairwise fun r r' =>
    r.recoveredAt ≤ r'.startedAt ∧
      Disjoint (Set.Ico r.startedAt r.recoveredAt) (Set.Ico r'.startedAt r'.recoveredAt)
  covered : ∀ t, rangeStart ≤ t → t ≤ snapshot.generatedAt →
    OpenAt signalling (·.occurredAt) (eventByEntity events key) t →
      (∃ r ∈ recoveredOf events rangeStart key, t ∈ Set.Ico r.startedAt r.recoveredAt) ∨
      ∃ i ∈ deriveActiveContainerIncidents snapshot (eventByEntity events),
        entityKey i.hostId i.containerName = key ∧
          ∃ s ∈ i.startedAt, t ∈ Set.Icc s snapshot.generatedAt

/-- **No downtime is lost exactly when the span that is open at the end is explained from its
beginning**, or from the start of the range: by then a signal has started that the container still
shows, and the container is shown as being in trouble. -/
theorem incidents_agree_iff (snapshot : MonitoringSnapshot F) (events : List MonitoringEvent)
    (rangeStart : ℤ) (key : String) :
    IncidentsAgree snapshot events rangeStart key ↔
      ∀ e, SpanBegins signalling (eventByEntity events key) e →
        max e.occurredAt rangeStart ≤ snapshot.generatedAt →
        ∃ c ∈ snapshot.containers, entityKey c.hostId c.name = key ∧ Shown snapshot c ∧
          ExplainedBy c (eventByEntity events key) (max e.occurredAt rangeStart) := by
  set l := eventByEntity events key with hl
  have hsorted : Sorted l := eventByEntity_sorted events key
  have hfollows : Follows rangeStart l (recoveryLoop rangeStart l) := follows hsorted
  have hrecovered := recoveredOf_eq events rangeStart key
  rw [← hl] at hrecovered
  constructor
  · intro h e hbegins hle
    set m := max e.occurredAt rangeStart
    rcases h.covered m (le_max_right _ _) hle (hbegins.openAt hsorted (le_max_left _ _)) with
      ⟨r, hr, hrm⟩ | ⟨i, hi, hkey, s, hs, hsm⟩
    · -- what has recovered has done so before the span began
      rw [hrecovered] at hr
      obtain ⟨x, o, ho⟩ := hbegins.isOpen
      cases hepisode : (recoveryLoop rangeStart l).episode with
      | none =>
        have hx := (hfollows.active x).2 ⟨o, ho⟩
        rw [hfollows.none_active hepisode] at hx
        exact absurd hx (Finset.notMem_empty x)
      | some b =>
        obtain ⟨hb, hat⟩ := hfollows.episode b hepisode
        obtain rfl := hb.unique hbegins
        have hbefore := hfollows.before r hr b hepisode
        have hlt : m < r.recoveredAt := hrm.2
        have hm : b.startEvent.occurredAt ≤ m := le_max_left _ _
        omega
    · exact exists_active_iff.1 ⟨i, hi, hkey, s, hs, hsm.1⟩
  · intro h
    refine ⟨fun x => ?_, fun r hr => ?_, ?_, fun t hstart hend hopen => ?_⟩
    · rw [hfollows.active, (deriveOpenSignals_tells hsorted x).isSome_iff]
      rfl
    · rw [hrecovered] at hr
      exact (hfollows.past r hr).1
    · rw [hrecovered]
      refine hfollows.ordered.imp fun hle => ⟨hle, ?_⟩
      rw [Set.disjoint_left]
      intro t ht ht'
      exact absurd (ht.2.trans_le hle) (not_lt.2 ht'.1)
    · rw [hrecovered]
      obtain ⟨x, e, hheld, ht⟩ := hopen
      rcases hfollows.covered t x e hstart ht hheld with hr | ⟨b, hb, hbt⟩
      · exact Or.inl hr
      · obtain ⟨hbegins, hat⟩ := hfollows.episode b hb
        have hle : max b.startEvent.occurredAt rangeStart ≤ t := max_le (hat ▸ hbt) hstart
        obtain ⟨i, hi, hkey, s, hs, hsm⟩ :=
          exists_active_iff.2 (h b.startEvent hbegins (hle.trans hend))
        exact Or.inr ⟨i, hi, hkey, s, hs, hsm.trans hle, hend⟩

/-! ## Signals that overlap -/

/-- What the last event of a type says of the container. -/
def lastValue (type : EventType) (l : List MonitoringEvent) : Option String :=
  (l.reverse.find? (·.eventType = type)).bind (·.toValue)

/-- The container is shown as its sample has it, which is as the events have left it, and nothing has
happened since the snapshot. -/
structure Consistent (snapshot : MonitoringSnapshot F) (container : ContainerOverview F)
    (sample : ContainerSampleRow F) (l : List MonitoringEvent) : Prop where
  shown : container ∈ snapshot.containers
  same : container.hostId = sample.hostId ∧ container.name = sample.containerName ∧
    container.state = sample.state ∧ container.health = sample.health ∧
    container.oomKilled = sample.oomKilled
  status : container.status = expectedStatus sample container.expectedState
  state : lastValue .stateChanged l = some container.state.text
  health : lastValue .healthChanged l = some container.health.text
  expected : l.getLast?.map (·.expectedState) = some container.expectedState
  past : ∀ e ∈ l, e.occurredAt ≤ snapshot.generatedAt

namespace Sample

def sampleHostId : Uuid := ⟨7⟩

def sampleEvent (id occurredAt : ℤ) (eventType : EventType) (severity : EventSeverity)
    (fromValue toValue : String) : MonitoringEvent where
  id := id
  hostId := sampleHostId
  serverId := "host-1"
  hostDisplayName := "Host 1"
  containerName := "mc-main"
  occurredAt := occurredAt
  eventType := eventType
  severity := severity
  fromValue := some fromValue
  toValue := some toValue
  expectedState := some .running

/-- The container restarts and is unhealthy; it runs again, and is unhealthy still. -/
def sampleEvents : List MonitoringEvent :=
  [sampleEvent 1 10000 .stateChanged .warning "running" "restarting",
   sampleEvent 2 20000 .healthChanged .critical "healthy" "unhealthy",
   sampleEvent 3 30000 .stateChanged .recovery "restarting" "running"]

def sampleRow : ContainerSampleRow ℕ where
  hostId := sampleHostId
  containerName := "mc-main"
  state := .running
  health := .unhealthy
  restartCount := 1
  oomKilled := false
  exitCode := some 0
  cpuPercent := none
  memoryUsageBytes := none
  memoryLimitBytes := none
  networkRxBytes := none
  networkTxBytes := none
  blockReadBytes := none
  blockWriteBytes := none
  pids := none
  receivedAt := 38000000

def sampleContainer : ContainerOverview ℕ where
  hostId := sampleHostId
  hostDisplayName := "Host 1"
  name := "mc-main"
  status := .error
  state := .running
  health := .unhealthy
  restartCount := 1
  oomKilled := false
  exitCode := some 0
  cpuPercent := none
  memoryUsageBytes := none
  memoryLimitBytes := none
  networkRxBytes := none
  networkTxBytes := none
  blockReadBytes := none
  blockWriteBytes := none
  pids := none
  receivedAt := 38000000
  ageSeconds := 2
  expectedState := some .running
  maintenanceMode := false
  maintenanceActive := false
  maintenanceReason := none
  maintenanceUntil := none

def sampleSnapshot : MonitoringSnapshot ℕ where
  hosts :=
    [{ id := sampleHostId, serverId := "host-1", displayName := "Host 1", provider := "vps",
       environment := "production", status := .online, agentVersion := none, receivedAt := none,
       sentAt := none, ageSeconds := none, cpuCount := none, memoryTotalBytes := none,
       memoryAvailableBytes := none, diskTotalBytes := none, diskAvailableBytes := none,
       loadAverage1 := none, loadAverage5 := none, loadAverage15 := none, uptimeSeconds := none }]
  containers := [sampleContainer]
  generatedAt := 40000

def sampleKey : String := entityKey sampleHostId "mc-main"

theorem sample_stream : eventByEntity sampleEvents sampleKey = sampleEvents := by
  have hfilter : sampleEvents.filter (·.key = sampleKey) = sampleEvents :=
    List.filter_eq_self.2 fun e he => by
      simp only [sampleEvents, List.mem_cons, List.not_mem_nil, or_false] at he
      rcases he with rfl | rfl | rfl <;> exact decide_eq_true rfl
  rw [eventByEntity, hfilter, orderBy]
  refine List.Pairwise.insertionSort_eq ?_
  decide

theorem sample_consistent : Consistent sampleSnapshot sampleContainer sampleRow sampleEvents where
  shown := by simp [sampleSnapshot]
  same := by decide
  status := by decide
  state := by decide
  health := by decide
  expected := by decide
  past := by decide

/-- **The time between two openings is lost**: while the container is unhealthy, the incident is said
to have begun with that, after 10 s of restarting that nothing tells of. -/
theorem overlapping_signals_lose_downtime :
    Consistent sampleSnapshot sampleContainer sampleRow (eventByEntity sampleEvents sampleKey) ∧
      ¬ IncidentsAgree sampleSnapshot sampleEvents 0 sampleKey := by
  rw [sample_stream]
  refine ⟨sample_consistent, fun h => ?_⟩
  have hopen : OpenAt signalling (·.occurredAt) (eventByEntity sampleEvents sampleKey) 15000 := by
    rw [sample_stream]
    refine ⟨.state, sampleEvent 1 10000 .stateChanged .warning "running" "restarting",
      ⟨[], _, rfl, ⟨rfl, rfl⟩, fun e he => ?_⟩, by decide⟩
    simp only [List.mem_cons, List.not_mem_nil, or_false] at he
    rcases he with rfl | rfl <;> exact ⟨rfl, fun _ => by decide⟩
  rcases h.covered 15000 (by decide) (by decide) hopen with ⟨r, hr, -⟩ | ⟨i, hi, hkey, s, hs, hsm⟩
  · rw [recoveredOf_eq, sample_stream] at hr
    exact absurd hr (List.not_mem_nil)
  · obtain ⟨c, hc, -, -, hexplained⟩ := exists_active_iff.1 ⟨i, hi, hkey, s, hs, hsm.1⟩
    obtain rfl := List.mem_singleton.1 hc
    rw [sample_stream] at hexplained
    rcases hexplained with ⟨hstate, -⟩ | ⟨-, e, he, -, ht⟩ | ⟨hoom, -⟩
    · exact absurd hstate (by decide)
    · obtain ⟨pre, post, hsplit, ⟨hname, -⟩, -⟩ := he
      have hmem : e ∈ sampleEvents := hsplit ▸ by simp
      simp only [sampleEvents, List.mem_cons, List.not_mem_nil, or_false] at hmem
      rcases hmem with rfl | rfl | rfl
      · exact absurd hname (by decide)
      · exact absurd ht (by decide)
      · exact absurd hname (by decide)
    · exact absurd hoom (by decide)

end Sample

end IvrmDashboard.Monitoring.Incidents

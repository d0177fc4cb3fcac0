import Mathlib.Data.List.Pairwise
import IvrmDashboard.Monitoring.EventPages

/-!
# The timeline is read as a whole

A page is the first 500 of the events that match after the cursor (`getMonitoringEventsV2_page`), and
the reader gets it if all of them pass. So what `getMonitoringEvents` ends with is what a reader of
pages ends with (`getMonitoringEvents_eq`).
-/

namespace IvrmDashboard.Monitoring.EventPages

open Sql Notifications Backups Keyset

/-! ## What matches -/

/-- The length of the range. -/
def HistoryRange.interval : HistoryRange → ℤ
  | oneHour => 3600 * second
  | sixHours => 6 * 3600 * second
  | day => Sql.day
  | week => 7 * Sql.day
  | month => 30 * Sql.day

theorem intervalOf_text (range : HistoryRange) : intervalOf range.text = some range.interval := by
  cases range <;> rfl

/-- The events that match while a page is read. -/
def EventRead.matching (r : EventRead) (q : MonitoringEventQuery) : List ListedEvent :=
  r.tables.listed.filter fun e =>
    decide (r.clock e - q.range.interval ≤ e.event.occurredAt) &&
      (given q.serverId).all (e.serverId = ·) &&
      (given q.containerName).all (e.event.containerName = ·) &&
      (q.severity.map Severity.text).all (e.event.severity = ·)

/-- The filter is one the reader takes. -/
structure MonitoringEventQuery.Accepted (q : MonitoringEventQuery) : Prop where
  server : (given q.serverId).all isValidHostServerId = true
  container : (given q.containerName).all ContainerEvents.containerNameOk = true
  together : (given q.serverId).isNone = (given q.containerName).isNone

/-- The place of an event in the order of the pages. -/
def ListedEvent.stamp (e : ListedEvent) : Stamp := ⟨e.event.occurredAt, e.event.id⟩

/-- The event passes the reader, and its time is read back as it was. -/
structure ListedEvent.Readable [Readings] (e : ListedEvent) : Prop where
  accepted : (parseEventRow e.payload).isSome = true
  lossless : Readings.timestamptz (jsonTimestamptz e.event.occurredAt) = some e.event.occurredAt

/-! ## The tables -/

theorem EventTables.mem_listed {t : EventTables} {e : ListedEvent} (h : e ∈ t.listed) :
    e.event ∈ t.events := by
  obtain ⟨event, hevent, hlisted⟩ := List.mem_filterMap.1 h
  obtain ⟨host, -, rfl⟩ := Option.map_eq_some_iff.1 hlisted
  exact hevent

theorem EventTables.listed_ids (t : EventTables) :
    t.listed.Pairwise fun a b => a.event.id ≠ b.event.id := by
  have hids := List.pairwise_map.1 t.ids
  refine List.Pairwise.filterMap _ (fun a b hab c hc d hd => ?_) hids
  obtain ⟨-, -, rfl⟩ := Option.map_eq_some_iff.1 hc
  obtain ⟨-, -, rfl⟩ := Option.map_eq_some_iff.1 hd
  exact hab

section Matching

variable {r : EventRead} {q : MonitoringEventQuery}

theorem mem_listed_of_matching {e : ListedEvent} (h : e ∈ r.matching q) : e ∈ r.tables.listed :=
  List.mem_of_mem_filter h

theorem matching_ids (r : EventRead) (q : MonitoringEventQuery) :
    (r.matching q).Pairwise fun a b => a.event.id ≠ b.event.id :=
  r.tables.listed_ids.filter _

theorem matching_distinct (r : EventRead) (q : MonitoringEventQuery) :
    Distinct ListedEvent.stamp (r.matching q) where
  nodup := (matching_ids r q).imp fun hne heq => hne (by rw [heq])
  keys a ha b hb h := by
    by_contra hne
    have : Std.Symm fun a b : ListedEvent => a.event.id ≠ b.event.id := ⟨fun _ _ h => h.symm⟩
    exact (matching_ids r q).forall ha hb hne (congrArg Stamp.id h)

end Matching

/-- Events have been added, and the other events are as they were. -/
def EventTables.Grown (t t' : EventTables) : Prop := t.events <+: t'.events

/-- An event keeps its time while others are added. -/
theorem stamp_eq_of_id {reads : ℕ → EventRead} {q : MonitoringEventQuery}
    (hgrown : ∀ n, (reads n).tables.Grown (reads (n + 1)).tables) (m : ℕ) (a : ListedEvent)
    (ha : a ∈ (reads m).matching q) (n : ℕ) (b : ListedEvent) (hb : b ∈ (reads n).matching q)
    (hid : a.event.id = b.event.id) : a.stamp = b.stamp := by
  have hearlier : ∀ {m n}, m ≤ n → (reads m).tables.events <+: (reads n).tables.events := by
    intro m n hmn
    induction hmn with
    | refl => exact List.prefix_rfl
    | step _ ih => exact ih.trans (hgrown _)
  have haevent := EventTables.mem_listed (mem_listed_of_matching ha)
  have hbevent := EventTables.mem_listed (mem_listed_of_matching hb)
  have hevent : a.event = b.event := by
    rcases Nat.le_total m n with hmn | hnm
    · exact (reads n).tables.ids.eq ((hearlier hmn).subset haevent) hbevent hid
    · exact (reads m).tables.ids.eq haevent ((hearlier hnm).subset hbevent) hid
  rw [ListedEvent.stamp, ListedEvent.stamp, hevent]

/-! ## A page -/

theorem newestFirst_eq (a b : ListedEvent) : newestFirst a b = decide (b.stamp ≤ a.stamp) := by
  rw [newestFirst, Bool.eq_iff_iff]
  simp only [Bool.or_eq_true, Bool.and_eq_true, decide_eq_true_eq, Stamp.le_def, ListedEvent.stamp]

/-- The arguments for a page after a cursor. -/
def pageArguments (q : MonitoringEventQuery) (before : Option Stamp) : EventArguments where
  range := q.range.text
  serverId := given q.serverId
  containerName := given q.containerName
  severity := q.severity.map Severity.text
  beforeAt := before.map (·.time)
  beforeId := before.map fun c => (c.id : ℤ)
  limit := 500

theorem isAfter_eq (q : MonitoringEventQuery) (before : Option Stamp) (e : ListedEvent) :
    (pageArguments q before).isAfter e = decide (After before e.stamp) := by
  rw [Bool.eq_iff_iff, decide_eq_true_eq]
  cases before with
  | none => simp [pageArguments, EventArguments.isAfter, After]
  | some c =>
    simp only [pageArguments, EventArguments.isAfter, Option.map_some, Option.all_some,
      Option.any_some, Bool.or_eq_true, Bool.and_eq_true, decide_eq_true_eq, Int.ofNat_lt, After,
      Option.mem_some_iff, forall_eq', Stamp.lt_def, ListedEvent.stamp]

/-- **The query returns the first 500 events that match after the cursor.** -/
theorem getMonitoringEventsV2_page {r : EventRead} {q : MonitoringEventQuery}
    {before : Option Stamp} (hq : q.Accepted) (hbefore : ∀ c ∈ before, 0 < c.id) :
    getMonitoringEventsV2 r.tables r.clock (pageArguments q before) =
      .ok (pageOf ListedEvent.stamp 500 (r.matching q) before) := by
  have hserver : ((given q.serverId).any fun s => !serverIdOk s || ipv4Literal s) = false := by
    have h := hq.server
    cases hs : given q.serverId with
    | none => rfl
    | some s =>
      rw [hs] at h
      simp only [Option.all_some, isValidHostServerId, Bool.and_eq_true, Bool.not_eq_true'] at h
      simp [h.1, h.2]
  have hcontainer :
      ((given q.containerName).any fun s => !ContainerEvents.containerNameOk s) = false := by
    have h := hq.container
    cases hs : given q.containerName with
    | none => rfl
    | some s =>
      rw [hs] at h
      simpa using h
  have hseverity : ((q.severity.map Severity.text).any (· ∉ severities)) = false := by
    cases q.severity with
    | none => rfl
    | some s => cases s <;> decide
  have hcursor : ((before.map fun c => (c.id : ℤ)).any (· ≤ 0)) = false := by
    cases before with
    | none => rfl
    | some c =>
      have := hbefore c rfl
      simp only [Option.map_some, Option.any_some, decide_eq_false_iff_not]
      omega
  have hnone : ((before.map (·.time)).isNone != (before.map fun c => (c.id : ℤ)).isNone) =
      false := by
    cases before <;> rfl
  have hfilter : (r.tables.listed.filter fun e =>
      decide (r.clock e - q.range.interval ≤ e.event.occurredAt) &&
        (pageArguments q before).selects e && (pageArguments q before).isAfter e) =
      (r.matching q).filter fun e => After before e.stamp := by
    rw [EventRead.matching, List.filter_filter]
    refine List.filter_congr fun e _ => ?_
    rw [isAfter_eq, EventArguments.selects, Bool.and_comm, Bool.and_assoc, Bool.and_assoc,
      Bool.and_assoc]
    rfl
  have horder : newestFirst = fun a b => decide (ListedEvent.stamp b ≤ a.stamp) := by
    funext a b
    exact newestFirst_eq a b
  unfold getMonitoringEventsV2
  rw [pageOf, ← hfilter, ← horder]
  simp only [pageArguments, intervalOf_text, orRaise, raiseIf, hserver, hcontainer, hseverity,
    hcursor, hnone, hq.together, bne_self_eq_false]
  rfl

/-! ## The reader -/

section

variable [Readings] {reads : ℕ → EventRead} {q : MonitoringEventQuery}

theorem parseEventRow_eq {row : EventPayload} (h : (parseEventRow row).isSome = true) :
    parseEventRow row = some row.event := by
  obtain ⟨e, he⟩ := Option.isSome_iff_exists.1 h
  rw [he]
  simp only [parseEventRow, Option.bind_eq_bind, Option.bind_eq_some_iff] at he
  obtain ⟨-, -, -, -, -, -, -, -, -, -, -, -, -, -, -, -, -, -, hrow⟩ := he
  exact hrow.symm

/-- A page of events that pass. -/
theorem mapM_parseEventRow {page : List ListedEvent} (h : ∀ e ∈ page, e.Readable) :
    (page.map (·.payload)).mapM parseEventRow = some (page.map (·.payload.event)) := by
  induction page with
  | nil => rfl
  | cons e page ih =>
    obtain ⟨he, hpage⟩ := List.forall_mem_cons.1 h
    rw [List.map_cons, List.mapM_cons, parseEventRow_eq he.accepted, ih hpage]
    rfl

/-- The form of a cursor between two pages. -/
def cursorText (c : Stamp) : String × ℤ := (jsonTimestamptz c.time, c.id)

/-- The cursor is one the database takes. -/
def IsCursor (c : Stamp) : Prop :=
  0 < c.id ∧ Readings.timestamptz (jsonTimestamptz c.time) = some c.time

theorem eventArguments_eq {before : Option Stamp} (h : ∀ c ∈ before, IsCursor c) :
    eventArguments q (given q.serverId) (given q.containerName) (before.map cursorText) =
      some (pageArguments q before) := by
  cases before with
  | none => rfl
  | some c =>
    have hcast := (h c rfl).2
    simp only [eventArguments, Option.map_some, cursorText, hcast]
    rfl

/-- **The reader gets the page.** -/
theorem fetchEventPage_eq {r : EventRead} {before : Option Stamp} (hq : q.Accepted)
    (hread : ∀ e ∈ r.matching q, e.Readable) (hbefore : ∀ c ∈ before, IsCursor c) :
    fetchEventPage r q (given q.serverId) (given q.containerName) (before.map cursorText) =
      .ok ((pageOf ListedEvent.stamp 500 (r.matching q) before).map (·.payload.event)) := by
  have hpage : ∀ e ∈ pageOf ListedEvent.stamp 500 (r.matching q) before, e.Readable :=
    fun e he => hread e ((isPage_pageOf _ (matching_distinct r q)).sound e he).1
  have hrows := getMonitoringEventsV2_page (r := r) hq fun c hc => (hbefore c hc).1
  unfold fetchEventPage
  rw [eventArguments_eq hbefore]
  dsimp only [Js.orThrow, bind, Except.bind]
  rw [hrows]
  dsimp only [parseEventPayload]
  rw [mapM_parseEventRow hpage]
  rfl

theorem isCursor_stamp {r : EventRead} {e : ListedEvent} (he : e ∈ r.matching q)
    (hread : e.Readable) : IsCursor e.stamp :=
  ⟨r.tables.positive e.event (EventTables.mem_listed (mem_listed_of_matching he)), hread.lossless⟩

/-- **`getMonitoringEvents` is a reader of pages.** -/
theorem getMonitoringEvents_eq (hq : q.Accepted)
    (hread : ∀ n, ∀ e ∈ (reads n).matching q, e.Readable) (pages : ℕ) :
    getMonitoringEvents reads q pages =
      (collectPages ListedEvent.stamp 500 (fun n => (reads n).matching q) pages).map
        (Option.map (List.map (·.payload.event))) := by
  have hserver : hostIdentifier q.serverId = .ok (given q.serverId) := by
    have h := hq.server
    rw [hostIdentifier]
    cases hs : given q.serverId with
    | none => rfl
    | some s =>
      rw [hs, Option.all_some] at h
      simp only [Option.any_some, h]
      rfl
  have hcontainer : containerIdentifier q.containerName = .ok (given q.containerName) := by
    have h := hq.container
    rw [containerIdentifier]
    cases hs : given q.containerName with
    | none => rfl
    | some s =>
      rw [hs, Option.all_some] at h
      simp only [Option.any_some, h]
      rfl
  have hmap : collect (fun n => fetchEventPage (reads n) q (given q.serverId)
      (given q.containerName)) (fun e => (e.occurredAt, e.id)) 500 pages 0
        ((none : Option Stamp).map cursorText) =
      (collectPages ListedEvent.stamp 500 (fun n => (reads n).matching q) pages).map
        (Option.map (List.map (·.payload.event))) := by
    refine collect_map (P := IsCursor)
      (fun n before hbefore => fetchEventPage_eq hq (hread n) hbefore)
      (fun n before page hpage e he => ?_) nofun
    obtain rfl := Except.ok.inj hpage
    have hmatch := ((isPage_pageOf _ (matching_distinct (reads n) q)).sound e he).1
    exact ⟨isCursor_stamp hmatch (hread n e hmatch), rfl⟩
  have htogether : Js.throwIf ((given q.serverId).isNone != (given q.containerName).isNone)
      "HostとContainerは同時に指定してください" = .ok () := by
    rw [hq.together, bne_self_eq_false]
    rfl
  rw [← hmap]
  unfold getMonitoringEvents
  rw [hserver, hcontainer]
  dsimp only [bind, Except.bind]
  rw [htogether]
  rfl

end

end IvrmDashboard.Monitoring.EventPages

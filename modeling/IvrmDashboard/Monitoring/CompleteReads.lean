import IvrmDashboard.Monitoring.EventsRead
import IvrmDashboard.Backups.HistoryRead

/-!
# Histories are read completely

Both readers get every row that matches, once, from the newest to the oldest, as long as the tables
stay as they are. While events are added and runs are reported, they still get no row twice and miss
none that matches throughout.
-/

namespace IvrmDashboard.Monitoring

open Sql Keyset Backups EventPages

section

variable [Readings]

/-- **A timeline that stays is read as a whole**, in as many pages as it fills and one more. -/
theorem events_of_fixed {r : EventRead} {q : MonitoringEventQuery} (hq : q.Accepted)
    (hread : ∀ e ∈ r.matching q, e.Readable) {pages : ℕ}
    (hpages : (r.matching q).length < pages * 500) :
    ∃ rows : List ListedEvent,
      getMonitoringEvents (fun _ => r) q pages = .ok (some (rows.map (·.payload.event))) ∧
      rows.Pairwise (fun a b => b.stamp < a.stamp) ∧ ∀ e, e ∈ rows ↔ e ∈ r.matching q := by
  obtain ⟨rows, hrows, hsorted, hmem⟩ :=
    collectPages_fixed (ε := String) (by decide : 0 < 500) (matching_distinct r q) hpages
  refine ⟨rows, ?_, hsorted, hmem⟩
  rw [getMonitoringEvents_eq hq fun _ => hread, hrows]
  rfl

/-- **Events that are added while the timeline is read** neither repeat nor hide others. -/
theorem events_of_grown {reads : ℕ → EventRead} {q : MonitoringEventQuery} (hq : q.Accepted)
    (hgrown : ∀ n, (reads n).tables.Grown (reads (n + 1)).tables)
    (hread : ∀ n, ∀ e ∈ (reads n).matching q, e.Readable) {pages : ℕ}
    {events : List MonitoringEvent}
    (h : getMonitoringEvents reads q pages = .ok (some events)) :
    (events.map (·.id)).Nodup ∧
      ∀ id : ℕ, (∀ n, ∃ e ∈ (reads n).matching q, e.event.id = id) →
        ∃ e ∈ events, e.id = id := by
  rw [getMonitoringEvents_eq hq hread] at h
  cases hcollect : (collectPages ListedEvent.stamp 500 (fun n => (reads n).matching q) pages :
      Except String _) with
  | error e =>
    rw [hcollect] at h
    exact absurd h nofun
  | ok result =>
    rw [hcollect] at h
    cases result with
    | none => exact absurd (Except.ok.inj h) nofun
    | some rows =>
      obtain rfl := Option.some.inj (Except.ok.inj h)
      obtain ⟨hnodup, hthere⟩ : (rows.map (·.event.id)).Nodup ∧ ∀ id : ℕ,
          (∀ n, ∃ e ∈ (reads n).matching q, e.event.id = id) → ∃ e ∈ rows, e.event.id = id :=
        collectPages_changing (by decide) (fun n => matching_distinct (reads n) q)
          (stamp_eq_of_id hgrown) hcollect
      constructor
      · rw [List.map_map]
        exact List.pairwise_map.2 ((List.pairwise_map.1 hnodup).imp fun hne heq =>
          hne (Int.ofNat_inj.1 heq))
      · intro id hid
        obtain ⟨e, he, rfl⟩ := hthere id hid
        exact ⟨_, List.mem_map_of_mem he, rfl⟩

/-- **A backup history that stays is read as a whole**, if it has fewer than 500,000 runs. -/
theorem history_of_fixed {r : HistoryRead} {range : BackupRange}
    (hnumbered : MonitorWorld.Numbered r.world.monitor)
    (hread : ∀ a ∈ r.matching range, a.Readable) (hfew : (r.matching range).length < 500000) :
    ∃ rows : List ListedRun,
      getAllBackupHistory (fun _ => r) range = .ok (rows.map (·.payload.run)) ∧
        rows.Pairwise (fun a b => b.stamp < a.stamp) ∧ ∀ a, a ∈ rows ↔ a ∈ r.matching range := by
  obtain ⟨rows, hrows, hsorted, hmem⟩ :=
    collectPages_fixed (ε := String) (by decide : 0 < 500) (matching_distinct hnumbered)
      (show (r.matching range).length < 1000 * 500 from hfew)
  refine ⟨rows, ?_, hsorted, hmem⟩
  rw [getAllBackupHistory_eq (fun _ => hnumbered) fun _ => hread, hrows]
  rfl

/-- The runs of later reads, with the starts of the earlier ones. -/
theorem continues_reads {reads : ℕ → HistoryRead}
    (hnumbered : MonitorWorld.Numbered (reads 0).world.monitor)
    (hreports : ∀ n, ∃ calls, (reads (n + 1)).world = (reads n).world.run calls) {m n : ℕ}
    (hmn : m ≤ n) :
    MonitorWorld.Continues (reads m).world.monitor (reads n).world.monitor := by
  have hfirst : ∀ n, MonitorWorld.Numbered (reads n).world.monitor := by
    intro n
    induction n with
    | zero => exact hnumbered
    | succ n ih =>
      obtain ⟨calls, hcalls⟩ := hreports n
      rw [hcalls]
      exact (continues_run ih calls).numbered
  induction hmn with
  | refl => exact (hfirst m).frame rfl rfl
  | @step n _ ih =>
    obtain ⟨calls, hcalls⟩ := hreports n
    rw [hcalls]
    exact ih.trans (continues_run (hfirst n) calls)

/-- A run keeps its place while others are reported. -/
theorem stamp_eq_of_run {reads : ℕ → HistoryRead} {range : BackupRange}
    (hnumbered : MonitorWorld.Numbered (reads 0).world.monitor)
    (hreports : ∀ n, ∃ calls, (reads (n + 1)).world = (reads n).world.run calls) (m : ℕ)
    (a : ListedRun) (ha : a ∈ (reads m).matching range) (n : ℕ) (b : ListedRun)
    (hb : b ∈ (reads n).matching range) (hid : a.run.id = b.run.id) : a.stamp = b.stamp := by
  have hplace : ∀ {m n}, m ≤ n → ∀ r ∈ (reads m).world.monitor.runs,
      ∀ s ∈ (reads n).world.monitor.runs, r.id = s.id → r.startedAt = s.startedAt := by
    intro m n hmn r hr s hs hrs
    have hcontinues := continues_reads hnumbered hreports hmn
    obtain ⟨r', hr', hkept⟩ := hcontinues.kept r hr
    have hid' : r'.id = s.id := (congrArg Stamp.id hkept).trans hrs
    rw [← hcontinues.numbered.ids.eq hr' hs hid']
    exact (congrArg Stamp.time hkept).symm
  have hstart : a.run.startedAt = b.run.startedAt := by
    rcases Nat.le_total m n with hmn | hnm
    · exact hplace hmn _ (run_mem_of_matching ha) _ (run_mem_of_matching hb) hid
    · exact (hplace hnm _ (run_mem_of_matching hb) _ (run_mem_of_matching ha) hid.symm).symm
  exact Stamp.ext hstart hid

/-- **Runs that are reported while the history is read** neither repeat nor hide others. -/
theorem history_of_reports {reads : ℕ → HistoryRead} {range : BackupRange}
    (hnumbered : MonitorWorld.Numbered (reads 0).world.monitor)
    (hreports : ∀ n, ∃ calls, (reads (n + 1)).world = (reads n).world.run calls)
    (hread : ∀ n, ∀ a ∈ (reads n).matching range, a.Readable) {history : List HistoryPayload}
    (h : getAllBackupHistory reads range = .ok history) :
    (history.map (·.rowId)).Nodup ∧
      ∀ id : ℕ, (∀ n, ∃ a ∈ (reads n).matching range, a.run.id = id) →
        ∃ row ∈ history, row.rowId = id := by
  have hall : ∀ n, MonitorWorld.Numbered (reads n).world.monitor := fun n =>
    (continues_reads hnumbered hreports (Nat.zero_le n)).numbered
  rw [getAllBackupHistory_eq hall hread] at h
  cases hcollect : (collectPages ListedRun.stamp 500 (fun n => (reads n).matching range) 1000 :
      Except String _) with
  | error e =>
    rw [hcollect] at h
    exact absurd h nofun
  | ok result =>
    rw [hcollect] at h
    cases result with
    | none => exact absurd h nofun
    | some rows =>
      obtain rfl := Except.ok.inj h
      obtain ⟨hnodup, hthere⟩ : (rows.map (·.run.id)).Nodup ∧ ∀ id : ℕ,
          (∀ n, ∃ a ∈ (reads n).matching range, a.run.id = id) → ∃ a ∈ rows, a.run.id = id :=
        collectPages_changing (by decide) (fun n => matching_distinct (hall n))
          (stamp_eq_of_run hnumbered hreports) hcollect
      constructor
      · rw [List.map_map]
        exact List.pairwise_map.2 ((List.pairwise_map.1 hnodup).imp fun hne heq =>
          hne (Int.ofNat_inj.1 heq))
      · intro id hid
        obtain ⟨a, ha, rfl⟩ := hthere id hid
        exact ⟨_, List.mem_map_of_mem ha, rfl⟩

/-- **Histories are read completely.** -/
theorem complete_history_reads :
    (∀ (r : EventRead) (q : MonitoringEventQuery), q.Accepted →
      (∀ e ∈ r.matching q, e.Readable) → ∀ pages, (r.matching q).length < pages * 500 →
        ∃ rows : List ListedEvent,
          getMonitoringEvents (fun _ => r) q pages = .ok (some (rows.map (·.payload.event))) ∧
            rows.Pairwise (fun a b => b.stamp < a.stamp) ∧ ∀ e, e ∈ rows ↔ e ∈ r.matching q) ∧
    (∀ (reads : ℕ → EventRead) (q : MonitoringEventQuery), q.Accepted →
      (∀ n, (reads n).tables.Grown (reads (n + 1)).tables) →
      (∀ n, ∀ e ∈ (reads n).matching q, e.Readable) →
      ∀ pages events, getMonitoringEvents reads q pages = .ok (some events) →
        (events.map (·.id)).Nodup ∧
          ∀ id : ℕ, (∀ n, ∃ e ∈ (reads n).matching q, e.event.id = id) →
            ∃ e ∈ events, e.id = id) ∧
    (∀ (r : HistoryRead) (range : BackupRange), MonitorWorld.Numbered r.world.monitor →
      (∀ a ∈ r.matching range, a.Readable) → (r.matching range).length < 500000 →
        ∃ rows : List ListedRun,
          getAllBackupHistory (fun _ => r) range = .ok (rows.map (·.payload.run)) ∧
            rows.Pairwise (fun a b => b.stamp < a.stamp) ∧ ∀ a, a ∈ rows ↔ a ∈ r.matching range) ∧
    ∀ (reads : ℕ → HistoryRead) (range : BackupRange),
      MonitorWorld.Numbered (reads 0).world.monitor →
      (∀ n, ∃ calls, (reads (n + 1)).world = (reads n).world.run calls) →
      (∀ n, ∀ a ∈ (reads n).matching range, a.Readable) →
      ∀ history, getAllBackupHistory reads range = .ok history →
        (history.map (·.rowId)).Nodup ∧
          ∀ id : ℕ, (∀ n, ∃ a ∈ (reads n).matching range, a.run.id = id) →
            ∃ row ∈ history, row.rowId = id :=
  ⟨fun _ _ hq hread _ hpages => events_of_fixed hq hread hpages,
    fun _ _ hq hgrown hread _ _ h => events_of_grown hq hgrown hread h,
    fun _ _ hnumbered hread hfew => history_of_fixed hnumbered hread hfew,
    fun _ _ hnumbered hreports hread _ h => history_of_reports hnumbered hreports hread h⟩

end

namespace PagesSample

/-- Times of one morning, as agents and as PostgREST write them. -/
def times : List (String × ℤ) :=
  Backups.Sample.times ++ [("2026-08-13T00:50:00+00:00", 1786582200000000),
    ("2026-08-13T01:00:00+00:00", 1786582800000000)]

/-- The readings of these texts. -/
scoped instance : Readings where
  dateParse s := (times.lookup s).map (· / 1000)
  timestamptz s := times.lookup s
  uuid s := if s = "018f6d0e-8f3f-4f2b-9c2c-2d705ba13d7d" then
    some ⟨0x018f6d0e8f3f4f2b9c2c2d705ba13d7d⟩ else none

def host : Notifications.MonitoredHost :=
  ⟨⟨⟨0x018f6d0e8f3f4f2b9c2c2d705ba13d7e⟩, "oci-minecraft-01", true⟩, "OCI"⟩

def site : Site := ⟨⟨[host], [], [], [], []⟩, 1, by decide, by decide⟩

def event (id : ℕ) (eventType : String) : EventRow where
  id := id
  hostId := host.id
  containerName := "mc-main"
  occurredAt := 1786582200000000
  eventType := eventType
  severity := "warning"
  fromValue := none
  toValue := none
  numericValue := none
  expectedState := some "running"

/-- Two events of one time, and a third that is added. -/
def tables : EventTables :=
  ⟨[host], [event 1 "state_changed", event 2 "health_changed"], by rw [Sql.Unique]; decide,
    by decide⟩

def grownTables : EventTables :=
  ⟨[host], [event 1 "state_changed", event 2 "health_changed", event 3 "exit_code_changed"],
    by rw [Sql.Unique]; decide, by decide⟩

def eventReads : ℕ → EventRead
  | 0 => ⟨tables, fun _ => 1786582920000000⟩
  | _ + 1 => ⟨grownTables, fun _ => 1786582980000000⟩

def query : MonitoringEventQuery := ⟨.day, none, none, none⟩

/-- The table of a run that has been reported, and after a report that is taken back. -/
def world : IngestWorld := site.start.run [Backups.Sample.completed]

def historyReads : ℕ → HistoryRead
  | 0 => ⟨world, 1786582920000000⟩
  | _ + 1 => ⟨world.run [Backups.Sample.corrected], 1786582980000000⟩

theorem world_zero : (historyReads 0).world = world := by rw [historyReads]

theorem world_succ (n : ℕ) :
    (historyReads (n + 1)).world = world.run [Backups.Sample.corrected] := by
  rw [historyReads]

theorem accepted_query : query.Accepted := ⟨rfl, rfl, rfl⟩

theorem readable_events (n : ℕ) : ∀ e ∈ (eventReads n).matching query, e.Readable := by
  have hall : ∀ r ∈ [eventReads 0, eventReads 1], ∀ e ∈ r.matching query,
      (parseEventRow e.payload).isSome = true ∧ Readings.timestamptz
        (jsonTimestamptz e.event.occurredAt) = some e.event.occurredAt := by
    decide +kernel
  intro e he
  cases n with
  | zero =>
    obtain ⟨haccepted, hlossless⟩ := hall _ List.mem_cons_self e he
    exact ⟨haccepted, hlossless⟩
  | succ n =>
    obtain ⟨haccepted, hlossless⟩ := hall (eventReads 1) (by simp) e he
    exact ⟨haccepted, hlossless⟩

theorem readable_runs (n : ℕ) : ∀ a ∈ (historyReads n).matching .day, a.Readable := by
  have hall : ∀ r ∈ [historyReads 0, historyReads 1], ∀ a ∈ r.matching .day,
      a.payload.accepted = true ∧ Readings.timestamptz
        (jsonTimestamptz a.run.startedAt) = some a.run.startedAt := by
    decide +kernel
  intro a ha
  cases n with
  | zero =>
    obtain ⟨haccepted, hlossless⟩ := hall _ List.mem_cons_self a ha
    exact ⟨haccepted, hlossless⟩
  | succ n =>
    obtain ⟨haccepted, hlossless⟩ := hall (historyReads 1) (by simp) a ha
    exact ⟨haccepted, hlossless⟩

theorem numbered_world : MonitorWorld.Numbered world.monitor :=
  (continues_run (w := site.start)
    ⟨List.nodup_nil, fun _ h => absurd h List.not_mem_nil⟩ _).numbered

theorem exists_result {α : Type} {x : Except String (Option α)}
    (h : (x.toOption.bind id).isSome = true) : ∃ a, x = .ok (some a) := by
  cases x with
  | error e => exact absurd h nofun
  | ok o =>
    cases o with
    | none => exact absurd h nofun
    | some a => exact ⟨a, rfl⟩

end PagesSample

open PagesSample in
/-- Events of one time and a run, read while more come in. -/
theorem complete_history_reads_sample :
    (∃ rows : List ListedEvent, getMonitoringEvents (fun _ => eventReads 0) query 1 =
      .ok (some (rows.map (·.payload.event)))) ∧
    (∃ events, getMonitoringEvents eventReads query 1 = .ok (some events) ∧
      (events.map (·.id)).Nodup) ∧
    (∃ rows : List ListedRun, getAllBackupHistory (fun _ => historyReads 0) .day =
      .ok (rows.map (·.payload.run))) ∧
    ∃ history, getAllBackupHistory historyReads .day = .ok history ∧
      (history.map (·.rowId)).Nodup := by
  obtain ⟨hfixed, hgrown, hruns, hreports⟩ := complete_history_reads
  refine ⟨?_, ?_, ?_, ?_⟩
  · obtain ⟨rows, hrows, -⟩ := hfixed (eventReads 0) query accepted_query (readable_events 0) 1
      (by decide +kernel)
    exact ⟨rows, hrows⟩
  · obtain ⟨events, hevents⟩ : ∃ events,
        getMonitoringEvents eventReads query 1 = .ok (some events) :=
      exists_result (by decide +kernel)
    refine ⟨events, hevents, (hgrown eventReads query accepted_query (fun n => ?_) readable_events
      1 events hevents).1⟩
    cases n with
    | zero => exact ⟨[event 3 "exit_code_changed"], rfl⟩
    | succ n => exact List.prefix_rfl
  · obtain ⟨rows, hrows, -⟩ := hruns (historyReads 0) .day numbered_world (readable_runs 0)
      (by decide +kernel)
    exact ⟨rows, hrows⟩
  · obtain ⟨history, hhistory⟩ : ∃ history, (getAllBackupHistory historyReads .day).map some =
        .ok (some history) :=
      exists_result (by decide +kernel)
    have hok : getAllBackupHistory historyReads .day = .ok history := by
      cases h : getAllBackupHistory historyReads .day with
      | error e =>
        rw [h] at hhistory
        exact absurd hhistory nofun
      | ok rows =>
        rw [h] at hhistory
        rw [Option.some.inj (Except.ok.inj hhistory)]
    refine ⟨history, hok, (hreports historyReads .day numbered_world (fun n => ?_) readable_runs
      history hok).1⟩
    cases n with
    | zero =>
      refine ⟨[Backups.Sample.corrected], ?_⟩
      rw [world_succ, world_zero]
    | succ n =>
      refine ⟨[], ?_⟩
      rw [world_succ, world_succ, IngestWorld.run, IngestWorld.run, Runs.run_nil]

end IvrmDashboard.Monitoring

import IvrmDashboard.ConsoleLogs.Merging
import IvrmDashboard.ConsoleLogs.Writers

/-!
# The lines a viewer follows

A host keeps its name, so the lines of a name are those of one host, and a line that matches after a
step has matched before or has an id above every one that the host has ever had (`followed_step`).
-/

namespace IvrmDashboard.ConsoleLogs

open Sql Tailing
open Notifications (MonitoredHost)

variable [FractionReading]

/-! ## Hosts -/

section Hosts

variable {w : LogStore} {g g' : Uuid} {server : String}

/-- The name under which a host is registered. -/
def serverOf (w : LogStore) (g : Uuid) : Option String :=
  (w.hosts.find? (·.id = g)).map (·.serverId)

theorem serverOf_congr {w' : LogStore} (h : w'.hosts = w.hosts) : serverOf w' = serverOf w := by
  funext g
  rw [serverOf, h, serverOf]

/-- Hosts are different, and lines and transactions belong to hosts. -/
structure Hosted (history : List LogRow) (w : LogStore) : Prop where
  ids : Sql.Unique (·.id) w.hosts
  servers : Sql.Unique (·.serverId) w.hosts
  known : ∀ a ∈ history, (serverOf w a.hostId).isSome
  holders : ∀ g i, w.ingest? g = some i → (serverOf w g).isSome

variable {history : List LogRow}

/-- A name belongs to one host. -/
theorem Hosted.eq (h : Hosted history w) (hg : serverOf w g = some server)
    (hg' : serverOf w g' = some server) : g = g' := by
  obtain ⟨a, hfind, rfl⟩ := Option.map_eq_some_iff.1 hg
  obtain ⟨b, hfind', hserver⟩ := Option.map_eq_some_iff.1 hg'
  obtain ⟨ha, rfl⟩ := find?_key_eq_some hfind
  obtain ⟨hb, rfl⟩ := find?_key_eq_some hfind'
  rw [h.servers.eq ha hb hserver.symm]

/-- Steps that do nothing to hosts. -/
theorem hosts_step (w : LogStore) (s : StoreStep) (hregister : ∀ host, s ≠ .register host)
    (henabled : ∀ hostId enabled, s ≠ .setEnabled hostId enabled) :
    (w.step s).hosts = w.hosts := by
  cases s with
  | wait duration => rfl
  | register host => exact absurd rfl (hregister host)
  | setEnabled hostId enabled => exact absurd rfl (henabled hostId enabled)
  | call report =>
    simp only [LogStore.step]
    cases report.tested w.now <;> rfl
  | giveUp n => rfl
  | lock n =>
    simp only [LogStore.step, LogStore.lock]
    cases w.waiting[n]? with
    | none => rfl
    | some r =>
      dsimp only
      cases w.hosts.find? (·.serverId = r.serverId) with
      | none => rfl
      | some h =>
        dsimp only
        split_ifs <;> rfl
  | record g =>
    rcases LogStore.step_record w g with heq | ⟨report, added, hi, heq⟩
    · rw [heq]
    · rw [heq, LogStore.record]
      dsimp only
      split_ifs <;> rfl
  | insertNext g =>
    rcases LogStore.step_insertNext w g with heq | ⟨report, request, entry, rest, added, hi, heq⟩
    · rw [heq]
    · rw [heq, LogStore.insertNext]
      dsimp only
      cases newRow w.nextEntryId g w.now entry with
      | error e => rfl
      | ok row =>
        dsimp only
        split_ifs <;> rfl
  | prune g =>
    rcases LogStore.step_prune w g with heq | ⟨report, request, added, hi, heq⟩
    · rw [heq]
    · rw [heq]
      rfl
  | commit g =>
    rcases LogStore.step_commit w g with ⟨heq, -⟩ | ⟨_, _, _, _, _, hi, heq, -⟩
    · rw [heq]
    · rw [heq]
      rfl
  | abort g => rfl
  | scheduledPrune => rfl

/-- A name stays with its host. -/
theorem serverOf_step (w : LogStore) (s : StoreStep) (h : serverOf w g = some server) :
    serverOf (w.step s) g = some server := by
  by_cases hregister : ∃ host, s = .register host
  · obtain ⟨host, rfl⟩ := hregister
    simp only [LogStore.step]
    split_ifs
    · exact h
    · obtain ⟨a, ha, hserver⟩ := Option.map_eq_some_iff.1 h
      simp only [serverOf, List.find?_append, ha, Option.some_or, Option.map_some, hserver]
  by_cases henabled : ∃ hostId enabled, s = .setEnabled hostId enabled
  · obtain ⟨hostId, enabled, rfl⟩ := henabled
    simp only [LogStore.step]
    split_ifs
    · exact h
    · have hfind := find?_updateWhere_key (fun a : MonitoredHost => a.id) hostId g
        (f := ({ · with enabled })) (fun _ ha => ha) w.hosts
      simp only [serverOf] at h ⊢
      rw [hfind]
      split
      next heq => rw [Option.map_map, ← heq]; exact h
      next => exact h
  · rw [serverOf_congr (hosts_step w s (fun host heq => hregister ⟨host, heq⟩)
      fun hostId enabled heq => henabled ⟨hostId, enabled, heq⟩)]
    exact h

theorem isSome_serverOf_step (w : LogStore) (s : StoreStep) (h : (serverOf w g).isSome) :
    (serverOf (w.step s) g).isSome := by
  obtain ⟨server, hserver⟩ := Option.isSome_iff_exists.1 h
  rw [serverOf_step w s hserver]
  rfl

/-- A row is held that was held before, unless a call has just got it. -/
theorem held_step (w : LogStore) (s : StoreStep) {i : Ingest}
    (hi : (w.step s).ingest? g = some i) :
    (∃ j, w.ingest? g = some j) ∨ ∃ host ∈ w.hosts, host.id = g := by
  have hset : ∀ {w' : LogStore} {g' : Uuid} {j j' : Ingest}, w'.ingests = w.ingests →
      w.ingest? g' = some j → j'.hostId = g' → (w'.setIngest j').ingest? g = some i →
      ∃ j, w.ingest? g = some j := by
    intro w' g' j j' hsame hj hhost hi
    have hj' : w'.ingest? g' = some j := by rw [LogStore.ingest?, hsame]; exact hj
    rw [LogStore.ingest?_setIngest hj' hhost, LogStore.ingest?, hsame] at hi
    split at hi
    next heq => exact ⟨j, heq ▸ hj⟩
    next => exact ⟨i, hi⟩
  have hend : ∀ {w' : LogStore} {g' : Uuid}, w'.ingests = w.ingests →
      (w'.endIngest g').ingest? g = some i → ∃ j, w.ingest? g = some j := by
    intro w' g' hsame hi
    rw [LogStore.ingest?_endIngest, LogStore.ingest?, hsame] at hi
    split at hi
    next => cases hi
    next => exact ⟨i, hi⟩
  cases s with
  | wait duration => exact .inl ⟨i, hi⟩
  | register host =>
    simp only [LogStore.step] at hi
    split_ifs at hi
    · exact .inl ⟨i, hi⟩
    · exact .inl ⟨i, hi⟩
  | setEnabled hostId enabled =>
    simp only [LogStore.step] at hi
    split_ifs at hi
    · exact .inl ⟨i, hi⟩
    · exact .inl ⟨i, hi⟩
  | call report =>
    simp only [LogStore.step] at hi
    split at hi
    next => exact .inl ⟨i, hi⟩
    next => exact .inl ⟨i, hi⟩
  | giveUp n => exact .inl ⟨i, hi⟩
  | lock n =>
    simp only [LogStore.step, LogStore.lock] at hi
    split at hi
    next => exact .inl ⟨i, hi⟩
    next r _ =>
      split at hi
      next => exact .inl ⟨i, hi⟩
      next host hhost =>
        split_ifs at hi with hheld hrefused
        · exact .inl ⟨i, hi⟩
        · exact .inl ⟨i, hi⟩
        · have hfree : w.ingest? host.id = none := by simpa using hheld
          rw [LogStore.ingest?_concat rfl rfl hfree] at hi
          split at hi
          next heq => exact .inr ⟨host, List.mem_of_find?_eq_some hhost, heq.symm⟩
          next => exact .inl ⟨i, hi⟩
  | record g' =>
    rcases LogStore.step_record w g' with heq | ⟨report, added, hj, heq⟩
    · exact .inl ⟨i, heq ▸ hi⟩
    · rw [heq, LogStore.record] at hi
      dsimp only at hi
      split_ifs at hi
      · exact .inl (hend rfl hi)
      · exact .inl (hset rfl hj rfl hi)
  | insertNext g' =>
    rcases LogStore.step_insertNext w g' with heq | ⟨report, request, entry, rest, added, hj, heq⟩
    · exact .inl ⟨i, heq ▸ hi⟩
    · rw [heq, LogStore.insertNext] at hi
      dsimp only at hi
      split at hi
      next => exact .inl (hend rfl hi)
      next =>
        split_ifs at hi
        · exact .inl (hset rfl hj rfl hi)
        · exact .inl (hset rfl hj rfl hi)
  | prune g' =>
    rcases LogStore.step_prune w g' with heq | ⟨report, request, added, hj, heq⟩
    · exact .inl ⟨i, heq ▸ hi⟩
    · rw [heq] at hi
      exact .inl (hset rfl hj rfl hi)
  | commit g' =>
    rcases LogStore.step_commit w g' with ⟨heq, -⟩ | ⟨_, _, _, _, _, hj, heq, -⟩
    · exact .inl ⟨i, heq ▸ hi⟩
    · rw [heq] at hi
      exact .inl (@hend w _ rfl hi)
  | abort g' => exact .inl (hend rfl hi)
  | scheduledPrune => exact .inl ⟨i, hi⟩

theorem Hosted.hosts_step (h : Hosted history w) (s : StoreStep) :
    Sql.Unique (·.id) (w.step s).hosts ∧ Sql.Unique (·.serverId) (w.step s).hosts := by
  by_cases hregister : ∃ host, s = .register host
  · obtain ⟨host, rfl⟩ := hregister
    simp only [LogStore.step]
    split_ifs with hany
    · exact ⟨h.ids, h.servers⟩
    · have hnew : ∀ a ∈ w.hosts, a.id ≠ host.id ∧ a.serverId ≠ host.serverId := by
        simpa [not_or] using hany
      exact ⟨h.ids.concat fun a ha => (hnew a ha).1, h.servers.concat fun a ha => (hnew a ha).2⟩
  by_cases henabled : ∃ hostId enabled, s = .setEnabled hostId enabled
  · obtain ⟨hostId, enabled, rfl⟩ := henabled
    simp only [LogStore.step]
    split_ifs
    · exact ⟨h.ids, h.servers⟩
    · exact ⟨h.ids.updateWhere fun _ _ _ => rfl, h.servers.updateWhere fun _ _ _ => rfl⟩
  · rw [ConsoleLogs.hosts_step w s (fun host heq => hregister ⟨host, heq⟩)
      fun hostId enabled heq => henabled ⟨hostId, enabled, heq⟩]
    exact ⟨h.ids, h.servers⟩

/-- The lines that a step commits are those of the transaction of their host. -/
theorem stored_pending (w : LogStore) (s : StoreStep) {a : LogRow} (ha : a ∈ w.stored s) :
    ∃ g i, w.ingest? g = some i ∧ a ∈ i.added := by
  cases s with
  | commit g =>
    rcases LogStore.step_commit w g with ⟨-, hnone⟩ | ⟨_, _, _, _, _, hi, -, hcommitted⟩
    · simp [LogStore.stored, hnone] at ha
    · rw [LogStore.stored, hcommitted, List.flatMap_singleton] at ha
      exact ⟨g, _, hi, ha⟩
  | _ => simp [LogStore.stored, LogStore.committed] at ha

theorem Hosted.step (h : Hosted history w) (hlines : LogStore.LinesSound history w)
    (s : StoreStep) : Hosted (history ++ w.stored s) (w.step s) := by
  refine ⟨(h.hosts_step s).1, (h.hosts_step s).2, fun a ha => ?_, fun g i hi => ?_⟩
  · refine isSome_serverOf_step w s ?_
    rcases List.mem_append.1 ha with ha | ha
    · exact h.known a ha
    · obtain ⟨g, i, hi, ha⟩ := stored_pending w s ha
      have hpending : a ∈ (LogStore.lines history w).pending g := by
        rw [show (LogStore.lines history w).pending g = i.added from LogStore.held_eq hi]
        exact ha
      rw [show a.hostId = g from hlines.grouped g a hpending]
      exact h.holders g i hi
  · refine isSome_serverOf_step w s ?_
    rcases held_step w s hi with ⟨j, hj⟩ | ⟨host, hhost, rfl⟩
    · exact h.holders g j hj
    · rw [serverOf, h.ids.find?_eq hhost]
      rfl

theorem hosted_run (now : ℤ) (steps : List StoreStep) :
    Hosted ((LogStore.empty now).storedLines steps) ((LogStore.empty now).run steps) := by
  refine (LogStore.run_commits (P := fun l w => LogStore.LinesSound (l.flatMap (·.added)) w ∧
    Hosted (l.flatMap (·.added)) w) (fun l w s h => ?_) ⟨Journal.sound_empty now 1, ?_⟩ steps).2
  · rw [List.flatMap_append]
    exact ⟨Journal.sound_of_steps (LogStore.lines_step w s) h.1, h.2.step h.1 s⟩
  · exact ⟨Sql.Unique.nil _, Sql.Unique.nil _, by simp, by simp [LogStore.ingest?, LogStore.empty]⟩

end Hosts

/-! ## The lines a viewer follows -/

section Followed

variable [Server] {w : LogStore} {history : List LogRow} {q : LogQuery} {r : LogRow}

/-- The lines that match, whether the host is enabled or not. -/
def followed (w : LogStore) (q : LogQuery) : List LogRow :=
  w.entries.filter fun r => serverOf w r.hostId = some q.serverId && q.selects w.now r

theorem mem_followed : r ∈ followed w q ↔
    r ∈ w.entries ∧ serverOf w r.hostId = some q.serverId ∧ q.selects w.now r = true := by
  rw [followed, List.mem_filter, Bool.and_eq_true, decide_eq_true_eq]

omit [FractionReading] in
/-- What matches has matched before. -/
theorem selects_antitone {now now' : ℤ} (hle : now ≤ now') (h : q.selects now' r = true) :
    q.selects now r = true := by
  simp only [LogQuery.selects, Bool.and_eq_true, decide_eq_true_eq] at h ⊢
  obtain ⟨⟨⟨⟨hreceived, hobserved⟩, hsource⟩, hlevel⟩, htext⟩ := h
  exact ⟨⟨⟨⟨by omega, by omega⟩, hsource⟩, hlevel⟩, htext⟩

/-- **A line that is followed after a step was followed before, or it is above every line of its
host.** -/
theorem followed_step (hhosted : Hosted history w) (hlines : LogStore.LinesSound history w)
    (s : StoreStep) (h : r ∈ followed (w.step s) q) :
    r ∈ followed w q ∨ ∀ a ∈ history, serverOf w a.hostId = some q.serverId → a.id < r.id := by
  have hsteps : Relation.ReflTransGen LogStore.LineStep (LogStore.lines history w)
      (LogStore.lines (history ++ w.stored s) (w.step s)) := LogStore.lines_step w s
  obtain ⟨hnow, new, hnew, htable⟩ := Journal.extends_of_steps hsteps
  obtain rfl : w.stored s = new := List.append_cancel_left hnew
  obtain ⟨hentry, hserver, hselects⟩ := mem_followed.1 h
  rcases htable r hentry with hold | hstored
  · refine .inl (mem_followed.2 ⟨hold, ?_, selects_antitone hnow hselects⟩)
    obtain ⟨server, hg⟩ := Option.isSome_iff_exists.1
      (hhosted.known r (hlines.present.subset hold))
    rw [hg, ← serverOf_step w s hg, hserver]
  · refine .inr fun a ha haserver => ?_
    have hgroup : a.hostId = r.hostId :=
      (hhosted.step hlines s).eq (serverOf_step w s haserver) hserver
    have hascending := (Journal.sound_of_steps hsteps hlines).ascending
    exact ((List.pairwise_append.1 hascending).2.2 a ha r hstored hgroup).1

end Followed

/-! ## A read -/

section Read

variable [Server] {w : LogStore} {history : List LogRow} {q : LogQuery} {r : LogRow}
  {l : MonitoredHost × LogRow}

/-- The entry is the line as the console knows it. -/
structure Shows (e : ConsoleLogEntry) (r : LogRow) : Prop where
  id : e.id = r.id
  sourceType : e.sourceType = r.sourceType
  sourceName : e.sourceName = r.sourceName
  observedAt : e.observedAt = r.observedAt
  level : e.level = r.level
  message : e.message = r.message
  receivedAt : e.receivedAt = r.receivedAt

omit [FractionReading] [Server] in
theorem shows_entryOf (l : MonitoredHost × LogRow) : Shows (entryOf l) l.2 :=
  ⟨rfl, rfl, rfl, rfl, rfl, rfl, rfl⟩

theorem mem_matchingLines : l ∈ matchingLines w q ↔
    l.2 ∈ w.entries ∧ w.hosts.find? (·.id = l.2.hostId) = some l.1 ∧
      l.1.serverId = q.serverId ∧ l.1.enabled = true ∧ q.selects w.now l.2 = true := by
  rw [matchingLines, List.mem_filterMap]
  constructor
  · rintro ⟨r, hr, hl⟩
    obtain ⟨h, hfind, hl⟩ := Option.bind_eq_some_iff.1 hl
    split_ifs at hl with hmatch
    obtain rfl := Option.some.inj hl
    simp only [Bool.and_eq_true, decide_eq_true_eq] at hmatch
    exact ⟨hr, hfind, hmatch.1.1, hmatch.1.2, hmatch.2⟩
  · rintro ⟨hr, hfind, hserver, henabled, hselects⟩
    refine ⟨l.2, hr, Option.bind_eq_some_iff.2 ⟨l.1, hfind, ?_⟩⟩
    rw [if_pos (by simp [hserver, henabled, hselects])]

theorem followed_of_matching (h : l ∈ matchingLines w q) : l.2 ∈ followed w q := by
  obtain ⟨hentry, hfind, hserver, -, hselects⟩ := mem_matchingLines.1 h
  exact mem_followed.2 ⟨hentry, by rw [serverOf, hfind, Option.map_some, hserver], hselects⟩

/-- When a line of the host is returned, the host is enabled, and all its lines are. -/
theorem matching_of_followed (hhosted : Hosted history w) (hl : l ∈ matchingLines w q)
    (h : r ∈ followed w q) : (l.1, r) ∈ matchingLines w q := by
  obtain ⟨hentry, hserver, hselects⟩ := mem_followed.1 h
  obtain ⟨-, hfind, hserver', henabled, -⟩ := mem_matchingLines.1 hl
  obtain ⟨host, hhost, hname⟩ := Option.map_eq_some_iff.1 hserver
  obtain rfl : host = l.1 := hhosted.servers.eq (List.mem_of_find?_eq_some hhost)
    (List.mem_of_find?_eq_some hfind) (hname.trans hserver'.symm)
  exact mem_matchingLines.2 ⟨hentry, hhost, hserver', henabled, hselects⟩

theorem distinct_matchingLines (hlines : LogStore.LinesSound history w) :
    Keyset.Distinct lineId (matchingLines w q) := by
  have hids : history.Pairwise fun a b => a.id ≠ b.id := by
    refine hlines.ascending.imp_of_mem fun {a b} ha hb hab heq => ?_
    obtain rfl := hlines.unique a b (.inl ha) (.inl hb) heq
    exact absurd (hab rfl).1 (lt_irrefl _)
  have hpairs : (matchingLines w q).Pairwise fun a b => lineId a ≠ lineId b := by
    refine List.Pairwise.filterMap _ (fun a b hab c hc d hd => ?_) (hids.sublist hlines.present)
    obtain ⟨_, -, hc⟩ := Option.bind_eq_some_iff.1 hc
    obtain ⟨_, -, hd⟩ := Option.bind_eq_some_iff.1 hd
    split_ifs at hc hd
    obtain rfl := Option.some.inj hc
    obtain rfl := Option.some.inj hd
    intro heq
    have hid : (a.id : ℤ) = b.id := heq
    exact hab (by exact_mod_cast hid)
  refine ⟨hpairs.imp fun hne heq => hne (by rw [heq]), fun a ha b hb heq => ?_⟩
  by_contra hne
  have : Std.Symm fun a b : MonitoredHost × LogRow => lineId a ≠ lineId b :=
    ⟨fun _ _ h => h.symm⟩
  exact hpairs.forall ha hb hne heq

/-- What an accepted read returns. -/
theorem getConsoleLogs_eq_ok {after : Option ℤ} {limit : ℤ} {entries : List ConsoleLogEntry}
    (h : getConsoleLogs w q after limit = .ok entries) :
    ∃ rows, getConsoleLogsV2 w q.trimmed after limit = .ok rows ∧ entries = rows.map entryOf := by
  obtain ⟨_, -, h⟩ := Js.bind_eq_ok.1 h
  cases hrows : getConsoleLogsV2 w q.trimmed after limit with
  | error e => simp [hrows] at h
  | ok rows =>
    simp only [hrows] at h
    obtain ⟨_, -, h⟩ := Js.bind_eq_ok.1 h
    exact ⟨rows, rfl, (Except.ok.inj h).symm⟩

end Read

end IvrmDashboard.ConsoleLogs

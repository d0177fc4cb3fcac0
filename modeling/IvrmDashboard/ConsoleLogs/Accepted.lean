import IvrmDashboard.ConsoleLogs.Writers

/-!
# What an accepted report means

Over all interleavings of calls: the lines of a host are committed in the order of their ids and
stay for a day (`lines_ordered_and_kept`); the requests of a host that are accepted lie two seconds
apart, and a nonce is accepted again only after a day (`requests_spaced`); and what is stored are
the lines of the accepted reports, all of them (`accepted_stored`). A line with a `null` passes the
tests that are made before the lock; it raises when it is inserted (`newRow_of_tested`).
-/

namespace IvrmDashboard.ConsoleLogs

open Sql

variable [FractionReading]

/-! ## Tested entries and their rows -/

section Entries

variable {id : ℕ} {hostId : Uuid} {receivedAt reportedAt : ℤ} {entry : Jsonb} {row : LogRow}

/-- The conditions of an entry whose validity is tested. -/
theorem entryIsValid_cases (h : (entryIsValid entry reportedAt).checks = true) :
    ∃ observedAt, castTime (entry.getText "observedAt") = some observedAt ∧
      entryIsValid entry reportedAt = Tri.all (entryConditions entry observedAt reportedAt) := by
  unfold entryIsValid at h ⊢
  split at h
  next => simp [Tri.checks] at h
  next hshape =>
    rw [if_neg hshape]
    cases hcast : castTime (entry.getText "observedAt") with
    | none => simp [hcast, Tri.checks] at h
    | some observedAt => exact ⟨observedAt, rfl, rfl⟩

/-- The values of an entry, none of them `null`. -/
structure HasValues (entry : Jsonb) (row : LogRow) : Prop where
  eventId : entry.getText "eventId" = some row.eventId
  sourceType : entry.getText "sourceType" = some row.sourceType
  sourceName : entry.getText "sourceName" = some row.sourceName
  level : entry.getText "level" = some row.level
  message : entry.getText "message" = some row.message

/-- A row is made of values that are there. -/
theorem newRow_values (h : newRow id hostId receivedAt entry = .ok row) :
    HasValues entry row ∧ castTime (entry.getText "observedAt") = some (some row.observedAt) := by
  simp only [newRow, bind_eq_ok, pure_eq_ok, orRaise_eq_ok] at h
  obtain ⟨observed, hcast, _, h1, _, h2, _, h3, _, rfl, _, h5, _, h6, _, -, rfl⟩ := h
  exact ⟨⟨h1, h2, h3, h5, h6⟩, hcast⟩

omit [FractionReading] in
/-- When all values are there, the conditions are decided. -/
theorem isSome_entryConditions (h : HasValues entry row) (t : ℤ) :
    (Tri.all (entryConditions entry (some t) reportedAt)).isSome := by
  apply Tri.isSome_all
  simp only [entryConditions, h.eventId, h.sourceType, h.sourceName, h.level, h.message,
    List.forall_mem_cons, Option.map_some, isIn, Sql.eq, Sql.compare, Option.isSome_some, true_and]
  refine ⟨?_, by simp⟩
  cases decide (row.sourceType = "container") <;> cases decide (row.sourceName ∈ containerSources) <;>
    cases decide (row.sourceType = "systemd") <;> cases decide (row.sourceName = "ivrm-agent") <;> rfl

omit [FractionReading] in
/-- When the conditions hold, the row satisfies the constraints of the table. -/
theorem checks_of_valid (h : HasValues entry row) {t : ℤ}
    (hvalid : Tri.all (entryConditions entry (some t) reportedAt) = some true) :
    ∀ c ∈ row.checks, c.2 = true := by
  have hall := Tri.all_eq_true.1 hvalid
  simp only [entryConditions, h.eventId, h.sourceType, h.sourceName, h.level, h.message,
    List.forall_mem_cons, Option.map_some, isIn, Option.some.injEq, decide_eq_true_eq] at hall
  obtain ⟨hevent, hsource, -, -, hlevel, hlength, hbytes, hlf, hcr, -⟩ := hall
  have hsource : (row.sourceType = "container" ∧ row.sourceName ∈ containerSources) ∨
      row.sourceType = "systemd" ∧ row.sourceName = "ivrm-agent" := by
    have hholds := congrArg Tri.holds hsource
    simpa [Sql.eq, Sql.compare] using hholds
  simp [LogRow.checks, hevent, hsource, hlevel, messageLengthOk, hlength, hbytes, singleLine, hlf,
    hcr]

omit [FractionReading] in
/-- When the conditions hold, no value is `null`. -/
theorem values_of_valid {observedAt : Option ℤ}
    (hvalid : Tri.all (entryConditions entry observedAt reportedAt) = some true) :
    ∃ row, HasValues entry row ∧ observedAt = some row.observedAt := by
  have hall := Tri.all_eq_true.1 hvalid
  simp only [entryConditions, List.forall_mem_cons, Option.map_eq_some_iff, isIn] at hall
  obtain ⟨⟨eventId, hevent, -⟩, hsource, ⟨t, ht, -⟩, -, ⟨level, hlevel, -⟩, ⟨message, hmessage, -⟩,
    -⟩ := hall
  have hholds := congrArg Tri.holds hsource
  simp only [Tri.holds_or, Tri.holds_and, Tri.holds_some, Bool.or_eq_true, Bool.and_eq_true,
    holds_eq] at hholds
  obtain ⟨sourceType, sourceName, htype, hname⟩ : ∃ sourceType sourceName,
      entry.getText "sourceType" = some sourceType ∧
        entry.getText "sourceName" = some sourceName := by
    rcases hholds with ⟨⟨sourceType, htype, -⟩, hname⟩ | ⟨⟨sourceType, htype, -⟩, sourceName, hname, -⟩
    · cases hsourceName : entry.getText "sourceName" with
      | none => simp [hsourceName] at hname
      | some sourceName => exact ⟨sourceType, sourceName, htype, rfl⟩
    · exact ⟨sourceType, sourceName, htype, hname⟩
  exact ⟨⟨0, ⟨0⟩, eventId, sourceType, sourceName, t, level, message, 0⟩,
    ⟨hevent, htype, hname, hlevel, hmessage⟩, ht⟩

variable (id hostId receivedAt) in
/-- **A tested entry becomes a row, or it has a `null` and raises.** -/
theorem newRow_of_tested (h : (entryIsValid entry reportedAt).checks = true) :
    (entryIsValid entry reportedAt = some true ∧
        ∃ row, newRow id hostId receivedAt entry = .ok row ∧ HasValues entry row) ∨
      entryIsValid entry reportedAt = none ∧
        ∃ column, newRow id hostId receivedAt entry = .error (.notNullViolation column) := by
  obtain ⟨observedAt, hcast, hvalid⟩ := entryIsValid_cases h
  by_cases htrue : entryIsValid entry reportedAt = some true
  · rw [hvalid] at htrue
    obtain ⟨row, hvalues, rfl⟩ := values_of_valid htrue
    refine .inl ⟨hvalid.trans htrue, { row with id, hostId, receivedAt }, ?_, ?_⟩
    · have hstamped : HasValues entry { row with id, hostId, receivedAt } :=
        ⟨hvalues.1, hvalues.2, hvalues.3, hvalues.4, hvalues.5⟩
      have hchecks : checkAll { row with id, hostId, receivedAt }.checks = .ok () :=
        checkAll_eq_ok.2 (checks_of_valid hstamped htrue)
      simp only [newRow, hcast, hvalues.eventId, hvalues.sourceType, hvalues.sourceName,
        hvalues.level, hvalues.message, orRaise, bind, Except.bind, hchecks]
      rfl
    · exact ⟨hvalues.1, hvalues.2, hvalues.3, hvalues.4, hvalues.5⟩
  · have hnone : entryIsValid entry reportedAt = none := by
      rcases hv : entryIsValid entry reportedAt with _ | _ | _
      · rfl
      · simp [hv, Tri.checks] at h
      · exact absurd hv htrue
    refine .inr ⟨hnone, ?_⟩
    rw [hvalid] at hnone
    -- some value is `null`: otherwise the conditions would be decided
    simp only [newRow, hcast, orRaise, bind, Except.bind]
    cases hevent : entry.getText "eventId" with
    | none => exact ⟨_, rfl⟩
    | some eventId =>
    cases htype : entry.getText "sourceType" with
    | none => exact ⟨_, rfl⟩
    | some sourceType =>
    cases hname : entry.getText "sourceName" with
    | none => exact ⟨_, rfl⟩
    | some sourceName =>
    cases observedAt with
    | none => exact ⟨_, rfl⟩
    | some t =>
    cases hlevel : entry.getText "level" with
    | none => exact ⟨_, rfl⟩
    | some level =>
    cases hmessage : entry.getText "message" with
    | none => exact ⟨_, rfl⟩
    | some message =>
      have hvalues : HasValues entry
          ⟨0, ⟨0⟩, eventId, sourceType, sourceName, t, level, message, 0⟩ :=
        ⟨hevent, htype, hname, hlevel, hmessage⟩
      have hsome : (Tri.all (entryConditions entry (some t) reportedAt)).isSome :=
        isSome_entryConditions hvalues t
      rw [hnone] at hsome
      cases hsome

end Entries

namespace LogStore

variable {w : LogStore} {g : Uuid}

/-! ## Requests are spaced -/

/-- Two requests of a host, the earlier first. -/
def Spaced (a b : RequestRow) : Prop := a.hostId = b.hostId → a.receivedAt + 2 * second ≤ b.receivedAt

/-- The accepted requests are spaced, and so is what the transactions under way make of them. -/
structure Paced (history : List RequestRow) (w : LogStore) : Prop where
  spaced : history.Pairwise Spaced
  admitted : ∀ g i, w.ingest? g = some i → ∀ a ∈ history, a.hostId = g →
    a.receivedAt + 2 * second ≤ w.now
  recorded : ∀ g i, w.ingest? g = some i → ∀ b ∈ i.stage.requests, b.hostId = g ∧
    ∀ a ∈ history, a.hostId = g → a.receivedAt + 2 * second ≤ b.receivedAt

/-- A request that is in the table is not after the latest one of its host. -/
theorem le_latestReceivedAt {a : RequestRow} (ha : a ∈ w.requests) :
    ∃ t, w.latestReceivedAt a.hostId = some t ∧ a.receivedAt ≤ t := by
  have hmem : a.receivedAt ∈ (w.requests.filter (·.hostId = a.hostId)).map (·.receivedAt) :=
    List.mem_map.2 ⟨a, List.mem_filter.2 ⟨ha, by simp⟩, rfl⟩
  obtain ⟨t, ht⟩ := Option.isSome_iff_exists.1 (List.isSome_max?_of_mem hmem)
  exact ⟨t, ht, (List.max?_eq_some_iff.1 ht).2 _ hmem⟩

namespace Paced

variable {history : List RequestRow} {i i' : Ingest}

/-- Nothing happens to the transactions. -/
theorem frame (h : Paced history w) {w' : LogStore} (hnow : w'.now = w.now)
    (hingests : w'.ingests = w.ingests) : Paced history w' := by
  have hfind : w'.ingest? = w.ingest? := by
    funext g
    simp only [ingest?, hingests]
  refine ⟨h.spaced, ?_, ?_⟩
  · rw [hfind, hnow]
    exact h.admitted
  · rw [hfind]
    exact h.recorded

theorem endIngest (h : Paced history w) (g : Uuid) : Paced history (w.endIngest g) := by
  have hfind : ∀ g' i, (w.endIngest g).ingest? g' = some i → w.ingest? g' = some i := by
    intro g' i hi
    rw [ingest?_endIngest] at hi
    split at hi
    next => cases hi
    next => exact hi
  exact ⟨h.spaced, fun g' i hi => h.admitted g' i (hfind g' i hi),
    fun g' i hi => h.recorded g' i (hfind g' i hi)⟩

/-- A transaction goes on and keeps its request. -/
theorem setIngest (h : Paced history w) (hi : w.ingest? g = some i) (hhost : i'.hostId = g)
    (hrequests : ∀ b ∈ i'.stage.requests, b ∈ i.stage.requests ∨
      b.hostId = g ∧ b.receivedAt = w.now) : Paced history (w.setIngest i') := by
  refine ⟨h.spaced, fun g' j hj => ?_, fun g' j hj => ?_⟩
  · rw [ingest?_setIngest hi hhost] at hj
    split at hj
    next hg => exact hg ▸ h.admitted g i hi
    next => exact h.admitted g' j hj
  · rw [ingest?_setIngest hi hhost] at hj
    split at hj
    next hg =>
      obtain rfl := Option.some.inj hj
      subst hg
      intro b hb
      rcases hrequests b hb with hb | ⟨hbhost, htime⟩
      · exact h.recorded g' i hi b hb
      · exact ⟨hbhost, fun a ha hahost => htime ▸ h.admitted g' i hi a ha hahost⟩
    next => exact h.recorded g' j hj

theorem lock (h : Paced history w) (hsound : RequestsSound history w) (n : ℕ) :
    Paced history (w.lock n) := by
  unfold LogStore.lock
  cases w.waiting[n]? with
  | none => exact h
  | some r =>
    dsimp only
    cases w.hosts.find? (·.serverId = r.serverId) with
    | none => exact h.frame rfl rfl
    | some host =>
      dsimp only
      split_ifs with hheld hrefused
      · exact h
      · exact h.frame rfl rfl
      · have hfree : w.ingest? host.id = none := by simpa using hheld
        have hfind := ingest?_concat (w := { w with
          waiting := w.waiting.eraseIdx n
          ingests := w.ingests ++ [⟨host.id, r, .admitted, []⟩] }) rfl rfl hfree
        refine ⟨h.spaced, fun g' i hi => ?_, fun g' i hi => ?_⟩
        · rw [hfind] at hi
          split at hi
          next hg =>
            intro a ha hahost
            -- the request is in the table and not after the latest one, or it is a day old
            rcases hsound.kept a ha with htable | hold
            · obtain ⟨t, ht, hle⟩ := le_latestReceivedAt htable
              have hlatest : w.latestReceivedAt host.id = some t := by
                rw [← ht, hahost]
                exact congrArg _ hg.symm
              rw [refusal, hlatest] at hrefused
              split_ifs at hrefused with _ hrate
              · exact absurd rfl hrefused
              · exact absurd rfl hrefused
              · simp only [Option.any_some, decide_eq_true_eq] at hrate
                show a.receivedAt + 2 * second ≤ w.now
                omega
            · change a.receivedAt + day < w.now at hold
              simp only [day, second] at hold ⊢
              omega
          next => exact h.admitted g' i hi
        · rw [hfind] at hi
          split at hi
          next =>
            obtain rfl := Option.some.inj hi
            simp [Stage.requests]
          next => exact h.recorded g' i hi

theorem record (h : Paced history w) {report : TestedReport} {added : List LogRow}
    (hi : w.ingest? g = some ⟨g, report, .admitted, added⟩) :
    Paced history (w.record ⟨g, report, .admitted, added⟩) := by
  have hdrawn : Paced history { w with nextRequestId := w.nextRequestId + 1 } := h.frame rfl rfl
  unfold LogStore.record
  dsimp only
  split_ifs
  · exact hdrawn.endIngest g
  · refine hdrawn.setIngest hi rfl fun b hb => .inr ?_
    rw [List.mem_singleton.1 hb]
    exact ⟨rfl, rfl⟩

theorem insertNext (h : Paced history w) {report : TestedReport} {request : RequestRow}
    {entry : Jsonb} {rest : List Jsonb} {added : List LogRow}
    (hi : w.ingest? g = some ⟨g, report, .inserting request (entry :: rest), added⟩) :
    Paced history (w.insertNext ⟨g, report, .inserting request (entry :: rest), added⟩ request
      entry rest) := by
  have hdrawn : Paced history { w with nextEntryId := w.nextEntryId + 1 } := h.frame rfl rfl
  unfold LogStore.insertNext
  dsimp only
  cases newRow w.nextEntryId g w.now entry with
  | error e => exact hdrawn.endIngest g
  | ok row =>
    dsimp only
    split_ifs
    · exact hdrawn.setIngest hi rfl fun b hb => .inl hb
    · exact hdrawn.setIngest hi rfl fun b hb => .inl hb

theorem commit (h : Paced history w) {report : TestedReport} {request : RequestRow}
    {oldEntries oldRequests : List ℕ} {added : List LogRow}
    (hi : w.ingest? g = some ⟨g, report, .pruned request oldEntries oldRequests, added⟩) :
    Paced (history ++ [request])
      (w.commit ⟨g, report, .pruned request oldEntries oldRequests, added⟩ request oldEntries
        oldRequests) := by
  obtain ⟨hhost, hspaced⟩ := h.recorded g _ hi request List.mem_cons_self
  have hfind : ∀ g' i, (w.endIngest g).ingest? g' = some i →
      g' ≠ g ∧ w.ingest? g' = some i := by
    intro g' i hi
    rw [ingest?_endIngest] at hi
    split at hi
    next => cases hi
    next hne => exact ⟨hne, hi⟩
  -- the transactions that go on are those of other hosts
  have hmem : ∀ g' ≠ g, ∀ a ∈ history ++ [request], a.hostId = g' → a ∈ history := by
    intro g' hne a ha hahost
    rcases List.mem_append.1 ha with ha | ha
    · exact ha
    · rw [List.mem_singleton.1 ha, hhost] at hahost
      exact absurd hahost.symm hne
  refine ⟨?_, fun g' i hi a ha hahost => ?_, fun g' i hi b hb => ?_⟩
  · refine List.pairwise_append.2 ⟨h.spaced, List.pairwise_singleton _ _, ?_⟩
    intro a ha b hb heq
    rw [List.mem_singleton.1 hb] at heq ⊢
    exact hspaced a ha (heq.trans hhost)
  · obtain ⟨hne, hi⟩ := hfind g' i hi
    exact h.admitted g' i hi a (hmem g' hne a ha hahost) hahost
  · obtain ⟨hne, hi⟩ := hfind g' i hi
    obtain ⟨hbhost, hspaced⟩ := h.recorded g' i hi b hb
    exact ⟨hbhost, fun a ha hahost => hspaced a (hmem g' hne a ha hahost) hahost⟩

/-- A step keeps the pace, and so does the request it commits. -/
theorem step (h : Paced history w) (hsound : RequestsSound history w) (s : StoreStep) :
    Paced (history ++ w.accepted s) (w.step s) := by
  cases s with
  | wait duration =>
    rw [show w.accepted (.wait duration) = [] from rfl, List.append_nil]
    refine ⟨h.spaced, fun g i hi a ha hahost => ?_, h.recorded⟩
    have := h.admitted g i hi a ha hahost
    show a.receivedAt + 2 * second ≤ w.now + duration
    omega
  | register host =>
    rw [show w.accepted (.register host) = [] from rfl, List.append_nil, LogStore.step]
    split_ifs
    · exact h
    · exact h.frame rfl rfl
  | setEnabled hostId enabled =>
    rw [show w.accepted (.setEnabled hostId enabled) = [] from rfl, List.append_nil,
      LogStore.step]
    split_ifs
    · exact h
    · exact h.frame rfl rfl
  | call report =>
    rw [show w.accepted (.call report) = [] from rfl, List.append_nil, LogStore.step]
    cases report.tested w.now with
    | none => exact h
    | some r => exact h.frame rfl rfl
  | giveUp n =>
    rw [show w.accepted (.giveUp n) = [] from rfl, List.append_nil]
    exact h.frame rfl rfl
  | lock n =>
    rw [show w.accepted (.lock n) = [] from rfl, List.append_nil]
    exact h.lock hsound n
  | record g =>
    rw [show w.accepted (.record g) = [] from rfl, List.append_nil]
    rcases step_record w g with heq | ⟨report, added, hi, heq⟩
    · rwa [heq]
    · rw [heq]
      exact h.record hi
  | insertNext g =>
    rw [show w.accepted (.insertNext g) = [] from rfl, List.append_nil]
    rcases step_insertNext w g with heq | ⟨report, request, entry, rest, added, hi, heq⟩
    · rwa [heq]
    · rw [heq]
      exact h.insertNext hi
  | prune g =>
    rw [show w.accepted (.prune g) = [] from rfl, List.append_nil]
    rcases step_prune w g with heq | ⟨report, request, added, hi, heq⟩
    · rwa [heq]
    · rw [heq]
      exact h.setIngest hi rfl fun b hb => .inl hb
  | commit g =>
    rcases step_commit w g with ⟨heq, hnone⟩ | ⟨_, _, _, _, _, hi, heq, hcommitted⟩
    · rwa [LogStore.accepted, hnone, List.flatMap_nil, List.append_nil, heq]
    · rw [LogStore.accepted, hcommitted, heq, List.flatMap_singleton]
      exact h.commit hi
  | abort g =>
    rw [show w.accepted (.abort g) = [] from rfl, List.append_nil]
    exact h.endIngest g
  | scheduledPrune =>
    rw [show w.accepted .scheduledPrune = [] from rfl, List.append_nil]
    exact h.frame rfl rfl

end Paced

theorem paced_run (now : ℤ) (steps : List StoreStep) :
    Paced ((empty now).acceptedRequests steps) ((empty now).run steps) := by
  refine (run_commits (P := fun l w => RequestsSound (l.flatMap (·.stage.requests)) w ∧
    Paced (l.flatMap (·.stage.requests)) w) (fun l w s h => ?_) ?_ steps).2
  · rw [List.flatMap_append]
    exact ⟨Journal.sound_of_steps (requests_step w s) h.1, h.2.step h.1 s⟩
  · exact ⟨Journal.sound_empty now 1, List.Pairwise.nil, by simp, by simp [empty, ingest?]⟩

/-! ## Reports are stored as a whole -/

/-- The entries that a transaction has still to insert. -/
def rest (i : Ingest) : List Jsonb :=
  match i.stage with
  | .admitted => i.report.entries
  | .inserting _ rest => rest
  | .pruned _ _ _ => []

/-- What a transaction has inserted comes from its report, and the entries it has come past are
stored; `history` are the lines ever committed. -/
structure Progress (history : List LogRow) (i : Ingest) : Prop where
  reported : ∀ a ∈ i.added, a.hostId = i.hostId ∧
    ∃ e ∈ i.report.entries, newRow a.id i.hostId a.receivedAt e = .ok a
  stored : ∃ front, i.report.entries = front ++ rest i ∧ ∀ e ∈ front,
    entryIsValid e i.report.reportedAt = some true ∧
      ∃ a ∈ history ++ i.added, a.hostId = i.hostId ∧ e.getText "eventId" = some a.eventId

theorem Progress.mono {history history' : List LogRow} {i : Ingest} (h : Progress history i)
    (hsub : ∀ a ∈ history, a ∈ history') : Progress history' i := by
  obtain ⟨front, hfront, hstored⟩ := h.stored
  refine ⟨h.reported, front, hfront, fun e he => ?_⟩
  obtain ⟨hvalid, a, ha, hkey⟩ := hstored e he
  refine ⟨hvalid, a, List.mem_append.2 ?_, hkey⟩
  exact (List.mem_append.1 ha).imp_left (hsub a)

/-- The committed transactions are at their end. -/
structure Whole (l : List Ingest) (w : LogStore) : Prop where
  committed : ∀ j ∈ l, rest j = [] ∧ Progress (l.flatMap (·.added)) j
  underway : ∀ g i, w.ingest? g = some i → Progress (l.flatMap (·.added)) i

namespace Whole

variable {l : List Ingest} {i i' : Ingest}

theorem frame (h : Whole l w) {w' : LogStore} (hingests : w'.ingests = w.ingests) :
    Whole l w' := by
  refine ⟨h.committed, fun g i hi => h.underway g i ?_⟩
  simpa only [ingest?, hingests] using hi

theorem endIngest (h : Whole l w) (g : Uuid) : Whole l (w.endIngest g) := by
  refine ⟨h.committed, fun g' i hi => h.underway g' i ?_⟩
  rw [ingest?_endIngest] at hi
  split at hi
  next => cases hi
  next => exact hi

theorem setIngest (h : Whole l w) (hi : w.ingest? g = some i) (hhost : i'.hostId = g)
    (hprogress : Progress (l.flatMap (·.added)) i') : Whole l (w.setIngest i') := by
  refine ⟨h.committed, fun g' j hj => ?_⟩
  rw [ingest?_setIngest hi hhost] at hj
  split at hj
  next =>
    obtain rfl := Option.some.inj hj
    exact hprogress
  next => exact h.underway g' j hj

theorem lock (h : Whole l w) (n : ℕ) : Whole l (w.lock n) := by
  unfold LogStore.lock
  cases w.waiting[n]? with
  | none => exact h
  | some r =>
    dsimp only
    cases w.hosts.find? (·.serverId = r.serverId) with
    | none => exact h.frame rfl
    | some host =>
      dsimp only
      split_ifs with hheld hrefused
      · exact h
      · exact h.frame rfl
      · have hfree : w.ingest? host.id = none := by simpa using hheld
        have hfind := ingest?_concat (w := { w with
          waiting := w.waiting.eraseIdx n
          ingests := w.ingests ++ [⟨host.id, r, .admitted, []⟩] }) rfl rfl hfree
        refine ⟨h.committed, fun g' i hi => ?_⟩
        rw [hfind] at hi
        split at hi
        next =>
          obtain rfl := Option.some.inj hi
          exact ⟨by simp, [], rfl, by simp⟩
        next => exact h.underway g' i hi

theorem record (h : Whole l w) {report : TestedReport} {added : List LogRow}
    (hi : w.ingest? g = some ⟨g, report, .admitted, added⟩) :
    Whole l (w.record ⟨g, report, .admitted, added⟩) := by
  have hdrawn : Whole l { w with nextRequestId := w.nextRequestId + 1 } := h.frame rfl
  have hprogress := h.underway g _ hi
  unfold LogStore.record
  dsimp only
  split_ifs
  · exact hdrawn.endIngest g
  · exact hdrawn.setIngest hi rfl ⟨hprogress.reported, hprogress.stored⟩

/-- The next entry is stored: it is inserted, or it has been before. -/
theorem insertNext (h : Whole l w) (hlines : LinesSound (l.flatMap (·.added)) w)
    {report : TestedReport} {request : RequestRow} {entry : Jsonb} {rest : List Jsonb}
    {added : List LogRow}
    (hi : w.ingest? g = some ⟨g, report, .inserting request (entry :: rest), added⟩) :
    Whole l (w.insertNext ⟨g, report, .inserting request (entry :: rest), added⟩ request entry
      rest) := by
  have hdrawn : Whole l { w with nextEntryId := w.nextEntryId + 1 } := h.frame rfl
  obtain ⟨hreported, front, hfront, hstored⟩ := h.underway g _ hi
  dsimp only [LogStore.rest] at hreported hfront hstored
  have hmem : entry ∈ report.entries := by simp [hfront]
  unfold LogStore.insertNext
  dsimp only
  cases hrow : newRow w.nextEntryId g w.now entry with
  | error e => exact hdrawn.endIngest g
  | ok row =>
    obtain ⟨hid, hhost, htime⟩ := newRow_stamp hrow
    have hvalues := (newRow_values hrow).1
    have hvalid : entryIsValid entry report.reportedAt = some true := by
      rcases newRow_of_tested w.nextEntryId g w.now (report.valid entry hmem) with ⟨hvalid, -⟩ | ⟨-, column, herror⟩
      · exact hvalid
      · rw [hrow] at herror
        cases herror
    have hfront' : report.entries = (front ++ [entry]) ++ rest := by simp [hfront]
    dsimp only
    split_ifs with hany
    · refine hdrawn.setIngest hi rfl ⟨hreported, front ++ [entry], hfront', fun e he => ?_⟩
      rcases List.mem_append.1 he with he | he
      · exact hstored e he
      · rw [List.mem_singleton.1 he]
        obtain ⟨a, ha, hkey⟩ := List.any_eq_true.1 hany
        simp only [Bool.and_eq_true, decide_eq_true_eq] at hkey
        refine ⟨hvalid, a, List.mem_append.2 ?_, hkey.1.trans hhost, ?_⟩
        · exact (List.mem_append.1 ha).imp_left fun ha => hlines.present.subset ha
        · rw [hkey.2]
          exact hvalues.eventId
    · refine hdrawn.setIngest hi rfl ⟨fun a ha => ?_, front ++ [entry], hfront', fun e he => ?_⟩
      · rcases List.mem_append.1 ha with ha | ha
        · exact hreported a ha
        · rw [List.mem_singleton.1 ha]
          exact ⟨hhost, entry, hmem, by rw [hid, htime]; exact hrow⟩
      · rcases List.mem_append.1 he with he | he
        · obtain ⟨hvalid, a, ha, hkey⟩ := hstored e he
          exact ⟨hvalid, a, by rw [← List.append_assoc]; exact List.mem_append_left _ ha, hkey⟩
        · rw [List.mem_singleton.1 he]
          exact ⟨hvalid, row, by simp, hhost, hvalues.eventId⟩

theorem commit (h : Whole l w) {report : TestedReport} {request : RequestRow}
    {oldEntries oldRequests : List ℕ} {added : List LogRow}
    (hi : w.ingest? g = some ⟨g, report, .pruned request oldEntries oldRequests, added⟩) :
    Whole (l ++ [⟨g, report, .pruned request oldEntries oldRequests, added⟩])
      (w.commit ⟨g, report, .pruned request oldEntries oldRequests, added⟩ request oldEntries
        oldRequests) := by
  have hsub : ∀ a ∈ l.flatMap (·.added), a ∈ (l ++
      [(⟨g, report, .pruned request oldEntries oldRequests, added⟩ : Ingest)]).flatMap
        (·.added) := by
    intro a ha
    rw [List.flatMap_append]
    exact List.mem_append_left _ ha
  refine ⟨fun j hj => ?_, fun g' i hi' => ?_⟩
  · rcases List.mem_append.1 hj with hj | hj
    · exact ⟨(h.committed j hj).1, (h.committed j hj).2.mono hsub⟩
    · rw [List.mem_singleton.1 hj]
      exact ⟨rfl, (h.underway g _ hi).mono hsub⟩
  · have hend := h.endIngest g
    exact (hend.underway g' i hi').mono hsub

theorem step (h : Whole l w) (hlines : LinesSound (l.flatMap (·.added)) w) (s : StoreStep) :
    Whole (l ++ w.committed s) (w.step s) := by
  cases s with
  | wait duration =>
    rw [show w.committed (.wait duration) = [] from rfl, List.append_nil]
    exact h.frame rfl
  | register host =>
    rw [show w.committed (.register host) = [] from rfl, List.append_nil, LogStore.step]
    split_ifs
    · exact h
    · exact h.frame rfl
  | setEnabled hostId enabled =>
    rw [show w.committed (.setEnabled hostId enabled) = [] from rfl, List.append_nil,
      LogStore.step]
    split_ifs
    · exact h
    · exact h.frame rfl
  | call report =>
    rw [show w.committed (.call report) = [] from rfl, List.append_nil, LogStore.step]
    cases report.tested w.now with
    | none => exact h
    | some r => exact h.frame rfl
  | giveUp n =>
    rw [show w.committed (.giveUp n) = [] from rfl, List.append_nil]
    exact h.frame rfl
  | lock n =>
    rw [show w.committed (.lock n) = [] from rfl, List.append_nil]
    exact h.lock n
  | record g =>
    rw [show w.committed (.record g) = [] from rfl, List.append_nil]
    rcases step_record w g with heq | ⟨report, added, hi, heq⟩
    · rwa [heq]
    · rw [heq]
      exact h.record hi
  | insertNext g =>
    rw [show w.committed (.insertNext g) = [] from rfl, List.append_nil]
    rcases step_insertNext w g with heq | ⟨report, request, entry, rest, added, hi, heq⟩
    · rwa [heq]
    · rw [heq]
      exact h.insertNext hlines hi
  | prune g =>
    rw [show w.committed (.prune g) = [] from rfl, List.append_nil]
    rcases step_prune w g with heq | ⟨report, request, added, hi, heq⟩
    · rwa [heq]
    · rw [heq]
      have hprogress := h.underway g _ hi
      exact h.setIngest hi rfl ⟨hprogress.reported, hprogress.stored⟩
  | commit g =>
    rcases step_commit w g with ⟨heq, hnone⟩ | ⟨_, _, _, _, _, hi, heq, hcommitted⟩
    · rwa [hnone, List.append_nil, heq]
    · rw [hcommitted, heq]
      exact h.commit hi
  | abort g =>
    rw [show w.committed (.abort g) = [] from rfl, List.append_nil]
    exact h.endIngest g
  | scheduledPrune =>
    rw [show w.committed .scheduledPrune = [] from rfl, List.append_nil]
    exact h.frame rfl

end Whole

theorem whole_run (now : ℤ) (steps : List StoreStep) :
    Whole ((empty now).commits steps) ((empty now).run steps) := by
  refine (run_commits (P := fun l w => LinesSound (l.flatMap (·.added)) w ∧ Whole l w)
    (fun l w s h => ?_) ?_ steps).2
  · rw [List.flatMap_append]
    exact ⟨Journal.sound_of_steps (lines_step w s) h.1, h.2.step h.1 s⟩
  · exact ⟨Journal.sound_empty now 1, by simp, by simp [empty, ingest?]⟩

end LogStore

/-! ## Over all interleavings -/

section Results

open LogStore

/-- **The lines of a host are committed in the order of their ids, and stay for a day.** -/
theorem lines_ordered_and_kept (now : ℤ) (steps : List StoreStep) :
    ((empty now).storedLines steps).Pairwise (fun a b => a.hostId = b.hostId →
        a.id < b.id ∧ (a.eventId = b.eventId → a.receivedAt + day < b.receivedAt)) ∧
      ((empty now).run steps).entries.Sublist ((empty now).storedLines steps) ∧
      ∀ a ∈ (empty now).storedLines steps, a ∈ ((empty now).run steps).entries ∨
        a.receivedAt + day < ((empty now).run steps).now := by
  have hsound := linesSound_run now steps
  exact ⟨hsound.ascending, hsound.present, hsound.kept⟩

/-- **Accepted requests of a host are two seconds apart, those of one nonce a day.** -/
theorem requests_spaced (now : ℤ) (steps : List StoreStep) :
    ((empty now).acceptedRequests steps).Pairwise (fun a b => a.hostId = b.hostId →
      a.receivedAt + 2 * second ≤ b.receivedAt ∧
        (a.requestNonce = b.requestNonce → a.receivedAt + day < b.receivedAt)) := by
  have hsound := requestsSound_run now steps
  have hpaced := paced_run now steps
  exact (hpaced.spaced.and hsound.ascending).imp fun hab heq => ⟨hab.1 heq, (hab.2 heq).2⟩

/-- **All lines of an accepted report are valid and stored, and no others are.** -/
theorem accepted_stored (now : ℤ) (steps : List StoreStep) :
    (∀ i ∈ (empty now).commits steps, ∀ e ∈ i.report.entries,
      entryIsValid e i.report.reportedAt = some true ∧
        ∃ a ∈ (empty now).storedLines steps, a.hostId = i.hostId ∧
          e.getText "eventId" = some a.eventId) ∧
      ∀ a ∈ (empty now).storedLines steps, ∃ i ∈ (empty now).commits steps, a.hostId = i.hostId ∧
        ∃ e ∈ i.report.entries, newRow a.id i.hostId a.receivedAt e = .ok a := by
  have hwhole := whole_run now steps
  refine ⟨fun i hi e he => ?_, fun a ha => ?_⟩
  · obtain ⟨hrest, -, front, hfront, hstored⟩ := hwhole.committed i hi
    rw [hrest, List.append_nil] at hfront
    obtain ⟨hvalid, a, ha, hkey⟩ := hstored e (hfront ▸ he)
    refine ⟨hvalid, a, ?_, hkey⟩
    rcases List.mem_append.1 ha with ha | ha
    · exact ha
    · exact List.mem_flatMap.2 ⟨i, hi, ha⟩
  · obtain ⟨i, hi, hadded⟩ := List.mem_flatMap.1 ha
    exact ⟨i, hi, (hwhole.committed i hi).2.reported a hadded⟩

end Results

end IvrmDashboard.ConsoleLogs

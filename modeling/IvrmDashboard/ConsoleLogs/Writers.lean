import IvrmDashboard.ConsoleLogs.Store
import IvrmDashboard.Foundations.Journal
import IvrmDashboard.Foundations.Sql.Unique

/-!
# The reports of a host are stored one after the other

The tables of the lines and of the requests are journals: a transaction holds the row of its host
from before it draws its first number until it ends, so a host has one writer at a time. Every step
of the store is a few steps of either journal (`lines_step`, `requests_step`), and what holds of a
journal holds for all interleavings of calls, jobs and errors.
-/

namespace IvrmDashboard.ConsoleLogs

open Sql

variable [FractionReading]

/-! ## What a transaction has written so far -/

/-- The request that the transaction has inserted. -/
def Stage.requests : Stage → List RequestRow
  | .admitted => []
  | .inserting request _ => [request]
  | .pruned request _ _ => [request]

/-- The lines that the transaction deletes. -/
def Stage.oldEntries : Stage → List ℕ
  | .pruned _ oldEntries _ => oldEntries
  | _ => []

/-- The requests that the transaction deletes. -/
def Stage.oldRequests : Stage → List ℕ
  | .pruned _ _ oldRequests => oldRequests
  | _ => []

namespace LogStore

variable {w : LogStore} {i i' : Ingest} {g : Uuid}

/-- What the transaction of a host holds, by a function of the transaction. -/
def held {β : Type} (f : Ingest → List β) (w : LogStore) (g : Uuid) : List β :=
  (w.ingest? g).elim [] f

theorem hostId_of_ingest? (h : w.ingest? g = some i) : i.hostId = g := by
  simpa using List.find?_some h

theorem held_eq {β : Type} {f : Ingest → List β} (h : w.ingest? g = some i) : held f w g = f i := by
  rw [held, h]
  rfl

/-- Nobody else notices that a transaction goes on. -/
theorem ingest?_setIngest (h : w.ingest? g = some i) (hhost : i'.hostId = g) (g' : Uuid) :
    (w.setIngest i').ingest? g' = if g' = g then some i' else w.ingest? g' := by
  have hfind := find?_updateWhere_key Ingest.hostId i'.hostId g' (f := fun _ => i')
    (fun _ _ => rfl) w.ingests
  rw [ingest?] at h
  rw [hhost, h, Option.map_some] at hfind
  simpa only [ingest?, setIngest, hhost] using hfind

/-- The row is free, and those of other hosts are held as before. -/
theorem ingest?_endIngest (w : LogStore) (g g' : Uuid) :
    (w.endIngest g).ingest? g' = if g' = g then none else w.ingest? g' :=
  find?_filter_key_ne w.ingests

theorem held_setIngest {β : Type} (f : Ingest → List β) (h : w.ingest? g = some i)
    (hhost : i'.hostId = g) :
    held f (w.setIngest i') = Function.update (held f w) g (f i') := by
  funext g'
  rw [held, ingest?_setIngest h hhost]
  by_cases hg : g' = g
  · subst hg
    simp
  · rw [Function.update_of_ne hg, if_neg hg, held]

theorem held_endIngest {β : Type} (f : Ingest → List β) (w : LogStore) (g : Uuid) :
    held f (w.endIngest g) = Function.update (held f w) g [] := by
  funext g'
  rw [held, ingest?_endIngest]
  by_cases hg : g' = g
  · subst hg
    simp
  · rw [Function.update_of_ne hg, if_neg hg, held]

/-- The transaction of a call that has got the row of its host. -/
theorem ingest?_concat {l : List Ingest} (hl : w.ingests = l ++ [i]) {w' : LogStore}
    (hw' : w'.ingests = l) (hfree : w'.ingest? i.hostId = none) (g : Uuid) :
    w.ingest? g = if g = i.hostId then some i else w'.ingest? g := by
  subst hw'
  simp only [ingest?] at hfree ⊢
  rw [hl, List.find?_append]
  by_cases hg : g = i.hostId
  · subst hg
    simp [hfree]
  · have hg' : ¬ i.hostId = g := fun heq => hg heq.symm
    simp [hg, hg']

/-- A transaction begins with nothing. -/
theorem held_concat {β : Type} (f : Ingest → List β) {l : List Ingest}
    (hl : w.ingests = l ++ [i]) (hf : f i = []) {w' : LogStore} (hw' : w'.ingests = l)
    (hfree : w'.ingest? i.hostId = none) : held f w = held f w' := by
  funext g
  rw [held, ingest?_concat hl hw' hfree]
  by_cases hg : g = i.hostId
  · subst hg
    simp [held, hf, hfree]
  · rw [if_neg hg, held]

/-! ## What is committed -/

/-- The transaction that a step commits. -/
def committed (w : LogStore) : StoreStep → List Ingest
  | .commit g =>
    match w.ingest? g with
    | some ⟨hostId, report, .pruned request oldEntries oldRequests, added⟩ =>
      [⟨hostId, report, .pruned request oldEntries oldRequests, added⟩]
    | _ => []
  | _ => []

/-- The lines that a step commits. -/
def stored (w : LogStore) (s : StoreStep) : List LogRow := (w.committed s).flatMap (·.added)

/-- The request that a step commits. -/
def accepted (w : LogStore) (s : StoreStep) : List RequestRow :=
  (w.committed s).flatMap (·.stage.requests)

/-- The transactions committed in a run, in order. -/
def commits (w : LogStore) (steps : List StoreStep) : List Ingest :=
  Runs.trace step committed w steps

/-- The lines ever committed in a run. -/
def storedLines (w : LogStore) (steps : List StoreStep) : List LogRow :=
  (w.commits steps).flatMap (·.added)

/-- The requests ever accepted in a run. -/
def acceptedRequests (w : LogStore) (steps : List StoreStep) : List RequestRow :=
  (w.commits steps).flatMap (·.stage.requests)

/-! ## The two journals -/

/-- The table of the lines, after those of `history` have been committed. -/
def lines (history : List LogRow) (w : LogStore) : Journal LogRow Uuid where
  now := w.now
  next := w.nextEntryId
  history := history
  table := w.entries
  pending := held (·.added) w
  doomed := held (·.stage.oldEntries) w

/-- The table of the requests, after those of `history` have been committed. -/
def requestLog (history : List RequestRow) (w : LogStore) : Journal RequestRow Uuid where
  now := w.now
  next := w.nextRequestId
  history := history
  table := w.requests
  pending := held (·.stage.requests) w
  doomed := held (·.stage.oldRequests) w

/-- A step of the table of the lines. -/
abbrev LineStep := Journal.Step LogRow.hostId LogRow.eventId LogRow.id LogRow.receivedAt day

/-- A step of the table of the requests. -/
abbrev RequestStep :=
  Journal.Step RequestRow.hostId RequestRow.requestNonce RequestRow.id RequestRow.receivedAt day

omit [FractionReading] in
theorem old_oldRows {α : Type} {receivedAt : α → ℤ} {id : α → ℕ} (now : ℤ) (rows : List α) :
    Journal.Old id receivedAt day now rows (oldRows receivedAt id now rows) := by
  intro n hn
  obtain ⟨a, ha, rfl⟩ := List.mem_map.1 hn
  have hmem := List.mem_of_mem_take ha
  rw [mem_orderBy, List.mem_filter, decide_eq_true_eq] at hmem
  exact ⟨a, hmem.1, rfl, by omega⟩

/-! ## What comes next in a transaction -/

theorem step_record (w : LogStore) (g : Uuid) :
    w.step (.record g) = w ∨ ∃ report added,
      w.ingest? g = some ⟨g, report, .admitted, added⟩ ∧
        w.step (.record g) = w.record ⟨g, report, .admitted, added⟩ := by
  simp only [step]
  cases hi : w.ingest? g with
  | none => exact .inl rfl
  | some i =>
    obtain ⟨hostId, report, stage, added⟩ := i
    obtain rfl : hostId = g := hostId_of_ingest? hi
    cases stage with
    | admitted => exact .inr ⟨report, added, rfl, rfl⟩
    | inserting request rest => exact .inl rfl
    | pruned request oldEntries oldRequests => exact .inl rfl

theorem step_insertNext (w : LogStore) (g : Uuid) :
    w.step (.insertNext g) = w ∨ ∃ report request entry rest added,
      w.ingest? g = some ⟨g, report, .inserting request (entry :: rest), added⟩ ∧
        w.step (.insertNext g) =
          w.insertNext ⟨g, report, .inserting request (entry :: rest), added⟩ request entry rest := by
  simp only [step]
  cases hi : w.ingest? g with
  | none => exact .inl rfl
  | some i =>
    obtain ⟨hostId, report, stage, added⟩ := i
    obtain rfl : hostId = g := hostId_of_ingest? hi
    cases stage with
    | admitted => exact .inl rfl
    | inserting request rest =>
      cases rest with
      | nil => exact .inl rfl
      | cons entry rest => exact .inr ⟨report, request, entry, rest, added, rfl, rfl⟩
    | pruned request oldEntries oldRequests => exact .inl rfl

theorem step_prune (w : LogStore) (g : Uuid) :
    w.step (.prune g) = w ∨ ∃ report request added,
      w.ingest? g = some ⟨g, report, .inserting request [], added⟩ ∧
        w.step (.prune g) = w.prune ⟨g, report, .inserting request [], added⟩ request := by
  simp only [step]
  cases hi : w.ingest? g with
  | none => exact .inl rfl
  | some i =>
    obtain ⟨hostId, report, stage, added⟩ := i
    obtain rfl : hostId = g := hostId_of_ingest? hi
    cases stage with
    | admitted => exact .inl rfl
    | inserting request rest =>
      cases rest with
      | nil => exact .inr ⟨report, request, added, rfl, rfl⟩
      | cons entry rest => exact .inl rfl
    | pruned request oldEntries oldRequests => exact .inl rfl

theorem step_commit (w : LogStore) (g : Uuid) :
    (w.step (.commit g) = w ∧ w.committed (.commit g) = []) ∨
      ∃ report request oldEntries oldRequests added,
        w.ingest? g = some ⟨g, report, .pruned request oldEntries oldRequests, added⟩ ∧
          w.step (.commit g) =
            w.commit ⟨g, report, .pruned request oldEntries oldRequests, added⟩ request oldEntries
              oldRequests ∧
          w.committed (.commit g) =
            [⟨g, report, .pruned request oldEntries oldRequests, added⟩] := by
  simp only [step, committed]
  cases hi : w.ingest? g with
  | none => exact .inl ⟨rfl, rfl⟩
  | some i =>
    obtain ⟨hostId, report, stage, added⟩ := i
    obtain rfl : hostId = g := hostId_of_ingest? hi
    cases stage with
    | admitted => exact .inl ⟨rfl, rfl⟩
    | inserting request rest => exact .inl ⟨rfl, rfl⟩
    | pruned request oldEntries oldRequests =>
      exact .inr ⟨report, request, oldEntries, oldRequests, added, rfl, rfl, rfl⟩

/-- The columns of a new row that do not come from its entry. -/
theorem newRow_stamp {id : ℕ} {hostId : Uuid} {receivedAt : ℤ} {entry : Jsonb} {row : LogRow}
    (h : newRow id hostId receivedAt entry = .ok row) :
    row.id = id ∧ row.hostId = hostId ∧ row.receivedAt = receivedAt := by
  simp only [newRow, bind_eq_ok, pure_eq_ok] at h
  obtain ⟨_, -, _, -, _, -, _, -, _, -, _, -, _, -, _, -, rfl⟩ := h
  exact ⟨rfl, rfl, rfl⟩

/-! ## The lines -/

section Lines

variable {history : List LogRow}

theorem lines_setIngest (h : w.ingest? g = some i) (hhost : i'.hostId = g) :
    lines history (w.setIngest i') = { lines history w with
      pending := Function.update (held (·.added) w) g i'.added
      doomed := Function.update (held (·.stage.oldEntries) w) g i'.stage.oldEntries } := by
  simp only [lines, held_setIngest _ h hhost]
  rfl

/-- The transaction inserts lines and deletes none. -/
theorem lines_setIngest_added (h : w.ingest? g = some i) (hhost : i'.hostId = g)
    (hold : i'.stage.oldEntries = i.stage.oldEntries) :
    lines history (w.setIngest i') = { lines history w with
      pending := Function.update (held (·.added) w) g i'.added } := by
  rw [lines_setIngest h hhost, hold, ← held_eq (f := (·.stage.oldEntries)) h,
    Function.update_eq_self]
  rfl

/-- The transaction deletes lines and inserts none. -/
theorem lines_setIngest_old (h : w.ingest? g = some i) (hhost : i'.hostId = g)
    (hadded : i'.added = i.added) :
    lines history (w.setIngest i') = { lines history w with
      doomed := Function.update (held (·.stage.oldEntries) w) g i'.stage.oldEntries } := by
  rw [lines_setIngest h hhost, hadded, ← held_eq (f := (·.added)) h, Function.update_eq_self]
  rfl

/-- The transaction goes on and does nothing to the lines. -/
theorem lines_setIngest_same (h : w.ingest? g = some i) (hhost : i'.hostId = g)
    (hadded : i'.added = i.added) (hold : i'.stage.oldEntries = i.stage.oldEntries) :
    lines history (w.setIngest i') = lines history w := by
  rw [lines_setIngest_added h hhost hold, hadded, ← held_eq (f := (·.added)) h,
    Function.update_eq_self]
  rfl

theorem lines_endIngest (w : LogStore) (g : Uuid) :
    lines history (w.endIngest g) = { lines history w with
      pending := Function.update (held (·.added) w) g []
      doomed := Function.update (held (·.stage.oldEntries) w) g [] } := by
  simp only [lines, held_endIngest]
  rfl

/-- The transaction is taken back. -/
theorem lines_drop (w : LogStore) (g : Uuid) :
    LineStep (lines history w) (lines history (w.endIngest g)) := by
  rw [lines_endIngest]
  exact Journal.Step.drop _ g

theorem lines_lock (w : LogStore) (n : ℕ) : lines history (w.lock n) = lines history w := by
  unfold lock
  cases w.waiting[n]? with
  | none => rfl
  | some r =>
    dsimp only
    cases w.hosts.find? (·.serverId = r.serverId) with
    | none => rfl
    | some h =>
      dsimp only
      split_ifs with hheld
      · rfl
      · rfl
      · have hfree : w.ingest? h.id = none := by simpa using hheld
        simp only [lines]
        rw [held_concat (·.added) (l := w.ingests) rfl rfl rfl hfree,
          held_concat (·.stage.oldEntries) (l := w.ingests) rfl rfl rfl hfree]

theorem lines_record {report : TestedReport} {added : List LogRow}
    (h : w.ingest? g = some ⟨g, report, .admitted, added⟩) :
    Relation.ReflTransGen LineStep (lines history w)
      (lines history (w.record ⟨g, report, .admitted, added⟩)) := by
  unfold record
  dsimp only
  split_ifs
  · exact .single (lines_drop _ g)
  · have hdrawn : { w with nextRequestId := w.nextRequestId + 1 }.ingest? g =
        some ⟨g, report, .admitted, added⟩ := h
    rw [lines_setIngest_same hdrawn]
    · exact .refl
    all_goals rfl

/-- A line is inserted, left out, or takes the transaction back. -/
theorem lines_insertNext {report : TestedReport} {request : RequestRow} {entry : Jsonb}
    {rest : List Jsonb} {added : List LogRow}
    (h : w.ingest? g = some ⟨g, report, .inserting request (entry :: rest), added⟩) :
    Relation.ReflTransGen LineStep (lines history w)
      (lines history (w.insertNext ⟨g, report, .inserting request (entry :: rest), added⟩ request
        entry rest)) := by
  have hskip : LineStep (lines history w)
      (lines history { w with nextEntryId := w.nextEntryId + 1 }) := Journal.Step.skip _
  have hdrawn : { w with nextEntryId := w.nextEntryId + 1 }.ingest? g =
      some ⟨g, report, .inserting request (entry :: rest), added⟩ := h
  unfold insertNext
  dsimp only
  cases hrow : newRow w.nextEntryId g w.now entry with
  | error e => exact (Relation.ReflTransGen.single hskip).tail (lines_drop _ g)
  | ok row =>
    obtain ⟨hid, hhost, htime⟩ := newRow_stamp hrow
    dsimp only
    split_ifs with hany
    · rw [lines_setIngest_same hdrawn]
      · exact .single hskip
      all_goals rfl
    · have hheld : held (·.added) w g = added := held_eq h
      have hkey : ∀ b ∈ w.entries ++ held (·.added) w row.hostId, b.hostId = row.hostId →
          b.eventId ≠ row.eventId := by
        intro b hb hbhost hbevent
        rw [hhost, hheld] at hb
        exact hany (List.any_eq_true.2 ⟨b, hb, by simp [hbhost, hbevent]⟩)
      have hstep : LineStep (lines history w) _ :=
        Journal.Step.insert (lines history w) row hid htime hkey
      have hpending : (lines history w).pending row.hostId = added := by rw [hhost]; exact hheld
      rw [hpending, hhost] at hstep
      rw [lines_setIngest_added hdrawn]
      · exact .single hstep
      all_goals rfl

theorem lines_prune {report : TestedReport} {request : RequestRow} {added : List LogRow}
    (h : w.ingest? g = some ⟨g, report, .inserting request [], added⟩) :
    LineStep (lines history w)
      (lines history (w.prune ⟨g, report, .inserting request [], added⟩ request)) := by
  have hpending : (lines history w).pending g = added := held_eq h
  unfold prune
  rw [lines_setIngest_old h]
  · refine Journal.Step.doom _ g _ ?_
    rw [hpending]
    exact old_oldRows _ _
  all_goals rfl

theorem lines_commit {report : TestedReport} {request : RequestRow} {added : List LogRow}
    {oldEntries oldRequests : List ℕ}
    (h : w.ingest? g = some ⟨g, report, .pruned request oldEntries oldRequests, added⟩) :
    LineStep (lines history w) (lines (history ++ added)
      (w.commit ⟨g, report, .pruned request oldEntries oldRequests, added⟩ request oldEntries
        oldRequests)) := by
  have hpending : (lines history w).pending g = added := held_eq h
  have hdoomed : (lines history w).doomed g = oldEntries := held_eq h
  have hstep : LineStep (lines history w) _ := Journal.Step.commit (lines history w) g
  rw [hpending, hdoomed] at hstep
  simp only [lines] at hstep
  rw [← held_endIngest (·.added) w g, ← held_endIngest (·.stage.oldEntries) w g] at hstep
  exact hstep

/-- **A step of the store is a few steps of the table of the lines.** -/
theorem lines_step (w : LogStore) (s : StoreStep) :
    Relation.ReflTransGen LineStep (lines history w) (lines (history ++ stored w s) (w.step s)) := by
  have hsame : ∀ w' : LogStore, lines history w' = lines history w →
      Relation.ReflTransGen LineStep (lines history w) (lines (history ++ []) w') := by
    intro w' hw'
    rw [List.append_nil, hw']
  have hone : ∀ w' : LogStore, LineStep (lines history w) (lines history w') →
      Relation.ReflTransGen LineStep (lines history w) (lines (history ++ []) w') := by
    intro w' hw'
    rw [List.append_nil]
    exact .single hw'
  cases s with
  | wait duration => exact hone _ (Journal.Step.wait _ duration)
  | register host =>
    refine hsame _ ?_
    simp only [step]
    split_ifs <;> rfl
  | setEnabled hostId enabled =>
    refine hsame _ ?_
    simp only [step]
    split_ifs <;> rfl
  | call report =>
    refine hsame _ ?_
    simp only [step]
    cases report.tested w.now <;> rfl
  | giveUp n => exact hsame _ rfl
  | lock n => exact hsame _ (lines_lock w n)
  | record g =>
    rcases step_record w g with heq | ⟨report, added, hi, heq⟩
    · exact hsame _ (by rw [heq])
    · simp only [stored, committed, List.flatMap_nil, List.append_nil, heq]
      exact lines_record hi
  | insertNext g =>
    rcases step_insertNext w g with heq | ⟨report, request, entry, rest, added, hi, heq⟩
    · exact hsame _ (by rw [heq])
    · simp only [stored, committed, List.flatMap_nil, List.append_nil, heq]
      exact lines_insertNext hi
  | prune g =>
    rcases step_prune w g with heq | ⟨report, request, added, hi, heq⟩
    · exact hsame _ (by rw [heq])
    · refine hone _ ?_
      rw [heq]
      exact lines_prune hi
  | commit g =>
    rcases step_commit w g with ⟨heq, hnone⟩ | ⟨_, _, _, _, _, hi, heq, hcommitted⟩
    · rw [stored, hnone]
      exact hsame _ (by rw [heq])
    · rw [stored, hcommitted, heq, List.flatMap_singleton]
      exact .single (lines_commit hi)
  | abort g => exact hone _ (lines_drop w g)
  | scheduledPrune => exact hone _ (Journal.Step.prune _ _ (old_oldRows _ _))

end Lines

/-! ## The requests -/

section Requests

variable {history : List RequestRow}

theorem requestLog_setIngest (h : w.ingest? g = some i) (hhost : i'.hostId = g) :
    requestLog history (w.setIngest i') = { requestLog history w with
      pending := Function.update (held (·.stage.requests) w) g i'.stage.requests
      doomed := Function.update (held (·.stage.oldRequests) w) g i'.stage.oldRequests } := by
  simp only [requestLog, held_setIngest _ h hhost]
  rfl

/-- The transaction inserts requests and deletes none. -/
theorem requestLog_setIngest_added (h : w.ingest? g = some i) (hhost : i'.hostId = g)
    (hold : i'.stage.oldRequests = i.stage.oldRequests) :
    requestLog history (w.setIngest i') = { requestLog history w with
      pending := Function.update (held (·.stage.requests) w) g i'.stage.requests } := by
  rw [requestLog_setIngest h hhost, hold, ← held_eq (f := (·.stage.oldRequests)) h,
    Function.update_eq_self]
  rfl

/-- The transaction deletes requests and inserts none. -/
theorem requestLog_setIngest_old (h : w.ingest? g = some i) (hhost : i'.hostId = g)
    (hrequests : i'.stage.requests = i.stage.requests) :
    requestLog history (w.setIngest i') = { requestLog history w with
      doomed := Function.update (held (·.stage.oldRequests) w) g i'.stage.oldRequests } := by
  rw [requestLog_setIngest h hhost, hrequests, ← held_eq (f := (·.stage.requests)) h,
    Function.update_eq_self]
  rfl

/-- The transaction goes on and does nothing to the requests. -/
theorem requestLog_setIngest_same (h : w.ingest? g = some i) (hhost : i'.hostId = g)
    (hrequests : i'.stage.requests = i.stage.requests)
    (hold : i'.stage.oldRequests = i.stage.oldRequests) :
    requestLog history (w.setIngest i') = requestLog history w := by
  rw [requestLog_setIngest_added h hhost hold, hrequests, ← held_eq (f := (·.stage.requests)) h,
    Function.update_eq_self]
  rfl

/-- The transaction is taken back. -/
theorem requestLog_drop (w : LogStore) (g : Uuid) :
    RequestStep (requestLog history w) (requestLog history (w.endIngest g)) := by
  have hend : requestLog history (w.endIngest g) = { requestLog history w with
      pending := Function.update (held (·.stage.requests) w) g []
      doomed := Function.update (held (·.stage.oldRequests) w) g [] } := by
    simp only [requestLog, held_endIngest]
    rfl
  rw [hend]
  exact Journal.Step.drop _ g

theorem requestLog_lock (w : LogStore) (n : ℕ) :
    requestLog history (w.lock n) = requestLog history w := by
  unfold lock
  cases w.waiting[n]? with
  | none => rfl
  | some r =>
    dsimp only
    cases w.hosts.find? (·.serverId = r.serverId) with
    | none => rfl
    | some h =>
      dsimp only
      split_ifs with hheld
      · rfl
      · rfl
      · have hfree : w.ingest? h.id = none := by simpa using hheld
        simp only [requestLog]
        rw [held_concat (·.stage.requests) (l := w.ingests) rfl rfl rfl hfree,
          held_concat (·.stage.oldRequests) (l := w.ingests) rfl rfl rfl hfree]

/-- The request is inserted, or its nonce is there and the transaction ends. -/
theorem requestLog_record {report : TestedReport} {added : List LogRow}
    (h : w.ingest? g = some ⟨g, report, .admitted, added⟩) :
    Relation.ReflTransGen RequestStep (requestLog history w)
      (requestLog history (w.record ⟨g, report, .admitted, added⟩)) := by
  have hdrawn : { w with nextRequestId := w.nextRequestId + 1 }.ingest? g =
      some ⟨g, report, .admitted, added⟩ := h
  unfold record
  dsimp only
  split_ifs with hany
  · have hskip : RequestStep (requestLog history w)
        (requestLog history { w with nextRequestId := w.nextRequestId + 1 }) :=
      Journal.Step.skip _
    exact (Relation.ReflTransGen.single hskip).tail (requestLog_drop _ g)
  · have hpending : (requestLog history w).pending g = [] := held_eq h
    have hkey : ∀ b ∈ w.requests ++ (requestLog history w).pending g, b.hostId = g →
        b.requestNonce ≠ report.requestNonce := by
      intro b hb hhost hnonce
      rw [hpending, List.append_nil] at hb
      exact hany (List.any_eq_true.2 ⟨b, hb, by simp [hhost, hnonce]⟩)
    have hstep : RequestStep (requestLog history w) _ :=
      Journal.Step.insert (requestLog history w)
        ⟨w.nextRequestId, g, report.reportedAt, w.now, report.requestNonce, report.bodySha256,
          report.entries.length⟩ rfl rfl hkey
    dsimp only at hstep
    rw [hpending] at hstep
    rw [requestLog_setIngest_added hdrawn]
    · exact .single hstep
    all_goals rfl

theorem requestLog_insertNext {report : TestedReport} {request : RequestRow} {entry : Jsonb}
    {rest : List Jsonb} {added : List LogRow}
    (h : w.ingest? g = some ⟨g, report, .inserting request (entry :: rest), added⟩) :
    Relation.ReflTransGen RequestStep (requestLog history w)
      (requestLog history (w.insertNext ⟨g, report, .inserting request (entry :: rest), added⟩
        request entry rest)) := by
  have hdrawn : { w with nextEntryId := w.nextEntryId + 1 }.ingest? g =
      some ⟨g, report, .inserting request (entry :: rest), added⟩ := h
  unfold insertNext
  dsimp only
  cases newRow w.nextEntryId g w.now entry with
  | error e => exact .single (requestLog_drop { w with nextEntryId := w.nextEntryId + 1 } g)
  | ok row =>
    dsimp only
    split_ifs
    · rw [requestLog_setIngest_same hdrawn]
      · exact .refl
      all_goals rfl
    · rw [requestLog_setIngest_same hdrawn]
      · exact .refl
      all_goals rfl

theorem requestLog_prune {report : TestedReport} {request : RequestRow} {added : List LogRow}
    (h : w.ingest? g = some ⟨g, report, .inserting request [], added⟩) :
    RequestStep (requestLog history w)
      (requestLog history (w.prune ⟨g, report, .inserting request [], added⟩ request)) := by
  have hpending : (requestLog history w).pending g = [request] := held_eq h
  unfold prune
  rw [requestLog_setIngest_old h]
  · refine Journal.Step.doom _ g _ ?_
    rw [hpending]
    exact old_oldRows _ _
  all_goals rfl

theorem requestLog_commit {report : TestedReport} {request : RequestRow} {added : List LogRow}
    {oldEntries oldRequests : List ℕ}
    (h : w.ingest? g = some ⟨g, report, .pruned request oldEntries oldRequests, added⟩) :
    RequestStep (requestLog history w) (requestLog (history ++ [request])
      (w.commit ⟨g, report, .pruned request oldEntries oldRequests, added⟩ request oldEntries
        oldRequests)) := by
  have hpending : (requestLog history w).pending g = [request] := held_eq h
  have hdoomed : (requestLog history w).doomed g = oldRequests := held_eq h
  have hstep : RequestStep (requestLog history w) _ :=
    Journal.Step.commit (requestLog history w) g
  rw [hpending, hdoomed] at hstep
  simp only [requestLog] at hstep
  rw [← held_endIngest (·.stage.requests) w g, ← held_endIngest (·.stage.oldRequests) w g] at hstep
  exact hstep

/-- **A step of the store is a few steps of the table of the requests.** -/
theorem requests_step (w : LogStore) (s : StoreStep) :
    Relation.ReflTransGen RequestStep (requestLog history w)
      (requestLog (history ++ accepted w s) (w.step s)) := by
  have hsame : ∀ w' : LogStore, requestLog history w' = requestLog history w →
      Relation.ReflTransGen RequestStep (requestLog history w)
        (requestLog (history ++ []) w') := by
    intro w' hw'
    rw [List.append_nil, hw']
  have hone : ∀ w' : LogStore, RequestStep (requestLog history w) (requestLog history w') →
      Relation.ReflTransGen RequestStep (requestLog history w)
        (requestLog (history ++ []) w') := by
    intro w' hw'
    rw [List.append_nil]
    exact .single hw'
  cases s with
  | wait duration => exact hone _ (Journal.Step.wait _ duration)
  | register host =>
    refine hsame _ ?_
    simp only [step]
    split_ifs <;> rfl
  | setEnabled hostId enabled =>
    refine hsame _ ?_
    simp only [step]
    split_ifs <;> rfl
  | call report =>
    refine hsame _ ?_
    simp only [step]
    cases report.tested w.now <;> rfl
  | giveUp n => exact hsame _ rfl
  | lock n => exact hsame _ (requestLog_lock w n)
  | record g =>
    rcases step_record w g with heq | ⟨report, added, hi, heq⟩
    · exact hsame _ (by rw [heq])
    · simp only [accepted, committed, List.flatMap_nil, List.append_nil, heq]
      exact requestLog_record hi
  | insertNext g =>
    rcases step_insertNext w g with heq | ⟨report, request, entry, rest, added, hi, heq⟩
    · exact hsame _ (by rw [heq])
    · simp only [accepted, committed, List.flatMap_nil, List.append_nil, heq]
      exact requestLog_insertNext hi
  | prune g =>
    rcases step_prune w g with heq | ⟨report, request, added, hi, heq⟩
    · exact hsame _ (by rw [heq])
    · refine hone _ ?_
      rw [heq]
      exact requestLog_prune hi
  | commit g =>
    rcases step_commit w g with ⟨heq, hnone⟩ | ⟨_, _, _, _, _, hi, heq, hcommitted⟩
    · rw [accepted, hnone]
      exact hsame _ (by rw [heq])
    · rw [accepted, hcommitted, heq, List.flatMap_singleton]
      exact .single (requestLog_commit hi)
  | abort g => exact hone _ (requestLog_drop w g)
  | scheduledPrune => exact hone _ (Journal.Step.prune _ _ (old_oldRows _ _))

end Requests

/-! ## Runs -/

/-- What holds of the table of the lines. -/
abbrev LinesSound (history : List LogRow) (w : LogStore) : Prop :=
  Journal.Sound LogRow.hostId LogRow.eventId LogRow.id LogRow.receivedAt day (lines history w)

/-- What holds of the table of the requests. -/
abbrev RequestsSound (history : List RequestRow) (w : LogStore) : Prop :=
  Journal.Sound RequestRow.hostId RequestRow.requestNonce RequestRow.id RequestRow.receivedAt day
    (requestLog history w)

/-- A property of the committed transactions and the store. -/
theorem run_commits {P : List Ingest → LogStore → Prop} {now : ℤ}
    (hstep : ∀ l w s, P l w → P (l ++ committed w s) (w.step s)) (h : P [] (empty now))
    (steps : List StoreStep) : P ((empty now).commits steps) ((empty now).run steps) :=
  Runs.run_trace hstep h steps

theorem linesSound_run (now : ℤ) (steps : List StoreStep) :
    LinesSound ((empty now).storedLines steps) ((empty now).run steps) := by
  refine run_commits (P := fun l w => LinesSound (l.flatMap (·.added)) w) (fun l w s h => ?_)
    (Journal.sound_empty now 1) steps
  rw [List.flatMap_append]
  exact Journal.sound_of_steps (lines_step w s) h

theorem requestsSound_run (now : ℤ) (steps : List StoreStep) :
    RequestsSound ((empty now).acceptedRequests steps) ((empty now).run steps) := by
  refine run_commits (P := fun l w => RequestsSound (l.flatMap (·.stage.requests)) w)
    (fun l w s h => ?_) (Journal.sound_empty now 1) steps
  rw [List.flatMap_append]
  exact Journal.sound_of_steps (requests_step w s) h

end LogStore

end IvrmDashboard.ConsoleLogs

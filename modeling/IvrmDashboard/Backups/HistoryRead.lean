import Mathlib.Data.List.Pairwise
import IvrmDashboard.Backups.HistoryPages

/-!
# The backup history is read as a whole

A page is the first 500 of the runs that match after the cursor (`getBackupRunsV2_page`). Reports
that come in between two pages may complete a run and so move it into the range or out of it, but a
run keeps its id and its start (`starts_run`), which are its place in the order of the pages.
-/

namespace IvrmDashboard.Backups

open Sql Notifications Keyset

/-! ## Reports keep starts -/

namespace MonitorWorld

/-- The ids of the runs are different and have been given out. -/
structure Numbered (w : MonitorWorld) : Prop where
  ids : Sql.Unique BackupRun.id w.runs
  fresh : ∀ r ∈ w.runs, r.id < w.nextRunId

/-- What a report leaves of a run. -/
def place (r : BackupRun) : Stamp := ⟨r.startedAt, r.id⟩

/-- The runs of the later tables, among them the earlier ones in their places. -/
structure Continues (w w' : MonitorWorld) : Prop where
  numbered : Numbered w'
  kept : Kept place w.runs w'.runs

variable {w w' : MonitorWorld} {r row : BackupRun}

theorem Numbered.frame (h : Numbered w) (hruns : w'.runs = w.runs)
    (hnext : w'.nextRunId = w.nextRunId) : Continues w w' := by
  refine ⟨⟨hruns ▸ h.ids, ?_⟩, ?_⟩
  · rw [hruns, hnext]
    exact h.fresh
  · rw [hruns]
    exact Kept.refl _

theorem Continues.trans {w'' : MonitorWorld} (h : Continues w w') (h' : Continues w' w'') :
    Continues w w'' :=
  ⟨h'.numbered, h.kept.trans h'.kept⟩

theorem continues_upsertPolicy (h : Numbered w) (hok : w.upsertPolicy r = .ok w') :
    Continues w w' := by
  unfold MonitorWorld.upsertPolicy at hok
  dsimp only at hok
  split at hok
  next =>
    simp only [MonitorWorld.insertPolicy, bind_eq_ok, pure_eq_ok] at hok
    obtain ⟨_, -, _, -, _, -, rfl⟩ := hok
    exact h.frame rfl rfl
  next =>
    obtain rfl := Except.ok.inj hok
    exact h.frame rfl rfl

theorem continues_upsertRun (h : Numbered w) (hok : w.upsertRun r = .ok (row, w')) :
    Continues w w' := by
  obtain ⟨_, -, hok⟩ := bind_eq_ok.1 hok
  split at hok
  next =>
    obtain ⟨rfl, rfl⟩ := Prod.mk.inj (pure_eq_ok.1 hok)
    refine ⟨⟨?_, ?_⟩, Kept.append _ _⟩
    · exact h.ids.concat fun a ha => Nat.ne_of_lt (h.fresh a ha)
    · intro a ha
      rcases List.mem_append.1 ha with ha | ha
      · exact Nat.lt_succ_of_lt (h.fresh a ha)
      · rw [List.mem_singleton.1 ha]
        exact Nat.lt_succ_self _
  next old hold =>
    obtain ⟨_, -, hok⟩ := bind_eq_ok.1 hok
    obtain ⟨rfl, rfl⟩ := Prod.mk.inj (pure_eq_ok.1 hok)
    refine ⟨⟨h.ids.updateWhere fun _ _ _ => rfl, fun a ha => ?_⟩, Kept.updateWhere fun _ _ _ => rfl⟩
    obtain ⟨b, hb, rfl⟩ := mem_updateWhere.1 ha
    split
    next => exact h.fresh b hb
    next => exact h.fresh b hb

theorem continues_reportRun {now : ℤ} (h : Numbered w) (hok : w.reportRun now r = .ok w') :
    Continues w w' := by
  obtain ⟨w₁, h₁, hok⟩ := bind_eq_ok.1 hok
  obtain ⟨⟨row, w₂⟩, h₂, hok⟩ := bind_eq_ok.1 hok
  have hpolicy := continues_upsertPolicy h h₁
  have hrun := hpolicy.trans (continues_upsertRun hpolicy.numbered h₂)
  dsimp only at hok
  split at hok
  next =>
    obtain rfl := pure_eq_ok.1 hok
    exact hrun
  next =>
    obtain ⟨board, -, hok⟩ := bind_eq_ok.1 hok
    obtain rfl := pure_eq_ok.1 hok
    exact hrun.trans (hrun.numbered.frame rfl rfl)

theorem continues_reportRuns {now : ℤ} {rows : List BackupRun} (h : Numbered w)
    (hok : rows.foldlM (fun monitor r => monitor.reportRun now r) w = .ok w') :
    Continues w w' := by
  induction rows generalizing w with
  | nil =>
    obtain rfl := pure_eq_ok.1 hok
    exact h.frame rfl rfl
  | cons r rows ih =>
    rw [List.foldlM_cons] at hok
    obtain ⟨w₁, h₁, hok⟩ := bind_eq_ok.1 hok
    have hfirst := continues_reportRun h h₁
    exact hfirst.trans (ih hfirst.numbered hok)

end MonitorWorld

section

variable [Readings]

open MonitorWorld (Numbered Continues)

theorem continues_step {w : IngestWorld} (h : Numbered w.monitor) (c : IngestCall) :
    Continues w.monitor (w.step c).monitor := by
  have hsame : Continues w.monitor w.monitor := h.frame rfl rfl
  unfold IngestWorld.step
  cases hok : w.ingestBackupReport c with
  | error e => exact hsame
  | ok answer =>
    obtain ⟨result, w'⟩ := answer
    obtain ⟨reportedAt, -, hok⟩ := bind_eq_ok.1 hok
    dsimp only at hok ⊢
    split at hok
    next =>
      obtain ⟨-, rfl⟩ := Prod.mk.inj (pure_eq_ok.1 hok)
      exact hsame
    next =>
      obtain ⟨monitor, hmonitor, hok⟩ := bind_eq_ok.1 hok
      obtain ⟨-, rfl⟩ := Prod.mk.inj (pure_eq_ok.1 hok)
      exact MonitorWorld.continues_reportRuns h hmonitor

/-- **Reports keep the runs, their ids and their starts.** -/
theorem continues_run {w : IngestWorld} (h : Numbered w.monitor) (calls : List IngestCall) :
    Continues w.monitor (w.run calls).monitor := by
  induction calls using List.reverseRecOn with
  | nil => exact h.frame rfl rfl
  | append_singleton calls c ih =>
    unfold IngestWorld.run at ih ⊢
    rw [Runs.run_concat]
    exact ih.trans (continues_step ih.numbered c)

end

/-! ## What matches -/

/-- The length of the range. -/
def BackupRange.interval : BackupRange → ℤ
  | day => Sql.day
  | week => 7 * Sql.day
  | month => 30 * Sql.day

/-- The runs that match while a page is read. -/
def HistoryRead.matching (r : HistoryRead) (range : BackupRange) : List ListedRun :=
  (listedRuns r.world.monitor).filter fun a =>
    r.now - range.interval ≤ a.run.completedAt.getD a.run.startedAt

/-- The place of a run in the order of the pages. -/
def ListedRun.stamp (a : ListedRun) : Stamp := ⟨a.run.startedAt, a.run.id⟩

/-- The run passes the reader, and its start is read back as it was. -/
structure ListedRun.Readable [Readings] (a : ListedRun) : Prop where
  accepted : a.payload.accepted = true
  lossless : Readings.timestamptz (jsonTimestamptz a.run.startedAt) = some a.run.startedAt

section Matching

variable {r : HistoryRead} {range : BackupRange}

theorem run_mem_of_matching {a : ListedRun} (h : a ∈ r.matching range) :
    a.run ∈ r.world.monitor.runs := by
  obtain ⟨run, hrun, hlisted⟩ := List.mem_filterMap.1 (List.mem_of_mem_filter h)
  obtain ⟨host, -, rfl⟩ := Option.map_eq_some_iff.1 hlisted
  exact hrun

theorem matching_distinct (h : MonitorWorld.Numbered r.world.monitor) :
    Distinct ListedRun.stamp (r.matching range) := by
  have hids : (r.matching range).Pairwise fun a b => a.run.id ≠ b.run.id := by
    refine (List.Pairwise.filterMap _ (fun a b hab c hc d hd => ?_)
      (List.pairwise_map.1 h.ids)).filter _
    obtain ⟨-, -, rfl⟩ := Option.map_eq_some_iff.1 hc
    obtain ⟨-, -, rfl⟩ := Option.map_eq_some_iff.1 hd
    exact hab
  refine ⟨hids.imp fun hne heq => hne (by rw [heq]), fun a ha b hb heq => ?_⟩
  by_contra hne
  have : Std.Symm fun a b : ListedRun => a.run.id ≠ b.run.id := ⟨fun _ _ h => h.symm⟩
  exact hids.forall ha hb hne (congrArg Stamp.id heq)

end Matching

/-! ## A page -/

theorem lastStartedFirst_eq (a b : ListedRun) :
    lastStartedFirst a b = decide (b.stamp ≤ a.stamp) := by
  rw [lastStartedFirst, Bool.eq_iff_iff]
  simp only [Bool.or_eq_true, Bool.and_eq_true, decide_eq_true_eq, Stamp.le_def, ListedRun.stamp]

/-- The arguments for a page after a cursor. -/
def pageArguments (range : BackupRange) (before : Option Stamp) : HistoryArguments where
  range := range.text
  limit := 500
  beforeStartedAt := before.map (·.time)
  beforeId := before.map fun c => (c.id : ℤ)

theorem isAfter_eq (range : BackupRange) (before : Option Stamp) (a : ListedRun) :
    (pageArguments range before).isAfter a = decide (After before a.stamp) := by
  rw [Bool.eq_iff_iff, decide_eq_true_eq]
  cases before with
  | none => simp [pageArguments, HistoryArguments.isAfter, After]
  | some c =>
    simp only [pageArguments, HistoryArguments.isAfter, Option.map_some, Option.all_some,
      Option.any_some, Bool.or_eq_true, Bool.and_eq_true, decide_eq_true_eq, Int.ofNat_lt, After,
      Option.mem_some_iff, forall_eq', Stamp.lt_def, ListedRun.stamp]

/-- **The query returns the first 500 runs that match after the cursor.** -/
theorem getBackupRunsV2_page (r : HistoryRead) (range : BackupRange) (before : Option Stamp) :
    getBackupRunsV2 r.world.monitor r.now (pageArguments range before) =
      .ok (pageOf ListedRun.stamp 500 (r.matching range) before) := by
  have hfilter : ((listedRuns r.world.monitor).filter fun a =>
      decide (r.now - range.interval ≤ a.run.completedAt.getD a.run.startedAt) &&
        (pageArguments range before).isAfter a) =
      (r.matching range).filter fun a => After before a.stamp := by
    rw [HistoryRead.matching, List.filter_filter]
    refine List.filter_congr fun a _ => ?_
    rw [isAfter_eq, Bool.and_comm]
  have horder : lastStartedFirst = fun a b => decide (ListedRun.stamp b ≤ a.stamp) := by
    funext a b
    exact lastStartedFirst_eq a b
  unfold getBackupRunsV2
  rw [pageOf, ← hfilter, ← horder]
  cases range <;> cases before <;> rfl

/-! ## The reader -/

section

variable [Readings] {reads : ℕ → HistoryRead} {range : BackupRange}

/-- A page of runs that pass. -/
theorem parseHistoryRows_eq {page : List ListedRun} (h : ∀ a ∈ page, a.Readable) :
    parseHistoryRows (page.map (·.payload)) = .ok (page.map (·.payload.run)) := by
  have hall : ((page.map (·.payload)).any fun row => !row.accepted) = false := by
    rw [List.any_eq_false]
    intro row hrow
    obtain ⟨a, ha, rfl⟩ := List.mem_map.1 hrow
    simp [(h a ha).accepted]
  unfold parseHistoryRows
  rw [hall, List.map_map]
  rfl

/-- The form of a cursor between two pages. -/
def cursorText (c : Stamp) : String × ℤ := (jsonTimestamptz c.time, c.id)

/-- The cursor is read back as it was. -/
def IsCursor (c : Stamp) : Prop :=
  Readings.timestamptz (jsonTimestamptz c.time) = some c.time

theorem historyArguments_eq {before : Option Stamp} (h : ∀ c ∈ before, IsCursor c) :
    historyArguments range (before.map cursorText) = some (pageArguments range before) := by
  cases before with
  | none => rfl
  | some c =>
    have hcast : Readings.timestamptz (jsonTimestamptz c.time) = some c.time := h c rfl
    simp only [historyArguments, Option.map_some, cursorText, hcast]
    rfl

/-- **The reader gets the page.** -/
theorem fetchHistoryPage_eq {r : HistoryRead} {before : Option Stamp}
    (hnumbered : MonitorWorld.Numbered r.world.monitor) (hread : ∀ a ∈ r.matching range, a.Readable)
    (hbefore : ∀ c ∈ before, IsCursor c) :
    fetchHistoryPage r range (before.map cursorText) =
      .ok ((pageOf ListedRun.stamp 500 (r.matching range) before).map (·.payload.run)) := by
  have hpage : ∀ a ∈ pageOf ListedRun.stamp 500 (r.matching range) before, a.Readable :=
    fun a ha => hread a ((isPage_pageOf _ (matching_distinct hnumbered)).sound a ha).1
  unfold fetchHistoryPage
  rw [historyArguments_eq hbefore]
  dsimp only [Js.orThrow, bind, Except.bind]
  rw [getBackupRunsV2_page]
  exact parseHistoryRows_eq hpage

/-- **`getAllBackupHistory` is a reader of a thousand pages.** -/
theorem getAllBackupHistory_eq (hnumbered : ∀ n, MonitorWorld.Numbered (reads n).world.monitor)
    (hread : ∀ n, ∀ a ∈ (reads n).matching range, a.Readable) :
    getAllBackupHistory reads range =
      (((collectPages ListedRun.stamp 500 (fun n => (reads n).matching range) 1000).map
        (Option.map (List.map (·.payload.run)))).bind
          (Js.orThrow · "Backup履歴がページ上限を超えました")) := by
  have hmap : collect (fun n => fetchHistoryPage (reads n) range)
      (fun row => (row.startedAt, row.rowId)) 500 1000 0 ((none : Option Stamp).map cursorText) =
      (collectPages ListedRun.stamp 500 (fun n => (reads n).matching range) 1000).map
        (Option.map (List.map (·.payload.run))) := by
    refine collect_map (P := IsCursor)
      (fun n before hbefore => fetchHistoryPage_eq (hnumbered n) (hread n) hbefore)
      (fun n before page hpage a ha => ?_) nofun
    obtain rfl := Except.ok.inj hpage
    have hmatch := ((isPage_pageOf _ (matching_distinct (hnumbered n))).sound a ha).1
    exact ⟨(hread n a hmatch).lossless, rfl⟩
  rw [← hmap]
  rfl

end

end IvrmDashboard.Backups

import IvrmDashboard.Backups.Ingest
import IvrmDashboard.Foundations.Standing
import IvrmDashboard.Notifications.Accepted
import IvrmDashboard.Notifications.LevelTriggered

/-!
# What the reports of a run add up to

A run ends with its first final report; its evidence is what was reported last (`BackupRun.Merged`).
A report is tested against its own fields only, and is then merged into a row whose other columns
come from earlier reports. It fits them (`BackupRun.agrees`) unless it puts evidence before the
completion that the row has kept, or completes a run before the start that the row has kept; then a
constraint of the table breaks and the whole request is taken back
(`backup_reports_commit_iff_agree`).
-/

namespace IvrmDashboard.Backups

open Sql Operations Notifications Standing

/-! ## Merging -/

/-- The key of a row. -/
def BackupRun.key (r : BackupRun) : Uuid × Uuid := (r.scope.hostId, r.runId)

/-- The row passes the constraints of the table. -/
def BackupRun.Checked (r : BackupRun) : Prop := ∀ c ∈ r.checks, c.2 = true

/-- The report by which a run ends, or the latest one. -/
def concluding (reports : List BackupRun) : Option BackupRun :=
  (reports.find? (·.outcome.ended)).or reports.getLast?

/-- The latest value that was reported. -/
def latest {α : Type} (f : BackupRun → Option α) (reports : List BackupRun) : Option α :=
  (reports.filterMap f).getLast?

/-- **The row of a run adds its reports up.** -/
structure BackupRun.Merged (reports : List BackupRun) (row : BackupRun) : Prop where
  first : ∃ r, reports.head? = some r ∧ row.scope = r.scope ∧ row.runId = r.runId ∧
    row.startedAt = r.startedAt
  ending : ∃ r, concluding reports = some r ∧ row.outcome = r.outcome ∧
    row.completedAt = r.completedAt ∧ row.durationSeconds = r.durationSeconds ∧
    row.failureCode = r.failureCode
  destinationType : reports.getLast?.map (·.destinationType) = some row.destinationType
  sizeBytes : row.sizeBytes = latest (·.sizeBytes) reports
  sha256Verified : row.sha256Verified = latest (·.sha256Verified) reports
  remoteSyncedAt : row.remoteSyncedAt = latest (·.remoteSyncedAt) reports
  restoreTestedAt : row.restoreTestedAt = latest (·.restoreTestedAt) reports
  retentionExpiresAt : row.retentionExpiresAt = latest (·.retentionExpiresAt) reports

/-- The evidence of a report fits a run that has ended. -/
def BackupRun.takesEvidence (old r : BackupRun) : Bool :=
  old.afterCompletion r.remoteSyncedAt && old.afterCompletion r.restoreTestedAt &&
    r.retentionExpiresAt.all fun t => old.completedAt.any (· < t)

/-- A report fits the earlier ones of its run: once the run has ended, its evidence comes after the
completion that was reported first; before that, it does not complete the run before the start that
was reported first. -/
def BackupRun.agrees (earlier : List BackupRun) (r : BackupRun) : Bool :=
  match earlier.find? (·.outcome.ended) with
  | some e => e.takesEvidence r
  | none => earlier.head?.all fun first => r.completedAt.all (first.startedAt ≤ ·)

variable {old r row : BackupRun} {reports : List BackupRun}

@[simp] theorem latest_concat {α : Type} (f : BackupRun → Option α) (reports : List BackupRun)
    (r : BackupRun) : latest f (reports ++ [r]) = (f r).or (latest f reports) := by
  cases h : f r <;> simp [latest, List.filterMap_append, h]

theorem concluding_concat (reports : List BackupRun) (r : BackupRun) :
    concluding (reports ++ [r]) = (reports.find? (·.outcome.ended)).or (some r) := by
  cases h : reports.find? (·.outcome.ended) <;> cases hr : r.outcome.ended <;>
    simp [concluding, List.find?_append, h, hr]

/-- A row that has ended has the report it ended by. -/
theorem BackupRun.Merged.find? (h : BackupRun.Merged reports row) (hended : row.outcome.ended = true) :
    reports.find? (·.outcome.ended) = concluding reports := by
  obtain ⟨e, he, houtcome, -⟩ := h.ending
  unfold concluding at he ⊢
  cases hfind : reports.find? (·.outcome.ended) with
  | some a => rfl
  | none =>
    exfalso
    rw [hfind, Option.none_or] at he
    have hmem := List.mem_of_getLast? he
    have hnot := List.find?_eq_none.1 hfind e hmem
    rw [houtcome] at hended
    exact hnot hended

theorem BackupRun.Merged.find?_eq_none (h : BackupRun.Merged reports row)
    (hended : row.outcome.ended = false) : reports.find? (·.outcome.ended) = none := by
  obtain ⟨e, he, houtcome, -⟩ := h.ending
  unfold concluding at he
  cases hfind : reports.find? (·.outcome.ended) with
  | none => rfl
  | some a =>
    exfalso
    rw [hfind, Option.some_or] at he
    obtain rfl := Option.some.inj he
    have hsome := List.find?_some hfind
    rw [← houtcome, hended] at hsome
    exact Bool.false_ne_true hsome

theorem merged_singleton (id : ℕ) : BackupRun.Merged [r] { r with id } where
  first := ⟨r, rfl, rfl, rfl, rfl⟩
  ending := ⟨r, by cases h : r.outcome.ended <;> simp [concluding, h], rfl, rfl, rfl, rfl⟩
  destinationType := rfl
  sizeBytes := by cases h : r.sizeBytes <;> simp [latest, h]
  sha256Verified := by cases h : r.sha256Verified <;> simp [latest, h]
  remoteSyncedAt := by cases h : r.remoteSyncedAt <;> simp [latest, h]
  restoreTestedAt := by cases h : r.restoreTestedAt <;> simp [latest, h]
  retentionExpiresAt := by cases h : r.retentionExpiresAt <;> simp [latest, h]

/-- A further report. -/
theorem BackupRun.Merged.merge (h : old.Merged reports) (r : BackupRun) :
    BackupRun.Merged (reports ++ [r]) (old.merge r) where
  first := by
    obtain ⟨a, ha, hscope, hrun, hstart⟩ := h.first
    exact ⟨a, by rw [List.head?_append, ha, Option.some_or], hscope, hrun, hstart⟩
  ending := by
    cases hended : old.outcome.ended with
    | true =>
      obtain ⟨e, he, houtcome, hcompleted, hduration, hfailure⟩ := h.ending
      refine ⟨e, by rw [concluding_concat, h.find? hended, he, Option.some_or], ?_⟩
      simp only [BackupRun.merge, hended, if_true]
      exact ⟨houtcome, hcompleted, hduration, hfailure⟩
    | false =>
      refine ⟨r, by rw [concluding_concat, h.find?_eq_none hended, Option.none_or], ?_⟩
      simp only [BackupRun.merge, hended, Bool.false_eq_true, if_false]
      exact ⟨trivial, trivial, trivial, trivial⟩
  destinationType := by rw [List.getLast?_concat]; rfl
  sizeBytes := by rw [latest_concat, ← h.sizeBytes]; rfl
  sha256Verified := by rw [latest_concat, ← h.sha256Verified]; rfl
  remoteSyncedAt := by rw [latest_concat, ← h.remoteSyncedAt]; rfl
  restoreTestedAt := by rw [latest_concat, ← h.restoreTestedAt]; rfl
  retentionExpiresAt := by rw [latest_concat, ← h.retentionExpiresAt]; rfl

/-- **The last report, sent again, changes nothing.** -/
theorem BackupRun.Merged.merge_last (h : row.Merged reports) (hlast : reports.getLast? = some r) :
    row.merge r = row := by
  obtain ⟨front, rfl⟩ := List.getLast?_eq_some_iff.1 hlast
  have hdestination : r.destinationType = row.destinationType := by
    have := h.destinationType
    rw [hlast] at this
    exact Option.some.inj this
  have hor {α : Type} (f : BackupRun → Option α) (hf : f row = latest f (front ++ [r])) :
      (f r).or (f row) = f row := by
    rw [hf, latest_concat]
    cases f r <;> simp
  have hended : row.outcome.ended = false → row.outcome = r.outcome ∧
      row.completedAt = r.completedAt ∧ row.durationSeconds = r.durationSeconds ∧
      row.failureCode = r.failureCode := by
    intro hnot
    obtain ⟨e, he, hfields⟩ := h.ending
    have hnone := h.find?_eq_none hnot
    rw [concluding, hnone, Option.none_or, hlast] at he
    obtain rfl := Option.some.inj he
    exact hfields
  cases hrow : row.outcome.ended with
  | true =>
    simp only [BackupRun.merge, hrow, if_true, hdestination, hor _ h.sizeBytes,
      hor _ h.sha256Verified, hor _ h.remoteSyncedAt, hor _ h.restoreTestedAt,
      hor _ h.retentionExpiresAt]
  | false =>
    obtain ⟨houtcome, hcompleted, hduration, hfailure⟩ := hended hrow
    simp only [BackupRun.merge, hrow, Bool.false_eq_true, if_false, hdestination,
      hor _ h.sizeBytes, hor _ h.sha256Verified, hor _ h.remoteSyncedAt,
      hor _ h.restoreTestedAt, hor _ h.retentionExpiresAt, ← houtcome, ← hcompleted, ← hduration,
      ← hfailure]

/-! ## Constraints -/

/-- What the constraints say, one field after the other. -/
structure BackupRun.Sound (r : BackupRun) : Prop where
  scope : r.scope.ok = true
  destinationType : r.destinationType ∈ destinationTypes
  durationSeconds : (r.durationSeconds.all fun d => 0 ≤ d && d ≤ 604800) = true
  sizeBytes : (r.sizeBytes.all fun b => 0 ≤ b && b ≤ 9007199254740991) = true
  failureCode : r.failureCode.all (· ∈ failureCodes) = true
  completion :
    (if r.outcome.ended then r.completedAt.any (r.startedAt ≤ ·) && r.durationSeconds.isSome
      else r.completedAt.isNone && r.durationSeconds.isNone) = true
  failure : r.failureCode.isSome = decide (r.outcome = .failed)
  remoteSyncedAt : r.afterCompletion r.remoteSyncedAt = true
  restoreTestedAt : r.afterCompletion r.restoreTestedAt = true
  retentionExpiresAt : (r.retentionExpiresAt.all fun t => r.completedAt.any (· < t)) = true

theorem checked_iff : r.Checked ↔ r.Sound := by
  unfold BackupRun.Checked BackupRun.checks
  constructor
  · intro h
    simp only [List.forall_mem_cons] at h
    obtain ⟨h1, h2, h3, h4, h5, h6, h7, h8, h9, h10, -⟩ := h
    refine ⟨h1, of_decide_eq_true h2, h3, h4, h5, h6, ?_, h8, h9, h10⟩
    simpa using h7
  · intro h
    simp only [List.forall_mem_cons]
    refine ⟨h.scope, decide_eq_true h.destinationType, h.durationSeconds, h.sizeBytes,
      h.failureCode, h.completion, ?_, h.remoteSyncedAt, h.restoreTestedAt, h.retentionExpiresAt,
      by simp⟩
    simpa using h.failure

/-- A value reported later takes the place of the one before. -/
theorem all_or {α : Type} {p : α → Bool} {x y : Option α} (hy : y.all p = true) :
    (x.or y).all p = true ↔ x.all p = true := by
  cases x <;> simp [hy]

/-- A run that has not ended has no evidence. -/
theorem BackupRun.Sound.no_evidence (h : old.Sound) (hended : old.outcome.ended = false) :
    old.completedAt = none ∧ old.durationSeconds = none ∧ old.remoteSyncedAt = none ∧
      old.restoreTestedAt = none ∧ old.retentionExpiresAt = none := by
  have hcompletion := h.completion
  rw [hended] at hcompletion
  simp only [Bool.false_eq_true, if_false, Bool.and_eq_true, Option.isNone_iff_eq_none]
    at hcompletion
  obtain ⟨hcompleted, hduration⟩ := hcompletion
  have hremote := h.remoteSyncedAt
  have hrestore := h.restoreTestedAt
  have hretention := h.retentionExpiresAt
  simp only [BackupRun.afterCompletion, hcompleted] at hremote hrestore hretention
  refine ⟨hcompleted, hduration, ?_, ?_, ?_⟩
  · cases hx : old.remoteSyncedAt <;> simp_all
  · cases hx : old.restoreTestedAt <;> simp_all
  · cases hx : old.retentionExpiresAt <;> simp_all

/-- What a report has to meet once the run has ended. -/
theorem sound_merge_ended (hold : old.Sound) (hr : r.Sound) (hended : old.outcome.ended = true) :
    (old.merge r).Sound ↔ old.takesEvidence r = true := by
  have hcompleted : (old.merge r).completedAt = old.completedAt := by
    simp only [BackupRun.merge, hended, if_true]
  have hafter (t : Option ℤ) : (old.merge r).afterCompletion t = old.afterCompletion t := by
    simp only [BackupRun.afterCompletion, hcompleted]
  simp only [BackupRun.takesEvidence, Bool.and_eq_true]
  constructor
  · intro h
    have hremote := h.remoteSyncedAt
    have hrestore := h.restoreTestedAt
    have hretention := h.retentionExpiresAt
    rw [hafter] at hremote hrestore
    rw [hcompleted] at hretention
    exact ⟨⟨(all_or hold.remoteSyncedAt).1 hremote, (all_or hold.restoreTestedAt).1 hrestore⟩,
      (all_or hold.retentionExpiresAt).1 hretention⟩
  · rintro ⟨⟨hremote, hrestore⟩, hretention⟩
    constructor
    · exact hold.scope
    · exact hr.destinationType
    · simp only [BackupRun.merge, hended, if_true]
      exact hold.durationSeconds
    · exact (all_or hold.sizeBytes).2 hr.sizeBytes
    · simp only [BackupRun.merge, hended, if_true]
      exact hold.failureCode
    · have hcompletion := hold.completion
      rw [hended] at hcompletion
      simp only [BackupRun.merge, hended, if_true]
      exact hcompletion
    · simp only [BackupRun.merge, hended, if_true]
      exact hold.failure
    · rw [hafter]
      exact (all_or hold.remoteSyncedAt).2 hremote
    · rw [hafter]
      exact (all_or hold.restoreTestedAt).2 hrestore
    · rw [hcompleted]
      exact (all_or hold.retentionExpiresAt).2 hretention

/-- What a report has to meet before the run has ended. -/
theorem sound_merge_open (hold : old.Sound) (hr : r.Sound) (hended : old.outcome.ended = false) :
    (old.merge r).Sound ↔ r.completedAt.all (old.startedAt ≤ ·) = true := by
  obtain ⟨-, -, hremote, hrestore, hretention⟩ := hold.no_evidence hended
  have hmerge : old.merge r = { r with
      id := old.id
      runId := old.runId
      scope := old.scope
      startedAt := old.startedAt
      sizeBytes := r.sizeBytes.or old.sizeBytes
      sha256Verified := r.sha256Verified.or old.sha256Verified } := by
    simp only [BackupRun.merge, hended, Bool.false_eq_true, if_false, hremote, hrestore,
      hretention, Option.or_none]
  rw [hmerge]
  constructor
  · intro h
    have hcompletion := h.completion
    dsimp only at hcompletion
    cases hx : r.outcome.ended with
    | true =>
      rw [hx] at hcompletion
      simp only [if_true, Bool.and_eq_true] at hcompletion
      cases ht : r.completedAt with
      | none => rfl
      | some t =>
        rw [ht] at hcompletion
        exact hcompletion.1
    | false =>
      rw [(hr.no_evidence hx).1]
      rfl
  · intro h
    refine ⟨hold.scope, hr.destinationType, hr.durationSeconds,
      (all_or hold.sizeBytes).2 hr.sizeBytes, hr.failureCode, ?_, hr.failure, hr.remoteSyncedAt,
      hr.restoreTestedAt, hr.retentionExpiresAt⟩
    have hcompletion := hr.completion
    dsimp only
    cases hx : r.outcome.ended with
    | true =>
      rw [hx] at hcompletion
      simp only [if_true, Bool.and_eq_true] at hcompletion ⊢
      refine ⟨?_, hcompletion.2⟩
      cases ht : r.completedAt with
      | none => simp [ht] at hcompletion
      | some t =>
        rw [ht] at h
        exact h
    | false =>
      rw [hx] at hcompletion
      exact hcompletion

/-- **A report can be merged exactly when it agrees with the earlier ones.** -/
theorem sound_merge_iff (hm : row.Merged reports) (hrow : row.Sound) (hr : r.Sound) :
    (row.merge r).Sound ↔ r.agrees reports = true := by
  unfold BackupRun.agrees
  cases hended : row.outcome.ended with
  | true =>
    obtain ⟨e, he, -, hcompleted, -⟩ := hm.ending
    rw [sound_merge_ended hrow hr hended, hm.find? hended, he]
    simp only [BackupRun.takesEvidence, BackupRun.afterCompletion, hcompleted]
  | false =>
    obtain ⟨first, hfirst, -, -, hstart⟩ := hm.first
    rw [sound_merge_open hrow hr hended, hm.find?_eq_none hended, hfirst]
    simp only [Option.all_some, hstart]

end IvrmDashboard.Backups

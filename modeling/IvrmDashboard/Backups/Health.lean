import IvrmDashboard.Backups.Center

/-!
# The health of a backup

The judgement walks through a dozen branches that change the health as they go. What it comes to is
told without an order: every branch makes a finding, the health is the worst of the findings
(`evaluateTarget_eq`), and a pause of the age check takes away the findings about age and no others.
-/

namespace IvrmDashboard.Backups

/-! ## Findings -/

/-- How bad a finding is; a note leaves the health as it is. -/
inductive Grade
  | note
  | warning
  | critical
  deriving DecidableEq

/-- What a finding is about. -/
inductive Subject
  | run
  | success
  | age
  | integrity
  | retention
  | remoteSync
  | restore
  deriving DecidableEq

structure Finding where
  subject : Subject
  grade : Grade
  reason : String
  deriving DecidableEq

/-- The worst of the findings, above what the health is without them. -/
def worst (base : BackupHealth) (findings : List Finding) : BackupHealth :=
  if base = .critical || findings.any (·.grade = .critical) then .critical
  else if findings.any (·.grade = .warning) then .warning
  else base

namespace BackupTarget

/-- The latest run failed. -/
def runFindings (t : BackupTarget) : List Finding :=
  match t.latest with
  | some (.failed, code) => [⟨.run, .critical, "最新バックアップ失敗: " ++ code.getD "unknown"⟩]
  | _ => []

/-- The age of the latest success; a failed run makes its warning superfluous. -/
def ageFindings (t : BackupTarget) (nowMs : ℤ) (s : BackupSuccessSummary) : List Finding :=
  if isBackupAgePaused t nowMs then []
  else if t.criticalAfterSeconds < s.ageSeconds nowMs then
    [⟨.age, .critical, "最新成功がCritical SLAを超過しています"⟩]
  else if t.warningAfterSeconds < s.ageSeconds nowMs ∧ t.runFindings = [] then
    [⟨.age, .warning, "最新成功がWarning SLAを超過しています"⟩]
  else []

def integrityFindings (s : BackupSuccessSummary) : List Finding :=
  match s.sha256Verified with
  | some false => [⟨.integrity, .critical, "SHA-256検証失敗を確認しました"⟩]
  | none => [⟨.integrity, .warning, "SHA-256検証結果が未取得です"⟩]
  | some true => []

def retentionFindings (nowMs : ℤ) (s : BackupSuccessSummary) : List Finding :=
  match s.retentionExpiresAt with
  | none => [⟨.retention, .warning, "Retention期限が未取得です"⟩]
  | some e =>
    if e ≤ nowMs then
      [⟨.retention, .critical, "最新成功バックアップのRetention期限を超過しています"⟩]
    else []

/-- The latest run has not ended. -/
def openRunFindings (t : BackupTarget) : List Finding :=
  if t.latest.any fun l => l.1 = .running || l.1 = .unknown then
    [⟨.run, .warning, "最新Runの結果がまだ確定していません"⟩]
  else []

def remoteSyncFindings (t : BackupTarget) (nowMs : ℤ) (s : BackupSuccessSummary) : List Finding :=
  if t.remoteSyncRequired = true ∧ s.remoteSyncedAt = none ∧
      t.remoteSyncWarningSeconds * 1000 < nowMs - s.completedAt then
    [⟨.remoteSync, .warning, "Remote SyncがSLA内に完了していません"⟩]
  else []

def restoreFindings (t : BackupTarget) (nowMs : ℤ) (s : BackupSuccessSummary) : List Finding :=
  match s.restoreTestedAt with
  | none => [⟨.restore, .warning, "Restore Testの実施証跡が未取得です"⟩]
  | some tested =>
    if nowMs < tested then
      [⟨.restore, .warning, "Restore Testの日時が未来です。送信元の時計を確認してください"⟩]
    else if t.restoreTestWarningSeconds * 1000 < nowMs - tested then
      [⟨.restore, .warning, "Restore TestがPolicy期間を超過しています"⟩]
    else []

/-- Whatever is found about a target. -/
def findings (t : BackupTarget) (nowMs : ℤ) : List Finding :=
  t.runFindings ++
    match t.latestSuccess with
    | none => [⟨.success, .note, "成功済みバックアップをまだ確認できません"⟩]
    | some s =>
      t.ageFindings nowMs s ++ (integrityFindings s ++ (retentionFindings nowMs s ++
        (t.openRunFindings ++ (t.remoteSyncFindings nowMs s ++ t.restoreFindings nowMs s))))

end BackupTarget

/-! ## What the branches come to -/

/-- What a finding does to the diagnosis. -/
def Finding.apply (d : Diagnosis) (f : Finding) : Diagnosis :=
  match f.grade with
  | .note => d.note f.reason
  | .warning => d.warn f.reason
  | .critical => d.fail f.reason

def Diagnosis.take (d : Diagnosis) (findings : List Finding) : Diagnosis :=
  findings.foldl Finding.apply d

variable {t : BackupTarget} {nowMs : ℤ} {s : BackupSuccessSummary} {d : Diagnosis}
  {fs : List Finding} {base : BackupHealth}

theorem Diagnosis.take_append (d : Diagnosis) (fs gs : List Finding) :
    d.take (fs ++ gs) = (d.take fs).take gs :=
  List.foldl_append

theorem worst_cons (base : BackupHealth) (f : Finding) (fs : List Finding) :
    worst base (f :: fs) = worst (f.apply ⟨base, []⟩).health fs := by
  obtain ⟨subject, grade, reason⟩ := f
  simp only [worst, List.any_cons]
  cases grade with
  | note => rfl
  | critical => simp [Finding.apply, Diagnosis.fail]
  | warning => cases base <;> simp [Finding.apply, Diagnosis.warn]

theorem Finding.apply_eq (d : Diagnosis) (f : Finding) :
    f.apply d = ⟨(f.apply ⟨d.health, []⟩).health, d.reasons ++ [f.reason]⟩ := by
  unfold Finding.apply
  cases f.grade <;> rfl

/-- **Taking findings leaves the worst of them.** -/
theorem Diagnosis.take_eq (d : Diagnosis) (fs : List Finding) :
    d.take fs = ⟨worst d.health fs, d.reasons ++ fs.map (·.reason)⟩ := by
  induction fs generalizing d with
  | nil =>
    obtain ⟨health, reasons⟩ := d
    simp [take, worst, eq_comm]
  | cons f fs ih =>
    rw [show d.take (f :: fs) = (f.apply d).take fs from rfl, ih, worst_cons, Finding.apply_eq d f,
      List.map_cons, List.append_assoc, List.singleton_append]

/-- The age is judged before the checksum; it is the only finding that looks at the health. -/
theorem diagnoseAge_eq (hd : d.health = .critical ↔ t.runFindings ≠ []) :
    (if !isBackupAgePaused t nowMs && t.criticalAfterSeconds < s.ageSeconds nowMs then
        d.fail "最新成功がCritical SLAを超過しています"
      else if !isBackupAgePaused t nowMs && t.warningAfterSeconds < s.ageSeconds nowMs &&
          d.health ≠ .critical then d.warn "最新成功がWarning SLAを超過しています"
      else d) = d.take (t.ageFindings nowMs s) := by
  unfold BackupTarget.ageFindings
  cases isBackupAgePaused t nowMs with
  | true => rfl
  | false =>
    by_cases hcritical : t.criticalAfterSeconds < s.ageSeconds nowMs
    · simp [hcritical, Diagnosis.take, Finding.apply]
    · by_cases hwarning : t.warningAfterSeconds < s.ageSeconds nowMs ∧ t.runFindings = []
      · have hhealth : d.health ≠ .critical := fun h => hd.1 h hwarning.2
        simp [hcritical, hwarning, hhealth, Diagnosis.take, Finding.apply]
      · have hskip : ¬ (t.warningAfterSeconds < s.ageSeconds nowMs ∧ d.health ≠ .critical) :=
          fun h => hwarning ⟨h.1, by_contra fun hne => h.2 (hd.2 hne)⟩
        simp [hcritical, hwarning, hskip, Diagnosis.take]

theorem diagnoseRetention_eq :
    (d.when (s.retentionExpiresAt.any (· ≤ nowMs))
      (.fail "最新成功バックアップのRetention期限を超過しています")).when s.retentionExpiresAt.isNone
      (.warn "Retention期限が未取得です") = d.take (BackupTarget.retentionFindings nowMs s) := by
  unfold BackupTarget.retentionFindings
  cases s.retentionExpiresAt with
  | none => rfl
  | some e =>
    by_cases he : e ≤ nowMs <;> simp [he, Diagnosis.when, Diagnosis.take, Finding.apply]

theorem diagnoseOpenRun_eq :
    d.when (t.latest.any fun l => l.1 = .running || l.1 = .unknown)
      (.warn "最新Runの結果がまだ確定していません") = d.take t.openRunFindings := by
  unfold BackupTarget.openRunFindings Diagnosis.when
  split <;> rfl

theorem diagnoseSuccess_eq (hd : d.health = .critical ↔ t.runFindings ≠ []) :
    t.diagnoseSuccess nowMs s d =
      d.take (t.ageFindings nowMs s ++ (BackupTarget.integrityFindings s ++
        (BackupTarget.retentionFindings nowMs s ++ t.openRunFindings))) := by
  simp only [BackupTarget.diagnoseSuccess, Diagnosis.take_append]
  rw [diagnoseAge_eq hd, diagnoseRetention_eq, diagnoseOpenRun_eq]
  unfold BackupTarget.integrityFindings
  cases s.sha256Verified with
  | none => rfl
  | some b => cases b <;> rfl

theorem diagnoseRestore_eq :
    t.diagnoseRestore nowMs s d = d.take (t.restoreFindings nowMs s) := by
  unfold BackupTarget.diagnoseRestore BackupTarget.restoreFindings
    BackupSuccessSummary.restoreAgeMs
  cases htested : s.restoreTestedAt with
  | none => rfl
  | some tested =>
    dsimp only [Option.map_some]
    by_cases hfuture : nowMs < tested
    · rw [if_pos (by omega), if_pos hfuture]
      rfl
    · rw [if_neg (by omega), if_neg hfuture, Diagnosis.when]
      have hfresh := restoreFresh_iff t htested (not_lt.1 hfuture)
      by_cases hstale : t.restoreTestWarningSeconds * 1000 < nowMs - tested
      · have hnot : t.restoreFresh nowMs s = false := by
          rw [← Bool.not_eq_true, hfresh]
          omega
        rw [if_pos hstale, hnot]
        rfl
      · rw [if_neg hstale, hfresh.2 (by omega)]
        rfl

/-- The findings about a successful run. -/
theorem diagnose_eq (hd : d.health = .critical ↔ t.runFindings ≠ []) :
    t.diagnoseRestore nowMs s ((t.diagnoseSuccess nowMs s d).when
      ((t.remoteSyncRequired && s.remoteSyncedAt.isNone) &&
        decide (t.remoteSyncWarningSeconds * 1000 < nowMs - s.completedAt))
      (.warn "Remote SyncがSLA内に完了していません")) =
      d.take (t.ageFindings nowMs s ++ (BackupTarget.integrityFindings s ++
        (BackupTarget.retentionFindings nowMs s ++ (t.openRunFindings ++
          (t.remoteSyncFindings nowMs s ++ t.restoreFindings nowMs s))))) := by
  have hsync : ∀ d : Diagnosis, d.when ((t.remoteSyncRequired && s.remoteSyncedAt.isNone) &&
      decide (t.remoteSyncWarningSeconds * 1000 < nowMs - s.completedAt))
      (.warn "Remote SyncがSLA内に完了していません") = d.take (t.remoteSyncFindings nowMs s) := by
    intro d
    have hiff : ((t.remoteSyncRequired && s.remoteSyncedAt.isNone) &&
        decide (t.remoteSyncWarningSeconds * 1000 < nowMs - s.completedAt)) = true ↔
        t.remoteSyncRequired = true ∧ s.remoteSyncedAt = none ∧
          t.remoteSyncWarningSeconds * 1000 < nowMs - s.completedAt := by
      rw [Bool.and_eq_true, Bool.and_eq_true, Option.isNone_iff_eq_none, decide_eq_true_iff,
        and_assoc]
    rw [Diagnosis.when, BackupTarget.remoteSyncFindings]
    by_cases hlate : t.remoteSyncRequired = true ∧ s.remoteSyncedAt = none ∧
        t.remoteSyncWarningSeconds * 1000 < nowMs - s.completedAt
    · rw [if_pos hlate, if_pos (hiff.2 hlate)]
      rfl
    · rw [if_neg hlate, if_neg fun h => hlate (hiff.1 h)]
      rfl
  rw [diagnoseRestore_eq, hsync, diagnoseSuccess_eq hd]
  simp only [Diagnosis.take_append]

/-- The health before anything is found. -/
def BackupTarget.baseHealth (t : BackupTarget) : BackupHealth :=
  if t.latestSuccess.isSome then .healthy else .unknown

/-- The reason of a healthy target. -/
def BackupTarget.healthyReason (t : BackupTarget) (nowMs : ℤ) : String :=
  if isBackupAgePaused t nowMs then
    "Age判定は一時停止中です。その他の取得済み保管証跡に異常はありません"
  else "最新成功・整合性・SLAに異常はありません"

/-- What is shown of a target, apart from the reason of a healthy one. -/
def BackupTarget.verdict (t : BackupTarget) (nowMs : ℤ) (d : Diagnosis) : BackupVerdict :=
  let d := d.when (d.health = .healthy && d.reasons.isEmpty) (.note (t.healthyReason nowMs))
  { health := d.health
    healthReasons := d.reasons
    backupAgeSeconds := t.latestSuccess.map (·.ageSeconds nowMs)
    remoteSyncPending := t.latestSuccess.any fun s => t.remoteSyncRequired && s.remoteSyncedAt.isNone
    restoreReadiness :=
      match t.latestSuccess with
      | none => .unknown
      | some s => t.restoreReadiness nowMs s }

theorem runFindings_critical {base : BackupHealth} (hbase : base ≠ .critical) :
    ((⟨base, []⟩ : Diagnosis).take t.runFindings).health = .critical ↔ t.runFindings ≠ [] := by
  unfold BackupTarget.runFindings
  split
  · exact iff_of_true rfl (by simp)
  · exact iff_of_false hbase (by simp)

/-- **The branches of the judgement take the findings, one after the other.** -/
theorem evaluateTarget_eq_verdict (t : BackupTarget) (nowMs : ℤ) :
    evaluateTarget t nowMs =
      t.verdict nowMs ((⟨t.baseHealth, []⟩ : Diagnosis).take (t.findings nowMs)) := by
  have hbase : t.baseHealth ≠ .critical := by
    unfold BackupTarget.baseHealth
    split <;> exact nofun
  have hrun : ∀ d : Diagnosis, (match t.latest with
      | some (.failed, code) => d.fail ("最新バックアップ失敗: " ++ code.getD "unknown")
      | _ => d) = d.take t.runFindings := by
    intro d
    unfold BackupTarget.runFindings
    split <;> rfl
  have hhealth := runFindings_critical (t := t) hbase
  rw [BackupTarget.findings, Diagnosis.take_append]
  generalize hd : (⟨t.baseHealth, []⟩ : Diagnosis).take t.runFindings = d at hhealth
  rw [← hrun] at hd
  cases hs : t.latestSuccess with
  | none =>
    rw [← hd]
    simp only [evaluateTarget, BackupTarget.verdict, BackupTarget.baseHealth,
      BackupTarget.healthyReason, hs]
    rfl
  | some s =>
    dsimp only
    rw [← diagnose_eq hhealth, ← hd]
    simp only [evaluateTarget, BackupTarget.verdict, BackupTarget.baseHealth,
      BackupTarget.healthyReason, hs]
    rfl

theorem health_eq (t : BackupTarget) (nowMs : ℤ) :
    (evaluateTarget t nowMs).health = worst t.baseHealth (t.findings nowMs) := by
  rw [evaluateTarget_eq_verdict, Diagnosis.take_eq, BackupTarget.verdict, Diagnosis.when]
  dsimp only
  split <;> rfl

/-- The reasons are those of the findings; a target with none is healthy. -/
theorem healthReasons_eq (t : BackupTarget) (nowMs : ℤ) :
    (evaluateTarget t nowMs).healthReasons =
      if t.findings nowMs = [] then [t.healthyReason nowMs]
      else (t.findings nowMs).map (·.reason) := by
  rw [evaluateTarget_eq_verdict, Diagnosis.take_eq, BackupTarget.verdict, Diagnosis.when]
  by_cases hnone : t.findings nowMs = []
  · have hhealthy : t.baseHealth = .healthy := by
      unfold BackupTarget.baseHealth
      cases hs : t.latestSuccess with
      | none => simp [BackupTarget.findings, hs] at hnone
      | some s => rfl
    simp [hnone, hhealthy, worst, Diagnosis.note]
  · simp [hnone]

/-! ## Which findings there are -/

/-- The latest run failed. -/
def BackupTarget.RunFailed (t : BackupTarget) : Prop := ∃ code, t.latest = some (.failed, code)

/-- A critical finding about the latest success: its age, its checksum or its retention. -/
def BackupTarget.CriticalFinding (t : BackupTarget) (nowMs : ℤ) (s : BackupSuccessSummary) : Prop :=
  (isBackupAgePaused t nowMs = false ∧ t.criticalAfterSeconds < s.ageSeconds nowMs) ∨
    s.sha256Verified = some false ∨ ∃ e ∈ s.retentionExpiresAt, e ≤ nowMs

/-- A finding about the latest success to be warned of: its age, a checksum or a retention that is
not known, a run that has not ended, a remote copy that is missing for too long, or a restore test
that is missing, in the future or too old. -/
def BackupTarget.WarningFinding (t : BackupTarget) (nowMs : ℤ) (s : BackupSuccessSummary) : Prop :=
  (isBackupAgePaused t nowMs = false ∧ t.warningAfterSeconds < s.ageSeconds nowMs) ∨
    s.sha256Verified = none ∨ s.retentionExpiresAt = none ∨
    (∃ l ∈ t.latest, l.1 = .running ∨ l.1 = .unknown) ∨
    (t.remoteSyncRequired = true ∧ s.remoteSyncedAt = none ∧
      t.remoteSyncWarningSeconds * 1000 < nowMs - s.completedAt) ∨
    (s.restoreTestedAt = none ∨ ∃ tested ∈ s.restoreTestedAt,
      nowMs < tested ∨ t.restoreTestWarningSeconds * 1000 < nowMs - tested)

theorem runFindings_eq_nil : t.runFindings = [] ↔ ¬ t.RunFailed := by
  unfold BackupTarget.runFindings BackupTarget.RunFailed
  cases t.latest with
  | none => simp
  | some l =>
    obtain ⟨outcome, code⟩ := l
    cases outcome <;> simp

theorem any_runFindings (g : Grade) :
    t.runFindings.any (·.grade = g) = true ↔ t.RunFailed ∧ g = .critical := by
  unfold BackupTarget.runFindings BackupTarget.RunFailed
  cases t.latest with
  | none => simp
  | some l =>
    obtain ⟨outcome, code⟩ := l
    cases outcome <;> simp [eq_comm]

theorem any_ageFindings (g : Grade) :
    (t.ageFindings nowMs s).any (·.grade = g) = true ↔ isBackupAgePaused t nowMs = false ∧
      ((g = .critical ∧ t.criticalAfterSeconds < s.ageSeconds nowMs) ∨
        (g = .warning ∧ s.ageSeconds nowMs ≤ t.criticalAfterSeconds ∧
          t.warningAfterSeconds < s.ageSeconds nowMs ∧ ¬ t.RunFailed)) := by
  unfold BackupTarget.ageFindings
  rw [← runFindings_eq_nil]
  cases isBackupAgePaused t nowMs with
  | true => simp
  | false =>
    by_cases hcritical : t.criticalAfterSeconds < s.ageSeconds nowMs
    · cases g <;> simp [hcritical]
    · by_cases hwarning : t.warningAfterSeconds < s.ageSeconds nowMs ∧ t.runFindings = []
      · cases g <;> simp [hcritical, hwarning, not_lt.1 hcritical]
      · rw [if_neg (by simp), if_neg hcritical, if_neg hwarning]
        simp only [List.any_nil, Bool.false_eq_true, true_and, false_iff]
        rintro (⟨-, h⟩ | ⟨-, -, h⟩)
        · exact hcritical h
        · exact hwarning h

theorem any_integrityFindings (g : Grade) :
    (BackupTarget.integrityFindings s).any (·.grade = g) = true ↔
      (g = .critical ∧ s.sha256Verified = some false) ∨
        (g = .warning ∧ s.sha256Verified = none) := by
  unfold BackupTarget.integrityFindings
  cases s.sha256Verified with
  | none => simp [eq_comm]
  | some b => cases b <;> simp [eq_comm]

theorem any_retentionFindings (g : Grade) :
    (BackupTarget.retentionFindings nowMs s).any (·.grade = g) = true ↔
      (g = .critical ∧ ∃ e ∈ s.retentionExpiresAt, e ≤ nowMs) ∨
        (g = .warning ∧ s.retentionExpiresAt = none) := by
  unfold BackupTarget.retentionFindings
  cases s.retentionExpiresAt with
  | none => simp [eq_comm]
  | some e =>
    by_cases he : e ≤ nowMs <;> simp [he, eq_comm]

theorem any_openRunFindings (g : Grade) :
    t.openRunFindings.any (·.grade = g) = true ↔
      g = .warning ∧ ∃ l ∈ t.latest, l.1 = .running ∨ l.1 = .unknown := by
  unfold BackupTarget.openRunFindings
  cases t.latest with
  | none => simp
  | some l =>
    obtain ⟨outcome, code⟩ := l
    cases outcome <;> simp [eq_comm]

theorem any_remoteSyncFindings (g : Grade) :
    (t.remoteSyncFindings nowMs s).any (·.grade = g) = true ↔
      g = .warning ∧ t.remoteSyncRequired = true ∧ s.remoteSyncedAt = none ∧
        t.remoteSyncWarningSeconds * 1000 < nowMs - s.completedAt := by
  unfold BackupTarget.remoteSyncFindings
  split
  next h => simp [h, eq_comm]
  next h => simp [h]

theorem any_restoreFindings (g : Grade) :
    (t.restoreFindings nowMs s).any (·.grade = g) = true ↔
      g = .warning ∧ (s.restoreTestedAt = none ∨ ∃ tested ∈ s.restoreTestedAt,
        nowMs < tested ∨ t.restoreTestWarningSeconds * 1000 < nowMs - tested) := by
  unfold BackupTarget.restoreFindings
  cases s.restoreTestedAt with
  | none => simp [eq_comm]
  | some tested =>
    by_cases hfuture : nowMs < tested
    · simp [hfuture, eq_comm]
    · by_cases hstale : t.restoreTestWarningSeconds * 1000 < nowMs - tested <;>
        simp [hfuture, hstale, eq_comm]

/-- There is a critical finding. -/
theorem any_critical_iff : (t.findings nowMs).any (·.grade = .critical) = true ↔
    t.RunFailed ∨ ∃ s ∈ t.latestSuccess, t.CriticalFinding nowMs s := by
  unfold BackupTarget.findings
  rw [List.any_append, Bool.or_eq_true, any_runFindings]
  cases t.latestSuccess with
  | none => simp
  | some s =>
    simp only [List.any_append, Bool.or_eq_true, any_ageFindings, any_integrityFindings,
      any_retentionFindings, any_openRunFindings, any_remoteSyncFindings, any_restoreFindings,
      BackupTarget.CriticalFinding]
    simp

/-- Without a critical finding, there is a warning. -/
theorem any_warning_iff (hfailed : ¬ t.RunFailed)
    (hcritical : ¬ ∃ s ∈ t.latestSuccess, t.CriticalFinding nowMs s) :
    (t.findings nowMs).any (·.grade = .warning) = true ↔
      ∃ s ∈ t.latestSuccess, t.WarningFinding nowMs s := by
  unfold BackupTarget.findings
  rw [List.any_append, Bool.or_eq_true, any_runFindings]
  cases hs : t.latestSuccess with
  | none => simp
  | some s =>
    have hage : (t.ageFindings nowMs s).any (·.grade = .warning) = true ↔
        isBackupAgePaused t nowMs = false ∧ t.warningAfterSeconds < s.ageSeconds nowMs := by
      rw [any_ageFindings]
      constructor
      · rintro ⟨hpaused, ⟨h, -⟩ | ⟨-, -, h, -⟩⟩
        · cases h
        · exact ⟨hpaused, h⟩
      · rintro ⟨hpaused, h⟩
        refine ⟨hpaused, Or.inr ⟨rfl, not_lt.1 fun hlt => ?_, h, hfailed⟩⟩
        exact hcritical ⟨s, hs, Or.inl ⟨hpaused, hlt⟩⟩
    simp only [List.any_append, Bool.or_eq_true, hage, any_integrityFindings,
      any_retentionFindings, any_openRunFindings, any_remoteSyncFindings, any_restoreFindings,
      BackupTarget.WarningFinding]
    simp

/-- Nothing is noted of a target that has succeeded. -/
theorem any_note_eq_false (hs : t.latestSuccess = some s) :
    (t.findings nowMs).any (·.grade = .note) = false := by
  rw [← Bool.not_eq_true]
  simp only [BackupTarget.findings, hs, List.any_append, Bool.or_eq_true, any_runFindings,
    any_ageFindings, any_integrityFindings, any_retentionFindings, any_openRunFindings,
    any_remoteSyncFindings, any_restoreFindings]
  simp

theorem baseHealth_ne_critical (t : BackupTarget) : t.baseHealth ≠ .critical := by
  unfold BackupTarget.baseHealth
  split <;> exact nofun

theorem baseHealth_ne_warning (t : BackupTarget) : t.baseHealth ≠ .warning := by
  unfold BackupTarget.baseHealth
  split <;> exact nofun

theorem health_eq_critical : (evaluateTarget t nowMs).health = .critical ↔
    t.RunFailed ∨ ∃ s ∈ t.latestSuccess, t.CriticalFinding nowMs s := by
  rw [health_eq, ← any_critical_iff, worst, decide_eq_false (baseHealth_ne_critical t),
    Bool.false_or]
  split
  next h => exact iff_of_true rfl h
  next h =>
    refine iff_of_false ?_ h
    split
    · exact nofun
    · exact baseHealth_ne_critical t

/-- Without a critical finding, the health is what the warnings leave of it. -/
theorem health_of_not_critical (h : (evaluateTarget t nowMs).health ≠ .critical) :
    (evaluateTarget t nowMs).health =
      if (t.findings nowMs).any (·.grade = .warning) then .warning else t.baseHealth := by
  have hnot : (t.findings nowMs).any (·.grade = .critical) = false := by
    rw [← Bool.not_eq_true, any_critical_iff, ← health_eq_critical]
    exact h
  rw [health_eq, worst, decide_eq_false (baseHealth_ne_critical t), hnot]
  rfl

theorem health_eq_warning : (evaluateTarget t nowMs).health = .warning ↔
    (evaluateTarget t nowMs).health ≠ .critical ∧
      ∃ s ∈ t.latestSuccess, t.WarningFinding nowMs s := by
  by_cases hcritical : (evaluateTarget t nowMs).health = .critical
  · exact iff_of_false (by rw [hcritical]; exact nofun) fun h => h.1 hcritical
  · obtain ⟨hfailed, hfinding⟩ := not_or.1 (mt health_eq_critical.2 hcritical)
    rw [health_of_not_critical hcritical, ← any_warning_iff hfailed hfinding]
    split
    next h => exact iff_of_true rfl ⟨nofun, h⟩
    next h => exact iff_of_false (baseHealth_ne_warning t) fun hw => h hw.2

theorem health_of_no_finding (hcritical : (evaluateTarget t nowMs).health ≠ .critical)
    (hwarning : (evaluateTarget t nowMs).health ≠ .warning) :
    (evaluateTarget t nowMs).health = t.baseHealth := by
  rw [health_of_not_critical hcritical] at hwarning ⊢
  split
  next h => exact absurd (if_pos h) hwarning
  next => rfl

/-- **A target is healthy when nothing is found.** -/
theorem health_eq_healthy : (evaluateTarget t nowMs).health = .healthy ↔ t.findings nowMs = [] := by
  constructor
  · intro hhealthy
    have hcritical : (evaluateTarget t nowMs).health ≠ .critical := by simp [hhealthy]
    have hwarning : (evaluateTarget t nowMs).health ≠ .warning := by simp [hhealthy]
    have hbase := health_of_no_finding hcritical hwarning
    rw [hhealthy, BackupTarget.baseHealth] at hbase
    cases hs : t.latestSuccess with
    | none => simp [hs] at hbase
    | some s =>
      obtain ⟨hfailed, hfinding⟩ := not_or.1 (mt health_eq_critical.2 hcritical)
      have hnocritical := mt any_critical_iff.1 (not_or.2 ⟨hfailed, hfinding⟩)
      have hnowarning := mt (any_warning_iff hfailed hfinding).1 fun h =>
        hwarning (health_eq_warning.2 ⟨hcritical, h⟩)
      have hnonote : (t.findings nowMs).any (·.grade = .note) = false := any_note_eq_false hs
      rw [List.eq_nil_iff_forall_not_mem]
      intro f hf
      cases hgrade : f.grade with
      | note => simpa [hgrade] using List.any_eq_false.1 hnonote f hf
      | warning => exact hnowarning (List.any_eq_true.2 ⟨f, hf, decide_eq_true hgrade⟩)
      | critical => exact hnocritical (List.any_eq_true.2 ⟨f, hf, decide_eq_true hgrade⟩)
  · intro hnone
    have hsome : t.latestSuccess.isSome := by
      cases hs : t.latestSuccess with
      | none => simp [BackupTarget.findings, hs] at hnone
      | some s => rfl
    rw [health_eq, hnone, BackupTarget.baseHealth, if_pos hsome]
    rfl

/-- A restore is ready on full evidence only. -/
theorem restoreReadiness_eq_ready : (evaluateTarget t nowMs).restoreReadiness = .ready ↔
    ∃ s ∈ t.latestSuccess, s.sha256Verified = some true ∧
      (∃ e ∈ s.retentionExpiresAt, nowMs < e) ∧
      ∃ tested ∈ s.restoreTestedAt, tested ≤ nowMs ∧
        nowMs - tested ≤ t.restoreTestWarningSeconds * 1000 := by
  rw [evaluateTarget_restoreReadiness]
  cases t.latestSuccess with
  | none => simp
  | some s =>
    have hvalid : s.retentionValid nowMs = true ↔ ∃ e ∈ s.retentionExpiresAt, nowMs < e := by
      rw [BackupSuccessSummary.retentionValid, Option.any_eq_true]
      simp
    simp only [Option.mem_some_iff, exists_eq_left']
    rw [← hvalid]
    unfold BackupTarget.restoreReadiness BackupSuccessSummary.restoreAgeMs
    cases htested : s.restoreTestedAt with
    | none => simp
    | some tested =>
      simp only [Option.map_some, Option.mem_some_iff, exists_eq_left']
      by_cases hfuture : nowMs - tested < 0
      · rw [if_pos hfuture]
        exact iff_of_false nofun fun h => absurd h.2.2.1 (by omega)
      · have hle : tested ≤ nowMs := by omega
        rw [if_neg hfuture, ← restoreFresh_iff t htested hle]
        cases t.restoreFresh nowMs s with
        | false => simp
        | true =>
          by_cases hsha : s.sha256Verified = some true <;> cases s.retentionValid nowMs <;>
            simp [hsha, hle]

/-- The health is the worst of independent findings. -/
structure HealthIsWorst (t : BackupTarget) (nowMs : ℤ) : Prop where
  critical : (evaluateTarget t nowMs).health = .critical ↔
    t.RunFailed ∨ ∃ s ∈ t.latestSuccess, t.CriticalFinding nowMs s
  warning : (evaluateTarget t nowMs).health = .warning ↔
    (evaluateTarget t nowMs).health ≠ .critical ∧ ∃ s ∈ t.latestSuccess, t.WarningFinding nowMs s
  otherwise : (evaluateTarget t nowMs).health ≠ .critical →
    (evaluateTarget t nowMs).health ≠ .warning →
    (evaluateTarget t nowMs).health = if t.latestSuccess.isSome then .healthy else .unknown
  ready : (evaluateTarget t nowMs).restoreReadiness = .ready ↔
    ∃ s ∈ t.latestSuccess, s.sha256Verified = some true ∧
      (∃ e ∈ s.retentionExpiresAt, nowMs < e) ∧
      ∃ tested ∈ s.restoreTestedAt, tested ≤ nowMs ∧
        nowMs - tested ≤ t.restoreTestWarningSeconds * 1000

theorem healthIsWorst (t : BackupTarget) (nowMs : ℤ) : HealthIsWorst t nowMs where
  critical := health_eq_critical
  warning := health_eq_warning
  otherwise := health_of_no_finding
  ready := restoreReadiness_eq_ready

/-! ## A pause -/

/-- The target with a pause of the age check. -/
def BackupTarget.pause (t : BackupTarget) (pausedUntil : ℤ) (reason : String) : BackupTarget :=
  { t with agePausedUntil := some pausedUntil, agePauseReason := some reason }

/-- The target with other limits of the age. -/
def BackupTarget.withAgeLimits (t : BackupTarget) (warningAfter criticalAfter : ℤ) : BackupTarget :=
  { t with warningAfterSeconds := warningAfter, criticalAfterSeconds := criticalAfter }

/-- What is found besides the age. -/
def BackupTarget.findingsBesidesAge (t : BackupTarget) (nowMs : ℤ) : List Finding :=
  (t.findings nowMs).filter (·.subject ≠ .age)

/-- A healthy verdict tells that the age check is paused. -/
def BackupVerdict.tellPause (v : BackupVerdict) : BackupVerdict :=
  if v.health = .healthy then
    { v with
      healthReasons := ["Age判定は一時停止中です。その他の取得済み保管証跡に異常はありません"] }
  else v

theorem filter_eq_nil_of_age {f : List Finding} (h : ∀ x ∈ f, x.subject = .age) :
    f.filter (·.subject ≠ .age) = [] :=
  List.filter_eq_nil_iff.2 fun x hx => by simp [h x hx]

theorem ageFindings_age : ∀ x ∈ t.ageFindings nowMs s, x.subject = .age := by
  unfold BackupTarget.ageFindings
  split
  · simp
  · split
    · simp
    · split <;> simp

theorem findings_subject {l : List Finding} (subject : Subject) (hsubject : subject ≠ .age)
    (h : ∀ x ∈ l, x.subject = subject) : l.filter (·.subject ≠ .age) = l :=
  List.filter_eq_self.2 fun x hx => by simp [h x hx, hsubject]

/-- What is found besides the age does not depend on a pause or on the limits of the age. -/
theorem findingsBesidesAge_eq (t : BackupTarget) (nowMs : ℤ) :
    t.findingsBesidesAge nowMs = t.runFindings ++
      match t.latestSuccess with
      | none => [⟨.success, .note, "成功済みバックアップをまだ確認できません"⟩]
      | some s =>
        BackupTarget.integrityFindings s ++ (BackupTarget.retentionFindings nowMs s ++
          (t.openRunFindings ++ (t.remoteSyncFindings nowMs s ++ t.restoreFindings nowMs s))) := by
  have hrun : t.runFindings.filter (·.subject ≠ .age) = t.runFindings := by
    refine findings_subject .run nofun ?_
    unfold BackupTarget.runFindings
    split <;> simp
  unfold BackupTarget.findingsBesidesAge BackupTarget.findings
  rw [List.filter_append, hrun]
  cases t.latestSuccess with
  | none => rfl
  | some s =>
    have hintegrity : (BackupTarget.integrityFindings s).filter (·.subject ≠ .age) =
        BackupTarget.integrityFindings s := by
      refine findings_subject .integrity nofun ?_
      unfold BackupTarget.integrityFindings
      split <;> simp
    have hretention : (BackupTarget.retentionFindings nowMs s).filter (·.subject ≠ .age) =
        BackupTarget.retentionFindings nowMs s := by
      refine findings_subject .retention nofun ?_
      unfold BackupTarget.retentionFindings
      split
      · simp
      · split <;> simp
    have hopen : t.openRunFindings.filter (·.subject ≠ .age) = t.openRunFindings := by
      refine findings_subject .run nofun ?_
      unfold BackupTarget.openRunFindings
      split <;> simp
    have hsync : (t.remoteSyncFindings nowMs s).filter (·.subject ≠ .age) =
        t.remoteSyncFindings nowMs s := by
      refine findings_subject .remoteSync nofun ?_
      unfold BackupTarget.remoteSyncFindings
      split <;> simp
    have hrestore : (t.restoreFindings nowMs s).filter (·.subject ≠ .age) =
        t.restoreFindings nowMs s := by
      refine findings_subject .restore nofun ?_
      unfold BackupTarget.restoreFindings
      split
      · simp
      · split
        · simp
        · split <;> simp
    simp only [List.filter_append, filter_eq_nil_of_age ageFindings_age, hintegrity, hretention,
      hopen, hsync, hrestore, List.nil_append]

/-- When nothing is found about the age, all that is found is about something else. -/
theorem findings_of_no_age (h : ∀ s ∈ t.latestSuccess, t.ageFindings nowMs s = []) :
    t.findings nowMs = t.findingsBesidesAge nowMs := by
  rw [findingsBesidesAge_eq, BackupTarget.findings]
  cases hs : t.latestSuccess with
  | none => rfl
  | some s =>
    dsimp only
    rw [h s hs, List.nil_append]

variable {pausedUntil warningAfter criticalAfter : ℤ} {reason : String}

/-- **A pause takes away what is found about the age, and nothing else.** -/
theorem findings_pause (huntil : nowMs < pausedUntil) (hreason : Js.isBlank reason = false) :
    (t.pause pausedUntil reason).findings nowMs = t.findingsBesidesAge nowMs := by
  have hpaused : isBackupAgePaused (t.pause pausedUntil reason) nowMs = true := by
    simp [isBackupAgePaused, BackupTarget.pause, hreason, huntil]
  rw [findings_of_no_age fun s _ => by rw [BackupTarget.ageFindings, if_pos hpaused],
    findingsBesidesAge_eq, findingsBesidesAge_eq]
  rfl

/-- So do limits that the age keeps. -/
theorem findings_withAgeLimits (hage : ∀ s ∈ t.latestSuccess,
      s.ageSeconds nowMs ≤ warningAfter ∧ s.ageSeconds nowMs ≤ criticalAfter) :
    (t.withAgeLimits warningAfter criticalAfter).findings nowMs = t.findingsBesidesAge nowMs := by
  rw [findings_of_no_age fun s hs => ?_, findingsBesidesAge_eq, findingsBesidesAge_eq]
  · rfl
  · obtain ⟨hwarning, hcritical⟩ := hage s hs
    have hc : ¬ (t.withAgeLimits warningAfter criticalAfter).criticalAfterSeconds <
        s.ageSeconds nowMs := not_lt.2 hcritical
    have hw : ¬ (t.withAgeLimits warningAfter criticalAfter).warningAfterSeconds <
        s.ageSeconds nowMs := not_lt.2 hwarning
    rw [BackupTarget.ageFindings, if_neg hc,
      if_neg fun h : _ ∧ (t.withAgeLimits warningAfter criticalAfter).runFindings = [] => hw h.1]
    split <;> rfl

/-- What a pause of the age check does to the verdict: what limits do that the age keeps, but for the
reason of a healthy target; the reasons are those of what is found besides the age. -/
structure PauseHidesAge (t : BackupTarget) (nowMs pausedUntil : ℤ) (reason : String)
    (warningAfter criticalAfter : ℤ) : Prop where
  asLimits : evaluateTarget (t.pause pausedUntil reason) nowMs =
    (evaluateTarget (t.withAgeLimits warningAfter criticalAfter) nowMs).tellPause
  reasons : (evaluateTarget (t.pause pausedUntil reason) nowMs).healthReasons =
    if t.findingsBesidesAge nowMs = [] then
      ["Age判定は一時停止中です。その他の取得済み保管証跡に異常はありません"]
    else (t.findingsBesidesAge nowMs).map (·.reason)

theorem pauseHidesAge (huntil : nowMs < pausedUntil) (hreason : Js.isBlank reason = false)
    (hage : ∀ s ∈ t.latestSuccess,
      s.ageSeconds nowMs ≤ warningAfter ∧ s.ageSeconds nowMs ≤ criticalAfter) :
    PauseHidesAge t nowMs pausedUntil reason warningAfter criticalAfter := by
  have hpause := findings_pause (t := t) huntil hreason
  have hlimits := findings_withAgeLimits hage
  have htold : (t.pause pausedUntil reason).healthyReason nowMs =
      "Age判定は一時停止中です。その他の取得済み保管証跡に異常はありません" := by
    have hpaused : isBackupAgePaused (t.pause pausedUntil reason) nowMs = true := by
      simp [isBackupAgePaused, BackupTarget.pause, hreason, huntil]
    rw [BackupTarget.healthyReason, if_pos hpaused]
  have hreasons : (evaluateTarget (t.pause pausedUntil reason) nowMs).healthReasons =
      if t.findingsBesidesAge nowMs = [] then
        ["Age判定は一時停止中です。その他の取得済み保管証跡に異常はありません"]
      else (t.findingsBesidesAge nowMs).map (·.reason) := by
    rw [healthReasons_eq, hpause, htold]
  refine ⟨?_, hreasons⟩
  have hhealth : (evaluateTarget (t.pause pausedUntil reason) nowMs).health =
      (evaluateTarget (t.withAgeLimits warningAfter criticalAfter) nowMs).health := by
    rw [health_eq, health_eq, hpause, hlimits]
    rfl
  have hhealthy : (evaluateTarget (t.withAgeLimits warningAfter criticalAfter) nowMs).health =
      .healthy ↔ t.findingsBesidesAge nowMs = [] := by
    rw [health_eq_healthy, hlimits]
  have hother := healthReasons_eq (t.withAgeLimits warningAfter criticalAfter) nowMs
  rw [hlimits] at hother
  -- the other fields are read off what both targets share
  have hfields : ∀ v w : BackupVerdict, v.health = w.health → v.healthReasons = w.healthReasons →
      v.backupAgeSeconds = w.backupAgeSeconds → v.remoteSyncPending = w.remoteSyncPending →
      v.restoreReadiness = w.restoreReadiness → v = w := by
    rintro ⟨⟩ ⟨⟩ h₁ h₂ h₃ h₄ h₅
    simp only at h₁ h₂ h₃ h₄ h₅
    rw [h₁, h₂, h₃, h₄, h₅]
  unfold BackupVerdict.tellPause
  by_cases hnone : t.findingsBesidesAge nowMs = []
  · rw [if_pos (hhealthy.2 hnone)]
    refine hfields _ _ hhealth ?_ rfl rfl rfl
    rw [hreasons, if_pos hnone]
  · rw [if_neg (mt hhealthy.1 hnone)]
    refine hfields _ _ hhealth ?_ rfl rfl rfl
    rw [hreasons, hother, if_neg hnone, if_neg hnone]

/-- **The health of a backup is the worst of independent findings, and a pause hides its age only.**
It changes the verdict as limits would that the age keeps, and tells a healthy one that it is
paused. -/
theorem backup_health_laws (t : BackupTarget) (nowMs : ℤ) :
    HealthIsWorst t nowMs ∧
      ∀ (pausedUntil : ℤ) (reason : String) (warningAfter criticalAfter : ℤ),
        nowMs < pausedUntil → Js.isBlank reason = false →
        (∀ s ∈ t.latestSuccess,
          s.ageSeconds nowMs ≤ warningAfter ∧ s.ageSeconds nowMs ≤ criticalAfter) →
        PauseHidesAge t nowMs pausedUntil reason warningAfter criticalAfter :=
  ⟨healthIsWorst t nowMs, fun _ _ _ _ huntil hreason hage => pauseHidesAge huntil hreason hage⟩

namespace Sample

/-- A backup of ten minutes ago with all its evidence, at 10,000,000 ms. -/
def freshTarget : BackupTarget where
  remoteSyncRequired := true
  warningAfterSeconds := 3600
  criticalAfterSeconds := 7200
  remoteSyncWarningSeconds := 120
  restoreTestWarningSeconds := 86400
  latest := some (.success, none)
  latestSuccess := some ⟨9400000, some true, some 9970000, some 9700000, some 96400000⟩
  agePausedUntil := none
  agePauseReason := none

theorem backup_health_laws_fresh :
    HealthIsWorst freshTarget 10000000 ∧
      PauseHidesAge freshTarget 10000000 10060000 "review" 3600 7200 :=
  ⟨(backup_health_laws freshTarget 10000000).1,
    (backup_health_laws freshTarget 10000000).2 10060000 "review" 3600 7200 (by decide) (by decide)
      (by decide)⟩

/-- **A healthy target tells of its pause**, which no limits make it do. -/
theorem pause_is_told : ¬ ∀ (t : BackupTarget) (nowMs pausedUntil : ℤ) (reason : String)
    (warningAfter criticalAfter : ℤ), nowMs < pausedUntil → Js.isBlank reason = false →
      (∀ s ∈ t.latestSuccess,
        s.ageSeconds nowMs < warningAfter ∧ s.ageSeconds nowMs < criticalAfter) →
      evaluateTarget (t.pause pausedUntil reason) nowMs =
        evaluateTarget (t.withAgeLimits warningAfter criticalAfter) nowMs := by
  intro h
  have hsame := h freshTarget 10000000 10060000 "review" 3600 7200 (by decide) (by decide) (by decide)
  exact absurd hsame (by decide)

end Sample

end IvrmDashboard.Backups

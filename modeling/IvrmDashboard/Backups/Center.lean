import IvrmDashboard.Foundations.Js.Text
import IvrmDashboard.Notifications.Scheduled

/-!
# The Backup Center

For every policy the screen shows the latest run, the latest successful run and the newest restore
test of any successful run, and judges them (`evaluateTarget`). The scheduled reconciliation judges
the same promise about restore tests from the latest successful run alone. The two agree exactly as
long as the limit does not fall between the two pieces of evidence (`restoreAlertsAgree_iff`).
-/

namespace IvrmDashboard.Backups

open Sql Operations Notifications

/-! ## The read model -/

/-- What `get_backup_center_v1` returns of a policy. -/
structure CenterRow where
  policy : BackupPolicy
  latest : Option BackupRun
  success : Option Success
  restoreTest : Option RestoreTest

/-- The row of a policy. -/
def centerRow (runs : List BackupRun) (p : BackupPolicy) : CenterRow where
  policy := p
  latest := latestRun runs p
  success := latestSuccess runs p
  restoreTest := newestRestoreTest runs p

/-- `get_backup_center_v1` -/
def getBackupCenter (w : MonitorWorld) : List CenterRow :=
  (w.settings.policies.filter fun p => p.enabled && (w.hostOf p).isSome).map (centerRow w.runs)

/-! ## The judgement -/

/-- `BackupHealth` -/
inductive BackupHealth
  | healthy
  | warning
  | critical
  | unknown
  deriving DecidableEq

/-- `RestoreReadiness` -/
inductive RestoreReadiness
  | ready
  | warning
  | unknown
  deriving DecidableEq

/-- `BackupSuccessSummary`, its dates in milliseconds. -/
structure BackupSuccessSummary where
  completedAt : ℤ
  sha256Verified : Option Bool
  remoteSyncedAt : Option ℤ
  restoreTestedAt : Option ℤ
  retentionExpiresAt : Option ℤ
  deriving DecidableEq

/-- What `evaluateTarget` reads of a target. -/
structure BackupTarget where
  remoteSyncRequired : Bool
  warningAfterSeconds : ℤ
  criticalAfterSeconds : ℤ
  remoteSyncWarningSeconds : ℤ
  restoreTestWarningSeconds : ℤ
  latest : Option (Outcome × Option String)
  latestSuccess : Option BackupSuccessSummary
  agePausedUntil : Option ℤ
  agePauseReason : Option String

/-- The summary of a row; its restore test is the newest of the policy. -/
def CenterRow.successSummary (r : CenterRow) : Option BackupSuccessSummary :=
  r.success.map fun s =>
    ⟨Js.dateParse s.completedAt, s.sha256Verified, s.remoteSyncedAt.map Js.dateParse,
      r.restoreTest.map fun t => Js.dateParse t.testedAt, s.retentionExpiresAt.map Js.dateParse⟩

/-- `parseCenterRows`, with what `get_backup_center_v2` adds about a pause. -/
def CenterRow.target (r : CenterRow) (agePausedUntil : Option ℤ) (agePauseReason : Option String) :
    BackupTarget where
  remoteSyncRequired := r.policy.remoteSyncRequired
  warningAfterSeconds := r.policy.warningAfterSeconds
  criticalAfterSeconds := r.policy.criticalAfterSeconds
  remoteSyncWarningSeconds := r.policy.remoteSyncWarningSeconds
  restoreTestWarningSeconds := r.policy.restoreTestWarningSeconds
  latest := r.latest.map fun l => (l.outcome, l.failureCode)
  latestSuccess := r.successSummary
  agePausedUntil := agePausedUntil
  agePauseReason := agePauseReason

/-- What `evaluateTarget` adds to a target. -/
structure BackupVerdict where
  health : BackupHealth
  healthReasons : List String
  backupAgeSeconds : Option ℤ
  remoteSyncPending : Bool
  restoreReadiness : RestoreReadiness
  deriving DecidableEq

/-- The health so far, and its reasons. -/
structure Diagnosis where
  health : BackupHealth
  reasons : List String

namespace Diagnosis

/-- `warn` -/
def warn (reason : String) (d : Diagnosis) : Diagnosis :=
  ⟨if d.health = .critical then .critical else .warning, d.reasons ++ [reason]⟩

/-- A reason that makes the health critical. -/
def fail (reason : String) (d : Diagnosis) : Diagnosis := ⟨.critical, d.reasons ++ [reason]⟩

/-- A reason that leaves the health as it is. -/
def note (reason : String) (d : Diagnosis) : Diagnosis := ⟨d.health, d.reasons ++ [reason]⟩

/-- A finding, if there is one. -/
def when (q : Bool) (f : Diagnosis → Diagnosis) (d : Diagnosis) : Diagnosis := if q then f d else d

end Diagnosis

/-- `isBackupAgePaused` -/
def isBackupAgePaused (t : BackupTarget) (nowMs : ℤ) : Bool :=
  t.agePauseReason.any (!Js.isBlank ·) && t.agePausedUntil.any (nowMs < ·)

/-- `backupAgeSeconds` -/
def BackupSuccessSummary.ageSeconds (s : BackupSuccessSummary) (nowMs : ℤ) : ℤ :=
  max 0 ((nowMs - s.completedAt) / 1000)

/-- `restoreAgeMs` -/
def BackupSuccessSummary.restoreAgeMs (s : BackupSuccessSummary) (nowMs : ℤ) : Option ℤ :=
  s.restoreTestedAt.map (nowMs - ·)

/-- `restoreFresh` -/
def BackupTarget.restoreFresh (t : BackupTarget) (nowMs : ℤ) (s : BackupSuccessSummary) : Bool :=
  (s.restoreAgeMs nowMs).any fun age => 0 ≤ age && age ≤ t.restoreTestWarningSeconds * 1000

/-- `retentionValid` -/
def BackupSuccessSummary.retentionValid (s : BackupSuccessSummary) (nowMs : ℤ) : Bool :=
  s.retentionExpiresAt.any (nowMs < ·)

/-- `restoreReadiness` of a target with a successful run. -/
def BackupTarget.restoreReadiness (t : BackupTarget) (nowMs : ℤ) (s : BackupSuccessSummary) :
    RestoreReadiness :=
  match s.restoreAgeMs nowMs with
  | none => .unknown
  | some age =>
    if age < 0 then .unknown
    else if !t.restoreFresh nowMs s then .warning
    else if s.sha256Verified = some true && s.retentionValid nowMs then .ready
    else .unknown

/-- The findings about a successful run, up to its retention. -/
def BackupTarget.diagnoseSuccess (t : BackupTarget) (nowMs : ℤ) (s : BackupSuccessSummary)
    (d : Diagnosis) : Diagnosis :=
  let agePaused := isBackupAgePaused t nowMs
  let age := s.ageSeconds nowMs
  let d :=
    if !agePaused && t.criticalAfterSeconds < age then d.fail "最新成功がCritical SLAを超過しています"
    else if !agePaused && t.warningAfterSeconds < age && d.health ≠ .critical then
      d.warn "最新成功がWarning SLAを超過しています"
    else d
  let d :=
    match s.sha256Verified with
    | some false => d.fail "SHA-256検証失敗を確認しました"
    | none => d.warn "SHA-256検証結果が未取得です"
    | some true => d
  let d := d.when (s.retentionExpiresAt.any (· ≤ nowMs))
    (.fail "最新成功バックアップのRetention期限を超過しています")
  let d := d.when s.retentionExpiresAt.isNone (.warn "Retention期限が未取得です")
  d.when (t.latest.any fun l => l.1 = .running || l.1 = .unknown)
    (.warn "最新Runの結果がまだ確定していません")

/-- The findings about the restore test of a successful run. -/
def BackupTarget.diagnoseRestore (t : BackupTarget) (nowMs : ℤ) (s : BackupSuccessSummary)
    (d : Diagnosis) : Diagnosis :=
  match s.restoreAgeMs nowMs with
  | none => d.warn "Restore Testの実施証跡が未取得です"
  | some age =>
    if age < 0 then d.warn "Restore Testの日時が未来です。送信元の時計を確認してください"
    else d.when (!t.restoreFresh nowMs s) (.warn "Restore TestがPolicy期間を超過しています")

/-- `evaluateTarget` -/
def evaluateTarget (t : BackupTarget) (nowMs : ℤ) : BackupVerdict :=
  let d : Diagnosis := ⟨if t.latestSuccess.isSome then .healthy else .unknown, []⟩
  let d :=
    match t.latest with
    | some (.failed, code) => d.fail ("最新バックアップ失敗: " ++ code.getD "unknown")
    | _ => d
  let d :=
    match t.latestSuccess with
    | none => d.note "成功済みバックアップをまだ確認できません"
    | some s => t.diagnoseSuccess nowMs s d
  let pending := t.latestSuccess.any fun s => t.remoteSyncRequired && s.remoteSyncedAt.isNone
  let late := t.latestSuccess.any fun s => t.remoteSyncWarningSeconds * 1000 < nowMs - s.completedAt
  let d := d.when (pending && late) (.warn "Remote SyncがSLA内に完了していません")
  let d :=
    match t.latestSuccess with
    | none => d
    | some s => t.diagnoseRestore nowMs s d
  let d := d.when (d.health = .healthy && d.reasons.isEmpty)
    (.note (if isBackupAgePaused t nowMs then
        "Age判定は一時停止中です。その他の取得済み保管証跡に異常はありません"
      else "最新成功・整合性・SLAに異常はありません"))
  { health := d.health
    healthReasons := d.reasons
    backupAgeSeconds := t.latestSuccess.map (·.ageSeconds nowMs)
    remoteSyncPending := pending
    restoreReadiness :=
      match t.latestSuccess with
      | none => .unknown
      | some s => t.restoreReadiness nowMs s }

/-! ## The pager and the screen -/

/-- The condition of the pager at a time in milliseconds: that of the latest successful run. -/
def pagerRestoreTest (runs : List BackupRun) (p : BackupPolicy) (nowMs : ℤ) : Bool :=
  (latestSuccess runs p).any (restoreTestLate (1000 * nowMs) p)

/-- The screen finds fresh restore evidence. -/
def screenRestoreFresh (runs : List BackupRun) (p : BackupPolicy) (nowMs : ℤ) : Bool :=
  let t := (centerRow runs p).target none none
  t.latestSuccess.any (t.restoreFresh nowMs)

/-- What the screen warns of the pager pages, and what it finds fresh the pager leaves alone. -/
def RestoreAlertsAgree (runs : List BackupRun) (p : BackupPolicy) (nowMs : ℤ) : Prop :=
  (∀ pausedUntil pauseReason,
    (evaluateTarget ((centerRow runs p).target pausedUntil pauseReason) nowMs).restoreReadiness =
      .warning → pagerRestoreTest runs p nowMs = true) ∧
  (screenRestoreFresh runs p nowMs = true → pagerRestoreTest runs p nowMs = false)

/-- The evidence of the pager: the restore test of the latest successful run, or its completion. -/
def Success.restoreBasis (s : Success) : ℤ := s.restoreTestedAt.getD s.completedAt

/-- The start of the time in which a restore test counts. -/
def restoreCutoff (p : BackupPolicy) (nowMs : ℤ) : ℤ :=
  1000 * nowMs - p.restoreTestWarningSeconds * second

/-- The limit does not fall between the evidence of the pager and the newest restore test, unless
that test lies in the future. -/
def CutoffOutside (runs : List BackupRun) (p : BackupPolicy) (nowMs : ℤ) : Prop :=
  ∀ s ∈ latestSuccess runs p, ∀ t ∈ newestRestoreTest runs p, Js.dateParse t.testedAt ≤ nowMs →
    ¬ (min s.restoreBasis t.testedAt < restoreCutoff p nowMs ∧
      restoreCutoff p nowMs ≤ max s.restoreBasis t.testedAt)

theorem evaluateTarget_restoreReadiness (t : BackupTarget) (nowMs : ℤ) :
    (evaluateTarget t nowMs).restoreReadiness =
      match t.latestSuccess with
      | none => .unknown
      | some s => t.restoreReadiness nowMs s :=
  rfl

/-- A test that is not in the future is either fresh or warned of. -/
theorem restoreFresh_iff (t : BackupTarget) {nowMs : ℤ} {s : BackupSuccessSummary} {tested : ℤ}
    (hs : s.restoreTestedAt = some tested) (h : tested ≤ nowMs) :
    t.restoreFresh nowMs s = true ↔ nowMs - tested ≤ t.restoreTestWarningSeconds * 1000 := by
  simp only [BackupTarget.restoreFresh, BackupSuccessSummary.restoreAgeMs, hs, Option.map_some,
    Option.any_some, Bool.and_eq_true, decide_eq_true_eq]
  omega

theorem restoreReadiness_eq_warning (t : BackupTarget) {nowMs : ℤ} {s : BackupSuccessSummary} :
    t.restoreReadiness nowMs s = .warning ↔
      ∃ tested, s.restoreTestedAt = some tested ∧ tested ≤ nowMs ∧ t.restoreFresh nowMs s = false := by
  unfold BackupTarget.restoreReadiness BackupSuccessSummary.restoreAgeMs
  cases s.restoreTestedAt with
  | none => simp
  | some tested =>
    simp only [Option.map_some, Option.some.injEq, exists_eq_left']
    by_cases hfuture : nowMs - tested < 0
    · rw [if_pos hfuture]
      exact iff_of_false nofun fun h => absurd h.1 (by omega)
    · rw [if_neg hfuture]
      cases t.restoreFresh nowMs s with
      | false => exact iff_of_true rfl ⟨by omega, rfl⟩
      | true =>
        refine iff_of_false ?_ (fun h => nomatch h.2)
        simp only [Bool.not_true, Bool.false_eq_true, if_false]
        split <;> exact nofun

theorem latestSuccess_mem {runs : List BackupRun} {p : BackupPolicy} {s : Success}
    (h : latestSuccess runs p = some s) : s ∈ successesOf runs p :=
  mem_of_firstBy h

/-- The newest restore test is not older than that of the latest successful run. -/
theorem restoreTestedAt_le {runs : List BackupRun} {p : BackupPolicy} {s : Success}
    {t : RestoreTest} {tested : ℤ} (hs : latestSuccess runs p = some s)
    (ht : newestRestoreTest runs p = some t) (htested : s.restoreTestedAt = some tested) :
    tested ≤ t.testedAt := by
  have hmem : (⟨s.id, tested⟩ : RestoreTest) ∈
      (successesOf runs p).filterMap Success.restoreTest? := by
    refine List.mem_filterMap.2 ⟨s, latestSuccess_mem hs, ?_⟩
    rw [Success.restoreTest?, htested]
    rfl
  exact le_of_newerFirst (firstBy_le (newerFirst_total _ _) (fun _ _ _ => newerFirst_trans) ht hmem)

/-- A restore test belongs to a successful run. -/
theorem newestRestoreTest_eq_none {runs : List BackupRun} {p : BackupPolicy}
    (h : latestSuccess runs p = none) : newestRestoreTest runs p = none := by
  have hnil : successesOf runs p = [] := firstBy_eq_none.1 h
  rw [newestRestoreTest, hnil]
  rfl

/-- What the screen finds, in terms of the newest restore test. -/
theorem screen_restore {runs : List BackupRun} {p : BackupPolicy} {s : Success} {t : RestoreTest}
    (hs : latestSuccess runs p = some s) (ht : newestRestoreTest runs p = some t) (nowMs : ℤ) :
    (∀ pausedUntil pauseReason,
      (evaluateTarget ((centerRow runs p).target pausedUntil pauseReason) nowMs).restoreReadiness =
        .warning ↔ Js.dateParse t.testedAt ≤ nowMs ∧ t.testedAt < restoreCutoff p nowMs) ∧
    (screenRestoreFresh runs p nowMs = true ↔
      Js.dateParse t.testedAt ≤ nowMs ∧ restoreCutoff p nowMs ≤ t.testedAt) := by
  have hsummary : (centerRow runs p).successSummary = some
      ⟨Js.dateParse s.completedAt, s.sha256Verified, s.remoteSyncedAt.map Js.dateParse,
        some (Js.dateParse t.testedAt), s.retentionExpiresAt.map Js.dateParse⟩ := by
    rw [CenterRow.successSummary, centerRow, hs, ht]
    rfl
  -- a whole number of milliseconds is past a moment when it is past its millisecond
  have hfresh : nowMs - Js.dateParse t.testedAt ≤ p.restoreTestWarningSeconds * 1000 ↔
      restoreCutoff p nowMs ≤ t.testedAt := by
    simp only [Js.dateParse, restoreCutoff, second]
    omega
  constructor
  · intro pausedUntil pauseReason
    rw [evaluateTarget_restoreReadiness]
    simp only [CenterRow.target, hsummary]
    rw [restoreReadiness_eq_warning]
    constructor
    · rintro ⟨tested, htested, hle, hold⟩
      obtain rfl := Option.some.inj htested
      refine ⟨hle, ?_⟩
      rw [← Bool.not_eq_true, restoreFresh_iff _ rfl hle] at hold
      exact not_le.1 fun h => hold (hfresh.2 h)
    · rintro ⟨hle, hold⟩
      refine ⟨_, rfl, hle, ?_⟩
      rw [← Bool.not_eq_true, restoreFresh_iff _ rfl hle]
      exact fun h => absurd (hfresh.1 h) (not_le.2 hold)
  · simp only [screenRestoreFresh, CenterRow.target, hsummary, Option.any_some]
    constructor
    · intro h
      have hle : Js.dateParse t.testedAt ≤ nowMs := by
        simp only [BackupTarget.restoreFresh, BackupSuccessSummary.restoreAgeMs, Option.map_some,
          Option.any_some, Bool.and_eq_true, decide_eq_true_eq] at h
        omega
      exact ⟨hle, hfresh.1 ((restoreFresh_iff _ rfl hle).1 h)⟩
    · rintro ⟨hle, hnew⟩
      exact (restoreFresh_iff _ rfl hle).2 (hfresh.2 hnew)

/-- **The pager and the screen agree exactly when the limit does not fall between their evidence.** -/
theorem restoreAlertsAgree_iff (runs : List BackupRun) (p : BackupPolicy) (nowMs : ℤ) :
    RestoreAlertsAgree runs p nowMs ↔ CutoffOutside runs p nowMs := by
  unfold RestoreAlertsAgree CutoffOutside
  cases hs : latestSuccess runs p with
  | none =>
    have hsummary : (centerRow runs p).successSummary = none := by
      rw [CenterRow.successSummary, centerRow, hs]
      rfl
    refine iff_of_true ⟨?_, ?_⟩ nofun
    · intro pausedUntil pauseReason h
      rw [evaluateTarget_restoreReadiness] at h
      simp only [CenterRow.target, hsummary] at h
      cases h
    · intro h
      simp only [screenRestoreFresh, CenterRow.target, hsummary] at h
      cases h
  | some s =>
    cases ht : newestRestoreTest runs p with
    | none =>
      have hsummary : ∃ x : BackupSuccessSummary, (centerRow runs p).successSummary = some x ∧
          x.restoreTestedAt = none := by
        rw [CenterRow.successSummary, centerRow, hs, ht]
        exact ⟨_, rfl, rfl⟩
      obtain ⟨x, hx, hnone⟩ := hsummary
      refine iff_of_true ⟨?_, ?_⟩ (fun _ _ => nofun)
      · intro pausedUntil pauseReason h
        rw [evaluateTarget_restoreReadiness] at h
        simp only [CenterRow.target, hx] at h
        rw [restoreReadiness_eq_warning, hnone] at h
        obtain ⟨tested, htested, -⟩ := h
        cases htested
      · intro h
        simp only [screenRestoreFresh, CenterRow.target, hx, Option.any_some,
          BackupTarget.restoreFresh, BackupSuccessSummary.restoreAgeMs, hnone] at h
        cases h
    | some t =>
      obtain ⟨hwarn, hfresh⟩ := screen_restore hs ht nowMs
      have hpager : pagerRestoreTest runs p nowMs = true ↔
          s.restoreBasis < restoreCutoff p nowMs := by
        simp only [pagerRestoreTest, hs, Option.any_some, restoreTestLate, Success.restoreBasis,
          restoreCutoff, decide_eq_true_eq]
        omega
      rw [hfresh, ← Bool.not_eq_true, hpager]
      simp only [hwarn, Option.mem_some_iff, forall_eq']
      constructor
      · rintro ⟨h₁, h₂⟩ hle ⟨hlow, hhigh⟩
        rcases lt_or_ge t.testedAt (restoreCutoff p nowMs) with hold | hnew
        · have := h₁ none none ⟨hle, hold⟩
          omega
        · have := h₂ ⟨hle, hnew⟩
          omega
      · intro h
        refine ⟨?_, ?_⟩
        · rintro - - ⟨hle, hold⟩
          by_contra hpage
          exact h hle ⟨by omega, by omega⟩
        · rintro ⟨hle, hnew⟩ hpage
          exact h hle ⟨by omega, by omega⟩

/-! ## A backup after a restore test -/

/-- A policy that wants a restore test every hour. -/
def hourlyPolicy : BackupPolicy :=
  { PolicyConfig.policy (.default false) 1 (sampleRun ⟨1⟩ 0).scope with
    restoreTestWarningSeconds := 3600 }

/-- The first backup is tested after an hour; the second, of the second hour, is not. -/
def testedThenUntested : List BackupRun :=
  [{ sampleRun ⟨1⟩ 0 with id := 1, restoreTestedAt := some hour },
    { sampleRun ⟨2⟩ (2 * hour) with id := 2 }]

/-- After two and a half hours the screen warns and nobody is paged. -/
theorem untested_backup_silences_pager :
    ¬ RestoreAlertsAgree testedThenUntested hourlyPolicy 9000000 := by
  intro h
  have hpager := h.1 none none (by decide)
  exact absurd hpager (by decide)

end IvrmDashboard.Backups

import IvrmDashboard.Backups.Merging
import IvrmDashboard.Foundations.Js.Date

/-!
# Runs of backup reports

A call commits unless the time of the report cannot be read or a run disagrees with an earlier
report of it (`backup_reports_merge_iff`). Then the request is lost as a whole: the row of its nonce
is taken back as well, and sending it again fails in the same way. Otherwise every row adds up the
accepted reports of its run, and a policy exists for the scope of each.
-/

namespace IvrmDashboard.Backups

open Sql Operations Notifications Standing

variable {reports : List BackupRun} {r row : BackupRun} {w w' : MonitorWorld} {now : ℤ}

/-! ## Times that print -/

theorem year_bounds {t : ℤ} (h : t.natAbs < 2 ^ 64) :
    -1000000 < (Field.dateOf t).year - 1 ∧ (Field.dateOf t).year < 1000000 := by
  have hvalid := marchOfDays_valid (t / day)
  have hera : (marchOfDays (t / day)).era = (t / day + 719468) / 146097 := rfl
  have hyear : (Field.dateOf t).year = (marchOfDays (t / day)).fullYear +
      (if (marchOfDays (t / day)).month < 10 then 0 else 1) := rfl
  have hcarry : 0 ≤ (if (marchOfDays (t / day)).month < 10 then (0 : ℤ) else 1) ∧
      (if (marchOfDays (t / day)).month < 10 then (0 : ℤ) else 1) ≤ 1 := by
    split <;> decide
  rw [hyear]
  generalize (if (marchOfDays (t / day)).month < 10 then (0 : ℤ) else 1) = carry at hcarry
  simp only [MarchDay.Valid, MarchDay.fullYear, day] at *
  omega

theorem printable_of_natAbs {t : ℤ} (h : t.natAbs < 2 ^ 64) : Printable (.ofInstant t) := by
  refine ⟨_, rfl, ?_⟩
  have hyear := year_bounds h
  have hmonth : (Field.dateOf t).month ≤ 12 := (civilOfDays_month (t / day)).2
  have hday : (Field.dateOf t).day ≤ 31 := (civilOfDays_day (t / day)).2
  have htime := Field.timeOf_lt t
  have hyyyy : (Text.decimal 4 (Field.printedYear (Field.dateOf t).year)).length ≤ 6 := by
    apply length_decimal_le (by omega) (by omega)
    simp only [Field.printedYear]
    split <;> omega
  rw [String.length_ofList]
  simp only [formatInstant, keyFormat, List.flatMap_cons, List.flatMap_nil, List.length_append,
    Field.text, List.length_nil]
  generalize (Text.decimal 4 (Field.printedYear (Field.dateOf t).year)).length = n at *
  rw [Text.length_decimal (by omega) (by omega), Text.length_decimal (by omega) (by omega),
    Text.length_decimal (by omega) (by omega), Text.length_decimal (by omega) (by omega),
    Text.length_decimal (by omega) (by omega), Text.length_decimal (by omega) (by omega)]
  omega
/-- The times the alerts of a run carry. -/
structure BackupRun.Timed (r : BackupRun) : Prop where
  startedAt : Printable (.ofInstant r.startedAt)
  completedAt : ∀ t ∈ r.completedAt, Printable (.ofInstant t)

theorem BackupRun.Timed.occurredAt (h : r.Timed) :
    Printable (.ofInstant (r.completedAt.getD r.startedAt)) := by
  cases ht : r.completedAt with
  | none => exact h.startedAt
  | some t => exact h.completedAt t ht

theorem BackupRun.Timed.merge {old : BackupRun} (h : old.Timed) (hr : r.Timed) :
    (old.merge r).Timed where
  startedAt := h.startedAt
  completedAt t ht := by
    simp only [BackupRun.merge] at ht
    split at ht
    · exact h.completedAt t ht
    · exact hr.completedAt t ht

/-! ## The table of runs -/

/-- The rows stand for the reports, and each has passed its constraints. -/
structure Table (reports : List BackupRun) (w : MonitorWorld) : Prop where
  stands : Stands BackupRun.key BackupRun.Merged reports w.runs
  ids : Unique (·.id) w.runs
  fresh : ∀ row ∈ w.runs, row.id < w.nextRunId
  sound : ∀ row ∈ w.runs, row.Sound
  timed : ∀ row ∈ w.runs, row.Timed

/-- `on conflict (host_id, run_id)` -/
def runOf (w : MonitorWorld) (r : BackupRun) : Option BackupRun :=
  w.runs.find? fun old => old.scope.hostId = r.scope.hostId && old.runId = r.runId

theorem runOf_eq_some {old : BackupRun} (h : runOf w r = some old) :
    old ∈ w.runs ∧ old.key = r.key := by
  have hfound := List.find?_some h
  simp only [Bool.and_eq_true, decide_eq_true_eq] at hfound
  exact ⟨List.mem_of_find?_eq_some h, Prod.ext hfound.1 hfound.2⟩

theorem runOf_eq_none (h : runOf w r = none) : ∀ old ∈ w.runs, old.key ≠ r.key := by
  intro old hold hkey
  refine List.find?_eq_none.1 h old hold ?_
  obtain ⟨hhost, hrun⟩ := Prod.mk.inj hkey
  simp [hhost, hrun]

/-- The reports a run has had so far. -/
def earlier (reports : List BackupRun) (r : BackupRun) : List BackupRun :=
  reportsOf BackupRun.key reports r.key

/-- A report is merged exactly when it agrees with the earlier ones. -/
theorem Table.upsertRun_iff (h : Table reports w) (hr : r.Sound) :
    Commits (w.upsertRun r) ↔ r.agrees (earlier reports r) = true := by
  have hchecks : checkAll r.checks = .ok () := checkAll_eq_ok.2 (checked_iff.2 hr)
  unfold MonitorWorld.upsertRun
  rw [commits_bind hchecks]
  split
  next hnone =>
    have hnil : earlier reports r = [] := h.stands.reportsOf_eq_nil (runOf_eq_none hnone)
    rw [hnil]
    exact iff_of_true (commits_pure _) rfl
  next old hold =>
    obtain ⟨hmem, hkey⟩ := runOf_eq_some hold
    have hmerged : old.Merged (earlier reports r) := by
      unfold earlier
      rw [← hkey]
      exact h.stands.row old hmem
    rw [commits_bind_of_forall fun _ => commits_pure _, ← sound_merge_iff hmerged (h.sound old hmem)
      hr, ← checked_iff]
    exact ⟨fun ⟨_, hok⟩ => checkAll_eq_ok.1 hok, fun hok => ⟨(), checkAll_eq_ok.2 hok⟩⟩

/-- What a report that is merged leaves in the table. -/
theorem Table.upsertRun (h : Table reports w) (hr : r.Sound) (ht : r.Timed)
    (hok : w.upsertRun r = .ok (row, w')) :
    Table (reports ++ [r]) w' ∧ row ∈ w'.runs ∧ row.scope.hostId = r.scope.hostId ∧
      w' = { w with runs := w'.runs, nextRunId := w'.nextRunId } := by
  obtain ⟨_, -, hok⟩ := bind_eq_ok.1 hok
  split at hok
  next hnone =>
    have hnew := runOf_eq_none hnone
    obtain ⟨rfl, rfl⟩ := Prod.mk.inj (pure_eq_ok.1 hok)
    refine ⟨⟨?_, ?_, ?_, ?_, ?_⟩, ?_, rfl, rfl⟩
    · exact h.stands.insert rfl hnew (merged_singleton w.nextRunId)
    · exact h.ids.concat fun a ha => Nat.ne_of_lt (h.fresh a ha)
    · intro a ha
      rcases List.mem_append.1 ha with ha | ha
      · exact Nat.lt_succ_of_lt (h.fresh a ha)
      · rw [List.mem_singleton.1 ha]
        exact Nat.lt_succ_self _
    · intro a ha
      rcases List.mem_append.1 ha with ha | ha
      · exact h.sound a ha
      · rw [List.mem_singleton.1 ha]
        exact ⟨hr.1, hr.2, hr.3, hr.4, hr.5, hr.6, hr.7, hr.8, hr.9, hr.10⟩
    · intro a ha
      rcases List.mem_append.1 ha with ha | ha
      · exact h.timed a ha
      · rw [List.mem_singleton.1 ha]
        exact ⟨ht.1, ht.2⟩
    · exact List.mem_append_right _ (List.mem_singleton_self _)
  next old hold =>
    obtain ⟨hmem, hkey⟩ := runOf_eq_some hold
    obtain ⟨_, hchecks, hok⟩ := bind_eq_ok.1 hok
    obtain ⟨rfl, rfl⟩ := Prod.mk.inj (pure_eq_ok.1 hok)
    have hsound : (old.merge r).Sound := checked_iff.1 (checkAll_eq_ok.1 hchecks)
    have hp : ∀ a ∈ w.runs, decide (a.id = old.id) = true ↔ a = old := by
      intro a ha
      rw [decide_eq_true_eq]
      exact ⟨fun hid => h.ids.eq ha hmem hid, fun heq => by rw [heq]⟩
    have hrows {P : BackupRun → Prop} (hP : ∀ a ∈ w.runs, P a) (hnew : P (old.merge r)) :
        ∀ a ∈ updateWhere (fun a => decide (a.id = old.id)) (·.merge r) w.runs, P a := by
      intro b hb
      obtain ⟨a, ha, rfl⟩ := mem_updateWhere.1 hb
      split
      next hpa =>
        rw [(hp a ha).1 hpa]
        exact hnew
      next => exact hP a ha
    refine ⟨⟨?_, ?_, ?_, ?_, ?_⟩, ?_, (Prod.mk.inj hkey).1, rfl⟩
    · refine h.stands.update hmem hkey hp rfl ?_
      rw [← hkey]
      exact (h.stands.row old hmem).merge r
    · exact h.ids.updateWhere fun _ _ _ => rfl
    · exact hrows h.fresh (h.fresh old hmem)
    · exact hrows h.sound hsound
    · exact hrows h.timed ((h.timed old hmem).merge ht)
    · exact mem_updateWhere.2 ⟨old, hmem, if_pos (decide_eq_true rfl)⟩

/-! ## The policies -/

/-- The scopes that have a policy. -/
def scopes (w : MonitorWorld) : List BackupScope := w.settings.policies.map policyScope

/-- A report finds the policy of its scope or creates it. -/
theorem upsertPolicy_commits (hr : r.Sound) (hhost : w.settings.isHost r.scope.hostId = true) :
    ∃ policies n, w.upsertPolicy r = .ok { w.withPolicies policies with nextPolicyId := n } ∧
      r.scope ∈ policies.map policyScope ∧ scopes w ⊆ policies.map policyScope := by
  unfold MonitorWorld.upsertPolicy
  dsimp only
  split
  next hnone =>
    have hchecks : checkAll [("backup_policies_scope_check", r.scope.ok),
        ("backup_policies_sla_check",
          (PolicyConfig.default (decide (r.destinationType = "s3"))).slaOk)] = .ok () := by
      simp [hr.scope, PolicyConfig.slaOk, PolicyConfig.default]
    refine ⟨w.settings.policies ++
      [(PolicyConfig.default (decide (r.destinationType = "s3"))).policy w.nextPolicyId r.scope],
      w.nextPolicyId + 1, ?_, ?_, ?_⟩
    · simp only [MonitorWorld.insertPolicy, bind, Except.bind, hchecks, hhost, hnone, Bool.not_true,
        raiseIf, Bool.false_eq_true, if_false, Option.isSome_none]
      rfl
    · rw [List.map_append]
      exact List.mem_append_right _ List.mem_cons_self
    · rw [List.map_append]
      exact List.subset_append_left _ _
  next p hp =>
    have hmap : (updateWhere (policyScope · = r.scope)
        (fun p : BackupPolicy => { p with
          remoteSyncRequired := p.remoteSyncRequired || decide (r.destinationType = "s3") })
        w.settings.policies).map policyScope = scopes w :=
      map_updateWhere fun _ => rfl
    refine ⟨_, w.nextPolicyId, rfl, ?_, ?_⟩
    · rw [hmap]
      exact List.mem_map.2 ⟨p, List.mem_of_find?_eq_some hp, by simpa using List.find?_some hp⟩
    · rw [hmap]
      exact List.Subset.refl _

/-! ## What a run of calls keeps -/

/-- The tables of a site after its calls have accepted the reports. -/
structure Held (s : Site) (reports : List BackupRun) (w : MonitorWorld) : Prop where
  table : Table reports w
  settings : w.settings = { s.settings with policies := w.settings.policies }
  wf : w.board.Wf
  signals : ∀ now, w.board.SignalsOk (w.env now)
  policies : ∀ r ∈ reports, r.scope ∈ scopes w

/-- A host of the site that may report. -/
structure Site.Reports (s : Site) (hostId : Uuid) (h : MonitoredHost) : Prop where
  mem : h ∈ s.settings.hosts
  id : h.id = hostId
  serverId : Text.lengthBetween 1 128 h.serverId = true

variable {s : Site} {h : MonitoredHost}

theorem Held.start (s : Site) : Held s [] s.start.monitor where
  table := ⟨stands_nil, .nil _, by simp [Site.start], by simp [Site.start], by simp [Site.start]⟩
  settings := rfl
  wf := .empty
  signals _ t ht := absurd ht List.not_mem_nil
  policies r hr := absurd hr List.not_mem_nil

/-- **A run is taken exactly when it agrees with its earlier reports**, and then it is added to
them. -/
theorem Held.reportRun (hw : Held s reports w) (now : ℤ) (hh : s.Reports r.scope.hostId h) (hr : r.Sound)
    (ht : r.Timed) :
    (Commits (w.reportRun now r) ↔ r.agrees (earlier reports r) = true) ∧
      ∀ w', w.reportRun now r = .ok w' → Held s (reports ++ [r]) w' := by
  have hhosts : w.settings.hosts = s.settings.hosts := by rw [hw.settings]
  have hhost : w.settings.isHost r.scope.hostId = true := by
    rw [Settings.isHost, hhosts, List.any_eq_true]
    exact ⟨h, hh.mem, decide_eq_true hh.id⟩
  obtain ⟨policies, n, hpolicy, hscope, hscopes⟩ := upsertPolicy_commits hr hhost
  have hw₁ : Held s reports { w.withPolicies policies with nextPolicyId := n } :=
    ⟨⟨hw.table.1, hw.table.2, hw.table.3, hw.table.4, hw.table.5⟩,
      by rw [MonitorWorld.withPolicies, hw.settings], hw.wf, hw.signals,
      fun r hr => hscopes (hw.policies r hr)⟩
  generalize hdef : { w.withPolicies policies with nextPolicyId := n } = w₁ at *
  have hscope₁ : r.scope ∈ scopes w₁ := by rw [← hdef]; exact hscope
  -- the alerts of the row never fail
  have hafter (row : BackupRun) (w₂ : MonitorWorld) (h₂ : w₁.upsertRun r = .ok (row, w₂)) :
      ∃ w', w.reportRun now r = .ok w' ∧ Held s (reports ++ [r]) w' := by
    obtain ⟨htable, hrow, hid, hw₂⟩ := hw₁.table.upsertRun hr ht h₂
    have hsettings : w₂.settings = w₁.settings := by rw [hw₂]
    have hboard : w₂.board = w₁.board := by rw [hw₂]
    have hhosts₂ : w₂.settings.hosts = s.settings.hosts := by rw [hsettings, hw₁.settings]
    have hfind : w₂.settings.hosts.find? (·.id = row.scope.hostId) = some h := by
      rw [hhosts₂, hid, ← hh.id]
      exact Unique.find?_eq s.hosts hh.mem
    have hsound := htable.sound row hrow
    have hreasons : (w₂.env now).settings.ReasonsOk := by
      intro p hp
      have hsuppressions : w₂.settings.suppressions = s.settings.suppressions := by
        rw [hsettings, hw₁.settings]
      exact s.reasons p (hsuppressions ▸ hp)
    have hisHost : (w₂.env now).settings.isHost row.scope.hostId = true :=
      List.any_eq_true.2 ⟨h, hhosts₂ ▸ hh.mem, by rw [hid, hh.id, decide_eq_true rfl]⟩
    have hsignals (now : ℤ) : w₂.board.SignalsOk (w₂.env now) := by
      intro t htmem
      have hok := hw₁.signals now t (hboard ▸ htmem)
      simp only [Signal.Ok, Board.hostOk, MonitorWorld.env, hsettings] at hok ⊢
      exact hok
    obtain ⟨board, hfold, hwf, hok⟩ := runSignals_commit (e := w₂.env now) (r := row) hreasons
      hh.serverId hsound.scope hisHost hsound.failureCode (htable.timed row hrow).occurredAt
      (hboard ▸ hw₁.wf) (hsignals now)
    refine ⟨{ w₂ with board }, ?_, ?_, ?_, hwf, ?_, ?_⟩
    · simp only [MonitorWorld.reportRun, bind, Except.bind, hpolicy, h₂, hfind, hfold]
      rfl
    · exact ⟨htable.1, htable.2, htable.3, htable.4, htable.5⟩
    · show w₂.settings = _
      rw [hsettings, hw₁.settings]
    · exact fun _ => hok
    · intro a ha
      show a.scope ∈ w₂.settings.policies.map policyScope
      rw [hsettings]
      rcases List.mem_append.1 ha with ha | ha
      · exact hw₁.policies a ha
      · rw [List.mem_singleton.1 ha]
        exact hscope₁
  rw [← hw₁.table.upsertRun_iff hr]
  constructor
  · constructor
    · rintro ⟨w', hok⟩
      obtain ⟨_, h₁, hok⟩ := bind_eq_ok.1 hok
      obtain rfl := Except.ok.inj (hpolicy.symm.trans h₁)
      obtain ⟨x, h₂, -⟩ := bind_eq_ok.1 hok
      exact ⟨x, h₂⟩
    · rintro ⟨⟨row, w₂⟩, h₂⟩
      obtain ⟨w', hok, -⟩ := hafter row w₂ h₂
      exact ⟨w', hok⟩
  · intro w' hok
    obtain ⟨_, h₁, hok'⟩ := bind_eq_ok.1 hok
    obtain rfl := Except.ok.inj (hpolicy.symm.trans h₁)
    obtain ⟨⟨row, w₂⟩, h₂, -⟩ := bind_eq_ok.1 hok'
    obtain ⟨w'', hok'', hheld⟩ := hafter row w₂ h₂
    obtain rfl := Except.ok.inj (hok.symm.trans hok'')
    exact hheld

/-! ## The runs of one request -/

/-- Every run of a request agrees with what was reported of it before, in the request or earlier. -/
def EachAgrees (reports rows : List BackupRun) : Prop :=
  ∀ front r back, rows = front ++ r :: back → r.agrees (earlier (reports ++ front) r) = true

theorem eachAgrees_cons {rows : List BackupRun} : EachAgrees reports (r :: rows) ↔
    r.agrees (earlier reports r) = true ∧ EachAgrees (reports ++ [r]) rows := by
  constructor
  · intro h
    constructor
    · have h₀ := h [] r rows rfl
      rwa [List.append_nil] at h₀
    · intro front a back hsplit
      rw [List.append_assoc]
      exact h (r :: front) a back (by rw [hsplit]; rfl)
  · rintro ⟨hr, h⟩ front a back hsplit
    cases front with
    | nil =>
      obtain ⟨rfl, -⟩ := List.cons.inj hsplit
      rw [List.append_nil]
      exact hr
    | cons b front =>
      obtain ⟨rfl, htail⟩ := List.cons.inj hsplit
      have := h front a back htail
      rwa [List.append_assoc] at this

/-- Rows of the host that have been tested. -/
def Tested (hostId : Uuid) (rows : List BackupRun) : Prop :=
  ∀ r ∈ rows, r.scope.hostId = hostId ∧ r.Sound ∧ r.Timed

/-- The rows of a request, written one after the other. -/
def reportRuns (now : ℤ) (w : MonitorWorld) (rows : List BackupRun) : Except DbError MonitorWorld :=
  rows.foldlM (fun monitor r => monitor.reportRun now r) w

theorem Held.reportRuns {rows : List BackupRun} {hostId : Uuid} (hw : Held s reports w)
    (hh : s.Reports hostId h) (hrows : Tested hostId rows) :
    (Commits (reportRuns now w rows) ↔ EachAgrees reports rows) ∧
      ∀ w', Backups.reportRuns now w rows = .ok w' → Held s (reports ++ rows) w' := by
  induction rows generalizing reports w with
  | nil =>
    refine ⟨iff_of_true (commits_pure w) ?_, ?_⟩
    · intro front r back hsplit
      exact absurd hsplit.symm (List.append_ne_nil_of_right_ne_nil _ (List.cons_ne_nil _ _))
    · intro w' hok
      obtain rfl := Except.ok.inj hok
      rw [List.append_nil]
      exact hw
  | cons r rows ih =>
    obtain ⟨hid, hr, ht⟩ := hrows r List.mem_cons_self
    have hrest : Tested hostId rows := fun a ha => hrows a (List.mem_cons_of_mem r ha)
    obtain ⟨hcommits, hheld⟩ := hw.reportRun now (hid ▸ hh) hr ht
    have hcons : Backups.reportRuns now w (r :: rows) =
        w.reportRun now r >>= fun w₁ => Backups.reportRuns now w₁ rows := List.foldlM_cons
    rw [hcons, eachAgrees_cons, ← hcommits]
    constructor
    · constructor
      · rintro ⟨w', hok⟩
        obtain ⟨w₁, h₁, hok⟩ := bind_eq_ok.1 hok
        exact ⟨⟨w₁, h₁⟩, (ih (hheld w₁ h₁) hrest).1.1 ⟨w', hok⟩⟩
      · rintro ⟨⟨w₁, h₁⟩, hagrees⟩
        rw [commits_bind h₁]
        exact (ih (hheld w₁ h₁) hrest).1.2 hagrees
    · intro w' hok
      obtain ⟨w₁, h₁, hok⟩ := bind_eq_ok.1 hok
      have := (ih (hheld w₁ h₁) hrest).2 w' hok
      rwa [List.append_assoc] at this

/-! ## Reports sent again -/

/-- The report is the last one of its run. -/
def IsLast (reports : List BackupRun) (r : BackupRun) : Prop :=
  (earlier reports r).getLast? = some r

theorem upsertRun_last (h : Table reports w) (hlast : IsLast reports r)
    (hok : w.upsertRun r = .ok (row, w')) : w'.runs = w.runs := by
  obtain ⟨_, -, hok⟩ := bind_eq_ok.1 hok
  split at hok
  next hnone =>
    have hnil : earlier reports r = [] := h.stands.reportsOf_eq_nil (runOf_eq_none hnone)
    rw [IsLast, hnil] at hlast
    cases hlast
  next old hold =>
    obtain ⟨hmem, hkey⟩ := runOf_eq_some hold
    obtain ⟨_, -, hok⟩ := bind_eq_ok.1 hok
    obtain ⟨-, rfl⟩ := Prod.mk.inj (pure_eq_ok.1 hok)
    have hmerged : old.Merged (earlier reports r) := by
      unfold earlier
      rw [← hkey]
      exact h.stands.row old hmem
    have hsame : ∀ a ∈ w.runs, (if decide (a.id = old.id) = true then a.merge r else a) = a := by
      intro a ha
      split
      next hid =>
        rw [h.ids.eq ha hmem (of_decide_eq_true hid)]
        exact hmerged.merge_last hlast
      next => rfl
    calc updateWhere (fun a => decide (a.id = old.id)) (·.merge r) w.runs
        = w.runs.map id := List.map_congr_left hsame
      _ = w.runs := List.map_id _

theorem reportRun_last (hw : Held s reports w) (hh : s.Reports r.scope.hostId h) (hr : r.Sound)
    (hlast : IsLast reports r) (hok : w.reportRun now r = .ok w') : w'.runs = w.runs := by
  have hhost : w.settings.isHost r.scope.hostId = true := by
    rw [hw.settings]
    exact List.any_eq_true.2 ⟨h, hh.mem, decide_eq_true hh.id⟩
  obtain ⟨policies, n, hpolicy, -, -⟩ := upsertPolicy_commits hr hhost
  obtain ⟨_, h₁, hok⟩ := bind_eq_ok.1 hok
  obtain rfl := Except.ok.inj (hpolicy.symm.trans h₁)
  obtain ⟨⟨row, w₂⟩, h₂, hok⟩ := bind_eq_ok.1 hok
  have htable : Table reports { w.withPolicies policies with nextPolicyId := n } :=
    ⟨hw.table.1, hw.table.2, hw.table.3, hw.table.4, hw.table.5⟩
  have hsame := upsertRun_last htable hlast h₂
  have hruns : w₂.runs = w.runs := hsame
  dsimp only at hok
  split at hok
  · obtain rfl := pure_eq_ok.1 hok
    exact hruns
  · obtain ⟨board, -, hok⟩ := bind_eq_ok.1 hok
    obtain rfl := pure_eq_ok.1 hok
    exact hruns

/-- A report sent again leaves the last reports of all runs as they are. -/
theorem isLast_concat {a : BackupRun} (hr : IsLast reports r) (ha : IsLast reports a) :
    IsLast (reports ++ [r]) a := by
  unfold IsLast earlier at *
  by_cases hkey : r.key = a.key
  · rw [hkey] at hr
    obtain rfl := Option.some.inj (hr.symm.trans ha)
    rw [reportsOf_concat_self, List.getLast?_concat]
  · rw [reportsOf_concat_of_ne hkey]
    exact ha

theorem reportRuns_last {rows : List BackupRun} {hostId : Uuid} (hw : Held s reports w)
    (hh : s.Reports hostId h) (hrows : Tested hostId rows) (hlast : ∀ r ∈ rows, IsLast reports r)
    (hok : reportRuns now w rows = .ok w') : w'.runs = w.runs := by
  induction rows generalizing reports w with
  | nil =>
    obtain rfl := Except.ok.inj hok
    rfl
  | cons r rows ih =>
    obtain ⟨hid, hr, ht⟩ := hrows r List.mem_cons_self
    have hcons : Backups.reportRuns now w (r :: rows) =
        w.reportRun now r >>= fun w₁ => Backups.reportRuns now w₁ rows := List.foldlM_cons
    rw [hcons] at hok
    obtain ⟨w₁, h₁, hok⟩ := bind_eq_ok.1 hok
    have hheld := (hw.reportRun now (hid ▸ hh) hr ht).2 w₁ h₁
    have hlastr := hlast r List.mem_cons_self
    have hruns := reportRun_last hw (hid ▸ hh) hr hlastr h₁
    rw [← hruns]
    exact ih hheld (fun a ha => hrows a (List.mem_cons_of_mem r ha))
      (fun a ha => isLast_concat hlastr (hlast a (List.mem_cons_of_mem r ha))) hok

/-! ## The tests of the database -/

variable {reportedAt : ℤ} {hostId : Uuid}

/-- What has passed the tests of the database passes the constraints. -/
theorem sound_of_isValid {v : RunValues} (hv : v.isValid reportedAt = true) :
    (v.row hostId).Sound := by
  simp only [RunValues.isValid, Bool.and_eq_true, decide_eq_true_eq] at hv
  obtain ⟨⟨⟨⟨⟨⟨⟨⟨⟨⟨⟨⟨⟨⟨htarget, hmode⟩, htype⟩, hdestination⟩, -⟩, -⟩, hduration⟩, hsize⟩,
    hcompletion⟩, hcompleted⟩, hfailure⟩, hcode⟩, hremote⟩, hrestore⟩, hretention⟩ := hv
  have hevidence (t : Option ℤ) (ht : v.evidenceOk reportedAt t = true) :
      (v.row hostId).afterCompletion t = true := by
    cases t with
    | none => rfl
    | some t =>
      simp only [RunValues.evidenceOk, Option.all_some, Bool.and_eq_true] at ht
      exact ht.1
  refine ⟨?_, hdestination, hduration, hsize, hcode, ?_, ?_, hevidence _ hremote,
    hevidence _ hrestore, hretention⟩
  rotate_right
  · rw [Bool.eq_iff_iff, decide_eq_true_eq]
    exact iff_of_eq hfailure
  · simp only [BackupScope.ok, RunValues.row, htarget, hmode, htype, Bool.and_true, decide_true]
  · cases hended : v.outcome.ended with
    | false =>
      rw [hended] at hcompletion
      simp only [RunValues.row, hended]
      exact hcompletion
    | true =>
      rw [hended] at hcompletion
      simp only [if_true, Bool.and_eq_true] at hcompletion
      obtain ⟨t, ht⟩ := Option.isSome_iff_exists.1 hcompletion.1
      rw [ht] at hcompleted
      simp only [Option.all_some, Bool.and_eq_true] at hcompleted
      simp only [RunValues.row, hended, if_true, ht, Option.any_some, hcompleted.1, hcompletion.2,
        Bool.and_true]

/-- Its times are close to the time of the call. -/
theorem timed_of_isValid {v : RunValues} (hnow : now.natAbs < 2 ^ 63)
    (hclose : (now - reportedAt).natAbs ≤ 300 * second) (hv : v.isValid reportedAt = true) :
    (v.row hostId).Timed := by
  simp only [RunValues.isValid, latestTime, Bool.and_eq_true, decide_eq_true_eq] at hv
  obtain ⟨⟨⟨⟨⟨⟨⟨⟨⟨⟨⟨⟨⟨⟨-, -⟩, -⟩, -⟩, hlate⟩, hearly⟩, -⟩, -⟩, -⟩, hcompleted⟩, -⟩, -⟩, -⟩, -⟩, -⟩ := hv
  have hlate := of_decide_eq_true hlate
  simp only [second, day] at hclose hlate hearly hcompleted
  constructor
  · apply printable_of_natAbs
    simp only [RunValues.row]
    omega
  · intro t ht
    simp only [RunValues.row, Option.mem_def] at ht
    rw [ht] at hcompleted
    simp only [Option.all_some, Bool.and_eq_true] at hcompleted
    have hstart := of_decide_eq_true hcompleted.1
    have hend := of_decide_eq_true hcompleted.2
    apply printable_of_natAbs
    omega

section

variable [Readings]

open Readings

/-- The rows of a request that has passed the tests. -/
theorem tested_rows (hostId : Uuid) {c : IngestCall} (hc : c.wellFormed reportedAt = true) :
    Tested hostId (c.rows hostId) := by
  simp only [IngestCall.wellFormed, Bool.and_eq_true, List.all_eq_true] at hc
  obtain ⟨⟨⟨⟨⟨⟨⟨-, hclose⟩, -⟩, -⟩, -⟩, -⟩, hvalid⟩, -⟩ := hc
  have hclose := of_decide_eq_true hclose
  intro r hr
  obtain ⟨v, hv, rfl⟩ := List.mem_map.1 hr
  obtain ⟨report, hreport, hvalues⟩ := List.mem_filterMap.1 hv
  have hok := hvalid report hreport
  rw [backupRunIsValid, hvalues, Option.any_some] at hok
  exact ⟨rfl, sound_of_isValid hok, timed_of_isValid c.representable hclose hok⟩

/-! ## Calls -/

/-- The time of the report can be read, and if the call is admitted, its runs agree with the reports
before them. -/
def IngestCall.Agrees (c : IngestCall) (w : IngestWorld) (reports : List BackupRun) : Prop :=
  ∃ reportedAt, timestamptz c.payload.reportedAt = some reportedAt ∧
    ∀ h, w.admits c reportedAt = .ok h → EachAgrees reports (c.rows h.id)

namespace IngestWorld

variable {world world' : IngestWorld} {c : IngestCall} {result : IngestResult}
  {host : MonitoredHost} {s : Site} {calls : List IngestCall}

/-- What is known of a host that is admitted. -/
theorem admits_eq_ok (h : world.admits c reportedAt = .ok host) :
    c.wellFormed reportedAt = true ∧ host ∈ world.monitor.settings.hosts ∧
      host.serverId = c.payload.serverId := by
  unfold admits at h
  split at h
  next => cases h
  next hwell =>
    split at h
    next => cases h
    next g hg =>
      have hmem := List.mem_of_find?_eq_some hg
      have hname := List.find?_some hg
      split at h
      · cases h
      · split at h
        · cases h
        · split at h
          · cases h
          · obtain rfl := Except.ok.inj h
            exact ⟨by simpa using hwell, hmem, of_decide_eq_true hname⟩

theorem admits_ne_accepted : world.admits c reportedAt ≠ .error .accepted := by
  intro h
  unfold admits at h
  split at h
  · cases h
  · split at h
    · cases h
    · split at h
      · cases h
      · split at h
        · cases h
        · split at h <;> cases h

theorem ingest_refused (ht : timestamptz c.payload.reportedAt = some reportedAt)
    (h : world.admits c reportedAt = .error result) :
    world.ingestBackupReport c = .ok (result, world) := by
  simp only [ingestBackupReport, ht, orRaise, bind, Except.bind, h]
  rfl

theorem ingest_admitted (ht : timestamptz c.payload.reportedAt = some reportedAt)
    (h : world.admits c reportedAt = .ok host) :
    world.ingestBackupReport c = reportRuns c.now world.monitor (c.rows host.id) >>= fun monitor =>
      pure (.accepted, ⟨monitor, world.requests ++
        [⟨host.id, c.now, reportedAt, c.nonce, c.bodySha256, c.payload.runs.length⟩]⟩) := by
  simp only [ingestBackupReport, ht, orRaise, bind, Except.bind, h]
  rfl

/-- The ways in which a call that commits has answered. -/
theorem ingest_eq_ok (hok : world.ingestBackupReport c = .ok (result, world')) :
    ∃ reportedAt, timestamptz c.payload.reportedAt = some reportedAt ∧
      (world.admits c reportedAt = .error result ∧ world' = world ∨
        ∃ host, world.admits c reportedAt = .ok host ∧ result = .accepted ∧
          reportRuns c.now world.monitor (c.rows host.id) = .ok world'.monitor) := by
  cases ht : timestamptz c.payload.reportedAt with
  | none =>
    simp only [ingestBackupReport, ht, orRaise] at hok
    cases hok
  | some reportedAt =>
    refine ⟨reportedAt, rfl, ?_⟩
    cases h : world.admits c reportedAt with
    | error refusal =>
      rw [ingest_refused ht h] at hok
      obtain ⟨rfl, rfl⟩ := Prod.mk.inj (Except.ok.inj hok)
      exact .inl ⟨rfl, rfl⟩
    | ok host =>
      rw [ingest_admitted ht h] at hok
      obtain ⟨monitor, hreports, hok⟩ := bind_eq_ok.1 hok
      obtain ⟨rfl, rfl⟩ := Prod.mk.inj (pure_eq_ok.1 hok)
      exact .inr ⟨host, rfl, rfl, hreports⟩

theorem reports_of_admits (hw : Held s reports world.monitor)
    (h : world.admits c reportedAt = .ok host) : s.Reports host.id host := by
  obtain ⟨hwell, hmem, hname⟩ := admits_eq_ok h
  have hhosts : world.monitor.settings.hosts = s.settings.hosts := by rw [hw.settings]
  refine ⟨hhosts ▸ hmem, rfl, ?_⟩
  simp only [IngestCall.wellFormed, serverIdOk, Bool.and_eq_true] at hwell
  have hlength := lengthBetween_iff.1 hwell.1.1.1.1.1.1.1.1
  rw [hname, lengthBetween_iff]
  omega

/-- **A call commits exactly when it agrees.** -/
theorem ingest_commits_iff (hw : Held s reports world.monitor) :
    Commits (world.ingestBackupReport c) ↔ c.Agrees world reports := by
  constructor
  · rintro ⟨⟨result, world'⟩, hok⟩
    obtain ⟨reportedAt, ht, ⟨h, -⟩ | ⟨host, h, -, hreports⟩⟩ := ingest_eq_ok hok
    · refine ⟨reportedAt, ht, fun g hg => ?_⟩
      rw [h] at hg
      cases hg
    · refine ⟨reportedAt, ht, fun g hg => ?_⟩
      obtain rfl := Except.ok.inj (h.symm.trans hg)
      have hrows := tested_rows host.id (admits_eq_ok h).1
      exact (hw.reportRuns (reports_of_admits hw h) hrows).1.1 ⟨_, hreports⟩
  · rintro ⟨reportedAt, ht, hagrees⟩
    cases h : world.admits c reportedAt with
    | error refusal => exact ⟨_, ingest_refused ht h⟩
    | ok host =>
      have hrows := tested_rows host.id (admits_eq_ok h).1
      rw [ingest_admitted ht h, commits_bind_of_forall fun _ => commits_pure _]
      exact (hw.reportRuns (reports_of_admits hw h) hrows).1.2 (hagrees host h)

theorem held_step (hw : Held s reports world.monitor) (c : IngestCall) :
    Held s (reports ++ world.taken c) (world.step c).monitor := by
  cases hok : world.ingestBackupReport c with
  | error e =>
    have htaken : world.taken c = [] := by simp only [taken, hok]
    have hstep : world.step c = world := by simp only [step, hok]
    rw [htaken, hstep, List.append_nil]
    exact hw
  | ok answer =>
    obtain ⟨result, world'⟩ := answer
    have hstep : world.step c = world' := by simp only [step, hok]
    rw [hstep]
    obtain ⟨reportedAt, ht, ⟨h, hsame⟩ | ⟨host, h, rfl, hreports⟩⟩ := ingest_eq_ok hok
    · have htaken : world.taken c = [] := by
        simp only [taken, ht, Option.map_some, h]
        split
        next hcontra => cases hcontra
        next => rfl
      rw [htaken, hsame, List.append_nil]
      exact hw
    · have htaken : world.taken c = c.rows host.id := by
        simp only [taken, hok, ht, Option.map_some, h]
      rw [htaken]
      have hrows := tested_rows host.id (admits_eq_ok h).1
      exact (hw.reportRuns (reports_of_admits hw h) hrows).2 _ hreports

theorem held_run (s : Site) (calls : List IngestCall) :
    Held s (s.start.reports calls) (s.start.run calls).monitor :=
  Runs.run_trace (P := fun reports (w : IngestWorld) => Held s reports w.monitor)
    (fun _ _ c h => held_step h c) (.start s) calls

end IngestWorld

open IngestWorld

/-- **When backup reports are merged.** After any calls, a call commits exactly when it agrees with
the reports that were accepted before (`IngestCall.Agrees`). A call that is not accepted changes
nothing. Every row adds up the accepted reports of its run, and stands under the scope that was
reported first, for which there is a policy as for every other scope that was reported; every report
has its row, and the row has the scope of the report exactly when the report repeats the first
scope. Sending the last reports of some runs again leaves all rows as they are. -/
theorem backup_reports_merge_iff (s : Site) (calls : List IngestCall) :
    let w := s.start.run calls
    let reports := s.start.reports calls
    (∀ c, Commits (w.ingestBackupReport c) ↔ c.Agrees w reports) ∧
      (∀ c result w', w.ingestBackupReport c = .ok (result, w') → result ≠ .accepted → w' = w) ∧
      (∀ row ∈ w.monitor.runs, row.Merged (earlier reports row) ∧ row.scope ∈ scopes w.monitor) ∧
      (∀ r ∈ reports, r.scope ∈ scopes w.monitor ∧ ∃ row ∈ w.monitor.runs, row.key = r.key ∧
        (∀ other ∈ w.monitor.runs, other.key = r.key → other = row) ∧
        (row.scope = r.scope ↔ ∀ first ∈ (earlier reports r).head?, first.scope = r.scope)) ∧
      ∀ c w', w.ingestBackupReport c = .ok (.accepted, w') →
        (∀ r ∈ w.taken c, (earlier reports r).getLast? = some r) →
          w'.monitor.runs = w.monitor.runs := by
  intro w reports
  have hw : Held s reports w.monitor := held_run s calls
  refine ⟨fun c => ingest_commits_iff hw, ?_, ?_, ?_, ?_⟩
  · intro c result w' hok hne
    obtain ⟨reportedAt, ht, ⟨-, hsame⟩ | ⟨host, -, haccepted, -⟩⟩ := ingest_eq_ok hok
    · exact hsame
    · exact absurd haccepted hne
  · intro row hrow
    have hmerged := hw.table.stands.row row hrow
    refine ⟨hmerged, ?_⟩
    obtain ⟨first, hfirst, hscope, -⟩ := hmerged.first
    rw [hscope]
    exact hw.policies first (List.mem_of_mem_filter (List.mem_of_head? hfirst))
  · intro r hr
    obtain ⟨row, hrow, hkey⟩ := hw.table.stands.covered r hr
    refine ⟨hw.policies r hr, row, hrow, hkey, ?_, ?_⟩
    · intro other hother hother'
      exact hw.table.stands.unique.eq hother hrow (hother'.trans hkey.symm)
    · obtain ⟨first, hfirst, hscope, -⟩ := (hw.table.stands.row row hrow).first
      rw [hkey] at hfirst
      unfold earlier
      rw [hfirst, hscope]
      simp
  · intro c w' hok hlast
    obtain ⟨reportedAt, ht, ⟨h, -⟩ | ⟨host, h, -, hreports⟩⟩ := ingest_eq_ok hok
    · exact absurd h admits_ne_accepted
    · have hrows := tested_rows host.id (admits_eq_ok h).1
      refine reportRuns_last hw (reports_of_admits hw h) hrows (fun r hr => hlast r ?_) hreports
      simp only [taken, hok, ht, Option.map_some, h]
      exact hr

end

/-! ## A run whose completion moves -/

namespace Sample

/-- Times of one morning, in microseconds. -/
def times : List (String × ℤ) :=
  [("2026-08-13T00:50:00Z", 1786582200000000), ("2026-08-13T00:55:00Z", 1786582500000000),
    ("2026-08-13T00:57:00Z", 1786582620000000), ("2026-08-13T01:00:00Z", 1786582800000000),
    ("2026-08-13T01:01:00Z", 1786582860000000), ("2026-08-13T01:02:00Z", 1786582920000000)]

/-- The readings of the texts below. -/
scoped instance : Readings where
  dateParse s := (times.lookup s).map (· / 1000)
  timestamptz s := times.lookup s
  uuid s := if s = "018f6d0e-8f3f-4f2b-9c2c-2d705ba13d7d" then
    some ⟨0x018f6d0e8f3f4f2b9c2c2d705ba13d7d⟩ else none

def host : MonitoredHost := ⟨⟨⟨1⟩, "oci-minecraft-01", true⟩, "OCI"⟩

def site : Site := ⟨⟨[host], [], [], [], []⟩, 1, by decide, by decide⟩

/-- A world backup that succeeded, as its agent reports it. -/
def backup (completedAt : String) (remoteSyncedAt : Option String) (seconds : ℤ) :
    BackupRunReport where
  runId := "018f6d0e-8f3f-4f2b-9c2c-2d705ba13d7d"
  backupTarget := "mc-main"
  gameMode := "survival"
  backupType := "world"
  destinationType := "s3"
  startedAt := "2026-08-13T00:50:00Z"
  completedAt := some completedAt
  outcome := "success"
  durationSeconds := some seconds
  sizeBytes := none
  sha256Verified := none
  remoteSyncedAt := remoteSyncedAt
  restoreTestedAt := none
  retentionExpiresAt := none
  failureCode := none

/-- The run has completed at 01:00. -/
def completed : IngestCall where
  now := 1786582860000000
  payload := ⟨"oci-minecraft-01", "2026-08-13T01:01:00Z", [backup "2026-08-13T01:00:00Z" none 600]⟩
  nonce := "00000000000000000000000000000001"
  bodySha256 := "0000000000000000000000000000000000000000000000000000000000000001"
  representable := by decide

/-- A minute later it is said to have completed at 00:55, and to have been copied at 00:57. -/
def corrected : IngestCall where
  now := 1786582920000000
  payload := ⟨"oci-minecraft-01", "2026-08-13T01:02:00Z",
    [backup "2026-08-13T00:55:00Z" (some "2026-08-13T00:57:00Z") 300]⟩
  nonce := "00000000000000000000000000000002"
  bodySha256 := "0000000000000000000000000000000000000000000000000000000000000002"
  representable := by decide

end Sample

open Sample in
/-- **An accepted report can raise.** Both requests are accepted by the route, each run by itself is
valid, and the second breaks a constraint against the completion of the first. -/
theorem corrected_completion_raises :
    (∀ c ∈ [completed, corrected], c.payload.accepted (c.now / 1000) = true) ∧
      (((site.start.run [completed]).ingestBackupReport corrected).map fun _ => ()) =
        .error (.checkViolation "backup_runs_remote_sync_order_check") := by
  decide +kernel

end IvrmDashboard.Backups

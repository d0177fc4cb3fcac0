import Mathlib.Data.Finset.Max
import IvrmDashboard.Notifications.Announced

/-!
# What a claim owes to the active signals

The announcement of an active signal can be suppressed for a dozen reasons. Only four of them are
for good, and of these only the de-escalation leaves the signal active (`Board.Announcing`): a
recovery ends the episode, a retirement deletes the signal, and a recovered row announces nothing.
So when a claim finds that nothing suppresses the signal any longer, there is an announcement to
put back, and the latest one is put back (`active_signals_announced`).
-/

namespace IvrmDashboard.Notifications

open Sql Operations

variable {K : Premises} {e : Env} {b b' : Board} {r r' : OutboxRow}

/-! ## Suppressions that are for good -/

/-- The permanent reasons that go with the end of an episode. -/
def endReasons : List String :=
  ["signal_recovered_before_delivery", "backup_policy_disabled", "superseded_by_new_incident"]

/-- The row is not suppressed on account of the end of an episode. -/
def OutboxRow.Kept (r : OutboxRow) : Prop :=
  r.status = .suppressed → ∃ reason ∉ endReasons, r.suppressionReason = some reason

/-- No operator gives one of these reasons. -/
def Settings.Distinct (s : Settings) : Prop := ∀ p ∈ s.suppressions, p.reason ∉ endReasons

theorem suppressionReason_notMem {s : Settings} (hs : s.Distinct) {now : ℤ} {x : Subject}
    {t : Timestamptz} {reason : String} (h : s.suppressionReason now x t = some reason) :
    reason ∉ endReasons := by
  have hfixed : ∀ c ∈ ["channel_disabled", "channel_unconfigured", "backup_age_paused",
      "container_maintenance"], c ∉ endReasons := by decide
  have hexplicit : s.explicitSuppression x t = some reason → reason ∉ endReasons := by
    intro hx
    obtain ⟨p, hp, rfl⟩ := Option.map_eq_some_iff.1 hx
    exact hs p (List.mem_filter.1 (mem_of_firstBy hp)).1
  unfold Settings.suppressionReason at h
  repeat' split at h
  all_goals first
    | exact hexplicit h
    | (obtain rfl := Option.some.inj h
       exact hfixed _ (by simp))

/-- What is known of the calls: an opening finds its key free or taken by an announcement of the
same episode that is kept, and nobody suppresses an announcement on account of the end of its
episode. -/
def lossPremises : Premises :=
  { Premises.any with
    settings := Settings.Distinct
    opens := fun o r => r.signalKey = some o.signalKey ∧ r.transition.announces = true ∧
      o.occurredAt ≤ r.occurredAt ∧ r.Kept
    suppress := fun _ r reason => r.transition.announces = true → reason ∉ endReasons }

/-! ## Active signals have an announcement -/

/-- Every active signal has an announcement of its episode that is kept. -/
def Board.Announcing (b : Board) : Prop :=
  ∀ s ∈ b.signals, s.active = true → ∃ r ∈ b.outbox, r.Of s ∧ r.Kept

theorem OutboxRow.Of.congr {s : Signal} (h : r.Of s) (hnotice : r'.toNotice = r.toNotice) :
    r'.Of s where
  key := (signalKey_eq_of_toNotice hnotice).trans h.key
  announces := by rw [transition_eq_of_toNotice hnotice, h.announces]
  opened := by rw [occurredAt_eq_of_toNotice hnotice]; exact h.opened

theorem OutboxRow.Of.current {s : Signal} (h : r.Of s) (hs : b.signal? s.signalKey = some s)
    (hactive : s.active = true) : b.current r = true :=
  current_iff.2 ⟨s.signalKey, s, h.key, hs, hactive, h.opened⟩

theorem kept_suppress {reason : String} (h : reason ∉ endReasons) : (r.suppress reason).Kept :=
  fun _ => ⟨reason, h, rfl⟩

theorem kept_of_ne (h : r.status ≠ .suppressed) : r.Kept := fun hs => absurd hs h

/-- A move of a current announcement keeps it. -/
theorem RowMove.kept (hset : e.settings.Distinct) (hcur : b.current r = true)
    (ha : r.transition.announces = true) (h : RowMove lossPremises e b r r') : r'.Kept := by
  have hoff : ∀ reason ∈ ["channel_unconfigured", "channel_disabled"], reason ∉ endReasons := by
    decide
  cases h with
  | expire hout => exact kept_of_ne nofun
  | withdraw h =>
    apply kept_suppress
    cases h with
    | blocked hw hreason => exact suppressionReason_notMem hset hreason
    | ended hw ha hc =>
      rw [hcur] at hc
      cases hc
    | unannounced _ hw ht =>
      rw [ht] at ha
      cases ha
    | gate _ hs hk => exact hk ha
    | channelOff _ hu hreason => exact hoff _ hreason
  | release hready hlatest hfree hk => exact kept_of_ne nofun
  | claim token hready hclaim hcur => exact kept_of_ne nofun
  | deliver p hs hk => exact kept_of_ne nofun
  | fail p hs =>
    apply kept_of_ne
    change r.failedStatus ≠ .suppressed
    unfold OutboxRow.failedStatus
    split <;> nofun

namespace Board.Announcing

theorem empty : Board.empty.Announcing := fun _ h => absurd h List.not_mem_nil

theorem rows {f : OutboxRow → OutboxRow} (hwf : b.Wf) (hset : e.settings.Distinct)
    (h : b.Announcing) (hf : ∀ r ∈ b.outbox, RowStep lossPremises e b r (f r)) :
    (b.mapRows f).Announcing := by
  intro s hs hactive
  obtain ⟨r, hr, hof, hkept⟩ := h s hs hactive
  refine ⟨f r, List.mem_map_of_mem hr, hof.congr (hf r hr).frame.2, ?_⟩
  rcases hf r hr with hfr | ⟨hmove, -⟩
  · rw [hfr]
    exact hkept
  · exact hmove.kept hset (hof.current (hwf.signal?_of_mem hs) hactive) hof.announces

/-- Rows are suppressed that are of other signals, or for another reason. -/
theorem suppressRows {p : OutboxRow → Bool} {reason : String} (h : b.Announcing)
    (hp : reason ∉ endReasons ∨ ∀ s ∈ b.signals, s.active = true → ∀ r, r.Of s → p r = false) :
    (b.suppressRows p reason).Announcing := by
  intro s hs hactive
  obtain ⟨r, hr, hof, hkept⟩ := h s hs hactive
  refine ⟨_, List.mem_map_of_mem hr, hof.congr (suppress_frame p reason r).2, ?_⟩
  rcases hp with hreason | hother
  · split
    · exact kept_suppress hreason
    · exact hkept
  · rw [if_neg (by rw [hother s hs hactive r hof]; nofun)]
    exact hkept

/-- A signal is written: an active one has its announcement already. -/
theorem write {s : Signal} (h : b.Announcing)
    (hs : s.active = true → ∃ r ∈ b.outbox, r.Of s ∧ r.Kept) : (b.write s).Announcing := by
  intro t ht hactive
  rcases mem_write_signals ht with rfl | ⟨ht, -⟩
  · exact hs hactive
  · exact h t ht hactive

theorem filter (h : b.Announcing) (p : Signal → Bool) :
    Board.Announcing { b with signals := b.signals.filter p } :=
  fun s hs => h s (List.mem_filter.1 hs).1

theorem inserted {n : Notice} (h : b.Announcing) (hins : Inserted e n b b') : b'.Announcing := by
  cases hins with
  | swallowed => exact h
  | fresh =>
    intro s hs hactive
    obtain ⟨r, hr, hrow⟩ := h s hs hactive
    exact ⟨r, List.mem_append_left _ hr, hrow⟩

end Board.Announcing

/-- Signals and rows are written apart. -/
theorem Inserted.unwrite {n : Notice} {s : Signal} (h : Inserted e n (b.write s) b') :
    ∃ b₁, Inserted e n b b₁ ∧ b' = b₁.write s := by
  cases h with
  | fresh key hkey hnew hchecked => exact ⟨_, .fresh key hkey hnew hchecked, rfl⟩
  | swallowed key hkey r hr hrkey => exact ⟨_, .swallowed key hkey r hr hrkey, rfl⟩

theorem newRow_kept {n : Notice} {key : String} {id : ℕ} (hset : e.settings.Distinct) :
    (n.newRow e key id).Kept := by
  intro hs
  cases hreason : e.settings.suppressionReason e.now (n.subject key) n.occurredAt with
  | none =>
    unfold Notice.newRow at hs
    rw [hreason] at hs
    cases hs
  | some reason => exact ⟨reason, suppressionReason_notMem hset hreason, hreason⟩

namespace Board.Announcing

/-- A signal opens: its announcement is inserted, or it is there. -/
theorem opened {o : Observation} {s : Signal} {severity : Severity} (h : b.Announcing)
    (hset : e.settings.Distinct) (hopens : b.opens o = true) (hk : lossPremises.Opens o b)
    (hkey : s.signalKey = o.signalKey) (ht : s.openedAt = o.occurredAt)
    (hins : Inserted e (o.notice .opened severity) (b.write s) b') : b'.Announcing := by
  obtain ⟨b₁, hinserted, rfl⟩ := hins.unwrite
  apply (h.inserted hinserted).write
  intro hactive
  cases hinserted with
  | fresh key hdedupe hnew hchecked =>
    refine ⟨_, List.mem_append_right _ (List.mem_singleton_self _), ⟨?_, rfl, ?_⟩, newRow_kept hset⟩
    · rw [hkey]
      rfl
    · rw [ht]
      exact le_refl o.occurredAt
  | swallowed key hdedupe r hr hrkey =>
    obtain ⟨hrk, hra, hle, hkept⟩ := hk hopens r hr (by rw [hrkey]; exact hdedupe)
    refine ⟨r, hr, ⟨?_, hra, ?_⟩, hkept⟩
    · rw [hkey, hrk]
    · rw [ht]
      exact hle

/-- A signal is written that has the same episode. -/
theorem write_seen {s s' : Signal} (h : b.Announcing) (hs : b.signal? s'.signalKey = some s)
    (hactive : s.active = true) (hopened : s'.openedAt = s.openedAt) : (b.write s').Announcing := by
  apply h.write
  intro _
  obtain ⟨hmem, hkey⟩ := Board.signal?_eq_some hs
  obtain ⟨r, hr, hof, hkept⟩ := h s hmem hactive
  refine ⟨r, hr, ⟨?_, hof.announces, ?_⟩, hkept⟩
  · rw [← hkey, hof.key]
  · rw [hopened]
    exact hof.opened

theorem report {o : Observation} {res : SignalResult} (hset : e.settings.Distinct)
    (h : b.Announcing) (happ : Applied lossPremises e o b res b') : b'.Announcing := by
  have hkeyOf : ∀ s, b.signal? o.signalKey = some s → s.signalKey = o.signalKey :=
    fun s hs => (Board.signal?_eq_some hs).2
  cases happ with
  | absent => exact h
  | stale => exact h
  | inactive => exact h
  | @opened level _ hs ha hk hins =>
    have hopens : b.opens o = true := by
      unfold Board.opens
      rw [ha, hs]
      rfl
    exact h.opened (s := o.opening level) hset hopens hk rfl rfl hins
  | @reopened s level re _ hs hseen ha hactive hk hins =>
    have hopens : b.opens o = true := by
      unfold Board.opens
      rw [ha, hs, Option.all_some, hactive, decide_eq_true hseen]
      rfl
    have hopened : (s.reopen o level re).openedAt = o.occurredAt := by
      cases re <;> rfl
    exact h.opened hset hopens hk (reopen_signalKey s o level re (hkeyOf s hs)) hopened hins
  | @seen s hs hseen ha hactive =>
    have hs' : b.signal? (s.see o s.severity).signalKey = some s := by
      rw [show (s.see o s.severity).signalKey = s.signalKey from rfl, hkeyOf s hs, hs]
    exact h.write_seen hs' hactive rfl
  | @escalated s level _ hs hseen ha hactive hrank hins =>
    have hs' : b.signal? (s.see o level).signalKey = some s := by
      rw [show (s.see o level).signalKey = s.signalKey from rfl, hkeyOf s hs, hs]
    exact (h.write_seen hs' hactive rfl).inserted hins
  | @deescalated s level hs hseen ha hactive hrank hchecked =>
    have hs' : b.signal? (s.see o level).signalKey = some s := by
      rw [show (s.see o level).signalKey = s.signalKey from rfl, hkeyOf s hs, hs]
    have hsuppress : (b.suppressRows (OutboxRow.undeliveredCritical o.signalKey s.openedAt)
        "signal_deescalated_before_delivery").Announcing := h.suppressRows (.inl (by decide))
    exact hsuppress.write_seen hs' hactive rfl
  | @recovered s _ hs hseen ha hactive hchecked hins =>
    refine Board.Announcing.inserted ?_ hins
    have hwrite : (b.write (s.recover o)).Announcing := h.write fun hrec => by cases hrec
    -- the rows taken out are of the signal that is closed
    refine hwrite.suppressRows (.inr fun t ht hactive r hof => ?_)
    rcases mem_write_signals ht with rfl | ⟨-, hne⟩
    · cases hactive
    · have hkey : t.signalKey ≠ o.signalKey := by
        rw [← hkeyOf s hs]
        exact hne
      simp [OutboxRow.unannounced, hof.key, hkey]

/-- A retirement takes the signals with the rows, or gives a reason that does not last. -/
theorem retired (h : b.Announcing) (hret : Retired e b b') : b'.Announcing := by
  cases hret with
  | policy p hchecked =>
    have hfilter := h.filter (·.signalKey ∉ policySignalKeys p)
    refine hfilter.suppressRows (.inr fun s hs _ r hof => ?_)
    have hkey : s.signalKey ∉ policySignalKeys p :=
      of_decide_eq_true (List.mem_filter.1 hs).2
    simp [OutboxRow.ofPolicy, hof.key, hkey]
  | host hostId hchecked => exact (h.suppressRows (.inl (by decide))).filter _
  | @target s hs hactive hchecked =>
    have hsuppress : (b.suppressRows (OutboxRow.ofTarget s.signalKey)
        "cloud_target_disabled").Announcing := h.suppressRows (.inl (by decide))
    exact hsuppress.write fun hclose => by cases hclose
  | idleTarget k hk hchecked => exact h.suppressRows (.inl (by decide))

theorem change (hwf : b.Wf) (hset : e.settings.Distinct) (h : b.Announcing)
    (hchange : Change lossPremises e b b') : b'.Announcing := by
  cases hchange with
  | rows f hf hway => exact h.rows hwf hset hf
  | report hk happ => exact h.report hset happ
  | event hn hins => exact h.inserted hins
  | retire hk hret => exact h.retired hret

theorem changes (hwf : b.Wf) (hset : e.settings.Distinct) (h : b.Announcing)
    (hchanges : Changes lossPremises e b b') : b'.Announcing := by
  induction hchanges with
  | refl => exact h
  | tail hpre hlast ih => exact ih.change (Changes.wf hpre hwf) hset hlast

end Board.Announcing

/-! ## What a claim puts back -/

/-- The name of the entity counts for containers only. -/
theorem suppressionReason_congr {s : Settings} {now : ℤ} {x y : Subject} {t : Timestamptz}
    (hhost : x.hostId = y.hostId) (htype : x.entityType = y.entityType)
    (hentity : x.entityKey = y.entityKey) (hkey : x.signalKey = y.signalKey)
    (hname : x.entityType = .container → x.entityName = y.entityName) :
    s.suppressionReason now x t = s.suppressionReason now y t := by
  have hpaused : s.backupAgePaused now x = s.backupAgePaused now y := by
    unfold Settings.backupAgePaused
    rw [hhost, htype, hentity, hkey]
  have hexplicit : s.explicitSuppression x t = s.explicitSuppression y t := by
    unfold Settings.explicitSuppression Suppression.concerns
    rw [hhost, htype, hentity, hkey]
  have hmaintenance : s.containerMaintenance now x = s.containerMaintenance now y := by
    unfold Settings.containerMaintenance
    by_cases hc : x.entityType = .container
    · rw [hhost, ← htype, hname hc]
    · rw [← htype, decide_eq_false hc, Bool.false_and, Bool.false_and]
  unfold Settings.suppressionReason
  rw [hpaused, hexplicit, hmaintenance]

/-- What suppresses the announcement is what suppresses the signal. -/
theorem blockReason_eq {s : Signal} (hnamed : b.Named Identity.footprint footprintOf)
    (hs : s ∈ b.signals) (hr : r ∈ b.outbox) (hof : r.Of s) :
    r.blockReason e = e.settings.suppressionReason e.now s.subject e.at := by
  have hfoot : r.identity.footprint = s.identity.footprint := by
    rw [hnamed.rows r hr _ hof.key, hnamed.signals s hs]
  have hname := congrArg Footprint.containerName hfoot
  have htype : r.identity.entityType = s.identity.entityType := congrArg Footprint.entityType hfoot
  apply suppressionReason_congr
  · exact congrArg Footprint.hostId hfoot
  · exact htype
  · exact congrArg Footprint.entityKey hfoot
  · change r.signalKey.getD r.dedupeKey = s.signalKey
    rw [hof.key]
    rfl
  · intro hc
    have hr' : r.identity.entityType = .container := hc
    unfold Identity.footprint at hname
    simp only [← htype, hr', ite_true, Option.some.injEq] at hname
    exact hname

/-- Among the announcements that could be put back there is a latest one. -/
theorem exists_latestSuppressed (hr : r ∈ b.outbox) (h : b.revivable r = true) :
    ∃ d ∈ b.outbox, b.latestSuppressed d = true ∧ d.signalKey = r.signalKey := by
  let candidates := (b.outbox.filter fun d => b.revivable d && d.signalKey = r.signalKey).toFinset
  have hmem : ∀ d, d ∈ candidates ↔
      d ∈ b.outbox ∧ b.revivable d = true ∧ d.signalKey = r.signalKey := by
    intro d
    simp [candidates]
  obtain ⟨d, hd, hmax⟩ := candidates.exists_max_image outboxLines.place
    ⟨r, (hmem r).2 ⟨hr, h, rfl⟩⟩
  obtain ⟨hdb, hrev, hkey⟩ := (hmem d).1 hd
  refine ⟨d, hdb, ?_, hkey⟩
  unfold Board.latestSuppressed
  rw [hrev, Bool.true_and, List.all_eq_true]
  intro d' hd'
  rw [Bool.not_eq_true', Bool.and_eq_false_iff]
  by_cases hcand : b.revivable d' = true ∧ d'.signalKey = d.signalKey
  · right
    apply Bool.eq_false_iff.2
    intro hbefore
    have hle := hmax d' ((hmem d').2 ⟨hd', hcand.1, hcand.2.trans hkey⟩)
    exact absurd (precedes_iff.1 hbefore) (not_lt.2 hle)
  · left
    simpa using hcand

/-- The row is not suppressed, or it was on account of a de-escalation. -/
def OutboxRow.Live (r : OutboxRow) : Prop :=
  r.status ≠ .suppressed ∨ r.suppressionReason = some "signal_deescalated_before_delivery"

/-- There is a live announcement of the episode of the signal. -/
def Board.Owes (b : Board) (s : Signal) : Prop := ∃ r ∈ b.outbox, r.Of s ∧ r.Live

/-- An update that puts the rows it concerns into the queue leaves the live ones live. -/
theorem Board.Owes.update {s : Signal} {p : OutboxRow → Bool} {f : OutboxRow → OutboxRow}
    (h : b.Owes s) (hf : ∀ r, (f r).status ≠ .suppressed ∧ (f r).toNotice = r.toNotice)
    (hupdate : b.updateOutbox p f = .ok b') : b'.Owes s := by
  obtain ⟨r, hr, hof, hlive⟩ := h
  obtain ⟨-, rfl⟩ := Board.updateOutbox_eq_ok hupdate
  refine ⟨_, List.mem_map_of_mem hr, ?_⟩
  split
  · exact ⟨hof.congr (hf r).2, .inl (hf r).1⟩
  · exact ⟨hof, hlive⟩

/-- The release puts an announcement back if there is one to put back. -/
theorem owes_of_release {s : Signal} (hwf : b.Wf) (hb : b.Announcing)
    (hnamed : b.Named Identity.footprint footprintOf) (hs : s ∈ b.signals)
    (hactive : s.active = true)
    (hfree : e.settings.suppressionReason e.now s.subject e.at = none)
    (h : releaseSuppressed e b = .ok b') : b'.Owes s := by
  have hput : ∀ r : OutboxRow, (r.release e.now).status ≠ .suppressed ∧
      (r.release e.now).toNotice = r.toNotice := fun r => ⟨nofun, rfl⟩
  obtain ⟨r, hr, hof, hkept⟩ := hb s hs hactive
  by_cases hlive : r.Live
  · exact Board.Owes.update ⟨r, hr, hof, hlive⟩ hput h
  · -- the row is suppressed, and not for good
    have hsuppressed : r.status = .suppressed := by
      by_contra hne
      exact hlive (.inl hne)
    obtain ⟨reason, hend, hreason⟩ := hkept hsuppressed
    have hpermanent : reason ∉ permanentReasons := by
      intro hin
      have hcases : reason ∈ endReasons ∨ reason = "signal_deescalated_before_delivery" := by
        simp only [permanentReasons, endReasons, List.mem_cons, List.not_mem_nil, or_false] at hin ⊢
        tauto
      rcases hcases with hin | rfl
      · exact hend hin
      · exact hlive (.inr hreason)
    have hsignal := hwf.signal?_of_mem hs
    have hrev : b.revivable r = true := by
      unfold Board.revivable
      rw [hsuppressed, hof.announces, hof.current hsignal hactive, hreason, Option.any_some,
        decide_eq_true hpermanent]
      rfl
    obtain ⟨d, hd, hlatest, hkey⟩ := exists_latestSuppressed hr hrev
    have hdof : d.Of s := by
      have hdrev := latestSuppressed_revivable hlatest
      unfold Board.revivable at hdrev
      simp only [Bool.and_eq_true] at hdrev
      obtain ⟨k, t, hk, ht, -, hopened⟩ := current_iff.1 hdrev.1.2
      obtain rfl : k = s.signalKey := Option.some.inj (hk.symm.trans (hkey.trans hof.key))
      rw [hsignal, Option.some.injEq] at ht
      exact ⟨hk, hdrev.1.1.2, by rw [ht]; exact hopened⟩
    have hblock : d.blockReason e = none := by rw [blockReason_eq hnamed hs hd hdof, hfree]
    obtain ⟨-, rfl⟩ := Board.updateOutbox_eq_ok h
    refine ⟨_, List.mem_map_of_mem hd, ?_⟩
    rw [if_pos (by rw [hlatest, hblock]; rfl)]
    exact ⟨hdof.congr rfl, .inl nofun⟩

theorem owes_of_claim {s : Signal} {token : Option Uuid} {limit : Option ℤ} {rows : List OutboxRow}
    (hwf : b.Wf) (hb : b.Announcing) (hset : e.settings.Distinct)
    (hnamed : b.Named Identity.footprint footprintOf) (hready : e.settings.channelReady = true)
    (h : claimNotificationOutbox e b token limit = .ok (rows, b')) (hs : s ∈ b'.signals)
    (hactive : s.active = true)
    (hfree : e.settings.suppressionReason e.now s.subject e.at = none) : b'.Owes s := by
  rcases claimNotificationOutbox_eq_ok h with ⟨hno, -⟩ | ⟨-, t, n, b₁, b₂, -, h₁, h₂, h₃⟩
  · rw [hready] at hno
    cases hno
  · obtain ⟨hchanges, -, -⟩ := prepareRelease_eq_ok (K := lossPremises) h₁
    obtain ⟨hsilent, hsignals, -⟩ := prepareRelease_eq_ok (K := .silent) h₁
    have hnamed₁ : b₁.Named Identity.footprint footprintOf := hsilent.named (fun _ h => h.elim) hnamed
    rw [signals_of_updateOutbox h₃, signals_of_updateOutbox h₂] at hs
    have howes : b₂.Owes s := owes_of_release (hchanges.wf hwf) (hb.changes hwf hset hchanges)
      hnamed₁ hs hactive hfree h₂
    have htake : ∀ r : OutboxRow, (r.claim t e.now).status ≠ .suppressed ∧
        (r.claim t e.now).toNotice = r.toNotice := fun r => ⟨nofun, rfl⟩
    exact howes.update htake h₃

/-! ## Runs -/

namespace World

/-- The suppressions change only when operators replace them. -/
theorem suppressions_apply {w w' : World} {c : Call} (h : w.apply c = .ok w') :
    w'.settings.suppressions = w.settings.suppressions ∨
      ∃ m, c.request = .maintain m ∧ w'.settings.suppressions = m.suppressions := by
  have hstep := settingsStep_apply h
  generalize c.request = request at hstep ⊢
  generalize w'.settings = s' at hstep ⊢
  cases hstep with
  | same => exact .inl rfl
  | @maintained m _ hm => exact .inr ⟨m, rfl, (Settings.maintain_eq_ok hm).2.2⟩
  | host => exact .inl rfl
  | switched => exact .inl rfl
  | added hadd =>
    obtain ⟨-, rfl⟩ := Settings.addChannel_eq_ok hadd
    exact .inl rfl

/-- The runs the result is about. -/
structure Orderly (calls : List Call) : Prop where
  /-- An opening finds its key free, or taken by an announcement of the episode that is kept. -/
  openings : ∀ front c back, calls = front ++ c :: back → ∀ o, c.request.Reports o →
    lossPremises.Opens o (initial.run front).board
  /-- No operator gives one of the reasons that go with the end of an episode. -/
  operators : ∀ c ∈ calls, ∀ m, c.request = .maintain m → ∀ p ∈ m.suppressions,
    p.reason ∉ endReasons
  /-- A dispatcher gives one of them only when the gate has. -/
  dispatchers : ∀ front c back, calls = front ++ c :: back → ∀ i t reason,
    c.request = .suppress (some i) (some t) (some reason) → reason ∈ endReasons →
    ∃ f g rest, front = f ++ g :: rest ∧ g.request = .gate (some i) (some t) ∧
      notificationDeliveryBlockReason ((initial.run f).env g.now) (some i) (some t)
        (initial.run f).board = some reason

theorem Orderly.append_left {front back : List Call} (h : Orderly (front ++ back)) :
    Orderly front where
  openings f c rest hsplit := h.openings f c (rest ++ back) (by rw [hsplit]; simp)
  operators c hc := h.operators c (List.mem_append_left _ hc)
  dispatchers f c rest hsplit := h.dispatchers f c (rest ++ back) (by rw [hsplit]; simp)

theorem distinct_run {calls : List Call} (h : Orderly calls) :
    (initial.run calls).settings.Distinct := by
  apply Runs.run_invariant_of (P := fun w : World => w.settings.Distinct)
    (Q := fun _ c => ∀ m, c.request = .maintain m → ∀ p ∈ m.suppressions, p.reason ∉ endReasons)
  · intro w c hw hc
    rcases step_eq (w := w) (c := c) with hsame | happly
    · rw [hsame]
      exact hw
    · unfold Settings.Distinct
      rcases suppressions_apply happly with hold | ⟨m, hm, hnew⟩
      · rw [hold]
        exact hw
      · rw [hnew]
        exact hc m hm
  · intro front c back hsplit
    exact h.operators c (by rw [hsplit]; simp)
  · exact fun _ hp => absurd hp List.not_mem_nil

/-- The signal of an announcement does not block it: it is of the present episode. -/
theorem not_announces_of_signalBlock {b : Board} {reason : String} (hb : b.Current)
    (hr : r ∈ b.outbox) (hu : r.status.undelivered = true) (h : b.signalBlock r = some reason) :
    r.transition.announces = false := by
  by_contra hne
  have ha : r.transition.announces = true := Bool.not_eq_false _ ▸ hne
  unfold Board.signalBlock at h
  cases hk : r.signalKey with
  | none =>
    rw [hk] at h
    cases h
  | some k =>
    obtain ⟨s, hs, hactive, hopened⟩ := hb r hr hu ha k hk
    simp [hk, ha, hs, hactive, not_lt.2 hopened] at h

/-- The gate gives one of the reasons for a recovery only. -/
theorem not_announces_of_gate {calls : List Call} {g : Call} {i : ℤ} {t : Uuid} {reason : String}
    (hreported : Reported calls) (hset : (initial.run calls).settings.Distinct)
    (hend : reason ∈ endReasons)
    (h : notificationDeliveryBlockReason ((initial.run calls).env g.now) (some i) (some t)
      (initial.run calls).board = some reason) :
    ∃ d ∈ (initial.run calls).board.outbox, d.heldBy i t = true ∧ d.transition.announces = false := by
  unfold notificationDeliveryBlockReason at h
  split at h
  next i' t' hi ht =>
    obtain ⟨hi, -⟩ := Option.filter_eq_some_iff.1 hi
    cases hi
    cases ht
    split at h
    · cases h
      simp [endReasons] at hend
    next d hheld =>
      obtain ⟨hd, hheldBy⟩ := held?_eq_some hheld
      refine ⟨d, hd, hheldBy, ?_⟩
      split at h
      · cases h
        simp [endReasons] at hend
      · rcases Option.or_eq_some_iff.1 h with hblock | ⟨-, hblock⟩
        · exact absurd hend (suppressionReason_notMem hset hblock)
        · have hu : d.status.undelivered = true := by
            rw [(heldBy_iff.1 hheldBy).2.1]
            rfl
          exact not_announces_of_signalBlock (current_run hreported.hostsNamed).2 hd hu hblock
  · cases h
    simp [endReasons] at hend

theorem meets_loss {calls : List Call} (hreported : Reported calls) (h : Orderly calls) :
    initial.Meets lossPremises calls := by
  intro front c back hsplit
  have hfront : Orderly front := by
    rw [hsplit] at h
    exact h.append_left
  constructor
  · exact distinct_run hfront
  · exact fun _ _ => trivial
  · exact h.openings front c back hsplit
  · exact fun _ _ _ _ _ _ _ _ _ => trivial
  · intro i t reason hc r hr hheld ha hend
    obtain ⟨f, g, rest, hsplit', -, hgate⟩ := h.dispatchers front c back hsplit i t reason hc hend
    have hf : Reported f ∧ Orderly f := by
      rw [hsplit, hsplit', List.append_assoc] at hreported
      rw [hsplit'] at hfront
      exact ⟨hreported.append_left, hfront.append_left⟩
    obtain ⟨d, hd, hdheld, hdt⟩ := not_announces_of_gate hf.1 (distinct_run hf.2) hend hgate
    -- the row the gate has looked at is the row that is suppressed
    have hid : r.id = d.id := by
      have hrid := (heldBy_iff.1 hheld).1
      have hdid := (heldBy_iff.1 hdheld).1
      omega
    rw [hsplit', run_append] at hr
    have hnotice := toNotice_run (wf_run f Board.Wf.empty) hd hr hid
    rw [transition_eq_of_toNotice hnotice, hdt] at ha
    cases ha
  · exact fun _ _ _ _ _ _ _ _ => trivial
  · exact fun _ => trivial
  · exact fun _ _ _ => trivial

end World

/-- In an orderly run, after a claim that has found the channel ready every active signal that
nothing suppresses has an announcement of its present episode that is not suppressed, unless it was
suppressed on account of a de-escalation. -/
theorem active_signals_announced (calls : List Call) (hreported : Reported calls)
    (horderly : World.Orderly calls) (now : ℤ) (token : Option Uuid) (limit : Option ℤ)
    (rows : List OutboxRow) (b' : Board)
    (hready : (World.initial.run calls).settings.channelReady = true)
    (hclaim : claimNotificationOutbox ((World.initial.run calls).env now)
      (World.initial.run calls).board token limit = .ok (rows, b'))
    (s : Signal) (hs : s ∈ b'.signals) (hactive : s.active = true)
    (hfree : (World.initial.run calls).settings.suppressionReason now s.subject
      (.ofInstant now) = none) :
    ∃ r ∈ b'.outbox, r.signalKey = some s.signalKey ∧ r.transition.announces = true ∧
      s.openedAt ≤ r.occurredAt ∧ (r.status ≠ .suppressed ∨
        r.suppressionReason = some "signal_deescalated_before_delivery") := by
  have hwf : (World.initial.run calls).board.Wf := World.wf_run calls Board.Wf.empty
  have hannouncing : (World.initial.run calls).board.Announcing := by
    apply World.run_changes (K := lossPremises)
    · exact fun _ _ _ hset hwf hP hchange => hP.change hwf hset hchange
    · exact World.meets_loss hreported horderly
    · exact Board.Wf.empty
    · exact Board.Announcing.empty
  have hnamed := World.named_run hreported.keysNamed
  obtain ⟨r, hr, hof, hlive⟩ := owes_of_claim hwf hannouncing (World.distinct_run horderly) hnamed
    hready hclaim hs hactive hfree
  exact ⟨r, hr, hof.key, hof.announces, hof.opened, hlive⟩

/-- The heartbeat of the host is missed. -/
def missedHeartbeat : List Call := sampleStart ++ [⟨10 * second, sampleReport true "warning" 10⟩]

/-- What a claim leaves. -/
def claimedBoard (calls : List Call) (now : ℤ) : Except DbError (List OutboxRow × Board) :=
  claimNotificationOutbox ((World.initial.run calls).env now) (World.initial.run calls).board
    (some ⟨1⟩) (some 10)

/-- A claim has left an active signal that nothing suppresses. -/
def leavesActive (calls : List Call) (now : ℤ) : Bool :=
  (claimedBoard calls now).toOption.any fun x => x.2.signals.any fun s => s.active &&
    ((World.initial.run calls).settings.suppressionReason now s.subject (.ofInstant now)).isNone

theorem missedHeartbeat_announced :
    ∃ rows b', claimedBoard missedHeartbeat (40 * second) = .ok (rows, b') ∧
      ∃ s ∈ b'.signals, s.active = true ∧ ∃ r ∈ b'.outbox, r.signalKey = some s.signalKey ∧
        r.transition.announces = true ∧ s.openedAt ≤ r.occurredAt ∧ (r.status ≠ .suppressed ∨
          r.suppressionReason = some "signal_deescalated_before_delivery") := by
  have hleaves : leavesActive missedHeartbeat (40 * second) = true := by decide +kernel
  unfold leavesActive at hleaves
  cases hclaim : claimedBoard missedHeartbeat (40 * second) with
  | error err =>
    rw [hclaim] at hleaves
    cases hleaves
  | ok x =>
    obtain ⟨rows, b'⟩ := x
    rw [hclaim] at hleaves
    obtain ⟨s, hs, hfree⟩ := List.any_eq_true.1 hleaves
    rw [Bool.and_eq_true, Option.isNone_iff_eq_none] at hfree
    refine ⟨rows, b', rfl, s, hs, hfree.1, ?_⟩
    refine active_signals_announced missedHeartbeat ?_ ?_ (40 * second) (some ⟨1⟩) (some 10) rows b'
      (by decide) hclaim s hs hfree.1 hfree.2
    · intro c hc o ho
      simp only [missedHeartbeat, sampleStart, List.cons_append, List.nil_append, List.mem_cons,
        List.not_mem_nil, or_false] at hc
      obtain rfl | rfl | rfl := hc
      case inr.inr => exact ⟨_, about_sampleReport ho⟩
      all_goals cases ho
    · constructor
      · refine Runs.forall_split_cons ?_ (Runs.forall_split_cons ?_ (Runs.forall_split_cons ?_
          Runs.forall_split_nil))
        -- the outbox is empty
        all_goals exact fun _ _ _ r hr => absurd hr List.not_mem_nil
      · intro c hc m hm
        simp only [missedHeartbeat, sampleStart, List.cons_append, List.nil_append, List.mem_cons,
          List.not_mem_nil, or_false] at hc
        obtain rfl | rfl | rfl := hc <;> cases hm
      · refine Runs.forall_split_cons ?_ (Runs.forall_split_cons ?_ (Runs.forall_split_cons ?_
          Runs.forall_split_nil))
        all_goals
          intro i t reason hc
          cases hc

/-- A report about the burn rate of the whole installation. -/
def sampleBurn (severity : String) (second_ : ℤ) : Request :=
  .burn {
    serviceId := some "overall"
    active := some true
    severity := some severity
    occurredAt := some (.ofInstant (second_ * second))
    reason := some "burn rate" }

/-- A burn rate alert is critical and eases before it is delivered. -/
def easedAlert : List Call :=
  sampleStart ++ [⟨10 * second, sampleBurn "critical" 10⟩, ⟨20 * second, sampleBurn "warning" 20⟩]

/-- Its signal is active and nothing suppresses it, and yet all there is in the outbox is suppressed. -/
theorem easedAlert_unannounced :
    leavesActive easedAlert (30 * second) = true ∧
      (claimedBoard easedAlert (30 * second)).toOption.all
        (fun x => x.2.outbox.all fun r => r.status = .suppressed) = true := by
  decide +kernel

end IvrmDashboard.Notifications

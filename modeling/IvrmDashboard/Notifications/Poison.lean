import IvrmDashboard.Notifications.StatusOrder

/-!
# When a claim fails

The stages that put a queue in order before a claim never break a constraint: what they write is
the reason of a suppression, which has been checked, or a fixed text. What can fail is the last
one, where the attempts of the rows that are taken go up: they are limited to 20 by the table, but
nothing stops a row from being claimed again after its claim has timed out. A row that has been
claimed 20 times makes every claim fail that would take it (`claimNotificationOutbox_commits_iff`),
and so the queue stands still. Failed completions, on the other hand, are counted: after the fifth
the row has failed for good (`Tally`).
-/

namespace IvrmDashboard.Notifications

open Sql Operations

/-! ## Reasons -/

/-- The reasons of the suppressions have been checked. -/
def Settings.ReasonsOk (s : Settings) : Prop :=
  ∀ p ∈ s.suppressions, Text.lengthBetween 1 256 p.reason = true

theorem lengthBetween_iff {lo hi : ℕ} {s : String} :
    Text.lengthBetween lo hi s = true ↔ lo ≤ s.length ∧ s.length ≤ hi := by
  simp [Text.lengthBetween]

theorem suppressionReason_length {s : Settings} (hs : s.ReasonsOk) {now : ℤ} {x : Subject}
    {t : Timestamptz} {reason : String} (h : s.suppressionReason now x t = some reason) :
    reason.length ≤ 256 := by
  unfold Settings.suppressionReason at h
  split at h
  · cases h
    decide
  · split at h
    · cases h
      decide
    · split at h
      · cases h
        decide
      · split at h
        · cases h
          decide
        · split at h
          · cases h
            decide
          · obtain ⟨p, hp, rfl⟩ := Option.map_eq_some_iff.1 h
            exact (lengthBetween_iff.1 (hs p (List.mem_of_mem_filter (mem_of_firstBy hp)))).2

theorem reasonsOk_apply {c : Call} {w w' : World} (hw : w.settings.ReasonsOk)
    (h : w.apply c = .ok w') : w'.settings.ReasonsOk := by
  have hstep := settingsStep_apply h
  generalize w'.settings = s' at hstep ⊢
  generalize c.request = request at hstep
  cases hstep with
  | same => exact hw
  | @maintained m _ hm =>
    obtain ⟨hchecks, -, hsuppressions⟩ := Settings.maintain_eq_ok hm
    intro p hp
    rw [hsuppressions] at hp
    exact hchecks _ (List.mem_flatMap.2 ⟨p, hp, List.mem_cons_of_mem _ List.mem_cons_self⟩)
  | host => exact hw
  | switched => exact hw
  | added hadd =>
    obtain ⟨-, rfl⟩ := Settings.addChannel_eq_ok hadd
    exact hw

/-! ## The outbox -/

namespace OutboxRow

variable {r r' : OutboxRow}

/-- What a row that passes its constraints keeps when it moves on. -/
theorem Checked.kept (h : r.Checked) :
    r.suppressionReason.all (·.length ≤ 256) = true ∧ r.attempts ≤ 20 ∧
      (r.status ≠ .sent → r.sentAt = none) ∧
      r.lastHttpStatus.all (fun n => 100 ≤ n && n ≤ 599) = true ∧
      r.externalDeliveryId.all (·.length ≤ 128) = true ∧
      r.lastErrorCode.all (·.length ≤ 128) = true := by
  unfold Checked checks at h
  simp only [List.forall_mem_cons] at h
  obtain ⟨-, -, -, -, -, -, -, hreason, hattempts, -, hsent, hhttp, hexternal, herror, -⟩ := h
  refine ⟨hreason, of_decide_eq_true hattempts, fun hs => ?_, hhttp, hexternal, herror⟩
  simpa [hs] using hsent

/-- The constraints of a row that has moved on but is not sent. -/
theorem Checked.move (h : r.Checked) (hs : r.status ≠ .sent) (hnotice : r'.toNotice = r.toNotice)
    (hkept : r'.sentAt = r.sentAt ∧ r'.lastHttpStatus = r.lastHttpStatus ∧
      r'.externalDeliveryId = r.externalDeliveryId)
    (hreason : r'.suppressionReason.all (·.length ≤ 256) = true) (hattempts : r'.attempts ≤ 20)
    (hclaim : r'.status = .sending → r'.claimToken.isSome = true ∧ r'.claimedAt.isSome = true)
    (herror : r'.lastErrorCode.all (·.length ≤ 128) = true) : r'.Checked := by
  obtain ⟨-, -, hsent, hhttp, hexternal, -⟩ := h.kept
  have hdedupe := dedupeKey_eq_of_toNotice hnotice
  have hsignal := signalKey_eq_of_toNotice hnotice
  have hidentity := identity_eq_of_toNotice hnotice
  have htitle : r'.title = r.title := congrArg Notice.title hnotice
  have hmessage : r'.message = r.message := congrArg Notice.message hnotice
  have hhref : r'.detailHref = r.detailHref := congrArg Notice.detailHref hnotice
  unfold Checked checks at h ⊢
  simp only [List.forall_mem_cons] at h ⊢
  rw [hdedupe, hsignal, hidentity, htitle, hmessage, hhref, hkept.1, hkept.2.1, hkept.2.2, hsent hs]
  obtain ⟨h1, h2, h3, h4, h5, h6, h7, -, -, -, -, -, -, -, h15, h16⟩ := h
  refine ⟨h1, h2, h3, h4, h5, h6, h7, hreason, decide_eq_true hattempts, ?_, rfl, hhttp, hexternal,
    herror, h15, h16⟩
  by_cases hsending : r'.status = .sending
  · obtain ⟨htoken, hat⟩ := hclaim hsending
    simp [htoken, hat]
  · simp [hsending]

theorem Checked.expire (h : r.Checked) (hs : r.status = .sending) (now : ℤ) :
    (r.expire now).Checked := by
  obtain ⟨hreason, hattempts, -⟩ := h.kept
  have herror : "claim_timeout".length ≤ 128 := by decide
  exact h.move (by rw [hs]; nofun) rfl ⟨rfl, rfl, rfl⟩ hreason hattempts nofun
    (decide_eq_true herror)

theorem Checked.suppress (h : r.Checked) (hs : r.status ≠ .sent) {reason : String}
    (hreason : reason.length ≤ 256) : (r.suppress reason).Checked := by
  obtain ⟨-, hattempts, -, -, -, herror⟩ := h.kept
  exact h.move hs rfl ⟨rfl, rfl, rfl⟩ (decide_eq_true hreason) hattempts nofun herror

theorem Checked.release (h : r.Checked) (hs : r.status = .suppressed) (now : ℤ) :
    (r.release now).Checked := by
  obtain ⟨-, hattempts, -⟩ := h.kept
  exact h.move (by rw [hs]; nofun) rfl ⟨rfl, rfl, rfl⟩ rfl hattempts nofun rfl

/-- A row may be claimed as long as its attempts stay in their limit. -/
theorem Checked.claim_iff (h : r.Checked) (hs : r.status.waiting = true) {token : Uuid} {now : ℤ} :
    (r.claim token now).Checked ↔ r.attempts < 20 := by
  obtain ⟨hreason, -, -, -, -, herror⟩ := h.kept
  constructor
  · exact fun hclaim => hclaim.kept.2.1
  · intro hlt
    refine h.move ?_ rfl ⟨rfl, rfl, rfl⟩ hreason hlt (fun _ => ⟨rfl, rfl⟩) herror
    intro hsent
    rw [hsent] at hs
    cases hs

end OutboxRow

namespace Board

variable {e : Env} {b b' : Board}

/-- The rows that satisfy `p` updated, whether they pass their constraints or not. -/
def updated (p : OutboxRow → Bool) (f : OutboxRow → OutboxRow) (b : Board) : Board :=
  b.mapRows fun r => if p r then f r else r

theorem updateOutbox_eq_updated {p : OutboxRow → Bool} {f : OutboxRow → OutboxRow}
    (h : ∀ r ∈ b.outbox, p r = true → (f r).Checked) :
    b.updateOutbox p f = .ok (b.updated p f) := by
  have hchecks : checkAll ((b.outbox.filter p).flatMap fun r => (f r).checks) = .ok () := by
    rw [checkAll_eq_ok]
    intro check hcheck
    obtain ⟨r, hr, hc⟩ := List.mem_flatMap.1 hcheck
    obtain ⟨hr, hp⟩ := List.mem_filter.1 hr
    exact h r hr hp check hc
  unfold updateOutbox
  rw [hchecks]
  rfl

/-- The outbox after the claims that have timed out are given back. -/
def expired (e : Env) (b : Board) : Board :=
  b.updated (OutboxRow.timedOut e.now) (OutboxRow.expire e.now)

/-- The outbox without the rows that are suppressed at the moment. -/
def unblocked (e : Env) (b : Board) : Board :=
  b.updated (fun r => r.status.waiting && (r.blockReason e).isSome)
    fun r => r.suppress ((r.blockReason e).getD "")

/-- The outbox without announcements of episodes that are over. -/
def withoutEnded (b : Board) : Board :=
  b.updated
    (fun r => r.status.waiting && r.signalKey.isSome && r.transition.announces && !b.current r)
    (OutboxRow.suppress "signal_recovered_before_delivery")

/-- The outbox without recoveries of episodes that were never announced. -/
def withoutUnannounced (b : Board) : Board :=
  b.updated
    (fun r => r.status.waiting && r.signalKey.isSome && r.transition = .recovered &&
      !b.announced r)
    fun r => r.suppress
      (if b.superseded r then "superseded_by_new_incident" else "recovered_before_first_delivery")

/-- The outbox before anything is released. -/
def prepared (e : Env) (b : Board) : Board :=
  ((b.expired e).unblocked e).withoutEnded.withoutUnannounced

/-- The outbox with the announcements nothing suppresses any longer. -/
def released (e : Env) (b : Board) : Board :=
  b.updated (fun r => b.latestSuppressed r && (r.blockReason e).isNone) (OutboxRow.release e.now)

/-- The outbox from which a claim takes its rows. -/
def readied (e : Env) (b : Board) : Board := (b.prepared e).released e

/-- The rows a claim takes. -/
def taken (e : Env) (n : ℤ) (b : Board) : List OutboxRow := (b.readied e).picked e.now n.toNat

theorem ne_sent_of_waiting {s : DeliveryStatus} (h : s.waiting = true) : s ≠ .sent := by
  rintro rfl
  cases h

theorem expireClaims_eq (hb : b.Wf) : expireClaims e b = .ok (b.expired e) :=
  updateOutbox_eq_updated fun r hr hp => (hb.checked r hr).expire (timedOut_sending hp) e.now

theorem suppressBlocked_eq (hb : b.Wf) (hs : e.settings.ReasonsOk) :
    suppressBlocked e b = .ok (b.unblocked e) := by
  apply updateOutbox_eq_updated
  intro r hr hp
  rw [Bool.and_eq_true] at hp
  obtain ⟨reason, hreason⟩ := Option.isSome_iff_exists.1 hp.2
  rw [hreason]
  exact (hb.checked r hr).suppress (ne_sent_of_waiting hp.1) (suppressionReason_length hs hreason)

theorem withdrawEnded_eq (hb : b.Wf) : withdrawEnded b = .ok b.withoutEnded := by
  apply updateOutbox_eq_updated
  intro r hr hp
  simp only [Bool.and_eq_true] at hp
  exact (hb.checked r hr).suppress (ne_sent_of_waiting hp.1.1.1) (by decide)

theorem withdrawUnannounced_eq (hb : b.Wf) : withdrawUnannounced b = .ok b.withoutUnannounced := by
  apply updateOutbox_eq_updated
  intro r hr hp
  simp only [Bool.and_eq_true] at hp
  refine (hb.checked r hr).suppress (ne_sent_of_waiting hp.1.1.1) ?_
  split <;> decide

/-- The stages before the release always commit. -/
theorem prepareRelease_eq (hb : b.Wf) (hs : e.settings.ReasonsOk) :
    prepareRelease e b = .ok (b.prepared e) := by
  have h₁ := expireClaims_eq (e := e) hb
  have hb₁ : (b.expired e).Wf := (change_of_expireClaims (K := .any) h₁).wf hb
  have h₂ := suppressBlocked_eq hb₁ hs
  have hb₂ : ((b.expired e).unblocked e).Wf := (change_of_suppressBlocked (K := .any) h₂).wf hb₁
  have h₃ := withdrawEnded_eq hb₂
  have hb₃ := (change_of_withdrawEnded (K := .any) (e := e) h₃).wf hb₂
  simp only [prepareRelease, bind, Except.bind, h₁, h₂, h₃, withdrawUnannounced_eq hb₃]
  rfl

theorem releaseSuppressed_eq (hb : b.Wf) : releaseSuppressed e b = .ok (b.released e) := by
  apply updateOutbox_eq_updated
  intro r hr hp
  rw [Bool.and_eq_true] at hp
  exact (hb.checked r hr).release (revivable_suppressed (latestSuppressed_revivable hp.1)) e.now

theorem readied_wf (hb : b.Wf) (hs : e.settings.ReasonsOk)
    (hready : e.settings.channelReady = true) : (b.readied e).Wf := by
  obtain ⟨hchanges, -, -⟩ := prepareRelease_eq_ok (K := .any) (prepareRelease_eq hb hs)
  have hwf := hchanges.wf hb
  exact (change_of_releaseSuppressed (K := .any) hready (fun _ _ _ _ => trivial)
    (releaseSuppressed_eq hwf)).wf hwf

/-- The rows are taken exactly when none of them has reached the limit of its attempts. -/
theorem takeRows_commits_iff (hb : b.Wf) {token : Uuid} {n : ℕ} :
    Commits (takeRows e b token (b.picked e.now n)) ↔
      ∀ r ∈ b.picked e.now n, r.attempts < 20 := by
  constructor
  · rintro ⟨b', hok⟩ r hr
    obtain ⟨hmem, hclaimable⟩ := mem_picked hr
    obtain ⟨hchecked, -⟩ := updateOutbox_eq_ok hok
    have hin : decide (r.id ∈ (b.picked e.now n).map (·.id)) = true :=
      decide_eq_true (List.mem_map_of_mem hr)
    exact ((hb.checked r hmem).claim_iff (waiting_of_claimable hclaimable)).1 (hchecked r hmem hin)
  · intro h
    refine ⟨_, updateOutbox_eq_updated fun r hr hp => ?_⟩
    obtain ⟨r', hr', hid⟩ := List.mem_map.1 (of_decide_eq_true hp)
    obtain ⟨hmem, hclaimable⟩ := mem_picked hr'
    obtain rfl := hb.eq_of_id hmem hr hid
    exact ((hb.checked _ hr).claim_iff (waiting_of_claimable hclaimable)).2 (h _ hr')

/-- A claim with valid arguments commits exactly when none of the rows it would take has reached the
limit of its attempts. -/
theorem claimNotificationOutbox_commits_iff (hb : b.Wf) (hs : e.settings.ReasonsOk) {token : Uuid}
    {n : ℤ} (hn : 1 ≤ n ∧ n ≤ 20) :
    Commits (claimNotificationOutbox e b (some token) (some n)) ↔
      (e.settings.channelReady = true → ∀ r ∈ b.taken e n, r.attempts < 20) := by
  have hlimit : (some n).filter (fun n : ℤ => 1 ≤ n && n ≤ 20) = some n := by
    simp [Option.filter, hn]
  unfold claimNotificationOutbox
  rw [hlimit, commits_bind (orRaise_eq_ok.2 rfl), commits_bind (orRaise_eq_ok.2 rfl)]
  cases hready : e.settings.channelReady with
  | false => exact iff_of_true (commits_ok _) nofun
  | true =>
    have hwf := readied_wf hb hs hready
    obtain ⟨hchanges, -, -⟩ := prepareRelease_eq_ok (K := .any) (prepareRelease_eq hb hs)
    simp only [Bool.not_true, Bool.false_eq_true, ite_false, forall_const]
    rw [commits_bind (prepareRelease_eq hb hs), commits_bind (releaseSuppressed_eq (hchanges.wf hb)),
      commits_bind_of_forall fun _ => commits_pure _]
    exact takeRows_commits_iff hwf

end Board

/-! ## The status queue -/

namespace StatusDelivery

variable {d : StatusDelivery}

theorem Checked.kept (h : d.Checked) :
    d.attempts ≤ 20 ∧ (d.status ≠ .sent → d.sentAt = none) ∧
      d.lastHttpStatus.all (fun n => 100 ≤ n && n ≤ 599) = true ∧
      d.externalDeliveryId.all (·.length ≤ 128) = true ∧
      d.lastErrorCode.all (·.length ≤ 128) = true ∧
      (d.status ≠ .suppressed → d.suppressionReason = none) := by
  unfold Checked checks at h
  simp only [List.forall_mem_cons] at h
  obtain ⟨hattempts, -, hsent, hhttp, hexternal, herror, hreason, -⟩ := h
  refine ⟨of_decide_eq_true hattempts, fun hs => ?_, hhttp, hexternal, herror, fun hs => ?_⟩
  · simpa [hs] using hsent
  · simpa [hs] using hreason

theorem Checked.expire (h : d.Checked) (hs : d.status = .sending) (now : ℤ) :
    (d.expire now).Checked := by
  obtain ⟨hattempts, hsent, hhttp, hexternal, -, hreason⟩ := h.kept
  have hsent : d.sentAt = none := hsent (by rw [hs]; nofun)
  have hreason : d.suppressionReason = none := hreason (by rw [hs]; nofun)
  have herror : "claim_timeout".length ≤ 128 := by decide
  unfold Checked checks StatusDelivery.expire
  simp only [List.forall_mem_cons, hsent, hreason]
  exact ⟨decide_eq_true hattempts, rfl, rfl, hhttp, hexternal, decide_eq_true herror, rfl, nofun⟩

theorem Checked.suppress (h : d.Checked) (hs : d.status.waiting = true) {reason : String}
    (hreason : Text.lengthBetween 1 256 reason = true) : (d.suppress reason).Checked := by
  obtain ⟨hattempts, hsent, hhttp, hexternal, herror, -⟩ := h.kept
  have hsent : d.sentAt = none := hsent (Board.ne_sent_of_waiting hs)
  unfold Checked checks StatusDelivery.suppress
  simp only [List.forall_mem_cons, hsent]
  exact ⟨decide_eq_true hattempts, rfl, rfl, hhttp, hexternal, herror, hreason, nofun⟩

/-- A delivery may be claimed as long as its attempts stay in their limit. -/
theorem Checked.claim_iff (h : d.Checked) (hs : d.status.waiting = true) {token : Uuid} {now : ℤ} :
    (d.claim token now).Checked ↔ d.attempts < 20 := by
  constructor
  · exact fun hclaim => hclaim.kept.1
  · intro hlt
    obtain ⟨-, hsent, hhttp, hexternal, herror, hreason⟩ := h.kept
    have hsent : d.sentAt = none := hsent (Board.ne_sent_of_waiting hs)
    have hreason : d.suppressionReason = none := hreason (by rintro heq; rw [heq] at hs; cases hs)
    unfold Checked checks StatusDelivery.claim
    simp only [List.forall_mem_cons, hsent, hreason]
    exact ⟨decide_eq_true hlt, rfl, rfl, hhttp, hexternal, herror, rfl, nofun⟩

/-- The reasons a claim suppresses deliveries for. -/
theorem blockReason_length {e : Env} {reason : String} (h : d.blockReason e = some reason) :
    Text.lengthBetween 1 256 reason = true := by
  obtain ⟨c, -, h⟩ := Option.bind_eq_some_iff.1 h
  split at h
  · cases h
    decide
  · split at h
    · cases h
      decide
    · split at h
      · cases h
        decide
      · cases h

end StatusDelivery

namespace StatusQueue

variable {e : Env} {q q' : StatusQueue} {x : Provider}

/-- The deliveries that satisfy `p` updated, whether they pass their constraints or not. -/
def updated (p : StatusDelivery → Bool) (f : StatusDelivery → StatusDelivery) (q : StatusQueue) :
    StatusQueue :=
  q.mapDeliveries fun d => if p d then f d else d

theorem update_eq_updated {p : StatusDelivery → Bool} {f : StatusDelivery → StatusDelivery}
    (h : ∀ d ∈ q.deliveries, p d = true → (f d).Checked) : q.update p f = .ok (q.updated p f) := by
  have hchecks : checkAll ((q.deliveries.filter p).flatMap fun d => (f d).checks) = .ok () := by
    rw [checkAll_eq_ok]
    intro check hcheck
    obtain ⟨d, hd, hc⟩ := List.mem_flatMap.1 hcheck
    obtain ⟨hd, hp⟩ := List.mem_filter.1 hd
    exact h d hd hp check hc
  unfold update
  rw [hchecks]
  rfl

/-- The queue after the claims of a provider that have timed out are given back. -/
def expired (e : Env) (x : Provider) (q : StatusQueue) : StatusQueue :=
  q.updated (StatusDelivery.timedOut x e.now) (StatusDelivery.expire e.now)

/-- The queue from which a claim takes its deliveries. -/
def readied (e : Env) (x : Provider) (q : StatusQueue) : StatusQueue :=
  (q.expired e x).updated
    (fun d => d.providerType = x && d.status.waiting && (d.blockReason e).isSome)
    fun d => d.suppress ((d.blockReason e).getD "")

/-- The deliveries a claim takes. -/
def taken (e : Env) (x : Provider) (n : ℤ) (q : StatusQueue) : List StatusDelivery :=
  (q.readied e x).picked e x n.toNat

theorem expireDeliveries_eq {s : Settings} (hq : q.Wf s) :
    expireDeliveries e x q = .ok (q.expired e x) :=
  update_eq_updated fun d hd hp => (hq.checked d hd).expire (statusTimedOut_sending hp) e.now

theorem suppressDeliveries_eq {s : Settings} (hq : (q.expired e x).Wf s) :
    suppressDeliveries e x (q.expired e x) = .ok (q.readied e x) := by
  apply update_eq_updated
  intro d hd hp
  simp only [Bool.and_eq_true] at hp
  obtain ⟨reason, hreason⟩ := Option.isSome_iff_exists.1 hp.2
  rw [hreason]
  exact (hq.checked d hd).suppress hp.1.2 (StatusDelivery.blockReason_length hreason)

theorem takeDeliveries_commits_iff {s : Settings} (hq : q.Wf s) {token : Uuid} {n : ℕ} :
    Commits (takeDeliveries e q token (q.picked e x n)) ↔
      ∀ d ∈ q.picked e x n, d.attempts < 20 := by
  constructor
  · rintro ⟨q', hok⟩ d hd
    obtain ⟨hmem, hclaimable⟩ := mem_statusPicked hd
    obtain ⟨hchecked, -⟩ := update_eq_ok hok
    have hin : decide (d.id ∈ (q.picked e x n).map (·.id)) = true :=
      decide_eq_true (List.mem_map_of_mem hd)
    exact ((hq.checked d hmem).claim_iff (claimable_waiting hclaimable)).1 (hchecked d hmem hin)
  · intro h
    refine ⟨_, update_eq_updated fun d hd hp => ?_⟩
    obtain ⟨d', hd', hid⟩ := List.mem_map.1 (of_decide_eq_true hp)
    obtain ⟨hmem, hclaimable⟩ := mem_statusPicked hd'
    obtain rfl := hq.eq_of_id hmem hd hid
    exact ((hq.checked _ hd).claim_iff (claimable_waiting hclaimable)).2 (h _ hd')

/-- A claim with valid arguments commits exactly when none of the deliveries it would take has
reached the limit of its attempts. -/
theorem claimNotificationDeliveries_commits_iff (hq : q.Wf e.settings) {provider : String}
    (hx : Provider.ofText? provider = some x) {token : Uuid} {n : ℤ} (hn : 1 ≤ n ∧ n ≤ 20) :
    Commits (claimNotificationDeliveries e (some provider) (some token) (some n) q) ↔
      ∀ d ∈ q.taken e x n, d.attempts < 20 := by
  have hlimit : (some n).filter (fun n : ℤ => 1 ≤ n && n ≤ 20) = some n := by
    simp [Option.filter, hn]
  have hexpire := expireDeliveries_eq (e := e) (x := x) hq
  have hwf₁ : (q.expired e x).Wf e.settings := (queueChange_of_expire (K := .any) hexpire).wf hq
  have hsuppress := suppressDeliveries_eq (e := e) (x := x) hwf₁
  have hwf₂ := (queueChange_of_suppress (K := .any) hsuppress).wf hwf₁
  unfold claimNotificationDeliveries
  rw [hlimit, Option.bind_some, hx, commits_bind (orRaise_eq_ok.2 rfl),
    commits_bind (orRaise_eq_ok.2 rfl), commits_bind (orRaise_eq_ok.2 rfl), commits_bind hexpire,
    commits_bind hsuppress, commits_bind_of_forall fun _ => commits_pure _]
  exact takeDeliveries_commits_iff hwf₂

end StatusQueue

/-! ## Failed attempts -/

/-- A row at which so many attempts have failed: every failed attempt was claimed before, and after
the fifth the row has failed. -/
structure Tally (failures : ℕ) (status : DeliveryStatus) (attempts : ℕ) : Prop where
  counted : failures ≤ attempts
  sending : status = .sending → failures < attempts
  retried : status ≠ .failed → failures < 5

namespace Tally

variable {failures attempts : ℕ} {status : DeliveryStatus}

theorem new (h : status ≠ .sending) : Tally 0 status attempts :=
  ⟨Nat.zero_le _, fun hs => absurd hs h, fun _ => by omega⟩

theorem rest (h : Tally failures status attempts) (hs : status ≠ .failed) {status' : DeliveryStatus}
    (hs' : status' ≠ .sending) : Tally failures status' attempts :=
  ⟨h.counted, fun hsending => absurd hsending hs', fun _ => h.retried hs⟩

theorem take (h : Tally failures status attempts) (hs : status ≠ .failed) :
    Tally failures .sending (attempts + 1) where
  counted := by
    have := h.counted
    omega
  sending _ := by
    have := h.counted
    omega
  retried _ := h.retried hs

/-- A failed attempt. -/
theorem fail (h : Tally failures .sending attempts) :
    Tally (failures + 1) (if 5 ≤ attempts then .failed else .retry) attempts where
  counted := h.sending rfl
  sending hs := by split at hs <;> cases hs
  retried hs := by
    have hlt := h.sending rfl
    split at hs
    next => exact absurd rfl hs
    next hle => omega

theorem failed (h : Tally failures status attempts) (hle : 5 ≤ failures) : status = .failed := by
  by_contra hne
  have := h.retried hne
  omega

end Tally

/-- The call reports that an attempt at the row has failed. -/
def World.failsRow (i : ℕ) (w : World) (c : Call) : Bool :=
  match c.request with
  | .complete id token p =>
    id = some (i : ℤ) && p.success = some false &&
      match completeNotificationDelivery (w.env c.now) id token p w.board with
      | .ok (.moved _, _) => true
      | _ => false
  | _ => false

/-- The call reports that an attempt at the delivery has failed. -/
def World.failsDelivery (i : ℕ) (w : World) (c : Call) : Bool :=
  match c.request with
  | .completeStatus id token p =>
    id = some (i : ℤ) && p.success = some false &&
      match completeNotificationEventDelivery (w.env c.now) id token p w.queue with
      | .ok (.moved _, _) => true
      | _ => false
  | _ => false

/-- The failed attempts at a row of the outbox. -/
def rowFailures (i : ℕ) (calls : List Call) : ℕ :=
  Runs.count World.step (World.failsRow i) World.initial calls

/-- The failed attempts at a delivery of the status queue. -/
def deliveryFailures (i : ℕ) (calls : List Call) : ℕ :=
  Runs.count World.step (World.failsDelivery i) World.initial calls

/-- What is known of the row when so many attempts at it have failed. -/
def Board.Tallies (i failures : ℕ) (b : Board) : Prop :=
  (∀ r ∈ b.outbox, r.id = i → Tally failures r.status r.attempts) ∧ (b.nextId ≤ i → failures = 0)

/-- What is known of the delivery when so many attempts at it have failed. -/
def StatusQueue.Tallies (i failures : ℕ) (q : StatusQueue) : Prop :=
  (∀ d ∈ q.deliveries, d.id = i → Tally failures d.status d.attempts) ∧
    (q.nextDeliveryId ≤ i → failures = 0)

section

variable {K : Premises} {e : Env} {b b' : Board} {i failures : ℕ}

theorem ne_failed_of_undelivered {s : DeliveryStatus} (h : s.undelivered = true) : s ≠ .failed := by
  rintro rfl
  cases h

theorem RowStep.tally {r r' : OutboxRow} (h : RowStep K e b r r')
    (hr : Tally failures r.status r.attempts) : Tally failures r'.status r'.attempts := by
  rcases h with rfl | ⟨h, -⟩
  · exact hr
  · have hfailed : r.status ≠ .failed := by
      intro hs
      have hsettled := h.not_settled
      rw [hs] at hsettled
      cases hsettled
    cases h with
    | expire => exact hr.rest hfailed nofun
    | withdraw => exact hr.rest hfailed nofun
    | release => exact hr.rest hfailed nofun
    | claim => exact hr.take hfailed
    | deliver => exact hr.rest hfailed nofun
    | fail => exact hr.rest hfailed (failedStatus_ne_sending r)

theorem Inserted.tallies {n : Notice} (h : Inserted e n b b') (hb : b.Tallies i failures) :
    b'.Tallies i failures := by
  cases h with
  | fresh key hkey hnew hchecked =>
    refine ⟨fun r hr hid => ?_, fun hle => hb.2 (Nat.le_of_succ_le hle)⟩
    rcases List.mem_append.1 hr with hr | hr
    · exact hb.1 r hr hid
    · rw [List.mem_singleton] at hr
      subst hr
      rw [hb.2 (Nat.le_of_eq hid)]
      rcases newRow_status (e := e) n key b.nextId with hs | hs
      · exact .new (by rw [hs]; nofun)
      · exact .new (by rw [hs]; nofun)
  | swallowed => exact ⟨hb.1, fun hle => hb.2 (Nat.le_of_succ_le hle)⟩

theorem Board.Tallies.suppressRows {p : OutboxRow → Bool} {reason : String}
    (hb : b.Tallies i failures) (hp : ∀ r, p r = true → r.status.settled = false) :
    (b.suppressRows p reason).Tallies i failures := by
  refine ⟨fun r' hr' hid => ?_, hb.2⟩
  obtain ⟨r, hr, rfl⟩ := List.mem_map.1 hr'
  by_cases hpr : p r = true
  · rw [if_pos hpr] at hid ⊢
    refine (hb.1 r hr hid).rest ?_ nofun
    intro hs
    have hsettled := hp r hpr
    rw [hs] at hsettled
    cases hsettled
  · rw [if_neg hpr] at hid ⊢
    exact hb.1 r hr hid

theorem Change.tallies (h : Change K e b b') (hb : b.Tallies i failures) :
    b'.Tallies i failures := by
  cases h with
  | rows f hf hway =>
    refine ⟨fun r' hr' hid => ?_, hb.2⟩
    obtain ⟨r, hr, rfl⟩ := List.mem_map.1 hr'
    rw [(hf r hr).frame.1] at hid
    exact (hf r hr).tally (hb.1 r hr hid)
  | report hk h =>
    cases h with
    | absent => exact hb
    | stale => exact hb
    | inactive => exact hb
    | opened _ _ _ hins => exact hins.tallies hb
    | reopened _ _ _ _ _ hins => exact hins.tallies hb
    | seen => exact hb
    | escalated _ _ _ _ _ hins => exact hins.tallies hb
    | deescalated =>
      exact hb.suppressRows fun r hp =>
        DeliveryStatus.not_settled_of_undelivered (undeliveredCritical_undelivered hp)
    | recovered _ _ _ _ _ hins =>
      refine hins.tallies (Board.Tallies.suppressRows hb fun r hp => ?_)
      exact DeliveryStatus.not_settled_of_undelivered (unannounced_undelivered hp)
  | event hn h => exact h.tallies hb
  | retire hk h =>
    cases h with
    | policy => exact hb.suppressRows fun r hp => retirable_not_settled (ofPolicy_retirable hp)
    | host => exact hb.suppressRows fun r hp => retirable_not_settled (ofHost_retirable hp)
    | target =>
      exact hb.suppressRows fun r hp =>
        DeliveryStatus.not_settled_of_undelivered (ofTarget_undelivered hp)
    | idleTarget =>
      exact hb.suppressRows fun r hp =>
        DeliveryStatus.not_settled_of_undelivered (ofTarget_undelivered hp)

theorem Changes.tallies (h : Changes K e b b') (hb : b.Tallies i failures) :
    b'.Tallies i failures := by
  induction h with
  | refl => exact hb
  | tail _ h ih => exact h.tallies ih

end

section

variable {K : QueuePremises} {e : Env} {q q' : StatusQueue} {i failures : ℕ}

theorem DeliveryStep.tally {d d' : StatusDelivery} (h : DeliveryStep K e q d d')
    (hd : Tally failures d.status d.attempts) : Tally failures d'.status d'.attempts := by
  rcases h with rfl | ⟨h, -⟩
  · exact hd
  · have hfailed := ne_failed_of_undelivered h.undelivered
    cases h with
    | expire => exact hd.rest hfailed nofun
    | suppress => exact hd.rest hfailed nofun
    | claim => exact hd.take hfailed
    | deliver => exact hd.rest hfailed nofun
    | fail =>
      refine hd.rest hfailed ?_
      change d.failedStatus ≠ .sending
      unfold StatusDelivery.failedStatus
      split <;> nofun

theorem QueueChange.tallies (h : QueueChange K e q q') (hq : q.Tallies i failures) :
    q'.Tallies i failures := by
  cases h with
  | rows f hf =>
    refine ⟨fun d' hd' hid => ?_, hq.2⟩
    obtain ⟨d, hd, rfl⟩ := List.mem_map.1 hd'
    rw [(hf d hd).frame.1] at hid
    exact (hf d hd).tally (hq.1 d hd hid)
  | publish key content =>
    refine ⟨fun d hd hid => ?_, fun hle => hq.2 (Nat.le_trans (Nat.le_add_right _ _) hle)⟩
    rcases List.mem_append.1 hd with hd | hd
    · exact hq.1 d hd hid
    · obtain ⟨c, -, k, hk, -, rfl⟩ := mem_fanOut hd
      rw [hq.2 (Nat.le_trans hk (Nat.le_of_eq hid))]
      exact .new delivery_not_sending.1
  | spent => exact hq

theorem QueueChanges.tallies (h : QueueChanges K e q q') (hq : q.Tallies i failures) :
    q'.Tallies i failures := by
  induction h with
  | refl => exact hq
  | tail _ h ih => exact h.tallies ih

end

namespace World

variable {w : World} {c : Call} {i failures : ℕ}

theorem tallies_of_failsRow (hb : w.board.Wf) (h : w.board.Tallies i failures)
    (hc : w.failsRow i c = true) : (w.step c).board.Tallies i (failures + 1) := by
  obtain ⟨now, request⟩ := c
  unfold failsRow at hc
  cases request with
  | complete id token p =>
    simp only [Bool.and_eq_true, decide_eq_true_eq] at hc
    obtain ⟨⟨rfl, hsuccess⟩, hanswer⟩ := hc
    unfold step apply
    dsimp only
    cases hres : completeNotificationDelivery (w.env now) (some (i : ℤ)) token p w.board with
    | error err =>
      rw [hres] at hanswer
      cases hanswer
    | ok res =>
      obtain ⟨answer, board⟩ := res
      obtain ⟨i', t, success, hi, -, hsuccess', hcase⟩ := completeNotificationDelivery_eq_ok hres
      cases hi
      rcases hcase with ⟨-, rfl, -⟩ | ⟨r, hheld, ⟨rfl, -, -⟩ | ⟨-, -, hupdate⟩⟩
      · rw [hres] at hanswer
        cases hanswer
      · rw [hsuccess] at hsuccess'
        cases hsuccess'
      · obtain ⟨hr, hheldBy⟩ := held?_eq_some hheld
        obtain ⟨hid, hsending, -⟩ := heldBy_iff.1 hheldBy
        have hlt := hb.fresh r hr
        have hri : r.id = i := by omega
        obtain ⟨-, rfl⟩ := Board.updateOutbox_eq_ok hupdate
        refine ⟨fun r' hr' hr'i => ?_, fun hle => ?_⟩
        · obtain ⟨r₀, hr₀, rfl⟩ := List.mem_map.1 hr'
          by_cases hp : decide ((r₀.id : ℤ) = i) = true
          · obtain rfl := eq_of_held hb hheld hr₀ hp
            rw [if_pos hp]
            have htally := h.1 _ hr₀ hri
            rw [hsending] at htally
            exact htally.fail
          · rw [if_neg hp] at hr'i
            exact absurd (decide_eq_true (by rw [hr'i])) hp
        · have hle' : w.board.nextId ≤ i := hle
          omega
  | _ => cases hc

theorem tallies_of_failsDelivery (hw : w.Sound) (h : w.queue.Tallies i failures)
    (hc : w.failsDelivery i c = true) : (w.step c).queue.Tallies i (failures + 1) := by
  obtain ⟨now, request⟩ := c
  unfold failsDelivery at hc
  cases request with
  | completeStatus id token p =>
    simp only [Bool.and_eq_true, decide_eq_true_eq] at hc
    obtain ⟨⟨rfl, hsuccess⟩, hanswer⟩ := hc
    unfold step apply
    dsimp only
    cases hres : completeNotificationEventDelivery (w.env now) (some (i : ℤ)) token p w.queue with
    | error err =>
      rw [hres] at hanswer
      cases hanswer
    | ok res =>
      obtain ⟨answer, queue⟩ := res
      obtain ⟨i', t, success, hi, -, hsuccess', hcase⟩ :=
        completeNotificationEventDelivery_eq_ok hres
      cases hi
      rcases hcase with ⟨-, rfl, -⟩ | ⟨d, hheld, ⟨rfl, -, -⟩ | ⟨-, -, hupdate⟩⟩
      · rw [hres] at hanswer
        cases hanswer
      · rw [hsuccess] at hsuccess'
        cases hsuccess'
      · obtain ⟨hd, hheldBy⟩ := statusHeld?_eq_some hheld
        obtain ⟨hid, hsending, -⟩ := statusHeldBy_iff.1 hheldBy
        have hlt := hw.queue.fresh d hd
        have hdi : d.id = i := by omega
        obtain ⟨-, rfl⟩ := StatusQueue.update_eq_ok hupdate
        refine ⟨fun d' hd' hd'i => ?_, fun hle => ?_⟩
        · obtain ⟨d₀, hd₀, rfl⟩ := List.mem_map.1 hd'
          by_cases hp : decide ((d₀.id : ℤ) = i) = true
          · obtain rfl := eq_of_statusHeld hw.queue hheld hd₀ hp
            rw [if_pos hp]
            have htally := h.1 _ hd₀ hdi
            rw [hsending] at htally
            exact htally.fail
          · rw [if_neg hp] at hd'i
            exact absurd (decide_eq_true (by rw [hd'i])) hp
        · have hle' : w.queue.nextDeliveryId ≤ i := hle
          omega
  | _ => cases hc

theorem tallies_run (i : ℕ) (calls : List Call) :
    (initial.run calls).board.Tallies i (rowFailures i calls) := by
  suffices h : (initial.run calls).board.Wf ∧
      (initial.run calls).board.Tallies i (rowFailures i calls) from h.2
  apply Runs.run_count (P := fun n (w : World) => w.board.Wf ∧ w.board.Tallies i n)
  · intro n w c h _
    exact ⟨wf_step h.1, (changes_step h.1 (c.meets_any w)).tallies h.2⟩
  · exact fun n w c h hc => ⟨wf_step h.1, tallies_of_failsRow h.1 h.2 hc⟩
  · exact ⟨Board.Wf.empty, fun _ h => absurd h List.not_mem_nil, fun _ => rfl⟩

theorem deliveryTallies_run (i : ℕ) (calls : List Call) :
    (initial.run calls).queue.Tallies i (deliveryFailures i calls) := by
  suffices h : (initial.run calls).Sound ∧
      (initial.run calls).queue.Tallies i (deliveryFailures i calls) from h.2
  apply Runs.run_count (P := fun n (w : World) => w.Sound ∧ w.queue.Tallies i n)
  · intro n w c h _
    exact ⟨h.1.step c, (queueChanges_step h.1 (c.meetsQueue_any w)).tallies h.2⟩
  · exact fun n w c h hc => ⟨h.1.step c, tallies_of_failsDelivery h.1 h.2 hc⟩
  · exact ⟨Sound.initial, fun _ h => absurd h List.not_mem_nil, fun _ => rfl⟩

end World

/-! ## Runs -/

theorem sending_of_claim {e : Env} {b b' : Board} {token : Option Uuid} {limit : Option ℤ}
    {rows : List OutboxRow} (h : claimNotificationOutbox e b token limit = .ok (rows, b')) :
    ∀ r ∈ rows, r ∈ b'.outbox ∧ r.status = .sending := by
  simp only [claimNotificationOutbox, bind_eq_ok] at h
  obtain ⟨t, -, n, -, h⟩ := h
  split at h
  · rw [pure_eq_ok, Prod.mk.injEq] at h
    rw [← h.1]
    exact fun r hr => absurd hr List.not_mem_nil
  · simp only [bind_eq_ok, pure_eq_ok, Prod.mk.injEq] at h
    obtain ⟨b₁, -, b₂, -, b₃, h₃, rfl, rfl⟩ := h
    intro r hr
    rw [mem_orderBy, List.mem_filter] at hr
    obtain ⟨r₀, -, ⟨-, rfl⟩ | ⟨hp, rfl⟩⟩ := mem_updateOutbox h₃ hr.1
    · exact ⟨hr.1, rfl⟩
    · rw [hr.2] at hp
      cases hp

theorem sending_of_claimStatus {e : Env} {q q' : StatusQueue} {provider : Option String}
    {token : Option Uuid} {limit : Option ℤ} {rows : List StatusDelivery}
    (h : claimNotificationDeliveries e provider token limit q = .ok (rows, q')) :
    ∀ d ∈ rows, d ∈ q'.deliveries ∧ d.status = .sending := by
  obtain ⟨x, t, n, q₁, q₂, -, -, -, -, -, -, h₃, rfl⟩ := claimNotificationDeliveries_eq_ok h
  intro d hd
  rw [mem_orderBy, List.mem_filter] at hd
  obtain ⟨-, rfl⟩ := StatusQueue.update_eq_ok h₃
  obtain ⟨d₀, -, rfl⟩ := List.mem_map.1 hd.1
  by_cases hp : decide (d₀.id ∈ (q₂.picked e x n.toNat).map (·.id)) = true
  · rw [if_pos hp] at hd ⊢
    exact ⟨hd.1, rfl⟩
  · rw [if_neg hp] at hd
    exact absurd hd.2 hp

/-- When claims fail, and what is always within its limits. -/
structure ClaimLimits (calls : List Call) : Prop where
  /-- A claim on the outbox commits exactly when it would take no row that has been claimed 20
  times. -/
  outbox : ∀ now t n, (1 ≤ n ∧ n ≤ 20) →
    (Commits (claimNotificationOutbox ((World.initial.run calls).env now)
        (World.initial.run calls).board (some t) (some n)) ↔
      ((World.initial.run calls).settings.channelReady = true →
        ∀ r ∈ (World.initial.run calls).board.taken ((World.initial.run calls).env now) n,
          r.attempts < 20))
  /-- A claim on the status queue commits exactly when it would take no delivery that has been
  claimed 20 times. -/
  deliveries : ∀ now provider x t n, Provider.ofText? provider = some x → (1 ≤ n ∧ n ≤ 20) →
    (Commits (claimNotificationDeliveries ((World.initial.run calls).env now) (some provider)
        (some t) (some n) (World.initial.run calls).queue) ↔
      ∀ d ∈ (World.initial.run calls).queue.taken ((World.initial.run calls).env now) x n,
        d.attempts < 20)
  /-- The attempts stay in their limit. -/
  attempts : (∀ r ∈ (World.initial.run calls).board.outbox, r.attempts ≤ 20) ∧
    ∀ d ∈ (World.initial.run calls).queue.deliveries, d.attempts ≤ 20
  /-- No row is claimed after its fifth failed attempt. -/
  failures : ∀ i, 5 ≤ rowFailures i calls → ∀ now token limit rows b,
    claimNotificationOutbox ((World.initial.run calls).env now) (World.initial.run calls).board
      token limit = .ok (rows, b) → ∀ r ∈ rows, r.id ≠ i
  /-- No delivery is claimed after its fifth failed attempt. -/
  deliveryFailures : ∀ i, 5 ≤ deliveryFailures i calls → ∀ now provider token limit rows q,
    claimNotificationDeliveries ((World.initial.run calls).env now) provider token limit
      (World.initial.run calls).queue = .ok (rows, q) → ∀ d ∈ rows, d.id ≠ i

theorem World.reasonsOk_run (calls : List Call) : (initial.run calls).settings.ReasonsOk := by
  apply Runs.run_invariant (P := fun w : World => w.settings.ReasonsOk)
  · intro w c hw
    rcases step_eq (w := w) (c := c) with h | h
    · rwa [h]
    · exact reasonsOk_apply hw h
  · exact fun _ h => absurd h List.not_mem_nil

/-- A call that commits leads to the next state. -/
theorem World.step_of_apply {w w' : World} {c : Call} (h : w.apply c = .ok w') : w.step c = w' := by
  unfold step
  rw [h]

/-- A claim commits exactly when it would take no row that has been claimed 20 times. The attempts
stay in their limit, and no row is claimed after its fifth failed attempt. -/
theorem claims_commit_iff (calls : List Call) : ClaimLimits calls where
  outbox now t n hn :=
    Board.claimNotificationOutbox_commits_iff (World.wf_run calls Board.Wf.empty)
      (World.reasonsOk_run calls) hn
  deliveries now provider x t n hx hn :=
    StatusQueue.claimNotificationDeliveries_commits_iff (World.Sound.initial.run calls).queue hx hn
  attempts :=
    ⟨fun r hr => ((World.wf_run calls Board.Wf.empty).checked r hr).kept.2.1,
      fun d hd => ((World.Sound.initial.run calls).queue.checked d hd).kept.1⟩
  failures i hi now token limit rows b h r hr hri := by
    obtain ⟨hmem, hsending⟩ := sending_of_claim h r hr
    have happly : (World.initial.run calls).apply ⟨now, .claim token limit⟩ =
        .ok { World.initial.run calls with board := b } := by
      unfold World.apply World.withBoard
      dsimp only
      rw [h]
      rfl
    have htally := (World.tallies_run i (calls ++ [⟨now, .claim token limit⟩])).1
    rw [World.run_concat, World.step_of_apply happly] at htally
    have hfive : 5 ≤ rowFailures i (calls ++ [⟨now, .claim token limit⟩]) := by
      unfold rowFailures at hi ⊢
      rw [Runs.count_concat]
      omega
    rw [(htally r hmem hri).failed hfive] at hsending
    cases hsending
  deliveryFailures i hi now provider token limit rows q h d hd hdi := by
    obtain ⟨hmem, hsending⟩ := sending_of_claimStatus h d hd
    have happly : (World.initial.run calls).apply ⟨now, .claimStatus provider token limit⟩ =
        .ok { World.initial.run calls with queue := q } := by
      unfold World.apply World.withQueue
      dsimp only
      rw [h]
      rfl
    have htally :=
      (World.deliveryTallies_run i (calls ++ [⟨now, .claimStatus provider token limit⟩])).1
    rw [World.run_concat, World.step_of_apply happly] at htally
    have hfive :
        5 ≤ IvrmDashboard.Notifications.deliveryFailures i
          (calls ++ [⟨now, .claimStatus provider token limit⟩]) := by
      unfold IvrmDashboard.Notifications.deliveryFailures at hi ⊢
      rw [Runs.count_concat]
      omega
    rw [(htally d hmem hdi).failed hfive] at hsending
    cases hsending

/-- A dispatcher claims a delivery every five minutes and never reports back. -/
def abandonedClaims (n : ℕ) : List Call :=
  (List.range n).map fun k =>
    ⟨(20 + 301 * k) * second, .claimStatus (some "discord") (some ⟨k⟩) (some 1)⟩

/-- An incident is published and claimed 20 times without an answer. -/
def abandonedIncident : List Call :=
  [⟨0, .setChannel (some true) (some true) none⟩,
    ⟨10 * second, .statusEvent (sampleIncidentEvent 1 "incident_published" 10)⟩] ++
    abandonedClaims 20

/-- From then on no claim of the provider commits. -/
theorem abandoned_claim_fails :
    ((claimNotificationDeliveries ((World.initial.run abandonedIncident).env (6040 * second))
      (some "discord") (some ⟨20⟩) (some 1) (World.initial.run abandonedIncident).queue).map
        fun _ => ()) = .error (.checkViolation "notification_deliveries_attempts_check") := by
  decide +kernel

end IvrmDashboard.Notifications

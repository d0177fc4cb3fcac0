import IvrmDashboard.Notifications.Settled
import IvrmDashboard.Notifications.StatusSteps

/-!
# While the Discord channel is off

Switching the channel off takes everything that is still to be sent out of both queues, and as long
as it is off nothing comes in: the outbox suppresses what it inserts, an event fans out to a
suppressed delivery, and no claim releases or takes anything (`World.Quiet`). A dispatcher that still
holds a row from before has lost it for good, since only a claim hands out a token
(`World.Without`).
-/

namespace IvrmDashboard.Notifications

open Sql Operations

/-- Nothing is to be sent to the Discord channel. -/
structure World.Quiet (w : World) : Prop where
  outbox : ∀ r ∈ w.board.outbox, r.status.undelivered = false
  deliveries : ∀ d ∈ w.queue.deliveries, d.channelId = 1 → d.status.undelivered = false

/-! ## The channel -/

section

variable {s s' : Settings}

theorem Settings.ChannelsOk.discord?_eq (h : s.ChannelsOk) {c : Channel} (hc : c ∈ s.channels)
    (hid : c.id = 1) : s.discord? = some c := by
  apply find?_eq_some_of_unique hc (decide_eq_true hid)
  intro c' hc' hid'
  exact h.eq_of_id hc' hc ((of_decide_eq_true hid').trans hid.symm)

/-- The channel that is ready is the Discord channel. -/
theorem Settings.ChannelsOk.channelReady_of_ready (h : s.ChannelsOk) {c : Channel}
    (hc : c ∈ s.channels) (hid : c.id = 1) (hready : c.ready = true) : s.channelReady = true := by
  unfold Settings.channelReady
  rw [h.discord?_eq hc hid]
  exact hready

theorem channelReady_setDiscord (h : s.ChannelsOk) (enabled configured : Bool) :
    (s.setDiscord enabled configured).channelReady = (enabled && configured) := by
  obtain ⟨c, hc, hid, -⟩ := h.discord
  have hmem : { c with enabled, configured } ∈ (s.setDiscord enabled configured).channels :=
    mem_updateWhere.2 ⟨c, hc, if_pos (decide_eq_true hid)⟩
  unfold Settings.channelReady
  rw [(h.setDiscord enabled configured).discord?_eq hmem hid]
  rfl

theorem channelReady_congr (h : s'.channels = s.channels) : s'.channelReady = s.channelReady := by
  unfold Settings.channelReady Settings.discord?
  rw [h]

theorem channelReady_addChannel (hs : s.ChannelsOk) {c : Channel} (h : s.addChannel c = .ok s') :
    s'.channelReady = s.channelReady := by
  obtain ⟨d, hd, hid, -⟩ := hs.discord
  obtain ⟨hok, -⟩ := hs.addChannel h
  obtain ⟨-, rfl⟩ := Settings.addChannel_eq_ok h
  unfold Settings.channelReady
  rw [hs.discord?_eq hd hid, hok.discord?_eq (List.mem_append_left _ hd) hid]

end

/-- Other calls leave the channel as it is. -/
theorem channelReady_apply {c : Call} {w w' : World} (hw : w.settings.ChannelsOk)
    (hc : c.request.switches = false) (h : w.apply c = .ok w') :
    w'.settings.channelReady = w.settings.channelReady := by
  have hstep := settingsStep_apply h
  generalize c.request = request at hc hstep
  generalize w'.settings = s' at hstep ⊢
  cases hstep with
  | same => rfl
  | maintained hm => exact channelReady_congr (Settings.maintain_eq_ok hm).2.1
  | host => rfl
  | switched => cases hc
  | added hadd => exact channelReady_addChannel hw hadd

/-! ## Nothing comes in -/

section

variable {K : Premises} {e : Env} {b b' : Board} {r r' : OutboxRow}

theorem RowStep.quiet (hoff : e.settings.channelReady = false) (h : RowStep K e b r r')
    (hr : r.status.undelivered = false) : r'.status.undelivered = false := by
  rcases h with rfl | ⟨h, -⟩
  · exact hr
  · cases h with
    | expire hout =>
      rw [timedOut_sending hout] at hr
      cases hr
    | withdraw hout =>
      rw [hout.undelivered] at hr
      cases hr
    | release hready =>
      rw [hoff] at hready
      cases hready
    | claim token hready =>
      rw [hoff] at hready
      cases hready
    | deliver p hs =>
      rw [hs] at hr
      cases hr
    | fail p hs =>
      rw [hs] at hr
      cases hr

/-- What is inserted while the channel is off is suppressed. -/
theorem newRow_quiet (hoff : e.settings.channelReady = false) (n : Notice) (key : String) (id : ℕ) :
    (n.newRow e key id).status.undelivered = false := by
  have hreason := Settings.suppressionReason_of_not_ready hoff e.now (n.subject key) n.occurredAt
  obtain ⟨reason, hreason⟩ := Option.isSome_iff_exists.1 hreason
  unfold Notice.newRow
  rw [hreason]
  rfl

theorem Inserted.quiet {n : Notice} (hoff : e.settings.channelReady = false)
    (h : Inserted e n b b') (hb : ∀ r ∈ b.outbox, r.status.undelivered = false) :
    ∀ r ∈ b'.outbox, r.status.undelivered = false := by
  cases h with
  | fresh key hkey hnew hchecked =>
    intro r hr
    rcases List.mem_append.1 hr with hr | hr
    · exact hb r hr
    · rw [List.mem_singleton.1 hr]
      exact newRow_quiet hoff n key b.nextId
  | swallowed => exact hb

theorem quiet_suppressRows {p : OutboxRow → Bool} {reason : String}
    (hb : ∀ r ∈ b.outbox, r.status.undelivered = false) :
    ∀ r ∈ (b.suppressRows p reason).outbox, r.status.undelivered = false := by
  intro r' hr'
  obtain ⟨r, hr, rfl⟩ := List.mem_map.1 hr'
  split
  · rfl
  · exact hb r hr

/-- While the channel is off nothing comes into the outbox. -/
theorem Change.quiet (hoff : e.settings.channelReady = false) (h : Change K e b b')
    (hb : ∀ r ∈ b.outbox, r.status.undelivered = false) :
    ∀ r ∈ b'.outbox, r.status.undelivered = false := by
  cases h with
  | rows f hf hway =>
    intro r' hr'
    obtain ⟨r, hr, rfl⟩ := List.mem_map.1 hr'
    exact (hf r hr).quiet hoff (hb r hr)
  | report hk h =>
    cases h with
    | absent => exact hb
    | stale => exact hb
    | inactive => exact hb
    | opened _ _ _ hins => exact hins.quiet hoff hb
    | reopened _ _ _ _ _ hins => exact hins.quiet hoff hb
    | seen => exact hb
    | escalated _ _ _ _ _ hins => exact hins.quiet hoff hb
    | deescalated => exact quiet_suppressRows hb
    | recovered _ _ _ _ _ hins => exact hins.quiet hoff (quiet_suppressRows hb)
  | event hn h => exact h.quiet hoff hb
  | retire hk h => cases h <;> exact quiet_suppressRows hb

theorem Changes.quiet (hoff : e.settings.channelReady = false) (h : Changes K e b b')
    (hb : ∀ r ∈ b.outbox, r.status.undelivered = false) :
    ∀ r ∈ b'.outbox, r.status.undelivered = false := by
  induction h with
  | refl => exact hb
  | tail _ h ih => exact h.quiet hoff ih

end

section

variable {K : QueuePremises} {e : Env} {q q' : StatusQueue}

/-- While the channel is off nothing comes into its part of the status queue. -/
theorem QueueChange.quiet (hs : e.settings.ChannelsOk) (hoff : e.settings.channelReady = false)
    (h : QueueChange K e q q')
    (hq : ∀ d ∈ q.deliveries, d.channelId = 1 → d.status.undelivered = false) :
    ∀ d ∈ q'.deliveries, d.channelId = 1 → d.status.undelivered = false := by
  cases h with
  | rows f hf =>
    intro d' hd' hid
    obtain ⟨d, hd, rfl⟩ := List.mem_map.1 hd'
    rw [(hf d hd).frame.2.2.1] at hid
    rw [(hf d hd).final (hq d hd hid)]
    exact hq d hd hid
  | publish key content =>
    intro d hd hid
    rcases List.mem_append.1 hd with hd | hd
    · exact hq d hd hid
    · obtain ⟨c, hc, k, -, -, rfl⟩ := mem_fanOut hd
      rw [← Bool.not_eq_true]
      intro hu
      rw [hs.channelReady_of_ready hc hid (delivery_undelivered hu)] at hoff
      cases hoff
  | spent => exact hq

theorem QueueChanges.quiet (hs : e.settings.ChannelsOk) (hoff : e.settings.channelReady = false)
    (h : QueueChanges K e q q')
    (hq : ∀ d ∈ q.deliveries, d.channelId = 1 → d.status.undelivered = false) :
    ∀ d ∈ q'.deliveries, d.channelId = 1 → d.status.undelivered = false := by
  induction h with
  | refl => exact hq
  | tail _ h ih => exact h.quiet hs hoff ih

end

/-! ## Switching it off -/

theorem suppressOutbox_quiet {b b' : Board} {reason : String} (h : suppressOutbox reason b = .ok b') :
    ∀ r ∈ b'.outbox, r.status.undelivered = false := by
  intro r' hr'
  obtain ⟨r, -, ⟨-, rfl⟩ | ⟨hu, rfl⟩⟩ := mem_updateOutbox h hr'
  · rfl
  · exact hu

theorem suppressChannelDeliveries_quiet {s : Settings} {q q' : StatusQueue} {reason : String}
    (hs : s.ChannelsOk) (hq : q.Wf s) (h : suppressChannelDeliveries reason q = .ok q') :
    ∀ d ∈ q'.deliveries, d.channelId = 1 → d.status.undelivered = false := by
  obtain ⟨-, rfl⟩ := StatusQueue.update_eq_ok h
  intro d' hd' hid
  obtain ⟨d, hd, rfl⟩ := List.mem_map.1 hd'
  obtain ⟨c₀, hc₀, hid₀, htype₀⟩ := hs.discord
  obtain ⟨c, hc, hcid, htype⟩ := hq.channels d hd
  by_cases hp : (d.channelId = 1 && d.providerType = .discord && d.status.undelivered) = true
  · rw [if_pos hp]
    rfl
  · rw [if_neg hp] at hid ⊢
    -- a delivery of channel 1 is one of the Discord channel
    have hprovider : d.providerType = .discord := by
      rw [← htype, ← htype₀, hs.eq_of_id hc hc₀ ((hcid.trans hid).trans hid₀.symm)]
    simpa [hid, hprovider] using hp

namespace World

theorem quiet_step {w : World} {c : Call} (hw : w.Sound) (hb : w.board.Wf)
    (h : w.settings.channelReady = false → w.Quiet)
    (hoff : (w.step c).settings.channelReady = false) : (w.step c).Quiet := by
  rcases step_eq (w := w) (c := c) with hstep | hstep
  · rw [hstep] at hoff ⊢
    exact h hoff
  cases hc : c.request.switches with
  | false =>
    rw [channelReady_apply hw.channels hc hstep] at hoff
    exact ⟨(changes_step hb (c.meets_any w)).quiet hoff (h hoff).outbox,
      (queueChanges_step hw (c.meetsQueue_any w)).quiet hw.channels hoff (h hoff).deliveries⟩
  | true =>
    obtain ⟨now, request⟩ := c
    cases request with
    | setChannel enabled configured displayName =>
      obtain ⟨x, y, -, -, hset, ⟨hxy, -, -⟩ | ⟨-, reason, -, hboard, hqueue⟩⟩ :=
        setNotificationChannel_eq_ok hstep
      · rw [hset, channelReady_setDiscord hw.channels, hxy] at hoff
        cases hoff
      · exact ⟨suppressOutbox_quiet hboard,
          suppressChannelDeliveries_quiet hw.channels hw.queue hqueue⟩
    | _ => cases hc

/-- Whenever the channel is off there is nothing to send to it. -/
theorem quiet_run (calls : List Call) (hoff : (initial.run calls).settings.channelReady = false) :
    (initial.run calls).Quiet := by
  suffices h : (initial.run calls).Sound ∧ (initial.run calls).board.Wf ∧
      ((initial.run calls).settings.channelReady = false → (initial.run calls).Quiet) from
    h.2.2 hoff
  apply Runs.run_invariant (P := fun w : World =>
    w.Sound ∧ w.board.Wf ∧ (w.settings.channelReady = false → w.Quiet))
  · exact fun w c h => ⟨h.1.step c, wf_step h.2.1, quiet_step h.1 h.2.1 h.2.2⟩
  · exact ⟨Sound.initial, Board.Wf.empty, fun _ =>
      ⟨fun _ h => absurd h List.not_mem_nil, fun _ h => absurd h List.not_mem_nil⟩⟩

end World

/-! ## Claims -/

section

variable {e : Env} {b : Board} {q : StatusQueue}

theorem claimNotificationOutbox_off (hoff : e.settings.channelReady = false) {t : Uuid} {n : ℤ}
    (hn : 1 ≤ n ∧ n ≤ 20) : claimNotificationOutbox e b (some t) (some n) = .ok ([], b) := by
  have hlimit : (some n).filter (fun n : ℤ => 1 ≤ n && n ≤ 20) = some n := by
    simp [Option.filter, hn]
  unfold claimNotificationOutbox
  rw [hlimit]
  simp only [orRaise, hoff, Bool.not_false, ite_true]
  rfl

/-- An update that concerns no delivery. -/
theorem update_eq_self {p : StatusDelivery → Bool} {f : StatusDelivery → StatusDelivery}
    (h : ∀ d ∈ q.deliveries, p d = false) : q.update p f = .ok q := by
  have hnone : q.deliveries.filter p = [] := by
    rw [List.filter_eq_nil_iff]
    intro d hd
    rw [h d hd]
    exact Bool.false_ne_true
  have hsame : updateWhere p f q.deliveries = q.deliveries := by
    unfold updateWhere
    conv_rhs => rw [← List.map_id q.deliveries]
    apply List.map_congr_left
    intro d hd
    rw [if_neg (by rw [h d hd]; exact Bool.false_ne_true)]
    rfl
  unfold StatusQueue.update
  rw [hnone, hsame]
  rfl

/-- A claim finds nothing in a queue from which nothing is to be sent. -/
theorem claimNotificationDeliveries_quiet (hq : ∀ d ∈ q.deliveries, d.status.undelivered = false)
    {provider : String} {x : Provider} (hx : Provider.ofText? provider = some x) {t : Uuid} {n : ℤ}
    (hn : 1 ≤ n ∧ n ≤ 20) :
    claimNotificationDeliveries e (some provider) (some t) (some n) q = .ok ([], q) := by
  have hlimit : (some n).filter (fun n : ℤ => 1 ≤ n && n ≤ 20) = some n := by
    simp [Option.filter, hn]
  have hwaiting : ∀ d ∈ q.deliveries, d.status.waiting = false := by
    intro d hd
    rw [← Bool.not_eq_true]
    intro hw
    have hu := hq d hd
    rw [undelivered_of_waiting hw] at hu
    cases hu
  have hexpire : expireDeliveries e x q = .ok q := by
    apply update_eq_self
    intro d hd
    rw [← Bool.not_eq_true]
    intro hout
    have hu := hq d hd
    rw [statusTimedOut_sending hout] at hu
    cases hu
  have hsuppress : suppressDeliveries e x q = .ok q := by
    apply update_eq_self
    intro d hd
    simp [hwaiting d hd]
  have hpicked : q.picked e x n.toNat = [] := by
    have hnone : q.deliveries.filter (q.claimable e x) = [] := by
      rw [List.filter_eq_nil_iff]
      intro d hd hclaimable
      have hw := hwaiting d hd
      rw [claimable_waiting hclaimable] at hw
      cases hw
    unfold StatusQueue.picked
    rw [hnone, (orderBy_eq_nil _).2 rfl, List.take_nil]
  have htake : takeDeliveries e q t (q.picked e x n.toNat) = .ok q := by
    apply update_eq_self
    intro d _
    rw [hpicked]
    rfl
  unfold claimNotificationDeliveries
  rw [hlimit, Option.bind_some, hx]
  simp only [orRaise, bind, Except.bind, hexpire, hsuppress, htake]
  rw [hpicked]
  simp [orderBy]

/-- A claim takes no delivery of a channel that is off. -/
theorem claimNotificationDeliveries_off (hs : e.settings.ChannelsOk)
    (hoff : e.settings.channelReady = false) {q' : StatusQueue} (hq : q.Wf e.settings)
    {provider : Option String} {token : Option Uuid} {limit : Option ℤ}
    {rows : List StatusDelivery}
    (h : claimNotificationDeliveries e provider token limit q = .ok (rows, q')) :
    ∀ d ∈ rows, d.channelId ≠ 1 := by
  obtain ⟨x, t, n, q₁, q₂, -, -, -, -, h₁, h₂, h₃, rfl⟩ := claimNotificationDeliveries_eq_ok h
  have hexpire : QueueChange .any e q q₁ := queueChange_of_expire h₁
  have hsuppress : QueueChange .any e q₁ q₂ := queueChange_of_suppress h₂
  have hwf := hsuppress.wf (hexpire.wf hq)
  intro d hd hid
  rw [mem_orderBy, List.mem_filter, decide_eq_true_eq] at hd
  obtain ⟨-, rfl⟩ := StatusQueue.update_eq_ok h₃
  obtain ⟨d₀, hd₀, rfl⟩ := List.mem_map.1 hd.1
  have hframe : ∀ d' : StatusDelivery, (d'.claim t e.now).id = d'.id ∧
      (d'.claim t e.now).channelId = d'.channelId := fun _ => ⟨rfl, rfl⟩
  by_cases hp : d₀.id ∈ (q₂.picked e x n.toNat).map (·.id)
  · rw [if_pos (decide_eq_true hp), (hframe d₀).2] at hid
    have hclaimable := claimable_of_picked hwf hd₀ hp
    unfold StatusQueue.claimable StatusDelivery.channel? at hclaimable
    simp only [Bool.and_eq_true] at hclaimable
    obtain ⟨c, hc, hready⟩ := (Option.any_eq_true _ _).1 hclaimable.1.1.2
    have hcid := List.find?_some hc
    rw [Bool.and_eq_true, decide_eq_true_eq] at hcid
    rw [hs.channelReady_of_ready (List.mem_of_find?_eq_some hc) (hcid.1.trans hid) hready] at hoff
    cases hoff
  · rw [if_neg (by simpa using hp)] at hd
    exact hp hd.2

end

/-! ## Tokens from before -/

/-- No row that is being sent to the channel carries the token. -/
structure World.Without (t : Uuid) (w : World) : Prop where
  outbox : ∀ r ∈ w.board.outbox, r.status = .sending → r.claimToken ≠ some t
  deliveries : ∀ d ∈ w.queue.deliveries, d.channelId = 1 → d.status = .sending →
    d.claimToken ≠ some t

/-- Nobody claims under the token. -/
def Premises.without (t : Uuid) : Premises := { Premises.any with claim := (· ≠ t) }

/-- Nobody claims deliveries under the token. -/
def QueuePremises.without (t : Uuid) : QueuePremises := { QueuePremises.any with claim := (· ≠ t) }

/-- The call claims under the token. -/
def Call.ClaimsWith (t : Uuid) (c : Call) : Prop :=
  (∃ limit, c.request = .claim (some t) limit) ∨
    ∃ provider limit, c.request = .claimStatus provider (some t) limit

section

variable {t : Uuid} {e : Env}

theorem RowStep.token {b : Board} {r r' : OutboxRow} (h : RowStep (.without t) e b r r')
    (hr : r.status = .sending → r.claimToken ≠ some t) (hs : r'.status = .sending) :
    r'.claimToken ≠ some t := by
  rcases h with rfl | ⟨h, -⟩
  · exact hr hs
  · cases h with
    | claim token _ _ _ hk => exact fun htoken => hk (Option.some.inj htoken)
    | fail => exact absurd hs (failedStatus_ne_sending r)
    | expire => cases hs
    | withdraw => cases hs
    | release => cases hs
    | deliver => cases hs

theorem Inserted.token {b b' : Board} {n : Notice} (h : Inserted e n b b')
    (hb : ∀ r ∈ b.outbox, r.status = .sending → r.claimToken ≠ some t) :
    ∀ r ∈ b'.outbox, r.status = .sending → r.claimToken ≠ some t := by
  cases h with
  | fresh key hkey hnew hchecked =>
    intro r hr hs
    rcases List.mem_append.1 hr with hr | hr
    · exact hb r hr hs
    · rw [List.mem_singleton.1 hr]
      exact nofun
  | swallowed => exact hb

theorem token_suppressRows {b : Board} {p : OutboxRow → Bool} {reason : String}
    (hb : ∀ r ∈ b.outbox, r.status = .sending → r.claimToken ≠ some t) :
    ∀ r ∈ (b.suppressRows p reason).outbox, r.status = .sending → r.claimToken ≠ some t := by
  intro r' hr' hs
  obtain ⟨r, hr, rfl⟩ := List.mem_map.1 hr'
  by_cases hp : p r = true
  · rw [if_pos hp]
    exact nofun
  · rw [if_neg hp] at hs ⊢
    exact hb r hr hs

theorem Change.token {b b' : Board} (h : Change (.without t) e b b')
    (hb : ∀ r ∈ b.outbox, r.status = .sending → r.claimToken ≠ some t) :
    ∀ r ∈ b'.outbox, r.status = .sending → r.claimToken ≠ some t := by
  cases h with
  | rows f hf hway =>
    intro r' hr'
    obtain ⟨r, hr, rfl⟩ := List.mem_map.1 hr'
    exact (hf r hr).token (hb r hr)
  | report hk h =>
    cases h with
    | absent => exact hb
    | stale => exact hb
    | inactive => exact hb
    | opened _ _ _ hins => exact hins.token hb
    | reopened _ _ _ _ _ hins => exact hins.token hb
    | seen => exact hb
    | escalated _ _ _ _ _ hins => exact hins.token hb
    | deescalated => exact token_suppressRows hb
    | recovered _ _ _ _ _ hins => exact hins.token (token_suppressRows hb)
  | event hn h => exact h.token hb
  | retire hk h => cases h <;> exact token_suppressRows hb

theorem QueueChange.token {q q' : StatusQueue} (h : QueueChange (.without t) e q q')
    (hq : ∀ d ∈ q.deliveries, d.channelId = 1 → d.status = .sending → d.claimToken ≠ some t) :
    ∀ d ∈ q'.deliveries, d.channelId = 1 → d.status = .sending → d.claimToken ≠ some t := by
  cases h with
  | rows f hf =>
    intro d' hd' hid hs
    obtain ⟨d, hd, rfl⟩ := List.mem_map.1 hd'
    rw [(hf d hd).frame.2.2.1] at hid
    rcases hf d hd with hsame | ⟨hmove, -⟩
    · rw [hsame] at hs ⊢
      exact hq d hd hid hs
    · generalize f d = d' at hmove hs ⊢
      cases hmove with
      | claim provider token h hk => exact fun htoken => hk (Option.some.inj htoken)
      | fail =>
        change d.failedStatus = .sending at hs
        unfold StatusDelivery.failedStatus at hs
        split at hs <;> cases hs
      | expire => cases hs
      | suppress => cases hs
      | deliver => cases hs
  | publish key content =>
    intro d hd hid hs
    rcases List.mem_append.1 hd with hd | hd
    · exact hq d hd hid hs
    · obtain ⟨c, -, k, -, -, rfl⟩ := mem_fanOut hd
      exact absurd hs delivery_not_sending.1
  | spent => exact hq

end

namespace World

variable {t : Uuid} {w : World}

/-- A token that nobody carries and nobody claims under stays so. -/
theorem Without.run (hw : w.Sound) (hb : w.board.Wf) (h : w.Without t) {calls : List Call}
    (hcalls : ∀ c ∈ calls, ¬ c.ClaimsWith t) : (w.run calls).Without t where
  outbox := by
    apply run_changes (K := .without t) (P := fun b : Board => ∀ r ∈ b.outbox,
      r.status = .sending → r.claimToken ≠ some t)
    · exact fun _ _ _ _ _ hP hchange => hchange.token hP
    · intro front c back hsplit
      have hc : ¬ c.ClaimsWith t := hcalls c (by rw [hsplit]; simp)
      exact ⟨trivial, fun _ _ => trivial, fun _ _ _ _ _ _ => trivial,
        fun _ _ _ _ _ _ _ _ _ => trivial, fun _ _ _ _ _ _ _ => trivial,
        fun _ _ _ _ _ _ _ _ => trivial, fun _ => trivial,
        fun t' limit hrequest heq => hc (.inl ⟨limit, heq ▸ hrequest⟩)⟩
    · exact hb
    · exact h.outbox
  deliveries := by
    apply run_queueChanges (K := .without t) (P := fun q : StatusQueue => ∀ d ∈ q.deliveries,
      d.channelId = 1 → d.status = .sending → d.claimToken ≠ some t)
    · exact fun _ _ _ _ _ hP hchange => hchange.token hP
    · intro front c back hsplit
      have hc : ¬ c.ClaimsWith t := hcalls c (by rw [hsplit]; simp)
      exact ⟨fun _ _ _ _ _ _ => trivial,
        fun provider t' limit hrequest heq => hc (.inr ⟨provider, limit, heq ▸ hrequest⟩),
        fun _ _ _ _ _ _ _ _ => trivial⟩
    · exact hw
    · exact h.deliveries

theorem Quiet.without (h : w.Quiet) (t : Uuid) : w.Without t where
  outbox r hr hs := by
    have hu := h.outbox r hr
    rw [hs] at hu
    cases hu
  deliveries d hd hid hs := by
    have hu := h.deliveries d hd hid
    rw [hs] at hu
    cases hu

end World

/-! ## Completions -/

section

variable {t : Uuid} {w : World} {e : Env} {i : ℤ} {p : DeliveryReport}

theorem complete_of_without (h : w.Without t) (hi : 1 ≤ i) (hsuccess : p.success.isSome = true)
    (hlimits : p.limitsOk = true) :
    completeNotificationDelivery e (some i) (some t) p w.board = .ok (.claimMismatch, w.board) := by
  obtain ⟨success, hsuccess⟩ := Option.isSome_iff_exists.1 hsuccess
  have hid : (some i).filter (fun i : ℤ => 1 ≤ i) = some i := by simp [Option.filter, hi]
  have hheld : w.board.held? i t = none := by
    apply List.find?_eq_none.2
    intro r hr hheldBy
    obtain ⟨-, hs, htoken⟩ := heldBy_iff.1 hheldBy
    exact h.outbox r hr hs htoken
  unfold completeNotificationDelivery
  rw [hid, hsuccess, hlimits]
  simp only [orRaise, raiseIf, bind, Except.bind, Bool.not_true, Bool.false_eq_true, ite_false, hheld]
  rfl

theorem completeStatus_of_without (h : w.Without t)
    (hchannel : ∀ d ∈ w.queue.deliveries, (d.id : ℤ) = i → d.channelId = 1) (hi : 1 ≤ i)
    (hsuccess : p.success.isSome = true) (hlimits : p.limitsOk = true) :
    completeNotificationEventDelivery e (some i) (some t) p w.queue =
      .ok (.claimMismatch, w.queue) := by
  obtain ⟨success, hsuccess⟩ := Option.isSome_iff_exists.1 hsuccess
  have hid : (some i).filter (fun i : ℤ => 1 ≤ i) = some i := by simp [Option.filter, hi]
  have hheld : w.queue.held? i t = none := by
    apply List.find?_eq_none.2
    intro d hd hheldBy
    obtain ⟨hdi, hs, htoken⟩ := statusHeldBy_iff.1 hheldBy
    exact h.deliveries d hd (hchannel d hd hdi) hs htoken
  unfold completeNotificationEventDelivery
  rw [hid, hsuccess, hlimits]
  simp only [orRaise, raiseIf, bind, Except.bind, Bool.not_true, Bool.false_eq_true, ite_false, hheld]
  rfl

end

/-! ## Runs -/

/-- The call adds a channel. -/
def Request.addsChannel : Request → Bool
  | .addChannel _ => true
  | _ => false

/-- Unless a channel is added, the Discord channel is the only one. -/
theorem onlyDiscord_run {calls : List Call} (h : ∀ c ∈ calls, c.request.addsChannel = false) :
    ∀ d ∈ (World.initial.run calls).queue.deliveries, d.channelId = 1 := by
  have hids : (World.initial.run calls).settings.channels.map (·.id) = [1] := by
    apply Runs.run_invariant_of (P := fun w : World => w.settings.channels.map (·.id) = [1])
      (Q := fun _ c => c.request.addsChannel = false)
    · intro w c hw hc
      rcases World.step_eq (w := w) (c := c) with hstep | hstep
      · rw [hstep]
        exact hw
      have hsettings := settingsStep_apply hstep
      generalize c.request = request at hc hsettings
      generalize (w.step c).settings = s' at hsettings ⊢
      cases hsettings with
      | same => exact hw
      | maintained hm =>
        rw [(Settings.maintain_eq_ok hm).2.1]
        exact hw
      | host => exact hw
      | switched enabled configured name x y =>
        have hmap : (w.settings.setDiscord x y).channels.map (·.id) =
            w.settings.channels.map (·.id) := map_updateWhere fun _ => rfl
        rw [hmap]
        exact hw
      | added => cases hc
    · intro front c back hsplit
      exact h c (by rw [hsplit]; simp)
    · rfl
  intro d hd
  obtain ⟨c, hc, hid, -⟩ := (World.Sound.initial.run calls).queue.channels d hd
  have hmem := List.mem_map_of_mem (f := fun c : Channel => c.id) hc
  rw [hids, List.mem_singleton] at hmem
  exact hid.symm.trans hmem

/-- What holds of the tables while the Discord channel is off, and of a token that was in use
before. -/
structure OffIsTotal (calls : List Call) : Prop where
  /-- Nothing is to be sent to the channel. -/
  rows : ∀ front back, calls = front ++ back →
    (World.initial.run front).settings.channelReady = false →
      (∀ r ∈ (World.initial.run front).board.outbox, r.status ∉ [.pending, .retry, .sending]) ∧
        ∀ d ∈ (World.initial.run front).queue.deliveries, d.channelId = 1 →
          d.status ∉ [.pending, .retry, .sending]
  /-- Claims find nothing, on either queue, unless there is another channel. -/
  claims : ∀ front back, calls = front ++ back →
    (World.initial.run front).settings.channelReady = false → ∀ now t n, (1 ≤ n ∧ n ≤ 20) →
      claimNotificationOutbox ((World.initial.run front).env now) (World.initial.run front).board
          (some t) (some n) = .ok ([], (World.initial.run front).board) ∧
        ((∀ c ∈ calls, c.request.addsChannel = false) → ∀ provider ∈ ["discord", "slack"],
          claimNotificationDeliveries ((World.initial.run front).env now) (some provider) (some t)
              (some n) (World.initial.run front).queue =
            .ok ([], (World.initial.run front).queue)) ∧
        ∀ provider rows q, claimNotificationDeliveries ((World.initial.run front).env now) provider
            (some t) (some n) (World.initial.run front).queue = .ok (rows, q) →
          ∀ d ∈ rows, d.channelId ≠ 1
  /-- Completions do not find their row, then and later, until someone claims under their token. -/
  completions : ∀ front mid back, calls = front ++ mid ++ back →
    (World.initial.run front).settings.channelReady = false →
      ∀ t, (∀ c ∈ mid, ¬ c.ClaimsWith t) → ∀ now i p, 1 ≤ i → p.success.isSome = true →
        p.limitsOk = true →
          completeNotificationDelivery ((World.initial.run (front ++ mid)).env now) (some i) (some t)
              p (World.initial.run (front ++ mid)).board =
            .ok (.claimMismatch, (World.initial.run (front ++ mid)).board) ∧
          ((∀ d ∈ (World.initial.run (front ++ mid)).queue.deliveries,
              (d.id : ℤ) = i → d.channelId = 1) →
            completeNotificationEventDelivery ((World.initial.run (front ++ mid)).env now) (some i)
                (some t) p (World.initial.run (front ++ mid)).queue =
              .ok (.claimMismatch, (World.initial.run (front ++ mid)).queue))

theorem notMem_of_quiet {s : DeliveryStatus} (h : s.undelivered = false) :
    s ∉ [.pending, .retry, .sending] := by
  cases s <;> simp_all [DeliveryStatus.undelivered]

/-- While the Discord channel is off nothing is to be sent to it, claims find nothing, and
completions do not find their row. -/
theorem channel_off_is_total (calls : List Call) : OffIsTotal calls where
  rows front back _ hoff := by
    have hquiet := World.quiet_run front hoff
    exact ⟨fun r hr => notMem_of_quiet (hquiet.outbox r hr),
      fun d hd hid => notMem_of_quiet (hquiet.deliveries d hd hid)⟩
  claims front back hsplit hoff now t n hn := by
    have hquiet := World.quiet_run front hoff
    have hsound := World.Sound.initial.run front
    refine ⟨claimNotificationOutbox_off hoff hn, fun hadds provider hprovider => ?_, ?_⟩
    · have hfront : ∀ c ∈ front, c.request.addsChannel = false :=
        fun c hc => hadds c (by rw [hsplit]; simp [hc])
      have honly := onlyDiscord_run hfront
      have hall : ∀ d ∈ (World.initial.run front).queue.deliveries,
          d.status.undelivered = false := fun d hd => hquiet.deliveries d hd (honly d hd)
      simp only [List.mem_cons, List.not_mem_nil, or_false] at hprovider
      rcases hprovider with rfl | rfl
      · exact claimNotificationDeliveries_quiet hall (x := .discord) rfl hn
      · exact claimNotificationDeliveries_quiet hall (x := .slack) rfl hn
    · intro provider rows q h
      exact claimNotificationDeliveries_off hsound.channels hoff hsound.queue h
  completions front mid back _ hoff t hmid now i p hi hsuccess hlimits := by
    have hwithout : (World.initial.run (front ++ mid)).Without t := by
      rw [World.run_append]
      exact ((World.quiet_run front hoff).without t).run (World.Sound.initial.run front)
        (World.wf_run front Board.Wf.empty) hmid
    exact ⟨complete_of_without hwithout hi hsuccess hlimits,
      fun hchannel => completeStatus_of_without hwithout hchannel hi hsuccess hlimits⟩

end IvrmDashboard.Notifications

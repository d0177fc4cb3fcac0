import IvrmDashboard.Notifications.Steps

/-!
# Every call is a sequence of changes

A claim is followed through its stages; after the first four every waiting announcement belongs to
the present episode of its signal (`Board.Tidy`), which is why only such announcements are taken.
The other calls are one change each. `changes_step` puts them together, and `run_invariant` is the
induction over a run that every result about the outbox uses.
-/

namespace IvrmDashboard.Notifications

open Sql Operations

variable {K : Premises} {e : Env} {b b' : Board}

/-! ## One update -/

/-- An update all of whose moves are moves of a row is a change. -/
theorem change_of_updateOutbox {p : OutboxRow → Bool} {f : OutboxRow → OutboxRow}
    (hmove : ∀ r ∈ b.outbox, p r = true → RowMove K e b r (f r))
    (h : b.updateOutbox p f = .ok b')
    (hway : OneWay (fun r => if p r then f r else r) b.outbox) : Change K e b b' := by
  obtain ⟨hchecked, rfl⟩ := Board.updateOutbox_eq_ok h
  refine .rows _ (fun r hr => ?_) hway
  by_cases hp : p r = true
  · right
    rw [if_pos hp]
    exact ⟨hmove r hr hp, hchecked r hr hp⟩
  · left
    rw [if_neg hp]

/-- An update that takes no row. -/
theorem oneWay_of_ne {p : OutboxRow → Bool} {f : OutboxRow → OutboxRow} {rows : List OutboxRow}
    (h : ∀ r, (f r).status ≠ .sending) : OneWay (fun r => if p r then f r else r) rows := by
  left
  intro r _ hs
  dsimp only at hs
  split at hs
  · exact absurd hs (h r)
  · exact hs

/-- The rows after an update. -/
theorem mem_updateOutbox {p : OutboxRow → Bool} {f : OutboxRow → OutboxRow} {r' : OutboxRow}
    (h : b.updateOutbox p f = .ok b') (hr' : r' ∈ b'.outbox) :
    ∃ r ∈ b.outbox, (p r = true ∧ r' = f r) ∨ (p r = false ∧ r' = r) := by
  obtain ⟨-, rfl⟩ := Board.updateOutbox_eq_ok h
  obtain ⟨r, hr, rfl⟩ := List.mem_map.1 hr'
  refine ⟨r, hr, ?_⟩
  cases hp : p r with
  | true => exact .inl ⟨rfl, rfl⟩
  | false => exact .inr ⟨rfl, rfl⟩

theorem signals_of_updateOutbox {p : OutboxRow → Bool} {f : OutboxRow → OutboxRow}
    (h : b.updateOutbox p f = .ok b') : b'.signals = b.signals := by
  obtain ⟨-, rfl⟩ := Board.updateOutbox_eq_ok h
  rfl

theorem current_congr {r r' : OutboxRow} (hs : b'.signals = b.signals)
    (hr : r'.toNotice = r.toNotice) : b'.current r' = b.current r := by
  unfold Board.current Board.signal?
  rw [hs, signalKey_eq_of_toNotice hr, occurredAt_eq_of_toNotice hr]

/-! ## The stages of a claim -/

/-- Every waiting announcement belongs to the present episode of its signal. -/
def Board.Tidy (b : Board) : Prop :=
  ∀ r ∈ b.outbox, r.status.waiting = true → r.signalKey.isSome = true →
    r.transition.announces = true → b.current r = true

theorem change_of_expireClaims (h : expireClaims e b = .ok b') : Change K e b b' :=
  change_of_updateOutbox (fun _ _ hp => .expire hp) h (oneWay_of_ne fun _ => nofun)

theorem change_of_suppressBlocked (h : suppressBlocked e b = .ok b') : Change K e b b' := by
  apply change_of_updateOutbox _ h (oneWay_of_ne fun _ => nofun)
  intro r _ hp
  rw [Bool.and_eq_true] at hp
  obtain ⟨reason, hreason⟩ := Option.isSome_iff_exists.1 hp.2
  rw [hreason]
  exact .withdraw (.blocked hp.1 hreason)

theorem change_of_withdrawEnded (h : withdrawEnded b = .ok b') : Change K e b b' := by
  apply change_of_updateOutbox _ h (oneWay_of_ne fun _ => nofun)
  intro r _ hp
  simp only [Bool.and_eq_true, Bool.not_eq_true'] at hp
  exact .withdraw (.ended hp.1.1.1 hp.1.2 hp.2)

theorem change_of_withdrawUnannounced (h : withdrawUnannounced b = .ok b') : Change K e b b' := by
  apply change_of_updateOutbox _ h (oneWay_of_ne fun _ => nofun)
  intro r _ hp
  simp only [Bool.and_eq_true, decide_eq_true_eq] at hp
  exact .withdraw (.unannounced _ hp.1.1.1 hp.1.2)

theorem tidy_of_withdrawEnded (h : withdrawEnded b = .ok b') : b'.Tidy := by
  intro r' hr' hw hk ha
  have hsignals : b'.signals = b.signals := signals_of_updateOutbox h
  obtain ⟨r, -, ⟨hp, rfl⟩ | ⟨hp, rfl⟩⟩ := mem_updateOutbox h hr'
  · exact absurd hw Bool.false_ne_true
  · rw [current_congr hsignals rfl]
    simpa [hw, hk, ha] using hp

theorem Board.Tidy.withdrawUnannounced (hb : b.Tidy) (h : withdrawUnannounced b = .ok b') :
    b'.Tidy := by
  intro r' hr' hw hk ha
  have hsignals : b'.signals = b.signals := signals_of_updateOutbox h
  obtain ⟨r, hr, ⟨hp, rfl⟩ | ⟨hp, rfl⟩⟩ := mem_updateOutbox h hr'
  · exact absurd hw Bool.false_ne_true
  · rw [current_congr hsignals rfl]
    exact hb _ hr hw hk ha

/-- The stages before the release. -/
theorem prepareRelease_eq_ok (h : prepareRelease e b = .ok b') :
    Changes K e b b' ∧ b'.signals = b.signals ∧ b'.Tidy := by
  simp only [prepareRelease, bind_eq_ok] at h
  obtain ⟨b₁, h₁, b₂, h₂, b₃, h₃, h₄⟩ := h
  refine ⟨?_, ?_, (tidy_of_withdrawEnded h₃).withdrawUnannounced h₄⟩
  · apply Relation.ReflTransGen.head (change_of_expireClaims h₁)
    apply Relation.ReflTransGen.head (change_of_suppressBlocked h₂)
    apply Relation.ReflTransGen.head (change_of_withdrawEnded h₃)
    exact .single (change_of_withdrawUnannounced h₄)
  · rw [signals_of_updateOutbox h₄, signals_of_updateOutbox h₃, signals_of_updateOutbox h₂,
      signals_of_updateOutbox h₁]

/-- What is known of the rows a claim releases in the tables `b`. -/
def Premises.Releases (K : Premises) (e : Env) (b : Board) : Prop :=
  ∀ r ∈ b.outbox, b.latestSuppressed r = true → r.blockReason e = none → K.release b r

theorem change_of_releaseSuppressed (hready : e.settings.channelReady = true)
    (hk : K.Releases e b) (h : releaseSuppressed e b = .ok b') : Change K e b b' := by
  apply change_of_updateOutbox _ h (oneWay_of_ne fun _ => nofun)
  intro r hr hp
  rw [Bool.and_eq_true, Option.isNone_iff_eq_none] at hp
  exact .release hready hp.1 hp.2 (hk r hr hp.1 hp.2)

theorem Board.Tidy.releaseSuppressed (hb : b.Tidy) (h : releaseSuppressed e b = .ok b') :
    b'.Tidy := by
  intro r' hr' hw hk ha
  have hsignals : b'.signals = b.signals := signals_of_updateOutbox h
  obtain ⟨r, hr, ⟨hp, rfl⟩ | ⟨hp, rfl⟩⟩ := mem_updateOutbox h hr'
  · have hcurrent : b'.current (r.release e.now) = b.current r := current_congr hsignals rfl
    rw [hcurrent]
    simp only [latestSuppressed, revivable, Bool.and_eq_true] at hp
    exact hp.1.1.1.2
  · rw [current_congr hsignals rfl]
    exact hb _ hr hw hk ha

theorem mem_picked {now : ℤ} {limit : ℕ} {r : OutboxRow} (h : r ∈ b.picked now limit) :
    r ∈ b.outbox ∧ b.claimable now r = true := by
  have hr := List.mem_of_mem_take h
  rw [mem_orderBy, List.mem_filter] at hr
  exact hr

theorem waiting_of_claimable {now : ℤ} {r : OutboxRow} (h : b.claimable now r = true) :
    r.status.waiting = true := by
  unfold Board.claimable at h
  simp only [Bool.and_eq_true] at h
  exact h.1.1

theorem undelivered_of_waiting {s : DeliveryStatus} (h : s.waiting = true) :
    s.undelivered = true := by
  cases s <;> first | rfl | cases h

theorem change_of_takeRows {token : Uuid} {limit : ℕ} (hready : e.settings.channelReady = true)
    (hk : K.claim token) (hb : b.Wf) (htidy : b.Tidy)
    (h : takeRows e b token (b.picked e.now limit) = .ok b') :
    Change K e b b' := by
  have hpick : ∀ r ∈ b.outbox, decide (r.id ∈ (b.picked e.now limit).map (·.id)) = true →
      b.claimable e.now r = true := by
    intro r hr hp
    obtain ⟨p, hpicked, hid⟩ := List.mem_map.1 (of_decide_eq_true hp)
    obtain ⟨hpb, hclaimable⟩ := mem_picked hpicked
    obtain rfl := hb.eq_of_id hpb hr hid
    exact hclaimable
  apply change_of_updateOutbox _ h
  · right
    intro r hr hu
    dsimp only at hu
    split at hu
    next hp => exact undelivered_of_waiting (waiting_of_claimable (hpick r hr hp))
    next => exact hu
  · intro r hr hp
    have hclaimable := hpick r hr hp
    exact .claim token hready hclaimable (htidy r hr (waiting_of_claimable hclaimable)) hk

/-- What a claim that commits has done. -/
theorem claimNotificationOutbox_eq_ok {token : Option Uuid} {limit : Option ℤ}
    {rows : List OutboxRow} (h : claimNotificationOutbox e b token limit = .ok (rows, b')) :
    (e.settings.channelReady = false ∧ rows = [] ∧ b' = b) ∨
      (e.settings.channelReady = true ∧ ∃ t n b₁ b₂, token = some t ∧
        prepareRelease e b = .ok b₁ ∧ releaseSuppressed e b₁ = .ok b₂ ∧
        takeRows e b₂ t (b₂.picked e.now n) = .ok b') := by
  simp only [claimNotificationOutbox, bind_eq_ok, orRaise_eq_ok] at h
  obtain ⟨t, ht, n, -, h⟩ := h
  cases hready : e.settings.channelReady with
  | false =>
    simp only [hready, Bool.not_false, ite_true, pure_eq_ok, Prod.mk.injEq] at h
    exact .inl ⟨rfl, h.1.symm, h.2.symm⟩
  | true =>
    simp only [hready, Bool.not_true, Bool.false_eq_true, ite_false, bind_eq_ok, pure_eq_ok,
      Prod.mk.injEq] at h
    obtain ⟨b₁, h₁, b₂, h₂, b₃, h₃, -, rfl⟩ := h
    exact .inr ⟨rfl, t, n.toNat, b₁, b₂, ht, h₁, h₂, h₃⟩

theorem changes_of_claim {token : Option Uuid} {limit : Option ℤ} {rows : List OutboxRow}
    (hb : b.Wf) (hk : ∀ b₁, prepareRelease e b = .ok b₁ → K.Releases e b₁)
    (htoken : ∀ t, token = some t → K.claim t)
    (h : claimNotificationOutbox e b token limit = .ok (rows, b')) : Changes K e b b' := by
  rcases claimNotificationOutbox_eq_ok h with
    ⟨-, -, rfl⟩ | ⟨hready, t, n, b₁, b₂, ht, h₁, h₂, h₃⟩
  · exact .refl
  · obtain ⟨hchanges, -, htidy⟩ := prepareRelease_eq_ok (K := K) h₁
    have hrelease : Change K e b₁ b₂ := change_of_releaseSuppressed hready (hk b₁ h₁) h₂
    have hwf : b₂.Wf := hrelease.wf (hchanges.wf hb)
    have htake : Change K e b₂ b' :=
      change_of_takeRows hready (htoken t ht) hwf (htidy.releaseSuppressed h₂) h₃
    exact (hchanges.tail hrelease).tail htake

/-! ## The rows of a dispatcher -/

theorem held?_eq_some {id : ℤ} {token : Uuid} {r : OutboxRow} (h : b.held? id token = some r) :
    r ∈ b.outbox ∧ r.heldBy id token = true :=
  ⟨List.mem_of_find?_eq_some h, List.find?_some h⟩

theorem heldBy_iff {id : ℤ} {token : Uuid} {r : OutboxRow} :
    r.heldBy id token = true ↔ (r.id : ℤ) = id ∧ r.status = .sending ∧ r.claimToken = some token := by
  simp [OutboxRow.heldBy, and_assoc]

theorem changes_of_suppress {id : Option ℤ} {token : Option Uuid} {reason : Option String}
    {res : DeliveryAnswer}
    (hk : ∀ i t s, id = some i → token = some t → reason = some s →
      ∀ r ∈ b.outbox, r.heldBy i t = true → K.suppress b r s)
    (h : suppressNotificationDelivery id token reason b = .ok (res, b')) : Changes K e b b' := by
  simp only [suppressNotificationDelivery, bind_eq_ok, orRaise_eq_ok,
    Option.filter_eq_some_iff] at h
  obtain ⟨i, ⟨hi, -⟩, t, ht, s, ⟨hs, -⟩, h⟩ := h
  cases hheld : b.held? i t with
  | none =>
    simp only [hheld, pure_eq_ok, Prod.mk.injEq] at h
    rw [h.2]
  | some r =>
    simp only [hheld, bind_eq_ok, pure_eq_ok, Prod.mk.injEq] at h
    obtain ⟨b₁, h₁, -, rfl⟩ := h
    apply Relation.ReflTransGen.single
    apply change_of_updateOutbox _ h₁ (oneWay_of_ne fun _ => DeliveryStatus.noConfusion)
    intro r hr hp
    exact .withdraw (.gate s (heldBy_iff.1 hp).2.1 (hk i t s hi ht hs r hr hp))

theorem failedStatus_ne_sending (r : OutboxRow) : r.failedStatus ≠ .sending := by
  unfold OutboxRow.failedStatus
  split <;> nofun

/-- What a completion that commits has done. -/
theorem completeNotificationDelivery_eq_ok {id : Option ℤ} {token : Option Uuid}
    {p : DeliveryReport} {res : DeliveryAnswer}
    (h : completeNotificationDelivery e id token p b = .ok (res, b')) :
    ∃ i t success, id = some i ∧ token = some t ∧ p.success = some success ∧
      (b.held? i t = none ∧ res = .claimMismatch ∧ b' = b ∨
        ∃ r, b.held? i t = some r ∧
          (success = true ∧ res = .moved .sent ∧
              b.updateOutbox (fun r => (r.id : ℤ) = i) (OutboxRow.deliver p e.now) = .ok b' ∨
            success = false ∧ res = .moved r.failedStatus ∧
              b.updateOutbox (fun r => (r.id : ℤ) = i) (OutboxRow.fail p e.now) = .ok b')) := by
  simp only [completeNotificationDelivery, bind_eq_ok, orRaise_eq_ok,
    Option.filter_eq_some_iff] at h
  obtain ⟨i, ⟨hi, -⟩, t, ht, success, hsuccess, -, -, h⟩ := h
  refine ⟨i, t, success, hi, ht, hsuccess, ?_⟩
  cases hheld : b.held? i t with
  | none =>
    simp only [hheld, pure_eq_ok, Prod.mk.injEq] at h
    exact .inl ⟨rfl, h.1.symm, h.2.symm⟩
  | some r =>
    refine .inr ⟨r, rfl, ?_⟩
    cases success with
    | true =>
      simp only [hheld, ite_true, bind_eq_ok, pure_eq_ok, Prod.mk.injEq] at h
      obtain ⟨b₁, h₁, rfl, rfl⟩ := h
      exact .inl ⟨rfl, rfl, h₁⟩
    | false =>
      simp only [hheld, Bool.false_eq_true, ite_false, bind_eq_ok, pure_eq_ok, Prod.mk.injEq] at h
      obtain ⟨b₁, h₁, rfl, rfl⟩ := h
      exact .inr ⟨rfl, rfl, h₁⟩

/-- The row under the id of one that is held is that one. -/
theorem eq_of_held (hb : b.Wf) {i : ℤ} {t : Uuid} {r r' : OutboxRow} (hheld : b.held? i t = some r)
    (hr' : r' ∈ b.outbox) (hid : decide ((r'.id : ℤ) = i) = true) : r' = r := by
  obtain ⟨hr, hheldBy⟩ := held?_eq_some hheld
  apply hb.eq_of_id hr' hr
  have hri := (heldBy_iff.1 hheldBy).1
  have hri' := of_decide_eq_true hid
  omega

theorem changes_of_complete {id : Option ℤ} {token : Option Uuid} {p : DeliveryReport}
    {res : DeliveryAnswer} (hb : b.Wf)
    (hk : ∀ i t, id = some i → token = some t → p.success = some true →
      ∀ r ∈ b.outbox, r.heldBy i t = true → K.deliver b r)
    (h : completeNotificationDelivery e id token p b = .ok (res, b')) : Changes K e b b' := by
  obtain ⟨i, t, success, hi, ht, hsuccess, ⟨-, -, rfl⟩ | ⟨r, hheld, h⟩⟩ :=
    completeNotificationDelivery_eq_ok h
  · exact .refl
  · obtain ⟨hr, hheldBy⟩ := held?_eq_some hheld
    have hsending := (heldBy_iff.1 hheldBy).2.1
    apply Relation.ReflTransGen.single
    rcases h with ⟨rfl, -, h⟩ | ⟨-, -, h⟩
    · apply change_of_updateOutbox _ h (oneWay_of_ne fun _ => nofun)
      intro r' hr' hp
      obtain rfl := eq_of_held hb hheld hr' hp
      exact .deliver p hsending (hk i t hi ht hsuccess _ hr' hheldBy)
    · apply change_of_updateOutbox _ h (oneWay_of_ne failedStatus_ne_sending)
      intro r' hr' hp
      obtain rfl := eq_of_held hb hheld hr' hp
      exact .fail p hsending

theorem change_of_suppressOutbox {reason : String}
    (hreason : reason ∈ ["channel_unconfigured", "channel_disabled"])
    (h : suppressOutbox reason b = .ok b') : Change K e b b' :=
  change_of_updateOutbox (fun _ _ hp => .withdraw (.channelOff reason hp hreason)) h
    (oneWay_of_ne fun _ => nofun)

/-! ## Retirement -/

theorem retireBackupPolicy_eq_ok {p : BackupPolicy} (h : retireBackupPolicy p b = .ok b') :
    Retired e b b' := by
  simp only [retireBackupPolicy, bind_eq_ok, pure_eq_ok] at h
  obtain ⟨b₁, h₁, rfl⟩ := h
  obtain ⟨hchecked, rfl⟩ := Board.updateOutbox_eq_ok h₁
  exact .policy p hchecked

theorem retireHost_eq_ok {hostId : Uuid} (h : retireHost hostId b = .ok b') : Retired e b b' := by
  simp only [retireHost, bind_eq_ok, pure_eq_ok] at h
  obtain ⟨b₁, h₁, rfl⟩ := h
  obtain ⟨hchecked, rfl⟩ := Board.updateOutbox_eq_ok h₁
  exact .host hostId hchecked

theorem retireCloudSignal_eq_ok {k : String} (h : retireCloudSignal e k b = .ok b') :
    Retired e b b' := by
  unfold retireCloudSignal at h
  cases hs : b.signal? k with
  | none =>
    simp only [hs] at h
    obtain ⟨hchecked, rfl⟩ := Board.updateOutbox_eq_ok h
    exact .idleTarget k (fun s hs' => by rw [hs] at hs'; cases hs') hchecked
  | some s =>
    obtain rfl : s.signalKey = k := (Board.signal?_eq_some hs).2
    simp only [hs] at h
    split at h
    next hactive =>
      obtain ⟨b₁, h₁, h₂⟩ := bind_eq_ok.1 h
      have hsome : (b.signal? (s.close e.at).signalKey).isSome = true := by
        rw [show (s.close e.at).signalKey = s.signalKey from rfl, hs]
        rfl
      obtain rfl := Board.updateSignal_eq_ok hsome h₁
      obtain ⟨hchecked, rfl⟩ := Board.updateOutbox_eq_ok h₂
      exact .target hs hactive hchecked
    next hactive =>
      obtain ⟨hchecked, rfl⟩ := Board.updateOutbox_eq_ok h
      refine .idleTarget s.signalKey (fun s' hs' => ?_) hchecked
      rw [hs, Option.some.injEq] at hs'
      rw [← hs']
      exact Bool.not_eq_true _ ▸ hactive

/-! ## Calls -/

/-- The reports a call can make. -/
inductive Request.Reports : Request → Observation → Prop
  | notification {p o} (h : p.observation? Identity.hostNamed = some o) :
      Reports (.notification p) o
  | cloud {p o} (h : p.observation? Identity.cloudNamed = some o) : Reports (.cloud p) o
  | burn (p : BurnParams) (serviceId active severity occurredAt reason)
      (h : p.serviceId = some serviceId) (hs : serviceId ∈ burnServices) :
      Reports (.burn p) (burnObservation serviceId active severity occurredAt reason)

theorem applyNotificationSignal_eq_ok {p : SignalParams} {res : SignalResult × Board}
    (h : applyNotificationSignal e p b = .ok res) :
    ∃ o, (Request.notification p).Reports o ∧ notificationVariant.applySignal e o b = .ok res := by
  simp only [applyNotificationSignal, bind_eq_ok, orRaise_eq_ok] at h
  obtain ⟨o, ho, h⟩ := h
  exact ⟨o, .notification ho, h⟩

theorem applyCloudMonitorSignal_eq_ok {p : SignalParams} {res : SignalResult × Board}
    (h : applyCloudMonitorSignal e p b = .ok res) :
    ∃ o, (Request.cloud p).Reports o ∧ cloudVariant.applySignal e o b = .ok res := by
  simp only [applyCloudMonitorSignal, bind_eq_ok, orRaise_eq_ok] at h
  obtain ⟨o, ho, h⟩ := h
  exact ⟨o, .cloud ho, h⟩

theorem applyReliabilityBurnSignal_eq_ok {p : BurnParams} {res : SignalResult × Board}
    (h : applyReliabilityBurnSignal e p b = .ok res) :
    res = (.unchanged, b) ∨
      ∃ o, (Request.burn p).Reports o ∧ reliabilityVariant.applySignal e o b = .ok res := by
  simp only [applyReliabilityBurnSignal, bind_eq_ok, orRaise_eq_ok, raiseIf_eq_ok,
    Bool.or_eq_false_iff] at h
  obtain ⟨-, ⟨hservice, -⟩, active, -, occurredAt, -, reason, -, h⟩ := h
  cases hp : p.serviceId with
  | none =>
    simp only [hp] at h
    split at h
    · cases h
    · exact .inl (Except.ok.inj h).symm
  | some serviceId =>
    simp only [hp] at h
    rw [hp, Option.any_some, decide_eq_false_iff_not, not_not] at hservice
    exact .inr ⟨_, .burn p serviceId active _ occurredAt reason hp hservice, h⟩

namespace Call

/-- The premises hold of a call made in the tables `w`. -/
structure Meets (K : Premises) (w : World) (c : Call) : Prop where
  settings : K.settings w.settings
  report : ∀ o, c.request.Reports o → K.report o
  opens : ∀ o, c.request.Reports o → K.Opens o w.board
  release : ∀ token limit, c.request = .claim token limit →
    ∀ b, prepareRelease (w.env c.now) w.board = .ok b → K.Releases (w.env c.now) b
  suppress : ∀ i t s, c.request = .suppress (some i) (some t) (some s) →
    ∀ r ∈ w.board.outbox, r.heldBy i t = true → K.suppress w.board r s
  deliver : ∀ i t p, c.request = .complete (some i) (some t) p → p.success = some true →
    ∀ r ∈ w.board.outbox, r.heldBy i t = true → K.deliver w.board r
  retire : ((∃ p, c.request = .retirePolicy p) ∨ (∃ h, c.request = .retireHost h) ∨
    ∃ k, c.request = .retireCloud k) → K.retire
  claim : ∀ t limit, c.request = .claim (some t) limit → K.claim t

theorem meets_any (w : World) (c : Call) : c.Meets .any w :=
  ⟨trivial, fun _ _ => trivial, fun _ _ _ _ _ _ => trivial, fun _ _ _ _ _ _ _ _ _ => trivial,
    fun _ _ _ _ _ _ _ => trivial, fun _ _ _ _ _ _ _ _ => trivial, fun _ => trivial,
    fun _ _ _ => trivial⟩

end Call

theorem withBoard_eq_ok {w w' : World} {x : Except DbError Board} (h : w.withBoard x = .ok w') :
    x = .ok w'.board ∧ w'.settings = w.settings ∧ w'.queue = w.queue := by
  obtain ⟨a, ha, rfl⟩ := map_eq_ok.1 h
  exact ⟨ha, rfl, rfl⟩

theorem withQueue_eq_ok {w w' : World} {x : Except DbError StatusQueue}
    (h : w.withQueue x = .ok w') :
    x = .ok w'.queue ∧ w'.settings = w.settings ∧ w'.board = w.board := by
  obtain ⟨a, ha, rfl⟩ := map_eq_ok.1 h
  exact ⟨ha, rfl, rfl⟩

/-- The call applies a report. -/
def Request.isReport : Request → Bool
  | .notification _ | .burn _ | .cloud _ => true
  | _ => false

/-- What a call that applies a report does. -/
theorem applied_apply {c : Call} {w w' : World} (hc : c.request.isReport = true)
    (hk : ∀ o, c.request.Reports o → K.Opens o w.board) (h : w.apply c = .ok w') :
    w'.board = w.board ∨ ∃ o res, c.request.Reports o ∧
      Applied K (w.env c.now) o w.board res w'.board := by
  obtain ⟨now, request⟩ := c
  unfold World.apply at h
  cases request with
  | notification p =>
    obtain ⟨hx, -, -⟩ := withBoard_eq_ok h
    obtain ⟨res, hres, hboard⟩ := map_eq_ok.1 hx
    obtain ⟨o, ho, hsignal⟩ := applyNotificationSignal_eq_ok hres
    rw [← hboard]
    exact .inr ⟨o, res.1, ho,
      Variant.applySignal_eq_ok notificationVariant_enqueues (hk o ho) hsignal⟩
  | burn p =>
    obtain ⟨hx, -, -⟩ := withBoard_eq_ok h
    obtain ⟨res, hres, hboard⟩ := map_eq_ok.1 hx
    rw [← hboard]
    rcases applyReliabilityBurnSignal_eq_ok hres with rfl | ⟨o, ho, hsignal⟩
    · exact .inl rfl
    · exact .inr ⟨o, res.1, ho,
        Variant.applySignal_eq_ok reliabilityVariant_enqueues (hk o ho) hsignal⟩
  | cloud p =>
    obtain ⟨hx, -, -⟩ := withBoard_eq_ok h
    obtain ⟨res, hres, hboard⟩ := map_eq_ok.1 hx
    obtain ⟨o, ho, hsignal⟩ := applyCloudMonitorSignal_eq_ok hres
    rw [← hboard]
    exact .inr ⟨o, res.1, ho, Variant.applySignal_eq_ok cloudVariant_enqueues (hk o ho) hsignal⟩
  | _ => cases hc

/-- What switching the channel does. -/
theorem setNotificationChannel_eq_ok {enabled configured : Option Bool}
    {displayName : Option String} {w w' : World}
    (h : setNotificationChannel enabled configured displayName w = .ok w') :
    ∃ x y, enabled = some x ∧ configured = some y ∧ w'.settings = w.settings.setDiscord x y ∧
      ((x && y) = true ∧ w'.board = w.board ∧ w'.queue = w.queue ∨
        (x && y) = false ∧ ∃ reason ∈ ["channel_unconfigured", "channel_disabled"],
          suppressOutbox reason w.board = .ok w'.board ∧
            suppressChannelDeliveries reason w.queue = .ok w'.queue) := by
  simp only [setNotificationChannel, bind_eq_ok, orRaise_eq_ok] at h
  obtain ⟨x, hx, y, hy, -, -, -, -, h⟩ := h
  refine ⟨x, y, hx, hy, ?_⟩
  cases hxy : x && y with
  | true =>
    simp only [hxy, ite_true, pure_eq_ok] at h
    subst h
    exact ⟨rfl, .inl ⟨rfl, rfl, rfl⟩⟩
  | false =>
    simp only [hxy, Bool.false_eq_true, ite_false, bind_eq_ok, pure_eq_ok] at h
    obtain ⟨board, hboard, queue, hqueue, rfl⟩ := h
    refine ⟨rfl, .inr ⟨rfl, _, ?_, hboard, hqueue⟩⟩
    cases x <;> simp

/-! ## Settings -/

namespace Settings

variable {s s' : Settings}

theorem addChannel_eq_ok {c : Channel} (h : s.addChannel c = .ok s') :
    (∀ c' ∈ s.channels, c'.id ≠ c.id) ∧ s' = { s with channels := s.channels ++ [c] } := by
  simp only [addChannel, bind_eq_ok, raiseIf_eq_ok, pure_eq_ok] at h
  obtain ⟨-, hnew, -, -, rfl⟩ := h
  exact ⟨by simpa using hnew, rfl⟩

theorem maintain_eq_ok {m : Maintained} (h : s.maintain m = .ok s') :
    (∀ check ∈ m.suppressions.flatMap Suppression.checks, check.2 = true) ∧
      s'.channels = s.channels ∧ s'.suppressions = m.suppressions := by
  simp only [maintain, bind_eq_ok, checkAll_eq_ok, pure_eq_ok] at h
  obtain ⟨-, hchecks, rfl⟩ := h
  exact ⟨hchecks, rfl, rfl⟩

end Settings

/-- The call switches the Discord channel. -/
def Request.switches : Request → Bool
  | .setChannel _ _ _ => true
  | _ => false

/-- What a call does to the settings. -/
inductive SettingsStep (s : Settings) : Request → Settings → Prop
  | same {request} (h : request.switches = false) : SettingsStep s request s
  | maintained {m s'} (h : s.maintain m = .ok s') : SettingsStep s (.maintain m) s'
  | host (h) : SettingsStep s (.addHost h) { s with hosts := s.hosts ++ [h] }
  | switched (enabled configured name x y) :
      SettingsStep s (.setChannel enabled configured name) (s.setDiscord x y)
  | added {ch s'} (h : s.addChannel ch = .ok s') : SettingsStep s (.addChannel ch) s'

theorem settingsStep_apply {c : Call} {w w' : World} (h : w.apply c = .ok w') :
    SettingsStep w.settings c.request w'.settings := by
  have hboard : ∀ {x : Except DbError Board} {request : Request}, request.switches = false →
      w.withBoard x = .ok w' → SettingsStep w.settings request w'.settings := by
    intro x request hr hx
    rw [(withBoard_eq_ok hx).2.1]
    exact .same hr
  have hqueue : ∀ {x : Except DbError StatusQueue} {request : Request},
      request.switches = false → w.withQueue x = .ok w' →
        SettingsStep w.settings request w'.settings := by
    intro x request hr hx
    rw [(withQueue_eq_ok hx).2.1]
    exact .same hr
  obtain ⟨now, request⟩ := c
  unfold World.apply at h
  cases request with
  | maintain m =>
    obtain ⟨settings, hs, rfl⟩ := map_eq_ok.1 h
    exact .maintained hs
  | addHost host =>
    cases h
    exact .host host
  | addChannel ch =>
    obtain ⟨settings, hs, rfl⟩ := map_eq_ok.1 h
    exact .added hs
  | setChannel enabled configured displayName =>
    obtain ⟨x, y, -, -, hset, -⟩ := setNotificationChannel_eq_ok h
    rw [hset]
    exact .switched enabled configured displayName x y
  | gate _ _ =>
    cases h
    exact .same rfl
  | gateStatus _ _ _ =>
    cases h
    exact .same rfl
  | statusEvent _ => exact hqueue rfl h
  | claimStatus _ _ _ => exact hqueue rfl h
  | suppressStatus _ _ _ => exact hqueue rfl h
  | completeStatus _ _ _ => exact hqueue rfl h
  | _ => exact hboard rfl h

/-- What a call that commits does to the signals and the outbox. -/
theorem changes_apply {c : Call} {w w' : World} (hb : w.board.Wf) (hmeets : c.Meets K w)
    (h : w.apply c = .ok w') : Changes K (w.env c.now) w.board w'.board := by
  have hreport : c.request.isReport = true → Changes K (w.env c.now) w.board w'.board := by
    intro hc
    rcases applied_apply hc hmeets.opens h with hsame | ⟨o, res, ho, happ⟩
    · rw [hsame]
    · exact .single (.report (hmeets.report o ho) happ)
  obtain ⟨now, request⟩ := c
  unfold World.apply at h
  cases request with
  | notification p => exact hreport rfl
  | burn p => exact hreport rfl
  | cloud p => exact hreport rfl
  | event p =>
    obtain ⟨hx, -, -⟩ := withBoard_eq_ok h
    obtain ⟨res, hres, hboard⟩ := map_eq_ok.1 hx
    rw [← hboard]
    rw [enqueueNotification] at hres
    exact .single (.event (n := p.notice) rfl (enqueue_eq_ok hres) rfl)
  | maintain m =>
    obtain ⟨-, -, rfl⟩ := map_eq_ok.1 h
    exact .refl
  | addHost host =>
    cases h
    exact .refl
  | addChannel ch =>
    obtain ⟨-, -, rfl⟩ := map_eq_ok.1 h
    exact .refl
  | setChannel enabled configured displayName =>
    obtain ⟨x, y, -, -, -, ⟨-, hboard, -⟩ | ⟨-, reason, hreason, hboard, -⟩⟩ :=
      setNotificationChannel_eq_ok h
    · rw [hboard]
    · exact .single (change_of_suppressOutbox hreason hboard)
  | claim token limit =>
    obtain ⟨hx, -, -⟩ := withBoard_eq_ok h
    obtain ⟨⟨rows, board⟩, hres, hboard⟩ := map_eq_ok.1 hx
    rw [← hboard]
    apply changes_of_claim hb (hmeets.release token limit rfl) _ hres
    rintro t rfl
    exact hmeets.claim t limit rfl
  | gate id token =>
    cases h
    exact .refl
  | suppress id token reason =>
    obtain ⟨hx, -, -⟩ := withBoard_eq_ok h
    obtain ⟨⟨res, board⟩, hres, hboard⟩ := map_eq_ok.1 hx
    rw [← hboard]
    apply changes_of_suppress _ hres
    rintro i t s rfl rfl rfl
    exact hmeets.suppress i t s rfl
  | complete id token p =>
    obtain ⟨hx, -, -⟩ := withBoard_eq_ok h
    obtain ⟨⟨res, board⟩, hres, hboard⟩ := map_eq_ok.1 hx
    rw [← hboard]
    apply changes_of_complete hb _ hres
    rintro i t rfl rfl
    exact hmeets.deliver i t p rfl
  | retirePolicy p =>
    obtain ⟨hx, -, -⟩ := withBoard_eq_ok h
    exact .single (.retire (hmeets.retire (.inl ⟨p, rfl⟩)) (retireBackupPolicy_eq_ok hx))
  | retireHost hostId =>
    obtain ⟨hx, -, -⟩ := withBoard_eq_ok h
    exact .single (.retire (hmeets.retire (.inr (.inl ⟨hostId, rfl⟩))) (retireHost_eq_ok hx))
  | retireCloud k =>
    obtain ⟨hx, -, -⟩ := withBoard_eq_ok h
    exact .single (.retire (hmeets.retire (.inr (.inr ⟨k, rfl⟩))) (retireCloudSignal_eq_ok hx))
  | gateStatus s id token =>
    cases h
    exact .refl
  | statusEvent p =>
    rw [(withQueue_eq_ok h).2.2]
  | claimStatus provider token limit =>
    rw [(withQueue_eq_ok h).2.2]
  | suppressStatus id token reason =>
    rw [(withQueue_eq_ok h).2.2]
  | completeStatus id token p =>
    rw [(withQueue_eq_ok h).2.2]

namespace World

theorem step_eq {w : World} {c : Call} : w.step c = w ∨ w.apply c = .ok (w.step c) := by
  unfold step
  cases h : w.apply c with
  | ok w' => exact .inr rfl
  | error err => exact .inl rfl

/-- What a call does to the signals and the outbox. -/
theorem changes_step {c : Call} {w : World} (hb : w.board.Wf) (hmeets : c.Meets K w) :
    Changes K (w.env c.now) w.board (w.step c).board := by
  rcases step_eq (w := w) (c := c) with h | h
  · rw [h]
  · exact changes_apply hb hmeets h

theorem wf_step {c : Call} {w : World} (hb : w.board.Wf) : (w.step c).board.Wf :=
  (changes_step hb (c.meets_any w)).wf hb

@[simp] theorem run_nil (w : World) : w.run [] = w := rfl

@[simp] theorem run_concat (w : World) (calls : List Call) (c : Call) :
    w.run (calls ++ [c]) = (w.run calls).step c :=
  Runs.run_concat w calls c

theorem run_append (w : World) (front back : List Call) :
    w.run (front ++ back) = (w.run front).run back :=
  Runs.run_append w front back

theorem wf_run (calls : List Call) {w : World} (hb : w.board.Wf) : (w.run calls).board.Wf :=
  Runs.run_invariant (P := fun w : World => w.board.Wf) (fun _ _ => wf_step) hb calls

/-- The premises hold of every call of a run. -/
def Meets (K : Premises) (w : World) (calls : List Call) : Prop :=
  ∀ front c back, calls = front ++ c :: back → c.Meets K (w.run front)

/-- An invariant of the tables that holds at the start holds at the end of a run, if it is one of
each change under the premises. -/
theorem run_changes {P : Board → Prop}
    (hstep : ∀ e b b', K.settings e.settings → b.Wf → P b → Change K e b b' → P b')
    {w : World} {calls : List Call}
    (hmeets : w.Meets K calls) (hb : w.board.Wf) (hw : P w.board) : P (w.run calls).board := by
  have hchanges : ∀ {e b b'}, K.settings e.settings → b.Wf → P b → Changes K e b b' → P b' := by
    intro e b b' hset hwf hP h
    induction h with
    | refl => exact hP
    | tail hpre hlast ih => exact hstep _ _ _ hset (Changes.wf hpre hwf) ih hlast
  suffices h : (w.run calls).board.Wf ∧ P (w.run calls).board from h.2
  apply Runs.run_invariant_of (P := fun w : World => w.board.Wf ∧ P w.board) _ hmeets ⟨hb, hw⟩
  intro w c hPw hc
  exact ⟨wf_step hPw.1, hchanges hc.settings hPw.1 hPw.2 (changes_step hPw.1 hc)⟩

end World

end IvrmDashboard.Notifications

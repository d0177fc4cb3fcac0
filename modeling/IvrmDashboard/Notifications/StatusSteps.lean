import IvrmDashboard.Notifications.Calls

/-!
# What a call does to the status queue

Every call that commits is a sequence of changes of three kinds (`QueueChange`): deliveries move,
each on its own (`DeliveryMove`); an event is published and fans out to the channels; or an identity
value is spent on a key that is taken. Nothing that is out of the queue comes back. What is known of
the calls of a run enters as `QueuePremises`, and every invariant of the queue is derived from
`queueChanges_step`.
-/

namespace IvrmDashboard.Notifications

open Sql Operations

/-! ## What is known of the calls -/

/-- What is known of the calls of a run: the settings and the queue an event is published in, with
what it says, the tokens of the claims, and which deliveries are reported as sent. -/
structure QueuePremises where
  publish : StatusQueue → StatusContent → Prop
  claim : Uuid → Prop
  deliver : StatusDelivery → Prop

/-- Nothing is known. -/
def QueuePremises.any : QueuePremises := ⟨fun _ _ => True, fun _ => True, fun _ => True⟩

variable (K : QueuePremises)

/-! ## Changes -/

/-- A move of one delivery. -/
inductive DeliveryMove (e : Env) (q : StatusQueue) (d : StatusDelivery) : StatusDelivery → Prop
  | expire (provider) (h : d.timedOut provider e.now = true) : DeliveryMove e q d (d.expire e.now)
  | suppress (reason) (h : d.status.undelivered = true) : DeliveryMove e q d (d.suppress reason)
  | claim (provider token) (h : q.claimable e provider d = true) (hk : K.claim token) :
      DeliveryMove e q d (d.claim token e.now)
  | deliver (p) (hs : d.status = .sending) (hk : K.deliver d) : DeliveryMove e q d (d.deliver p e.now)
  | fail (p) (hs : d.status = .sending) : DeliveryMove e q d (d.fail p e.now)

/-- A delivery stays as it is, or it moves and passes its constraints. -/
def DeliveryStep (e : Env) (q : StatusQueue) (d d' : StatusDelivery) : Prop :=
  d' = d ∨ DeliveryMove K e q d d' ∧ d'.Checked

namespace StatusQueue

/-- The queue with every delivery updated. -/
def mapDeliveries (f : StatusDelivery → StatusDelivery) (q : StatusQueue) : StatusQueue :=
  { q with deliveries := q.deliveries.map f }

/-- The queue with an event that has fanned out. -/
def publish (e : Env) (key : String) (content : StatusContent) (q : StatusQueue) : StatusQueue where
  events := q.events ++ [⟨q.nextEventId, key, content⟩]
  deliveries := q.deliveries ++
    fanOut e q.nextEventId content.occurredAt q.nextDeliveryId e.settings.channels
  nextEventId := q.nextEventId + 1
  nextDeliveryId := q.nextDeliveryId + e.settings.channels.length

@[simp] theorem mapDeliveries_events (f : StatusDelivery → StatusDelivery) (q : StatusQueue) :
    (q.mapDeliveries f).events = q.events := rfl

@[simp] theorem mapDeliveries_deliveries (f : StatusDelivery → StatusDelivery) (q : StatusQueue) :
    (q.mapDeliveries f).deliveries = q.deliveries.map f := rfl

end StatusQueue

/-- A change of the status queue. -/
inductive QueueChange (e : Env) (q : StatusQueue) : StatusQueue → Prop
  | rows (f : StatusDelivery → StatusDelivery) (h : ∀ d ∈ q.deliveries, DeliveryStep K e q d (f d)) :
      QueueChange e q (q.mapDeliveries f)
  | publish (key content) (hk : K.publish q content) (hnew : ∀ v ∈ q.events, v.eventKey ≠ key)
      (hchecked : ∀ d ∈ fanOut e q.nextEventId content.occurredAt q.nextDeliveryId
        e.settings.channels, d.Checked) : QueueChange e q (q.publish e key content)
  | spent : QueueChange e q { q with nextEventId := q.nextEventId + 1 }

/-- Changes one after the other. -/
abbrev QueueChanges (e : Env) : StatusQueue → StatusQueue → Prop :=
  Relation.ReflTransGen (QueueChange K e)

/-! ## Fan-out -/

section

variable {e : Env} {v n : ℕ} {t : Timestamptz} {channels : List Channel} {d : StatusDelivery}

theorem mem_fanOut (h : d ∈ fanOut e v t n channels) :
    ∃ c ∈ channels, ∃ k, n ≤ k ∧ k < n + channels.length ∧ d = c.delivery e v t k := by
  induction channels generalizing n with
  | nil => cases h
  | cons c channels ih =>
    rcases List.mem_cons.1 h with rfl | h
    · exact ⟨c, by simp, n, le_refl n, by simp, rfl⟩
    · obtain ⟨c', hc', k, hle, hlt, rfl⟩ := ih h
      refine ⟨c', List.mem_cons_of_mem _ hc', k, by omega, ?_, rfl⟩
      rw [List.length_cons]
      omega

@[simp] theorem length_fanOut : (fanOut e v t n channels).length = channels.length := by
  induction channels generalizing n with
  | nil => rfl
  | cons c channels ih => rw [fanOut, List.length_cons, ih, List.length_cons]

/-- The ids are consecutive. -/
theorem fanOut_ids : (fanOut e v t n channels).map (·.id) = List.range' n channels.length := by
  induction channels generalizing n with
  | nil => rfl
  | cons c channels ih => rw [fanOut, List.map_cons, ih, List.length_cons, List.range'_succ]; rfl

/-- There is one delivery for each channel. -/
theorem fanOut_channelIds :
    (fanOut e v t n channels).map (·.channelId) = channels.map (·.id) := by
  induction channels generalizing n with
  | nil => rfl
  | cons c channels ih => rw [fanOut, List.map_cons, ih, List.map_cons]; rfl

/-- Only a channel that is ready gets a delivery to make. -/
theorem delivery_undelivered {c : Channel} {k : ℕ}
    (h : (c.delivery e v t k).status.undelivered = true) : c.ready = true := by
  unfold Channel.delivery Channel.initialSuppression at h
  unfold Channel.ready
  cases hen : c.enabled <;> cases hconf : c.configured <;> simp [hen, hconf] at h ⊢ <;> cases h

theorem delivery_not_sending {c : Channel} {k : ℕ} : (c.delivery e v t k).status ≠ .sending ∧
    (c.delivery e v t k).status ≠ .sent ∧ (c.delivery e v t k).status ≠ .failed := by
  unfold Channel.delivery
  dsimp only
  split <;> exact ⟨nofun, nofun, nofun⟩

end

/-! ## Deliveries keep what they are about -/

section

variable {K} {e : Env} {q : StatusQueue} {d d' : StatusDelivery}

theorem DeliveryMove.frame (h : DeliveryMove K e q d d') :
    d'.id = d.id ∧ d'.eventId = d.eventId ∧ d'.channelId = d.channelId ∧
      d'.providerType = d.providerType := by
  cases h <;> exact ⟨rfl, rfl, rfl, rfl⟩

theorem DeliveryStep.frame (h : DeliveryStep K e q d d') :
    d'.id = d.id ∧ d'.eventId = d.eventId ∧ d'.channelId = d.channelId ∧
      d'.providerType = d.providerType := by
  rcases h with rfl | ⟨h, -⟩
  · exact ⟨rfl, rfl, rfl, rfl⟩
  · exact h.frame

theorem claimable_waiting {provider : Provider} (h : q.claimable e provider d = true) :
    d.status.waiting = true := by
  unfold StatusQueue.claimable at h
  simp only [Bool.and_eq_true] at h
  exact h.1.1.1.1.2

theorem statusTimedOut_sending {provider : Provider} (h : d.timedOut provider e.now = true) :
    d.status = .sending := by
  unfold StatusDelivery.timedOut at h
  simp only [Bool.and_eq_true, decide_eq_true_eq] at h
  exact h.1.2

/-- Only what is in the queue moves. -/
theorem DeliveryMove.undelivered (h : DeliveryMove K e q d d') : d.status.undelivered = true := by
  cases h with
  | expire _ h => rw [statusTimedOut_sending h]; rfl
  | suppress _ h => exact h
  | claim _ _ h => exact undelivered_of_waiting (claimable_waiting h)
  | deliver _ hs => rw [hs]; rfl
  | fail _ hs => rw [hs]; rfl

/-- Nothing that is out of the queue comes back. -/
theorem DeliveryStep.undelivered (h : DeliveryStep K e q d d')
    (hu : d'.status.undelivered = true) : d.status.undelivered = true := by
  rcases h with rfl | ⟨h, -⟩
  · exact hu
  · exact h.undelivered

/-- What is out of the queue stays as it is. -/
theorem DeliveryStep.final (h : DeliveryStep K e q d d') (hu : d.status.undelivered = false) :
    d' = d := by
  rcases h with rfl | ⟨h, -⟩
  · rfl
  · rw [h.undelivered] at hu
    cases hu

end

/-! ## Well-formed tables -/

/-- What holds of the channels at any time. -/
structure Settings.ChannelsOk (s : Settings) : Prop where
  ids : (s.channels.map (·.id)).Nodup
  discord : ∃ c ∈ s.channels, c.id = 1 ∧ c.channelType = .discord

/-- What holds of the status queue at any time, beside the settings `s`. -/
structure StatusQueue.Wf (s : Settings) (q : StatusQueue) : Prop where
  eventIds : (q.events.map (·.id)).Nodup
  eventKeys : (q.events.map (·.eventKey)).Nodup
  freshEvents : ∀ v ∈ q.events, v.id < q.nextEventId
  ids : (q.deliveries.map (·.id)).Nodup
  fresh : ∀ d ∈ q.deliveries, d.id < q.nextDeliveryId
  events : ∀ d ∈ q.deliveries, ∃ v ∈ q.events, v.id = d.eventId
  channels : ∀ d ∈ q.deliveries, ∃ c ∈ s.channels, c.id = d.channelId ∧
    c.channelType = d.providerType
  checked : ∀ d ∈ q.deliveries, d.Checked

theorem Settings.ChannelsOk.eq_of_id {s : Settings} (h : s.ChannelsOk) {c c' : Channel}
    (hc : c ∈ s.channels) (hc' : c' ∈ s.channels) (hid : c.id = c'.id) : c = c' :=
  List.inj_on_of_nodup_map h.ids hc hc' hid

namespace StatusQueue.Wf

variable {K} {s : Settings} {q : StatusQueue}

theorem empty : StatusQueue.empty.Wf s :=
  ⟨List.nodup_nil, List.nodup_nil, fun _ h => absurd h List.not_mem_nil, List.nodup_nil,
    fun _ h => absurd h List.not_mem_nil, fun _ h => absurd h List.not_mem_nil,
    fun _ h => absurd h List.not_mem_nil, fun _ h => absurd h List.not_mem_nil⟩

theorem eq_of_id (h : q.Wf s) {d d' : StatusDelivery} (hd : d ∈ q.deliveries)
    (hd' : d' ∈ q.deliveries) (hid : d.id = d'.id) : d = d' :=
  List.inj_on_of_nodup_map h.ids hd hd' hid

theorem eq_of_eventId (h : q.Wf s) {v v' : StatusEvent} (hv : v ∈ q.events) (hv' : v' ∈ q.events)
    (hid : v.id = v'.id) : v = v' :=
  List.inj_on_of_nodup_map h.eventIds hv hv' hid

/-- The look-up finds the event of a delivery. -/
theorem event?_eq (h : q.Wf s) {d : StatusDelivery} {v : StatusEvent} (hv : v ∈ q.events)
    (hid : v.id = d.eventId) : q.event? d = some v := by
  apply find?_eq_some_of_unique hv (decide_eq_true hid)
  intro v' hv' hid'
  exact h.eq_of_eventId hv' hv ((of_decide_eq_true hid').trans hid.symm)

/-- Two deliveries on one channel have one provider. -/
theorem provider_eq (h : q.Wf s) (hs : s.ChannelsOk) {d d' : StatusDelivery}
    (hd : d ∈ q.deliveries) (hd' : d' ∈ q.deliveries) (hc : d.channelId = d'.channelId) :
    d.providerType = d'.providerType := by
  obtain ⟨c, hc₁, hid, htype⟩ := h.channels d hd
  obtain ⟨c', hc₁', hid', htype'⟩ := h.channels d' hd'
  rw [← htype, ← htype', hs.eq_of_id hc₁ hc₁' ((hid.trans hc).trans hid'.symm)]

/-- The channels may change, as long as they keep their ids and types. -/
theorem mono (h : q.Wf s) {s' : Settings}
    (hc : ∀ c ∈ s.channels, ∃ c' ∈ s'.channels, c'.id = c.id ∧ c'.channelType = c.channelType) :
    q.Wf s' where
  eventIds := h.eventIds
  eventKeys := h.eventKeys
  freshEvents := h.freshEvents
  ids := h.ids
  fresh := h.fresh
  events := h.events
  channels d hd := by
    obtain ⟨c, hmem, hid, htype⟩ := h.channels d hd
    obtain ⟨c', hmem', hid', htype'⟩ := hc c hmem
    exact ⟨c', hmem', hid'.trans hid, htype'.trans htype⟩
  checked := h.checked

theorem mapDeliveries (h : q.Wf s) {e : Env} {f : StatusDelivery → StatusDelivery}
    (hf : ∀ d ∈ q.deliveries, DeliveryStep K e q d (f d)) : (q.mapDeliveries f).Wf s where
  eventIds := h.eventIds
  eventKeys := h.eventKeys
  freshEvents := h.freshEvents
  ids := by
    have hmap : (q.deliveries.map f).map (·.id) = q.deliveries.map (·.id) := by
      rw [List.map_map]
      exact List.map_congr_left fun d hd => (hf d hd).frame.1
    rw [mapDeliveries_deliveries, hmap]
    exact h.ids
  fresh d' hd' := by
    obtain ⟨d, hd, rfl⟩ := List.mem_map.1 hd'
    rw [(hf d hd).frame.1]
    exact h.fresh d hd
  events d' hd' := by
    obtain ⟨d, hd, rfl⟩ := List.mem_map.1 hd'
    rw [(hf d hd).frame.2.1]
    exact h.events d hd
  channels d' hd' := by
    obtain ⟨d, hd, rfl⟩ := List.mem_map.1 hd'
    rw [(hf d hd).frame.2.2.1, (hf d hd).frame.2.2.2]
    exact h.channels d hd
  checked d' hd' := by
    obtain ⟨d, hd, rfl⟩ := List.mem_map.1 hd'
    rcases hf d hd with hd' | ⟨-, hchecked⟩
    · rw [hd']
      exact h.checked d hd
    · exact hchecked

/-- New rows under new ids. -/
theorem nodup_append {ids new : List ℕ} {n : ℕ} (h : ids.Nodup) (hnew : new.Nodup)
    (hlt : ∀ i ∈ ids, i < n) (hle : ∀ i ∈ new, n ≤ i) : (ids ++ new).Nodup := by
  refine List.nodup_append.2 ⟨h, hnew, ?_⟩
  intro i hi j hj hij
  have := hlt i hi
  have := hle j hj
  omega

theorem publish {e : Env} (h : q.Wf e.settings) {key : String} {content : StatusContent}
    (hnew : ∀ v ∈ q.events, v.eventKey ≠ key)
    (hchecked : ∀ d ∈ fanOut e q.nextEventId content.occurredAt q.nextDeliveryId
      e.settings.channels, d.Checked) : (q.publish e key content).Wf e.settings where
  eventIds := by
    rw [StatusQueue.publish, List.map_append]
    apply nodup_append (n := q.nextEventId) h.eventIds (List.nodup_singleton _)
    · rw [List.forall_mem_map]
      exact h.freshEvents
    · simp
  eventKeys := by
    rw [StatusQueue.publish, List.map_append, List.nodup_append]
    refine ⟨h.eventKeys, List.nodup_singleton _, ?_⟩
    intro k hk k' hk' hkk
    obtain ⟨v, hv, rfl⟩ := List.mem_map.1 hk
    rw [List.map_singleton, List.mem_singleton] at hk'
    exact hnew v hv (hkk.trans hk')
  freshEvents v hv := by
    rcases List.mem_append.1 hv with hv | hv
    · exact Nat.lt_succ_of_lt (h.freshEvents v hv)
    · rw [List.mem_singleton.1 hv]
      exact Nat.lt_succ_self _
  ids := by
    rw [StatusQueue.publish, List.map_append, fanOut_ids]
    apply nodup_append (n := q.nextDeliveryId) h.ids List.nodup_range'
    · rw [List.forall_mem_map]
      exact h.fresh
    · exact fun i hi => (List.mem_range'_1.1 hi).1
  fresh d hd := by
    rcases List.mem_append.1 hd with hd | hd
    · exact Nat.lt_of_lt_of_le (h.fresh d hd) (Nat.le_add_right _ _)
    · obtain ⟨c, -, k, -, hk, rfl⟩ := mem_fanOut hd
      exact hk
  events d hd := by
    rcases List.mem_append.1 hd with hd | hd
    · obtain ⟨v, hv, hid⟩ := h.events d hd
      exact ⟨v, List.mem_append_left _ hv, hid⟩
    · obtain ⟨c, -, k, -, -, rfl⟩ := mem_fanOut hd
      exact ⟨_, List.mem_append_right _ (List.mem_singleton.2 rfl), rfl⟩
  channels d hd := by
    rcases List.mem_append.1 hd with hd | hd
    · exact h.channels d hd
    · obtain ⟨c, hc, k, -, -, rfl⟩ := mem_fanOut hd
      exact ⟨c, hc, rfl, rfl⟩
  checked d hd := by
    rcases List.mem_append.1 hd with hd | hd
    · exact h.checked d hd
    · exact hchecked d hd

end StatusQueue.Wf

section

variable {K} {e : Env} {q q' : StatusQueue}

theorem QueueChange.wf (h : QueueChange K e q q') (hq : q.Wf e.settings) : q'.Wf e.settings := by
  cases h with
  | rows f hf => exact hq.mapDeliveries hf
  | publish key content hk hnew hchecked => exact hq.publish hnew hchecked
  | spent =>
    exact ⟨hq.eventIds, hq.eventKeys, fun v hv => Nat.lt_succ_of_lt (hq.freshEvents v hv), hq.ids,
      hq.fresh, hq.events, hq.channels, hq.checked⟩

theorem QueueChanges.wf (h : QueueChanges K e q q') (hq : q.Wf e.settings) : q'.Wf e.settings := by
  induction h with
  | refl => exact hq
  | tail _ h ih => exact h.wf ih

/-! ## One update -/

/-- An update moves the deliveries it concerns, and they pass their constraints. -/
theorem StatusQueue.update_eq_ok {p : StatusDelivery → Bool} {f : StatusDelivery → StatusDelivery}
    (h : q.update p f = .ok q') :
    (∀ d ∈ q.deliveries, p d = true → (f d).Checked) ∧
      q' = q.mapDeliveries fun d => if p d then f d else d := by
  simp only [StatusQueue.update, bind_eq_ok, pure_eq_ok, checkAll_eq_ok] at h
  obtain ⟨-, hchecks, rfl⟩ := h
  refine ⟨fun d hd hp check hc => ?_, rfl⟩
  exact hchecks check (List.mem_flatMap.2 ⟨d, List.mem_filter.2 ⟨hd, hp⟩, hc⟩)

/-- An update all of whose moves are moves of a delivery is a change. -/
theorem queueChange_of_update {p : StatusDelivery → Bool} {f : StatusDelivery → StatusDelivery}
    (hmove : ∀ d ∈ q.deliveries, p d = true → DeliveryMove K e q d (f d))
    (h : q.update p f = .ok q') : QueueChange K e q q' := by
  obtain ⟨hchecked, rfl⟩ := StatusQueue.update_eq_ok h
  refine .rows _ fun d hd => ?_
  by_cases hp : p d = true
  · right
    rw [if_pos hp]
    exact ⟨hmove d hd hp, hchecked d hd hp⟩
  · left
    rw [if_neg hp]

/-! ## Publishing -/

/-- What publishing does. -/
theorem createStatusNotificationEvent_eq_ok {p : StatusEventParams} {res : ℕ}
    (h : createStatusNotificationEvent e p q = .ok (res, q')) :
    ∃ key content, p.content? = some (key, content) ∧
      ((∃ v ∈ q.events, v.eventKey = key ∧ v.content = content ∧ res = v.id ∧
          q' = { q with nextEventId := q.nextEventId + 1 }) ∨
        (∀ v ∈ q.events, v.eventKey ≠ key) ∧ res = q.nextEventId ∧
          q' = q.publish e key content ∧
          ∀ d ∈ fanOut e q.nextEventId content.occurredAt q.nextDeliveryId e.settings.channels,
            d.Checked) := by
  unfold createStatusNotificationEvent at h
  simp only [bind_eq_ok, orRaise_eq_ok] at h
  obtain ⟨⟨key, content⟩, hp, h⟩ := h
  refine ⟨key, content, hp, ?_⟩
  cases hv : q.events.find? (·.eventKey = key) with
  | some v =>
    simp only [hv, resolveEvent, bind_eq_ok, raiseIf_eq_ok, pure_eq_ok, Prod.mk.injEq,
      decide_eq_false_iff_not, not_not] at h
    obtain ⟨-, hcontent, rfl, rfl⟩ := h
    exact .inl ⟨v, List.mem_of_find?_eq_some hv, by simpa using List.find?_some hv, hcontent, rfl,
      rfl⟩
  | none =>
    simp only [hv, bind_eq_ok, checkAll_eq_ok, pure_eq_ok, Prod.mk.injEq] at h
    obtain ⟨-, hchecked, rfl, rfl⟩ := h
    refine .inr ⟨fun v hmem => ?_, rfl, ?_, fun d hd check hc => ?_⟩
    · simpa using List.find?_eq_none.1 hv v hmem
    · rw [StatusQueue.publish, length_fanOut]
    · exact hchecked check (List.mem_flatMap.2 ⟨d, hd, hc⟩)

/-! ## Claims -/

theorem queueChange_of_expire {provider : Provider} (h : expireDeliveries e provider q = .ok q') :
    QueueChange K e q q' :=
  queueChange_of_update (fun _ _ hp => .expire provider hp) h

theorem queueChange_of_suppress {provider : Provider}
    (h : suppressDeliveries e provider q = .ok q') : QueueChange K e q q' := by
  apply queueChange_of_update _ h
  intro d _ hp
  simp only [Bool.and_eq_true] at hp
  exact .suppress _ (undelivered_of_waiting hp.1.2)

theorem mem_statusPicked {provider : Provider} {limit : ℕ} {d : StatusDelivery}
    (h : d ∈ q.picked e provider limit) :
    d ∈ q.deliveries ∧ q.claimable e provider d = true := by
  have hd := List.mem_of_mem_take h
  rw [mem_orderBy, List.mem_filter] at hd
  exact hd

/-- A delivery under the id of a picked one is claimable. -/
theorem claimable_of_picked {s : Settings} (hq : q.Wf s) {provider : Provider} {limit : ℕ}
    {d : StatusDelivery} (hd : d ∈ q.deliveries)
    (h : d.id ∈ (q.picked e provider limit).map (·.id)) : q.claimable e provider d = true := by
  obtain ⟨p, hpicked, hid⟩ := List.mem_map.1 h
  obtain ⟨hp, hclaimable⟩ := mem_statusPicked hpicked
  rwa [hq.eq_of_id hd hp hid.symm]

theorem queueChange_of_take {s : Settings} (hq : q.Wf s) {provider : Provider} {token : Uuid}
    {limit : ℕ} (hk : K.claim token)
    (h : takeDeliveries e q token (q.picked e provider limit) = .ok q') : QueueChange K e q q' := by
  apply queueChange_of_update _ h
  intro d hd hp
  exact .claim provider token (claimable_of_picked hq hd (of_decide_eq_true hp)) hk

/-- What a claim that commits has done. -/
theorem claimNotificationDeliveries_eq_ok {provider : Option String} {token : Option Uuid}
    {limit : Option ℤ} {rows : List StatusDelivery}
    (h : claimNotificationDeliveries e provider token limit q = .ok (rows, q')) :
    ∃ x t n q₁ q₂, provider.bind Provider.ofText? = some x ∧ token = some t ∧ limit = some n ∧
      (1 ≤ n ∧ n ≤ 20) ∧ expireDeliveries e x q = .ok q₁ ∧ suppressDeliveries e x q₁ = .ok q₂ ∧
      takeDeliveries e q₂ t (q₂.picked e x n.toNat) = .ok q' ∧
      rows = orderBy q'.notAfter
        (q'.deliveries.filter (·.id ∈ (q₂.picked e x n.toNat).map (·.id))) := by
  simp only [claimNotificationDeliveries, bind_eq_ok, orRaise_eq_ok, pure_eq_ok, Prod.mk.injEq,
    Option.filter_eq_some_iff, Bool.and_eq_true, decide_eq_true_eq] at h
  obtain ⟨x, hx, t, ht, n, ⟨hn, hlimit⟩, q₁, h₁, q₂, h₂, q₃, h₃, hrows, rfl⟩ := h
  exact ⟨x, t, n, q₁, q₂, hx, ht, hn, hlimit, h₁, h₂, h₃, hrows.symm⟩

theorem queueChanges_of_claim (hq : q.Wf e.settings) {provider : Option String}
    {token : Option Uuid} {limit : Option ℤ} {rows : List StatusDelivery}
    (hk : ∀ t, token = some t → K.claim t)
    (h : claimNotificationDeliveries e provider token limit q = .ok (rows, q')) :
    QueueChanges K e q q' := by
  obtain ⟨x, t, n, q₁, q₂, -, ht, -, -, h₁, h₂, h₃, -⟩ := claimNotificationDeliveries_eq_ok h
  have hexpire : QueueChange K e q q₁ := queueChange_of_expire h₁
  have hsuppress : QueueChange K e q₁ q₂ := queueChange_of_suppress h₂
  have htake : QueueChange K e q₂ q' :=
    queueChange_of_take (hsuppress.wf (hexpire.wf hq)) (hk t ht) h₃
  exact ((Relation.ReflTransGen.single hexpire).tail hsuppress).tail htake

/-! ## The deliveries of a dispatcher -/

theorem statusHeld?_eq_some {id : ℤ} {token : Uuid} {d : StatusDelivery}
    (h : q.held? id token = some d) : d ∈ q.deliveries ∧ d.heldBy id token = true :=
  ⟨List.mem_of_find?_eq_some h, List.find?_some h⟩

theorem statusHeldBy_iff {id : ℤ} {token : Uuid} {d : StatusDelivery} :
    d.heldBy id token = true ↔ (d.id : ℤ) = id ∧ d.status = .sending ∧ d.claimToken = some token := by
  simp [StatusDelivery.heldBy, and_assoc]

/-- What a suppression by the dispatcher has done. -/
theorem suppressNotificationEventDelivery_eq_ok {id : Option ℤ} {token : Option Uuid}
    {reason : Option String} {res : DeliveryAnswer}
    (h : suppressNotificationEventDelivery id token reason q = .ok (res, q')) :
    ∃ i t s, id = some i ∧ token = some t ∧ reason = some s ∧
      (q.held? i t = none ∧ res = .claimMismatch ∧ q' = q ∨
        ∃ d, q.held? i t = some d ∧ res = .moved .suppressed ∧
          q.update (StatusDelivery.heldBy i t) (StatusDelivery.suppress s) = .ok q') := by
  simp only [suppressNotificationEventDelivery, bind_eq_ok, orRaise_eq_ok,
    Option.filter_eq_some_iff] at h
  obtain ⟨i, ⟨hi, -⟩, t, ht, s, ⟨hs, -⟩, h⟩ := h
  refine ⟨i, t, s, hi, ht, hs, ?_⟩
  cases hheld : q.held? i t with
  | none =>
    simp only [hheld, pure_eq_ok, Prod.mk.injEq] at h
    exact .inl ⟨rfl, h.1.symm, h.2.symm⟩
  | some d =>
    simp only [hheld, bind_eq_ok, pure_eq_ok, Prod.mk.injEq] at h
    obtain ⟨q₁, h₁, rfl, rfl⟩ := h
    exact .inr ⟨d, rfl, rfl, h₁⟩

theorem queueChanges_of_suppress {id : Option ℤ} {token : Option Uuid} {reason : Option String}
    {res : DeliveryAnswer}
    (h : suppressNotificationEventDelivery id token reason q = .ok (res, q')) :
    QueueChanges K e q q' := by
  obtain ⟨i, t, s, -, -, -, ⟨-, -, rfl⟩ | ⟨d, -, -, h⟩⟩ :=
    suppressNotificationEventDelivery_eq_ok h
  · exact .refl
  · apply Relation.ReflTransGen.single
    apply queueChange_of_update _ h
    intro d _ hp
    exact .suppress s (by rw [(statusHeldBy_iff.1 hp).2.1]; rfl)

/-- What a completion that commits has done. -/
theorem completeNotificationEventDelivery_eq_ok {id : Option ℤ} {token : Option Uuid}
    {p : DeliveryReport} {res : DeliveryAnswer}
    (h : completeNotificationEventDelivery e id token p q = .ok (res, q')) :
    ∃ i t success, id = some i ∧ token = some t ∧ p.success = some success ∧
      (q.held? i t = none ∧ res = .claimMismatch ∧ q' = q ∨
        ∃ d, q.held? i t = some d ∧
          (success = true ∧ res = .moved .sent ∧
              q.update (fun d => (d.id : ℤ) = i) (StatusDelivery.deliver p e.now) = .ok q' ∨
            success = false ∧ res = .moved d.failedStatus ∧
              q.update (fun d => (d.id : ℤ) = i) (StatusDelivery.fail p e.now) = .ok q')) := by
  simp only [completeNotificationEventDelivery, bind_eq_ok, orRaise_eq_ok,
    Option.filter_eq_some_iff] at h
  obtain ⟨i, ⟨hi, -⟩, t, ht, success, hsuccess, -, -, h⟩ := h
  refine ⟨i, t, success, hi, ht, hsuccess, ?_⟩
  cases hheld : q.held? i t with
  | none =>
    simp only [hheld, pure_eq_ok, Prod.mk.injEq] at h
    exact .inl ⟨rfl, h.1.symm, h.2.symm⟩
  | some d =>
    refine .inr ⟨d, rfl, ?_⟩
    cases success with
    | true =>
      simp only [hheld, ite_true, bind_eq_ok, pure_eq_ok, Prod.mk.injEq] at h
      obtain ⟨q₁, h₁, rfl, rfl⟩ := h
      exact .inl ⟨rfl, rfl, h₁⟩
    | false =>
      simp only [hheld, Bool.false_eq_true, ite_false, bind_eq_ok, pure_eq_ok, Prod.mk.injEq] at h
      obtain ⟨q₁, h₁, rfl, rfl⟩ := h
      exact .inr ⟨rfl, rfl, h₁⟩

/-- The delivery under the id of one that is held is that one. -/
theorem eq_of_statusHeld {s : Settings} (hq : q.Wf s) {i : ℤ} {t : Uuid} {d d' : StatusDelivery}
    (hheld : q.held? i t = some d) (hd' : d' ∈ q.deliveries)
    (hid : decide ((d'.id : ℤ) = i) = true) : d' = d := by
  obtain ⟨hd, hheldBy⟩ := statusHeld?_eq_some hheld
  apply hq.eq_of_id hd' hd
  have hdi := (statusHeldBy_iff.1 hheldBy).1
  have hdi' := of_decide_eq_true hid
  omega

theorem queueChanges_of_complete {s : Settings} (hq : q.Wf s) {id : Option ℤ} {token : Option Uuid}
    {p : DeliveryReport} {res : DeliveryAnswer}
    (hk : ∀ i t, id = some i → token = some t → p.success = some true →
      ∀ d ∈ q.deliveries, d.heldBy i t = true → K.deliver d)
    (h : completeNotificationEventDelivery e id token p q = .ok (res, q')) :
    QueueChanges K e q q' := by
  obtain ⟨i, t, success, hi, ht, hsuccess, ⟨-, -, rfl⟩ | ⟨d, hheld, h⟩⟩ :=
    completeNotificationEventDelivery_eq_ok h
  · exact .refl
  · obtain ⟨hd, hheldBy⟩ := statusHeld?_eq_some hheld
    have hsending := (statusHeldBy_iff.1 hheldBy).2.1
    apply Relation.ReflTransGen.single
    rcases h with ⟨rfl, -, h⟩ | ⟨-, -, h⟩
    · apply queueChange_of_update _ h
      intro d' hd' hp
      obtain rfl := eq_of_statusHeld hq hheld hd' hp
      exact .deliver p hsending (hk i t hi ht hsuccess _ hd' hheldBy)
    · apply queueChange_of_update _ h
      intro d' hd' hp
      obtain rfl := eq_of_statusHeld hq hheld hd' hp
      exact .fail p hsending

theorem queueChange_of_channelOff {reason : String}
    (h : suppressChannelDeliveries reason q = .ok q') : QueueChange K e q q' := by
  apply queueChange_of_update _ h
  intro d _ hp
  simp only [Bool.and_eq_true] at hp
  exact .suppress reason hp.2

end

/-! ## Calls -/

namespace Call

/-- The premises hold of a call made in the tables `w`. -/
structure MeetsQueue (K : QueuePremises) (w : World) (c : Call) : Prop where
  publish : ∀ p key content, c.request = .statusEvent p → p.content? = some (key, content) →
    (∀ v ∈ w.queue.events, v.eventKey ≠ key) → K.publish w.queue content
  claim : ∀ provider token limit, c.request = .claimStatus provider (some token) limit →
    K.claim token
  deliver : ∀ i t p, c.request = .completeStatus (some i) (some t) p → p.success = some true →
    ∀ d ∈ w.queue.deliveries, d.heldBy i t = true → K.deliver d

theorem meetsQueue_any (w : World) (c : Call) : c.MeetsQueue .any w :=
  ⟨fun _ _ _ _ _ _ => trivial, fun _ _ _ _ => trivial, fun _ _ _ _ _ _ _ _ => trivial⟩

end Call

/-- The channels and the status queue are well formed. -/
structure World.Sound (w : World) : Prop where
  channels : w.settings.ChannelsOk
  queue : w.queue.Wf w.settings

/-- The channels of `s` are there in `s'`, under their ids and of their types. -/
def Settings.Keeps (s s' : Settings) : Prop :=
  ∀ c ∈ s.channels, ∃ c' ∈ s'.channels, c'.id = c.id ∧ c'.channelType = c.channelType

namespace Settings

variable {s s' : Settings}

theorem Keeps.refl (s : Settings) : s.Keeps s := fun c hc => ⟨c, hc, rfl, rfl⟩

theorem keeps_setDiscord (s : Settings) (enabled configured : Bool) :
    s.Keeps (s.setDiscord enabled configured) := by
  intro c hc
  refine ⟨_, mem_updateWhere.2 ⟨c, hc, rfl⟩, ?_⟩
  split <;> exact ⟨rfl, rfl⟩

theorem ChannelsOk.setDiscord (h : s.ChannelsOk) (enabled configured : Bool) :
    (s.setDiscord enabled configured).ChannelsOk where
  ids := by
    have hmap : (s.setDiscord enabled configured).channels.map (·.id) = s.channels.map (·.id) :=
      map_updateWhere fun _ => rfl
    rw [hmap]
    exact h.ids
  discord := by
    obtain ⟨c, hc, hid, htype⟩ := h.discord
    obtain ⟨c', hc', hid', htype'⟩ := keeps_setDiscord s enabled configured c hc
    exact ⟨c', hc', hid'.trans hid, htype'.trans htype⟩

theorem ChannelsOk.addChannel (h : s.ChannelsOk) {c : Channel} (hs : s.addChannel c = .ok s') :
    s'.ChannelsOk ∧ s.Keeps s' := by
  obtain ⟨hnew, rfl⟩ := addChannel_eq_ok hs
  refine ⟨⟨?_, ?_⟩, fun c' hc' => ⟨c', List.mem_append_left _ hc', rfl, rfl⟩⟩
  · rw [List.map_append, List.nodup_append]
    refine ⟨h.ids, List.nodup_singleton _, ?_⟩
    intro i hi j hj hij
    obtain ⟨c', hc', rfl⟩ := List.mem_map.1 hi
    rw [List.map_singleton, List.mem_singleton] at hj
    exact hnew c' hc' (hij.trans hj)
  · obtain ⟨c', hc', hid, htype⟩ := h.discord
    exact ⟨c', List.mem_append_left _ hc', hid, htype⟩

end Settings

section

variable {K : QueuePremises}

theorem channelsOk_apply {c : Call} {w w' : World} (hw : w.settings.ChannelsOk)
    (h : w.apply c = .ok w') : w'.settings.ChannelsOk ∧ w.settings.Keeps w'.settings := by
  have hsame : w'.settings.channels = w.settings.channels →
      w'.settings.ChannelsOk ∧ w.settings.Keeps w'.settings :=
    fun heq => ⟨⟨heq ▸ hw.ids, heq ▸ hw.discord⟩, fun c hc => ⟨c, heq ▸ hc, rfl, rfl⟩⟩
  have hstep := settingsStep_apply h
  generalize c.request = request at hstep
  generalize w'.settings = s' at hstep hsame ⊢
  cases hstep with
  | same => exact hsame rfl
  | maintained hm => exact hsame (Settings.maintain_eq_ok hm).2.1
  | host => exact hsame rfl
  | switched enabled configured name x y =>
    exact ⟨hw.setDiscord x y, Settings.keeps_setDiscord _ x y⟩
  | added hadd => exact hw.addChannel hadd

/-- What a call that commits does to the status queue. -/
theorem queueChanges_apply {c : Call} {w w' : World} (hw : w.Sound) (hmeets : c.MeetsQueue K w)
    (h : w.apply c = .ok w') : QueueChanges K (w.env c.now) w.queue w'.queue := by
  have hsame : w'.queue = w.queue → QueueChanges K (w.env c.now) w.queue w'.queue :=
    fun heq => heq ▸ .refl
  obtain ⟨now, request⟩ := c
  unfold World.apply at h
  cases request with
  | statusEvent p =>
    obtain ⟨hx, -, -⟩ := withQueue_eq_ok h
    obtain ⟨⟨res, queue⟩, hres, hqueue⟩ := map_eq_ok.1 hx
    obtain ⟨key, content, hp, ⟨v, -, -, -, -, rfl⟩ | ⟨hnew, -, rfl, hchecked⟩⟩ :=
      createStatusNotificationEvent_eq_ok hres
    · rw [← hqueue]
      exact .single .spent
    · rw [← hqueue]
      exact .single (.publish key content (hmeets.publish p key content rfl hp hnew) hnew hchecked)
  | claimStatus provider token limit =>
    obtain ⟨hx, -, -⟩ := withQueue_eq_ok h
    obtain ⟨⟨rows, queue⟩, hres, hqueue⟩ := map_eq_ok.1 hx
    rw [← hqueue]
    apply queueChanges_of_claim hw.queue _ hres
    rintro t rfl
    exact hmeets.claim provider t limit rfl
  | suppressStatus id token reason =>
    obtain ⟨hx, -, -⟩ := withQueue_eq_ok h
    obtain ⟨⟨res, queue⟩, hres, hqueue⟩ := map_eq_ok.1 hx
    rw [← hqueue]
    exact queueChanges_of_suppress hres
  | completeStatus id token p =>
    obtain ⟨hx, -, -⟩ := withQueue_eq_ok h
    obtain ⟨⟨res, queue⟩, hres, hqueue⟩ := map_eq_ok.1 hx
    rw [← hqueue]
    apply queueChanges_of_complete hw.queue _ hres
    rintro i t rfl rfl
    exact hmeets.deliver i t p rfl
  | setChannel enabled configured displayName =>
    obtain ⟨x, y, -, -, -, ⟨-, -, hqueue⟩ | ⟨-, reason, -, -, hqueue⟩⟩ :=
      setNotificationChannel_eq_ok h
    · exact hsame hqueue
    · exact .single (queueChange_of_channelOff hqueue)
  | maintain m =>
    obtain ⟨_, -, rfl⟩ := map_eq_ok.1 h
    exact hsame rfl
  | addHost host =>
    cases h
    exact hsame rfl
  | addChannel ch =>
    obtain ⟨_, -, rfl⟩ := map_eq_ok.1 h
    exact hsame rfl
  | gate id token =>
    cases h
    exact hsame rfl
  | gateStatus s id token =>
    cases h
    exact hsame rfl
  | notification p => exact hsame (withBoard_eq_ok h).2.2
  | burn p => exact hsame (withBoard_eq_ok h).2.2
  | cloud p => exact hsame (withBoard_eq_ok h).2.2
  | event p => exact hsame (withBoard_eq_ok h).2.2
  | claim token limit => exact hsame (withBoard_eq_ok h).2.2
  | suppress id token reason => exact hsame (withBoard_eq_ok h).2.2
  | complete id token p => exact hsame (withBoard_eq_ok h).2.2
  | retirePolicy p => exact hsame (withBoard_eq_ok h).2.2
  | retireHost hostId => exact hsame (withBoard_eq_ok h).2.2
  | retireCloud targetId => exact hsame (withBoard_eq_ok h).2.2

namespace World

theorem Sound.initial : World.initial.Sound :=
  ⟨⟨List.nodup_singleton _, _, List.mem_singleton.2 rfl, rfl, rfl⟩, StatusQueue.Wf.empty⟩

/-- What a call does to the status queue. -/
theorem queueChanges_step {c : Call} {w : World} (hw : w.Sound) (hmeets : c.MeetsQueue K w) :
    QueueChanges K (w.env c.now) w.queue (w.step c).queue := by
  rcases step_eq (w := w) (c := c) with h | h
  · rw [h]
  · exact queueChanges_apply hw hmeets h

theorem Sound.step {w : World} (hw : w.Sound) (c : Call) : (w.step c).Sound := by
  have hqueue := (queueChanges_step hw (c.meetsQueue_any w)).wf hw.queue
  rcases step_eq (w := w) (c := c) with h | h
  · rwa [h]
  · obtain ⟨hchannels, hkeeps⟩ := channelsOk_apply hw.channels h
    exact ⟨hchannels, hqueue.mono hkeeps⟩

theorem Sound.run {w : World} (hw : w.Sound) (calls : List Call) : (w.run calls).Sound :=
  Runs.run_invariant (P := World.Sound) (fun _ c h => h.step c) hw calls

/-- An invariant of the status queue that holds at the start holds at the end of a run, if it is one
of each change under the premises. -/
theorem run_queueChanges {P : StatusQueue → Prop}
    (hstep : ∀ e q q', e.settings.ChannelsOk → q.Wf e.settings → P q → QueueChange K e q q' → P q')
    {w : World} {calls : List Call}
    (hmeets : ∀ front c back, calls = front ++ c :: back → c.MeetsQueue K (w.run front))
    (hw : w.Sound) (hP : P w.queue) : P (w.run calls).queue := by
  have hchanges : ∀ {e q q'}, e.settings.ChannelsOk → q.Wf e.settings → P q →
      QueueChanges K e q q' → P q' := by
    intro e q q' hok hwf hP h
    induction h with
    | refl => exact hP
    | tail hpre hlast ih => exact hstep _ _ _ hok (QueueChanges.wf hpre hwf) ih hlast
  suffices h : (w.run calls).Sound ∧ P (w.run calls).queue from h.2
  apply Runs.run_invariant_of (P := fun w : World => w.Sound ∧ P w.queue) _ hmeets ⟨hw, hP⟩
  intro w c hPw hc
  exact ⟨hPw.1.step c, hchanges hPw.1.channels hPw.1.queue hPw.2 (queueChanges_step hPw.1 hc)⟩

end World

end

end IvrmDashboard.Notifications

import IvrmDashboard.Notifications.Order
import IvrmDashboard.Notifications.StatusSteps

/-!
# Status notifications: once, in order, and for good

The deliveries of a source on a channel form a line, in the order of the times of their events and
their ids. Unlike in the outbox nothing that is out of this queue comes back, so the lines stay in
order (`StatusQueue.InOrder`) as soon as the events of a source are published in the order of their
times. An event fans out to the channels there are when it is published, and that is all it ever
sends to (`StatusQueue.recipients`).
-/

namespace IvrmDashboard.Notifications

open Sql Operations Lines

/-- The source of what an event says. -/
def StatusContent.source (c : StatusContent) : StatusSource × String :=
  (c.sourceType, c.sourcePublicId)

namespace StatusQueue

/-- The deliveries as lines of a source on a channel. -/
def lines (q : StatusQueue) :
    Lines.Reading StatusDelivery (ℕ × StatusSource × String) (Timestamptz ×ₗ ℕ) where
  line d := (q.event? d).map fun v => (d.channelId, v.source)
  place d := toLex (((q.event? d).map (·.content.occurredAt)).getD ⊥, d.id)
  phase d := d.status.phase

/-- The lines are in order. -/
def InOrder (q : StatusQueue) : Prop := q.lines.InOrder q.deliveries

/-- The channels an event sends to. -/
def recipients (q : StatusQueue) (eventId : ℕ) : List ℕ :=
  (q.deliveries.filter (·.eventId = eventId)).map (·.channelId)

/-- The delivery belongs to the source on the channel. -/
def ofLine (q : StatusQueue) (channel : ℕ) (source : StatusSource × String)
    (d : StatusDelivery) : Bool :=
  d.channelId = channel && (q.event? d).any (·.source = source)

/-- It is being sent. -/
def sendingOf (q : StatusQueue) (channel : ℕ) (source : StatusSource × String)
    (d : StatusDelivery) : Bool :=
  q.ofLine channel source d && d.status = .sending

variable {q q' : StatusQueue} {s : Settings} {d d' : StatusDelivery}

theorem ofLine_iff {channel : ℕ} {source : StatusSource × String} :
    q.ofLine channel source d = true ↔ q.lines.line d = some (channel, source) := by
  unfold ofLine lines
  cases h : q.event? d <;> simp [h]

theorem precedes_iff (hq : q.Wf s) (hs : s.ChannelsOk) (hd : d ∈ q.deliveries)
    (hd' : d' ∈ q.deliveries) :
    q.precedes d d' = true ↔
      ∃ k, q.lines.line d = some k ∧ q.lines.line d' = some k ∧
        q.lines.place d < q.lines.place d' := by
  obtain ⟨v, hv, hid⟩ := hq.events d hd
  obtain ⟨v', hv', hid'⟩ := hq.events d' hd'
  have hevent : q.event? d = some v := hq.event?_eq hv hid
  have hevent' : q.event? d' = some v' := hq.event?_eq hv' hid'
  unfold precedes lines
  simp only [hevent, hevent', Option.map_some, Option.getD_some, Option.some.injEq,
    Bool.and_eq_true, Bool.or_eq_true, decide_eq_true_eq, Prod.Lex.toLex_lt_toLex]
  constructor
  · rintro ⟨⟨⟨hc, -⟩, hsource⟩, hlt⟩
    exact ⟨(d'.channelId, v'.source), by rw [hc, hsource], rfl, hlt⟩
  · rintro ⟨k, hk, hk', hlt⟩
    rw [← hk', Prod.mk.injEq] at hk
    exact ⟨⟨⟨hk.1, hq.provider_eq hs hd hd' hk.1⟩, hk.2⟩, hlt⟩

/-- An event that is appended leaves those of the deliveries where they are. -/
theorem event?_publish (hq : q.Wf s) {e : Env} {key : String} {content : StatusContent}
    (hd : d ∈ q.deliveries) : (q.publish e key content).event? d = q.event? d := by
  obtain ⟨v, hv, hid⟩ := hq.events d hd
  have hevent : q.events.find? (·.id = d.eventId) = some v := hq.event?_eq hv hid
  unfold event? publish
  rw [List.find?_append, hevent]
  rfl

theorem event?_published (hq : q.Wf s) {e : Env} {key : String} {content : StatusContent}
    (hd : d.eventId = q.nextEventId) :
    (q.publish e key content).event? d = some ⟨q.nextEventId, key, content⟩ := by
  have hnone : q.events.find? (·.id = d.eventId) = none := by
    rw [List.find?_eq_none]
    intro v hv hid
    have hlt := hq.freshEvents v hv
    rw [of_decide_eq_true hid, hd] at hlt
    exact lt_irrefl _ hlt
  unfold event? publish
  rw [List.find?_append, hnone]
  simp [hd]

end StatusQueue

/-- An event is published no earlier than those of its source before it. -/
def orderPublish (q : StatusQueue) (content : StatusContent) : Prop :=
  ∀ v ∈ q.events, v.source = content.source → v.content.occurredAt ≤ content.occurredAt

/-- The events of a source are published in the order of their times. -/
def orderQueuePremises : QueuePremises := { QueuePremises.any with publish := orderPublish }

variable {K : QueuePremises} {e : Env} {q q' : StatusQueue} {d d' : StatusDelivery}

/-! ## The order is preserved -/

/-- A delivery that is taken is the first undelivered one of its line. -/
theorem first_of_statusClaimable {s : Settings} (hq : q.Wf s) (hs : s.ChannelsOk)
    (hd : d ∈ q.deliveries) {provider : Provider} (h : q.claimable e provider d = true) :
    q.lines.First q.deliveries d := by
  intro d' hd' hu k hk hk'
  by_contra hlt
  have hprecedes : q.precedes d' d = true :=
    (StatusQueue.precedes_iff hq hs hd' hd).2 ⟨k, hk', hk, not_le.1 hlt⟩
  unfold StatusQueue.claimable at h
  rw [Bool.and_eq_true, List.all_eq_true] at h
  have hall := h.2 d' hd'
  rw [undelivered_iff.1 hu, hprecedes] at hall
  cases hall

theorem DeliveryStep.started {s : Settings} (hq : q.Wf s) (hs : s.ChannelsOk)
    (hd : d ∈ q.deliveries) (h : DeliveryStep K e q d d') (hstart : (q.lines.phase d').Started) :
    (q.lines.phase d).Started ∨ q.lines.First q.deliveries d := by
  rcases h with rfl | ⟨h, -⟩
  · exact .inl hstart
  · cases h with
    | expire => exact hstart.elim
    | suppress => exact hstart.elim
    | claim provider token h => exact .inr (first_of_statusClaimable hq hs hd h)
    | deliver p hsending => exact .inl (started_iff.2 (.inl hsending))
    | fail p hsending => exact .inl (started_iff.2 (.inl hsending))

theorem inOrder_deliveries (hs : e.settings.ChannelsOk) (hq : q.Wf e.settings)
    {f : StatusDelivery → StatusDelivery} (hf : ∀ d ∈ q.deliveries, DeliveryStep K e q d (f d))
    (h : q.InOrder) : (q.mapDeliveries f).InOrder := by
  refine Lines.Reading.InOrder.start (q := q.lines) h ?_ ?_ ?_
  · intro d hd
    obtain ⟨hid, hevent, hchannel, -⟩ := (hf d hd).frame
    have hsame : q.event? (f d) = q.event? d := by
      unfold StatusQueue.event?
      rw [hevent]
    simp only [StatusQueue.lines, hsame, hid, hchannel, and_self]
  · exact fun d hd hstart => (hf d hd).started hq hs hd hstart
  · exact fun d hd hu => undelivered_iff.2 ((hf d hd).undelivered (undelivered_iff.1 hu))

theorem inOrder_publish (hq : q.Wf e.settings) {key : String} {content : StatusContent}
    (hlater : orderPublish q content) (h : q.InOrder) : (q.publish e key content).InOrder := by
  apply Lines.Reading.InOrder.append
  · apply Lines.Reading.InOrder.congr h
    · exact fun _ _ => rfl
    · intro d hd
      simp only [StatusQueue.lines, StatusQueue.event?_publish hq hd, and_self]
  · intro d hd hstart
    obtain ⟨c, -, k, -, -, rfl⟩ := mem_fanOut hd
    rcases started_iff.1 hstart with hsending | hsent
    · exact delivery_not_sending.1 hsending
    · exact delivery_not_sending.2.1 hsent
  · intro d hd a ha _ k hka hkd
    obtain ⟨c, -, n, hn, -, rfl⟩ := mem_fanOut hd
    obtain ⟨v, hv, hid⟩ := hq.events a ha
    have hevent : (q.publish e key content).event? a = some v := by
      rw [StatusQueue.event?_publish hq ha, hq.event?_eq hv hid]
    have hevent' : (q.publish e key content).event?
        (c.delivery e q.nextEventId content.occurredAt n) = some ⟨q.nextEventId, key, content⟩ :=
      StatusQueue.event?_published hq rfl
    simp only [StatusQueue.lines, hevent, hevent', Option.map_some, Option.some.injEq] at hka hkd
    have hsource : v.source = content.source := by
      rw [← hkd, Prod.mk.injEq] at hka
      exact hka.2
    have hfresh : a.id < n := Nat.lt_of_lt_of_le (hq.fresh a ha) hn
    simp only [StatusQueue.lines, hevent, hevent', Option.map_some, Option.getD_some]
    apply Prod.Lex.toLex_le_toLex.2
    rcases lt_or_eq_of_le (hlater v hv hsource) with hlt | heq
    · exact .inl hlt
    · exact .inr ⟨heq, Nat.le_of_lt hfresh⟩

theorem inOrder_queueChange (hs : e.settings.ChannelsOk) (hq : q.Wf e.settings) (h : q.InOrder)
    (hchange : QueueChange orderQueuePremises e q q') : q'.InOrder := by
  cases hchange with
  | rows f hf => exact inOrder_deliveries hs hq hf h
  | publish key content hk => exact inOrder_publish hq hk h
  | spent => exact h

/-! ## Events and their recipients stay -/

theorem QueueChange.mem_events (h : QueueChange K e q q') {v : StatusEvent} (hv : v ∈ q.events) :
    v ∈ q'.events := by
  cases h with
  | rows => exact hv
  | publish => exact List.mem_append_left _ hv
  | spent => exact hv

theorem QueueChanges.mem_events (h : QueueChanges K e q q') {v : StatusEvent}
    (hv : v ∈ q.events) : v ∈ q'.events := by
  induction h with
  | refl => exact hv
  | tail _ h ih => exact h.mem_events ih

theorem recipients_mapDeliveries {f : StatusDelivery → StatusDelivery}
    (hf : ∀ d ∈ q.deliveries, DeliveryStep K e q d (f d)) (i : ℕ) :
    (q.mapDeliveries f).recipients i = q.recipients i := by
  unfold StatusQueue.recipients
  rw [StatusQueue.mapDeliveries_deliveries, List.filter_map, List.map_map]
  have hfilter : q.deliveries.filter ((fun d => decide (d.eventId = i)) ∘ f) =
      q.deliveries.filter fun d => decide (d.eventId = i) := by
    apply List.filter_congr
    intro d hd
    rw [Function.comp_apply, (hf d hd).frame.2.1]
  rw [hfilter]
  exact List.map_congr_left fun d hd => (hf d (List.mem_of_mem_filter hd)).frame.2.2.1

theorem recipients_publish {key : String} {content : StatusContent} {i : ℕ}
    (hi : i < q.nextEventId) : (q.publish e key content).recipients i = q.recipients i := by
  have hnone : (fanOut e q.nextEventId content.occurredAt q.nextDeliveryId
      e.settings.channels).filter (fun d => decide (d.eventId = i)) = [] := by
    rw [List.filter_eq_nil_iff]
    intro d hd
    obtain ⟨c, -, k, -, -, rfl⟩ := mem_fanOut hd
    have hne : q.nextEventId ≠ i := Nat.ne_of_gt hi
    simpa [Channel.delivery] using hne
  unfold StatusQueue.recipients StatusQueue.publish
  rw [List.filter_append, hnone, List.append_nil]

/-- An event sends to the channels there are. -/
theorem recipients_published {s : Settings} (hq : q.Wf s) {key : String}
    {content : StatusContent} :
    (q.publish e key content).recipients q.nextEventId = e.settings.channels.map (·.id) := by
  have hnone : q.deliveries.filter (fun d => decide (d.eventId = q.nextEventId)) = [] := by
    rw [List.filter_eq_nil_iff]
    intro d hd hid
    obtain ⟨v, hv, hvid⟩ := hq.events d hd
    have hlt := hq.freshEvents v hv
    rw [hvid, of_decide_eq_true hid] at hlt
    exact lt_irrefl _ hlt
  have hall : (fanOut e q.nextEventId content.occurredAt q.nextDeliveryId
      e.settings.channels).filter (fun d => decide (d.eventId = q.nextEventId)) =
      fanOut e q.nextEventId content.occurredAt q.nextDeliveryId e.settings.channels := by
    rw [List.filter_eq_self]
    intro d hd
    obtain ⟨c, -, k, -, -, rfl⟩ := mem_fanOut hd
    exact decide_eq_true rfl
  unfold StatusQueue.recipients StatusQueue.publish
  rw [List.filter_append, hnone, hall, List.nil_append, fanOut_channelIds]

/-- An event keeps its recipients, or it is new and sends to the channels there are. -/
theorem QueueChange.recipients (hq : q.Wf e.settings) (h : QueueChange K e q q') {v : StatusEvent}
    (hv : v ∈ q'.events) :
    v ∈ q.events ∧ q'.recipients v.id = q.recipients v.id ∨
      v ∉ q.events ∧ q'.recipients v.id = e.settings.channels.map (·.id) := by
  cases h with
  | rows f hf => exact .inl ⟨hv, recipients_mapDeliveries hf v.id⟩
  | publish key content hk hnew =>
    rcases List.mem_append.1 hv with hv | hv
    · exact .inl ⟨hv, recipients_publish (hq.freshEvents v hv)⟩
    · obtain rfl := List.mem_singleton.1 hv
      exact .inr ⟨fun hold => hnew _ hold rfl, recipients_published hq⟩
  | spent => exact .inl ⟨hv, rfl⟩

theorem QueueChanges.recipients (hq : q.Wf e.settings) (h : QueueChanges K e q q')
    {v : StatusEvent} (hv : v ∈ q'.events) :
    v ∈ q.events ∧ q'.recipients v.id = q.recipients v.id ∨
      v ∉ q.events ∧ q'.recipients v.id = e.settings.channels.map (·.id) := by
  induction h with
  | refl => exact .inl ⟨hv, rfl⟩
  | tail hpre h ih =>
    rcases h.recipients (QueueChanges.wf hpre hq) hv with ⟨hmem, heq⟩ | ⟨hno, heq⟩
    · rcases ih hmem with ⟨hmem', heq'⟩ | ⟨hno', heq'⟩
      · exact .inl ⟨hmem', heq.trans heq'⟩
      · exact .inr ⟨hno', heq.trans heq'⟩
    · exact .inr ⟨fun hold => hno (QueueChanges.mem_events hpre hold), heq⟩

/-! ## Deliveries that are over -/

theorem QueueChange.final (h : QueueChange K e q q') (hd : d ∈ q.deliveries)
    (hu : d.status.undelivered = false) : d ∈ q'.deliveries := by
  cases h with
  | rows f hf => exact List.mem_map.2 ⟨d, hd, (hf d hd).final hu⟩
  | publish => exact List.mem_append_left _ hd
  | spent => exact hd

theorem QueueChanges.final (h : QueueChanges K e q q') (hd : d ∈ q.deliveries)
    (hu : d.status.undelivered = false) : d ∈ q'.deliveries := by
  induction h with
  | refl => exact hd
  | tail _ h ih => exact h.final ih hu

/-! ## Calls with another token -/

/-- The call completes or suppresses the delivery with a token that is not the one it carries. -/
def Call.WrongToken (c : Call) (d : StatusDelivery) : Prop :=
  ∃ token, token ≠ d.claimToken ∧
    ((∃ p, c.request = .completeStatus (some (d.id : ℤ)) token p) ∨
      ∃ reason, c.request = .suppressStatus (some (d.id : ℤ)) token reason)

theorem statusHeld?_eq_none {s : Settings} (hq : q.Wf s) (hd : d ∈ q.deliveries) {t : Uuid}
    (ht : some t ≠ d.claimToken) : q.held? d.id t = none := by
  cases hheld : q.held? d.id t with
  | none => rfl
  | some d' =>
    obtain ⟨hd', hheldBy⟩ := statusHeld?_eq_some hheld
    obtain ⟨hid, -, htoken⟩ := statusHeldBy_iff.1 hheldBy
    rw [hq.eq_of_id hd' hd (by omega)] at htoken
    exact absurd htoken.symm ht

theorem World.eq_of_withQueue {w w' : World} {x : Except DbError StatusQueue}
    (h : w.withQueue x = .ok w') (hqueue : w'.queue = w.queue) : w' = w := by
  obtain ⟨-, hsettings, hboard⟩ := withQueue_eq_ok h
  cases w
  cases w'
  cases hsettings
  cases hboard
  cases hqueue
  rfl

/-- A call with another token changes nothing. -/
theorem World.step_of_wrongToken {w : World} {c : Call} (hw : w.Sound)
    (hd : d ∈ w.queue.deliveries) (hc : c.WrongToken d) : w.step c = w := by
  rcases step_eq (w := w) (c := c) with h | h
  · exact h
  obtain ⟨token, htoken, ⟨p, hrequest⟩ | ⟨reason, hrequest⟩⟩ := hc
  · unfold World.apply at h
    rw [hrequest] at h
    obtain ⟨hx, -, -⟩ := withQueue_eq_ok h
    obtain ⟨⟨res, queue⟩, hres, hqueue⟩ := map_eq_ok.1 hx
    obtain ⟨i, t, _, hi, rfl, -, hcase⟩ := completeNotificationEventDelivery_eq_ok hres
    obtain rfl := Option.some.inj hi
    rw [statusHeld?_eq_none hw.queue hd htoken] at hcase
    rcases hcase with ⟨-, -, hsame⟩ | ⟨d', hnone, -⟩
    · exact eq_of_withQueue h (hqueue.symm.trans hsame)
    · cases hnone
  · unfold World.apply at h
    rw [hrequest] at h
    obtain ⟨hx, -, -⟩ := withQueue_eq_ok h
    obtain ⟨⟨res, queue⟩, hres, hqueue⟩ := map_eq_ok.1 hx
    obtain ⟨i, t, _, hi, rfl, -, hcase⟩ := suppressNotificationEventDelivery_eq_ok hres
    obtain rfl := Option.some.inj hi
    rw [statusHeld?_eq_none hw.queue hd htoken] at hcase
    rcases hcase with ⟨-, -, hsame⟩ | ⟨d', hnone, -⟩
    · exact eq_of_withQueue h (hqueue.symm.trans hsame)
    · cases hnone

/-! ## What a call sends -/

/-- The call reports that a delivery of the status queue has been made. -/
def Request.DeliversStatus (request : Request) (i : ℤ) (t : Uuid) (p : DeliveryReport) : Prop :=
  request = .completeStatus (some i) (some t) p ∧ p.success = some true

/-- No delivery is reported. -/
def QueuePremises.undelivering : QueuePremises :=
  { QueuePremises.any with deliver := fun _ => False }

theorem QueueChange.sent (hK : ∀ d, ¬ K.deliver d) (h : QueueChange K e q q')
    (hd : d ∈ q'.deliveries) (hs : d.status = .sent) : d ∈ q.deliveries := by
  cases h with
  | rows f hf =>
    obtain ⟨d₀, hd₀, rfl⟩ := List.mem_map.1 hd
    rcases hf d₀ hd₀ with h | ⟨h, -⟩
    · rwa [h]
    · generalize hfd : f d₀ = d' at h hs
      cases h with
      | deliver _ _ hk => exact absurd hk (hK d₀)
      | fail =>
        change d₀.failedStatus = .sent at hs
        unfold StatusDelivery.failedStatus at hs
        split at hs <;> cases hs
      | expire => cases hs
      | suppress => cases hs
      | claim => cases hs
  | publish key content =>
    rcases List.mem_append.1 hd with hd | hd
    · exact hd
    · obtain ⟨c, -, k, -, -, rfl⟩ := mem_fanOut hd
      exact absurd hs delivery_not_sending.2.1
  | spent => exact hd

theorem QueueChanges.sent (hK : ∀ d, ¬ K.deliver d) (h : QueueChanges K e q q')
    (hd : d ∈ q'.deliveries) (hs : d.status = .sent) : d ∈ q.deliveries := by
  induction h with
  | refl => exact hd
  | tail _ h ih => exact ih (h.sent hK hd hs)

/-- The deliveries a call makes. -/
def World.statusSentBy (w : World) (c : Call) : List StatusDelivery :=
  (w.step c).queue.deliveries.filter fun d => d.status = .sent && d ∉ w.queue.deliveries

/-- The deliveries the calls of a run make, one after the other. -/
def World.statusSentLog (w : World) : List Call → List StatusDelivery
  | [] => []
  | c :: calls => w.statusSentBy c ++ (w.step c).statusSentLog calls

namespace World

theorem statusSentLog_concat (w : World) (calls : List Call) (c : Call) :
    w.statusSentLog (calls ++ [c]) = w.statusSentLog calls ++ (w.run calls).statusSentBy c := by
  induction calls generalizing w with
  | nil => simp [statusSentLog]
  | cons d calls ih =>
    rw [List.cons_append, statusSentLog, ih, statusSentLog, List.append_assoc]
    rfl

theorem final_step {w : World} (hw : w.Sound) (c : Call) (hd : d ∈ w.queue.deliveries)
    (hu : d.status.undelivered = false) : d ∈ (w.step c).queue.deliveries :=
  (queueChanges_step hw (c.meetsQueue_any w)).final hd hu

theorem final_run {w : World} (hw : w.Sound) (calls : List Call) (hd : d ∈ w.queue.deliveries)
    (hu : d.status.undelivered = false) : d ∈ (w.run calls).queue.deliveries := by
  suffices h : (w.run calls).Sound ∧ d ∈ (w.run calls).queue.deliveries from h.2
  apply Runs.run_invariant (P := fun w : World => w.Sound ∧ d ∈ w.queue.deliveries) _ ⟨hw, hd⟩
  exact fun w c h => ⟨h.1.step c, final_step h.1 c h.2 hu⟩

theorem events_run {w : World} (hw : w.Sound) (calls : List Call) {v : StatusEvent}
    (hv : v ∈ w.queue.events) : v ∈ (w.run calls).queue.events := by
  suffices h : (w.run calls).Sound ∧ v ∈ (w.run calls).queue.events from h.2
  apply Runs.run_invariant (P := fun w : World => w.Sound ∧ v ∈ w.queue.events) _ ⟨hw, hv⟩
  exact fun w c h => ⟨h.1.step c, (queueChanges_step h.1 (c.meetsQueue_any w)).mem_events h.2⟩

/-- A delivery keeps its event. -/
theorem event?_run {w : World} (hw : w.Sound) (calls : List Call) (hd : d ∈ w.queue.deliveries)
    (hid : d'.eventId = d.eventId) : (w.run calls).queue.event? d' = w.queue.event? d := by
  obtain ⟨v, hv, hvid⟩ := hw.queue.events d hd
  rw [hw.queue.event?_eq hv hvid]
  exact (hw.run calls).queue.event?_eq (events_run hw calls hv) (hvid.trans hid.symm)

/-- What a call sends, a dispatcher held. -/
theorem mem_statusSentBy {w : World} {c : Call} (hw : w.Sound) (h : d' ∈ w.statusSentBy c) :
    ∃ i t p d, c.request.DeliversStatus i t p ∧ d ∈ w.queue.deliveries ∧ d.heldBy i t = true ∧
      d' = d.deliver p c.now := by
  obtain ⟨hd', hs⟩ := List.mem_filter.1 h
  rw [Bool.and_eq_true, decide_eq_true_eq, decide_eq_true_eq] at hs
  obtain ⟨hsent, hold⟩ := hs
  by_cases hdeliver : ∃ i t p, c.request.DeliversStatus i t p
  · obtain ⟨i, t, p, hc, hp⟩ := hdeliver
    rcases step_eq (w := w) (c := c) with happly | happly
    · rw [happly] at hd'
      exact absurd hd' hold
    · unfold World.apply at happly
      rw [hc] at happly
      obtain ⟨hx, -, -⟩ := withQueue_eq_ok happly
      obtain ⟨⟨res, queue⟩, hres, hqueue⟩ := map_eq_ok.1 hx
      obtain ⟨i', t', success, hi, ht, hsuccess, hcase⟩ :=
        completeNotificationEventDelivery_eq_ok hres
      cases hi
      cases ht
      rw [← hqueue] at hd'
      rcases hcase with ⟨-, -, hsame⟩ | ⟨d, hheld, hcase⟩
      · rw [hsame] at hd'
        exact absurd hd' hold
      rcases hcase with ⟨-, -, hupdate⟩ | ⟨hfalse, -, -⟩
      · obtain ⟨hd, hheldBy⟩ := statusHeld?_eq_some hheld
        obtain ⟨-, hmap⟩ := StatusQueue.update_eq_ok hupdate
        rw [hmap] at hd'
        obtain ⟨d₁, hd₁, rfl⟩ := List.mem_map.1 hd'
        by_cases hid : (d₁.id : ℤ) = i
        · rw [if_pos (decide_eq_true hid)]
          obtain rfl := hw.queue.eq_of_id hd₁ hd (by
            have := (statusHeldBy_iff.1 hheldBy).1
            omega)
          exact ⟨i, t, p, d₁, ⟨hc, hp⟩, hd₁, hheldBy, rfl⟩
        · rw [if_neg (by simpa using hid)] at hold
          exact absurd hd₁ hold
      · rw [hp, hfalse] at hsuccess
        cases hsuccess
  · have hmeets : c.MeetsQueue .undelivering w :=
      ⟨fun _ _ _ _ _ _ => trivial, fun _ _ _ _ => trivial,
        fun i t p hc hp _ _ _ => hdeliver ⟨i, t, p, hc, hp⟩⟩
    exact absurd ((queueChanges_step hw hmeets).sent (fun _ h => h) hd' hsent) hold

theorem mem_statusSentLog {w : World} {calls : List Call} (hw : w.Sound)
    (h : d ∈ w.statusSentLog calls) :
    d ∈ (w.run calls).queue.deliveries ∧ d.status = .sent := by
  induction calls generalizing w with
  | nil => cases h
  | cons c calls ih =>
    rcases List.mem_append.1 h with h | h
    · obtain ⟨hd, hs⟩ := List.mem_filter.1 h
      rw [Bool.and_eq_true, decide_eq_true_eq] at hs
      exact ⟨final_run (hw.step c) calls hd (by rw [hs.1]; rfl), hs.1⟩
    · exact ih (hw.step c) h

/-- A call makes at most one delivery. -/
theorem statusSentBy_eq {w : World} {c : Call} (hw : w.Sound) (hd : d ∈ w.statusSentBy c)
    (hd' : d' ∈ w.statusSentBy c) : d = d' := by
  obtain ⟨i, t, p, d₀, ⟨hc, -⟩, hd₀, hheld, rfl⟩ := mem_statusSentBy hw hd
  obtain ⟨i', t', p', d₀', ⟨hc', -⟩, hd₀', hheld', rfl⟩ := mem_statusSentBy hw hd'
  rw [hc] at hc'
  cases hc'
  have hid : (d₀.id : ℤ) = d₀'.id :=
    (statusHeldBy_iff.1 hheld).1.trans (statusHeldBy_iff.1 hheld').1.symm
  rw [hw.queue.eq_of_id hd₀ hd₀' (by omega)]

theorem statusSentBy_nodup {w : World} {c : Call} (hw : w.Sound) : (w.statusSentBy c).Nodup :=
  (hw.step c).queue.ids.of_map.filter _

end World

/-! ## Runs -/

/-- The call publishes an event no earlier than those of its source before it. -/
def Call.PublishesInOrder (c : Call) (w : World) : Prop :=
  ∀ p key content, c.request = .statusEvent p → p.content? = some (key, content) →
    (∀ v ∈ w.queue.events, v.eventKey ≠ key) → orderPublish w.queue content

/-- What holds of the status queue along a run. -/
structure DeliversOnceInOrder (calls : List Call) : Prop where
  /-- There is one event under a key, and it stays. -/
  keys : ∀ front back, calls = front ++ back →
    (∀ k, ((World.initial.run front).queue.events.filter (·.eventKey = k)).length ≤ 1) ∧
      ∀ v ∈ (World.initial.run front).queue.events, v ∈ (World.initial.run calls).queue.events
  /-- Publishing that commits leaves the event under its key. -/
  published : ∀ front c back, calls = front ++ c :: back → ∀ p key content w,
    c.request = .statusEvent p → p.content? = some (key, content) →
      (World.initial.run front).apply c = .ok w →
        ∃ v ∈ w.queue.events, v.eventKey = key ∧ v.content = content
  /-- An event has one delivery for each channel there was when it was published. -/
  recipients : ∀ front c back, calls = front ++ c :: back →
    ∀ v ∈ ((World.initial.run front).step c).queue.events,
      v ∉ (World.initial.run front).queue.events →
        ((World.initial.run front).settings.channels.map (·.id)).Nodup ∧
          ∀ mid rest, back = mid ++ rest →
            (World.initial.run (front ++ c :: mid)).queue.recipients v.id =
              (World.initial.run front).settings.channels.map (·.id)
  /-- A delivery that has been sent, has failed or is suppressed stays as it is. -/
  final : ∀ front back, calls = front ++ back →
    ∀ d ∈ (World.initial.run front).queue.deliveries, d.status ∈ [.sent, .failed, .suppressed] →
      d ∈ (World.initial.run calls).queue.deliveries
  /-- Calls with another token than the one a delivery carries change nothing. -/
  tokens : ∀ front back, calls = front ++ back →
    ∀ d ∈ (World.initial.run front).queue.deliveries, ∀ c : Call, c.WrongToken d →
      (World.initial.run front).step c = World.initial.run front
  /-- At most one delivery of a source on a channel is being sent. -/
  sending : ∀ front back, calls = front ++ back → ∀ channel source,
    ((World.initial.run front).queue.deliveries.filter
      ((World.initial.run front).queue.sendingOf channel source)).length ≤ 1
  /-- The deliveries of a source on a channel are sent in the order of their times and ids. -/
  order : ∀ channel source,
    ((World.initial.statusSentLog calls).filter
      ((World.initial.run calls).queue.ofLine channel source)).Pairwise fun d d' =>
        (World.initial.run calls).queue.precedes d d' = true

section

variable {calls : List Call}

theorem inOrder_run
    (h : ∀ front c back, calls = front ++ c :: back → c.PublishesInOrder (World.initial.run front)) :
    (World.initial.run calls).queue.InOrder := by
  apply World.run_queueChanges (K := orderQueuePremises) (P := StatusQueue.InOrder)
  · exact fun _ _ _ hs hq hP hchange => inOrder_queueChange hs hq hP hchange
  · intro front c back hsplit
    exact ⟨h front c back hsplit, fun _ _ _ _ => trivial, fun _ _ _ _ _ _ _ _ => trivial⟩
  · exact World.Sound.initial
  · exact Lines.Reading.inOrder_nil

theorem published_apply {w w' : World} {c : Call} {p : StatusEventParams} {key : String}
    {content : StatusContent} (hc : c.request = .statusEvent p)
    (hp : p.content? = some (key, content)) (h : w.apply c = .ok w') :
    ∃ v ∈ w'.queue.events, v.eventKey = key ∧ v.content = content := by
  unfold World.apply at h
  rw [hc] at h
  obtain ⟨hx, -, -⟩ := withQueue_eq_ok h
  obtain ⟨⟨res, queue⟩, hres, rfl⟩ := map_eq_ok.1 hx
  obtain ⟨key', content', hp', hcase⟩ := createStatusNotificationEvent_eq_ok hres
  rw [hp, Option.some.injEq, Prod.mk.injEq] at hp'
  obtain ⟨rfl, rfl⟩ := hp'
  rcases hcase with ⟨v, hv, hkey, hcontent, -, hqueue⟩ | ⟨-, -, hqueue, -⟩
  · exact ⟨v, by rw [hqueue]; exact hv, hkey, hcontent⟩
  · refine ⟨⟨w.queue.nextEventId, key, content⟩, ?_, rfl, rfl⟩
    rw [hqueue]
    exact List.mem_append_right _ (List.mem_singleton.2 rfl)

theorem keys_run (calls : List Call) (k : String) :
    ((World.initial.run calls).queue.events.filter (·.eventKey = k)).length ≤ 1 := by
  have hkeys := (World.Sound.initial.run calls).queue.eventKeys
  apply length_le_one_of_pairwise (hkeys.of_map.filter _)
  intro v hv v' hv' hne
  obtain ⟨hmem, hk⟩ := List.mem_filter.1 hv
  obtain ⟨hmem', hk'⟩ := List.mem_filter.1 hv'
  have hkey : v.eventKey = v'.eventKey :=
    (of_decide_eq_true hk).trans (of_decide_eq_true hk').symm
  exact hne (List.inj_on_of_nodup_map hkeys hmem hmem' hkey)

/-- The recipients of an event stay the ones it had. -/
theorem recipients_run {w : World} (hw : w.Sound) (calls : List Call) {v : StatusEvent}
    (hv : v ∈ w.queue.events) : (w.run calls).queue.recipients v.id = w.queue.recipients v.id := by
  induction calls using List.reverseRecOn with
  | nil => rfl
  | append_singleton calls c ih =>
    have hw' := hw.run calls
    have hmem := World.events_run hw calls hv
    have hchanges := World.queueChanges_step hw' (c.meetsQueue_any _)
    rw [World.run_concat, ← ih]
    rcases hchanges.recipients hw'.queue (hchanges.mem_events hmem) with ⟨-, heq⟩ | ⟨hno, -⟩
    · exact heq
    · exact absurd hmem hno

theorem recipients_step {w : World} (hw : w.Sound) {c : Call} {v : StatusEvent}
    (hv : v ∈ (w.step c).queue.events) (hnew : v ∉ w.queue.events) :
    (w.step c).queue.recipients v.id = w.settings.channels.map (·.id) := by
  have hchanges := World.queueChanges_step hw (c.meetsQueue_any w)
  rcases hchanges.recipients hw.queue hv with ⟨hold, -⟩ | ⟨-, heq⟩
  · exact absurd hold hnew
  · exact heq

theorem sending_unique_run (hw : (World.initial.run calls).queue.InOrder) (channel : ℕ)
    (source : StatusSource × String) :
    ((World.initial.run calls).queue.deliveries.filter
      ((World.initial.run calls).queue.sendingOf channel source)).length ≤ 1 := by
  have hsound := World.Sound.initial.run calls
  apply length_le_one_of_pairwise (hsound.queue.ids.of_map.filter _)
  intro d hd d' hd' hne
  obtain ⟨hmem, hsending⟩ := List.mem_filter.1 hd
  obtain ⟨hmem', hsending'⟩ := List.mem_filter.1 hd'
  unfold StatusQueue.sendingOf at hsending hsending'
  rw [Bool.and_eq_true, decide_eq_true_eq, StatusQueue.ofLine_iff] at hsending hsending'
  have hplace := hw.sending_unique hmem hmem' (congrArg DeliveryStatus.phase hsending.2)
    (congrArg DeliveryStatus.phase hsending'.2) hsending.1 hsending'.1
  have hid : d.id = d'.id := congrArg (fun x => (ofLex x).2) hplace
  exact hne (hsound.queue.eq_of_id hmem hmem' hid)

/-- A delivery that is made comes after those of its line that have been made. -/
theorem precedes_of_sent {w : World} (hw : w.Sound) (hq : w.queue.InOrder) {calls : List Call}
    {c : Call} {channel : ℕ} {source : StatusSource × String} (hd : d ∈ w.queue.deliveries)
    (hsent : d.status = .sent) (hd' : d' ∈ w.statusSentBy c)
    (hline : (w.run (c :: calls)).queue.ofLine channel source d = true)
    (hline' : (w.run (c :: calls)).queue.ofLine channel source d' = true) :
    (w.run (c :: calls)).queue.precedes d d' = true := by
  obtain ⟨i, t, p, d₀, -, hd₀, hheld, rfl⟩ := World.mem_statusSentBy hw hd'
  have hsending : d₀.status = .sending := (statusHeldBy_iff.1 hheld).2.1
  have hevent := World.event?_run hw (c :: calls) hd (rfl : d.eventId = d.eventId)
  have hevent₀ := World.event?_run hw (c :: calls) hd₀
    (rfl : (d₀.deliver p c.now).eventId = d₀.eventId)
  have hmem := World.final_run hw (c :: calls) hd (by rw [hsent]; rfl)
  have hmem' := World.final_run (hw.step c) calls (List.mem_of_mem_filter hd') rfl
  have hrun := hw.run (c :: calls)
  rw [StatusQueue.ofLine_iff] at hline hline'
  apply (StatusQueue.precedes_iff hrun.queue hrun.channels hmem hmem').2
  refine ⟨(channel, source), hline, hline', ?_⟩
  have hplace : w.queue.lines.place d ≤ w.queue.lines.place d₀ := by
    apply hq.sent_le hd hd₀ (congrArg DeliveryStatus.phase hsent)
      (congrArg DeliveryStatus.phase hsending) (k := (channel, source))
    · rw [← hline]
      simp only [StatusQueue.lines, hevent]
    · rw [← hline']
      simp only [StatusQueue.lines, hevent₀]
      rfl
  have hplaces : (w.run (c :: calls)).queue.lines.place d = w.queue.lines.place d ∧
      (w.run (c :: calls)).queue.lines.place (d₀.deliver p c.now) = w.queue.lines.place d₀ := by
    simp only [StatusQueue.lines, hevent, hevent₀, true_and]
    rfl
  rw [hplaces.1, hplaces.2]
  apply lt_of_le_of_ne hplace
  intro heq
  have hid : d.id = d₀.id := congrArg (fun x => (ofLex x).2) heq
  rw [hw.queue.eq_of_id hd hd₀ hid, hsending] at hsent
  cases hsent

theorem sent_in_order
    (h : ∀ front c back, calls = front ++ c :: back → c.PublishesInOrder (World.initial.run front))
    (channel : ℕ) (source : StatusSource × String) :
    ((World.initial.statusSentLog calls).filter
      ((World.initial.run calls).queue.ofLine channel source)).Pairwise fun d d' =>
        (World.initial.run calls).queue.precedes d d' = true := by
  suffices hpre : ∀ front back, calls = front ++ back →
      ((World.initial.statusSentLog front).filter
        ((World.initial.run calls).queue.ofLine channel source)).Pairwise fun d d' =>
          (World.initial.run calls).queue.precedes d d' = true from
    hpre calls [] (List.append_nil _).symm
  intro front
  induction front using List.reverseRecOn with
  | nil => exact fun _ _ => List.Pairwise.nil
  | append_singleton front c ih =>
    intro back hsplit
    have hsplit' : calls = front ++ c :: back := by
      rw [hsplit, List.append_assoc, List.singleton_append]
    have hw : (World.initial.run front).Sound := World.Sound.initial.run front
    have hq : (World.initial.run front).queue.InOrder := by
      apply inOrder_run
      intro front' c' back' hfront
      exact h front' c' (back' ++ c :: back) (by rw [hsplit', hfront]; simp)
    have hfinal : World.initial.run calls = (World.initial.run front).run (c :: back) := by
      rw [hsplit', World.run_append]
    rw [World.statusSentLog_concat, List.filter_append, List.pairwise_append]
    refine ⟨ih _ hsplit', ?_, ?_⟩
    · apply List.Nodup.pairwise_of_forall_ne ((World.statusSentBy_nodup hw).filter _)
      intro a ha b hb hne
      exact absurd (World.statusSentBy_eq hw (List.mem_of_mem_filter ha)
        (List.mem_of_mem_filter hb)) hne
    · intro d hd d' hd'
      obtain ⟨hd, hline⟩ := List.mem_filter.1 hd
      obtain ⟨hd', hline'⟩ := List.mem_filter.1 hd'
      obtain ⟨hmem, hsent⟩ := World.mem_statusSentLog World.Sound.initial hd
      rw [hfinal] at hline hline' ⊢
      exact precedes_of_sent hw hq hmem hsent hd' hline hline'

end

/-- If the events of a source are published in the order of their times, every notification goes to
the channels there were once, in order, and what has happened to it stays. -/
theorem status_delivers_once_in_order (calls : List Call)
    (h : ∀ front c back, calls = front ++ c :: back →
      c.PublishesInOrder (World.initial.run front)) : DeliversOnceInOrder calls where
  keys front back hsplit := by
    refine ⟨keys_run front, fun v hv => ?_⟩
    rw [hsplit, World.run_append]
    exact World.events_run (World.Sound.initial.run front) back hv
  published _ _ _ _ _ _ _ _ hc hp happly := published_apply hc hp happly
  recipients front c back hsplit v hv hnew := by
    have hw := World.Sound.initial.run front
    refine ⟨hw.channels.ids, fun mid rest _ => ?_⟩
    rw [World.run_append]
    exact (recipients_run (hw.step c) mid hv).trans (recipients_step hw hv hnew)
  final front back hsplit d hd hs := by
    rw [hsplit, World.run_append]
    refine World.final_run (World.Sound.initial.run front) back hd ?_
    simp only [List.mem_cons, List.not_mem_nil, or_false] at hs
    rcases hs with hs | hs | hs <;> rw [hs] <;> rfl
  tokens front back hsplit d hd c hc :=
    World.step_of_wrongToken (World.Sound.initial.run front) hd hc
  sending front back hsplit := by
    apply sending_unique_run
    apply inOrder_run
    intro front' c back' hfront
    exact h front' c (back' ++ back) (by rw [hsplit, hfront]; simp)
  order := sent_in_order h

/-- The arguments of an update of an incident. -/
def sampleIncidentEvent (n : ℕ) (eventType : String) (second_ : ℤ) : StatusEventParams where
  eventKey := some ("incident:" ++ toString n)
  eventType := some eventType
  sourceType := some "incident"
  sourcePublicId := some "INC-0123456789AB"
  title := some "Outage"
  message := some "The servers are down."
  detailHref := some "/incidents"
  severity := some "critical"
  occurredAt := some (.ofInstant (second_ * second))

/-- An incident and its update are published, claimed and delivered. -/
def sampleIncident : List Call :=
  [⟨0, .setChannel (some true) (some true) none⟩,
    ⟨10 * second, .statusEvent (sampleIncidentEvent 1 "incident_published" 10)⟩,
    ⟨20 * second, .statusEvent (sampleIncidentEvent 2 "incident_update_published" 20)⟩,
    ⟨30 * second, .claimStatus (some "discord") (some ⟨1⟩) (some 10)⟩,
    ⟨31 * second, .completeStatus (some 1) (some ⟨1⟩) ⟨some true, none, none, none⟩⟩,
    ⟨40 * second, .claimStatus (some "discord") (some ⟨2⟩) (some 10)⟩,
    ⟨41 * second, .completeStatus (some 2) (some ⟨2⟩) ⟨some true, none, none, none⟩⟩]

theorem sampleIncident_delivered :
    (World.initial.statusSentLog sampleIncident).map (·.id) = [1, 2] ∧
      DeliversOnceInOrder sampleIncident := by
  constructor
  · decide +kernel
  apply status_delivers_once_in_order sampleIncident
  refine Runs.forall_split_cons ?_ (Runs.forall_split_cons ?_ (Runs.forall_split_cons ?_
    (Runs.forall_split_cons ?_ (Runs.forall_split_cons ?_ (Runs.forall_split_cons ?_
      (Runs.forall_split_cons ?_ Runs.forall_split_nil))))))
  · rintro p key content ⟨⟩
  · intro p key content _ _ _ v hv
    exact absurd hv List.not_mem_nil
  · intro p key content hp hcontent _ v hv _
    cases hp
    -- the update is later than the one event there is
    have hlater : (World.initial.run [⟨0, .setChannel (some true) (some true) none⟩,
        ⟨10 * second, .statusEvent (sampleIncidentEvent 1 "incident_published" 10)⟩]).queue.events.all
          (fun v => (sampleIncidentEvent 2 "incident_update_published" 20).content?.all fun c =>
            decide (v.content.occurredAt ≤ c.2.occurredAt)) = true := by
      decide +kernel
    have hv' := List.all_eq_true.1 hlater v hv
    rw [hcontent] at hv'
    exact of_decide_eq_true hv'
  · rintro p key content ⟨⟩
  · rintro p key content ⟨⟩
  · rintro p key content ⟨⟩
  · rintro p key content ⟨⟩

end IvrmDashboard.Notifications

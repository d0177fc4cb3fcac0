import IvrmDashboard.Notifications.Calls

/-!
# Rows that have been sent or have failed

No change touches such a row any more (`Change.settled`), and only a completed delivery makes a row
a sent one (`World.sent_step`).
-/

namespace IvrmDashboard.Notifications

open Sql Operations

namespace DeliveryStatus

/-- The delivery is over, one way or the other. -/
def settled : DeliveryStatus → Bool
  | .sent | .failed => true
  | _ => false

theorem not_settled_of_undelivered {s : DeliveryStatus} (h : s.undelivered = true) :
    s.settled = false := by
  cases s <;> first | rfl | cases h

end DeliveryStatus

variable {K : Premises} {e : Env} {b b' : Board} {r r' : OutboxRow}

theorem timedOut_sending {now : ℤ} (h : r.timedOut now = true) : r.status = .sending := by
  unfold OutboxRow.timedOut at h
  rw [Bool.and_eq_true] at h
  exact of_decide_eq_true h.1

theorem latestSuppressed_revivable (h : b.latestSuppressed r = true) : b.revivable r = true := by
  unfold Board.latestSuppressed at h
  rw [Bool.and_eq_true] at h
  exact h.1

theorem revivable_suppressed (h : b.revivable r = true) : r.status = .suppressed := by
  unfold Board.revivable at h
  simp only [Bool.and_eq_true] at h
  exact of_decide_eq_true h.1.1.1

theorem Withdrawn.undelivered {reason : String} (h : Withdrawn K e b r reason) :
    r.status.undelivered = true := by
  cases h with
  | blocked hw => exact undelivered_of_waiting hw
  | ended hw => exact undelivered_of_waiting hw
  | unannounced _ hw => exact undelivered_of_waiting hw
  | gate _ hs => rw [hs]; rfl
  | channelOff _ hu => exact hu

/-! ## They stay -/

theorem RowMove.not_settled (h : RowMove K e b r r') : r.status.settled = false := by
  cases h with
  | expire h => rw [timedOut_sending h]; rfl
  | withdraw h => exact DeliveryStatus.not_settled_of_undelivered h.undelivered
  | release _ h => rw [revivable_suppressed (latestSuppressed_revivable h)]; rfl
  | claim _ _ h =>
    exact DeliveryStatus.not_settled_of_undelivered
      (undelivered_of_waiting (waiting_of_claimable h))
  | deliver _ hs => rw [hs]; rfl
  | fail _ hs => rw [hs]; rfl

theorem settled_mapRows {f : OutboxRow → OutboxRow} (h : ∀ r ∈ b.outbox, RowStep K e b r (f r))
    (hr : r ∈ b.outbox) (hs : r.status.settled = true) : r ∈ (b.mapRows f).outbox := by
  refine List.mem_map.2 ⟨r, hr, ?_⟩
  rcases h r hr with hf | ⟨hmove, -⟩
  · exact hf
  · rw [hmove.not_settled] at hs
    cases hs

theorem settled_suppressRows {p : OutboxRow → Bool} {reason : String}
    (hp : ∀ r, p r = true → r.status.settled = false) (hr : r ∈ b.outbox)
    (hs : r.status.settled = true) : r ∈ (b.suppressRows p reason).outbox := by
  refine List.mem_map.2 ⟨r, hr, if_neg fun hpr => ?_⟩
  rw [hp r hpr] at hs
  cases hs

theorem Inserted.mem_of_mem {n : Notice} (h : Inserted e n b b') (hr : r ∈ b.outbox) :
    r ∈ b'.outbox := by
  cases h with
  | fresh => exact List.mem_append_left _ hr
  | swallowed => exact hr

theorem unannounced_undelivered {k : String} {t : Timestamptz} (h : r.unannounced k t = true) :
    r.status.undelivered = true := by
  unfold OutboxRow.unannounced at h
  rw [Bool.and_eq_true] at h
  exact h.2

theorem undeliveredCritical_undelivered {k : String} {t : Timestamptz}
    (h : r.undeliveredCritical k t = true) : r.status.undelivered = true := by
  unfold OutboxRow.undeliveredCritical at h
  rw [Bool.and_eq_true] at h
  exact h.2

theorem Applied.settled {o : Observation} {res : SignalResult} (h : Applied K e o b res b')
    (hr : r ∈ b.outbox) (hs : r.status.settled = true) : r ∈ b'.outbox := by
  cases h with
  | absent => exact hr
  | stale => exact hr
  | inactive => exact hr
  | opened _ _ _ hins => exact hins.mem_of_mem hr
  | reopened _ _ _ _ _ hins => exact hins.mem_of_mem hr
  | seen => exact hr
  | escalated _ _ _ _ _ hins => exact hins.mem_of_mem hr
  | deescalated =>
    exact settled_suppressRows (fun r hp =>
      DeliveryStatus.not_settled_of_undelivered (undeliveredCritical_undelivered hp)) hr hs
  | recovered _ _ _ _ _ hins =>
    apply hins.mem_of_mem
    exact settled_suppressRows (fun r hp =>
      DeliveryStatus.not_settled_of_undelivered (unannounced_undelivered hp)) hr hs

theorem retirable_not_settled (h : r.retirable = true) : r.status.settled = false := by
  unfold OutboxRow.retirable at h
  rw [Bool.or_eq_true, decide_eq_true_eq] at h
  rcases h with h | h
  · exact DeliveryStatus.not_settled_of_undelivered h
  · rw [h]; rfl

theorem ofPolicy_retirable {p : BackupPolicy} (h : r.ofPolicy p = true) : r.retirable = true := by
  unfold OutboxRow.ofPolicy at h
  rw [Bool.and_eq_true] at h
  exact h.2

theorem ofHost_retirable {hostId : Uuid} (h : r.ofHost hostId = true) : r.retirable = true := by
  unfold OutboxRow.ofHost at h
  rw [Bool.and_eq_true] at h
  exact h.2

theorem ofTarget_undelivered {k : String} (h : r.ofTarget k = true) :
    r.status.undelivered = true := by
  unfold OutboxRow.ofTarget at h
  rw [Bool.and_eq_true] at h
  exact h.2

theorem Retired.settled (h : Retired e b b') (hr : r ∈ b.outbox) (hs : r.status.settled = true) :
    r ∈ b'.outbox := by
  cases h with
  | policy =>
    exact settled_suppressRows (fun r hp => retirable_not_settled (ofPolicy_retirable hp)) hr hs
  | host =>
    exact settled_suppressRows (fun r hp => retirable_not_settled (ofHost_retirable hp)) hr hs
  | target =>
    exact settled_suppressRows (fun r hp =>
      DeliveryStatus.not_settled_of_undelivered (ofTarget_undelivered hp)) hr hs
  | idleTarget =>
    exact settled_suppressRows (fun r hp =>
      DeliveryStatus.not_settled_of_undelivered (ofTarget_undelivered hp)) hr hs

/-- A settled row stays as it is. -/
theorem Change.settled (h : Change K e b b') (hr : r ∈ b.outbox)
    (hs : r.status.settled = true) : r ∈ b'.outbox := by
  cases h with
  | rows f hf hway => exact settled_mapRows hf hr hs
  | report hk h => exact h.settled hr hs
  | event hn h => exact h.mem_of_mem hr
  | retire hk h => exact h.settled hr hs

theorem Changes.settled (h : Changes K e b b') (hr : r ∈ b.outbox)
    (hs : r.status.settled = true) : r ∈ b'.outbox := by
  induction h with
  | refl => exact hr
  | tail _ h ih => exact h.settled ih hs

theorem World.settled_step {w : World} (c : Call) (hb : w.board.Wf) (hr : r ∈ w.board.outbox)
    (hs : r.status.settled = true) : r ∈ (w.step c).board.outbox :=
  (changes_step hb (c.meets_any w)).settled hr hs

theorem World.settled_run {w : World} (calls : List Call) (hb : w.board.Wf)
    (hr : r ∈ w.board.outbox) (hs : r.status.settled = true) :
    r ∈ (w.run calls).board.outbox := by
  suffices h : (w.run calls).board.Wf ∧ r ∈ (w.run calls).board.outbox from h.2
  apply Runs.run_invariant (P := fun w : World => w.board.Wf ∧ r ∈ w.board.outbox) _ ⟨hb, hr⟩
  exact fun w c h => ⟨wf_step h.1, settled_step c h.1 h.2 hs⟩

/-! ## How a row gets sent -/

theorem newRow_status (n : Notice) (key : String) (id : ℕ) :
    (n.newRow e key id).status = .pending ∨ (n.newRow e key id).status = .suppressed := by
  unfold Notice.newRow Notice.row
  dsimp only
  split
  · exact .inl rfl
  · exact .inr rfl

theorem Inserted.sent {n : Notice} (h : Inserted e n b b') (hr : r ∈ b'.outbox)
    (hs : r.status = .sent) : r ∈ b.outbox := by
  cases h with
  | fresh key =>
    rcases List.mem_append.1 hr with hr | hr
    · exact hr
    · rw [List.mem_singleton.1 hr] at hs
      rcases newRow_status (e := e) n key b.nextId with h | h <;> rw [h] at hs <;> cases hs
  | swallowed => exact hr

theorem sent_suppressRows {p : OutboxRow → Bool} {reason : String}
    (hr : r ∈ (b.suppressRows p reason).outbox) (hs : r.status = .sent) : r ∈ b.outbox := by
  obtain ⟨r₀, hr₀, rfl⟩ := List.mem_map.1 hr
  by_cases hp : p r₀ = true
  · rw [if_pos hp] at hs
    cases hs
  · rwa [if_neg hp]

theorem RowMove.sent (h : RowMove K e b r r') (hs : r'.status = .sent) : K.deliver b r := by
  cases h with
  | deliver _ _ hk => exact hk
  | fail =>
    change r.failedStatus = .sent at hs
    unfold OutboxRow.failedStatus at hs
    split at hs <;> cases hs
  | expire => cases hs
  | withdraw => cases hs
  | release => cases hs
  | claim => cases hs

/-- Without a completed delivery no row gets sent. -/
theorem Change.sent (hK : ∀ b r, ¬ K.deliver b r) (h : Change K e b b') (hr : r ∈ b'.outbox)
    (hs : r.status = .sent) : r ∈ b.outbox := by
  cases h with
  | rows f hf hway =>
    obtain ⟨r₀, hr₀, rfl⟩ := List.mem_map.1 hr
    rcases hf r₀ hr₀ with h | ⟨h, -⟩
    · rwa [h]
    · exact absurd (h.sent hs) (hK b r₀)
  | report hk h =>
    cases h with
    | absent => exact hr
    | stale => exact hr
    | inactive => exact hr
    | opened _ _ _ hins => exact hins.sent hr hs
    | reopened _ _ _ _ _ hins => exact hins.sent hr hs
    | seen => exact hr
    | escalated _ _ _ _ _ hins => exact hins.sent hr hs
    | deescalated => exact sent_suppressRows hr hs
    | recovered _ _ _ _ _ hins => exact sent_suppressRows (hins.sent hr hs) hs
  | event hn h => exact h.sent hr hs
  | retire hk h => cases h <;> exact sent_suppressRows hr hs

theorem Changes.sent (hK : ∀ b r, ¬ K.deliver b r) (h : Changes K e b b') (hr : r ∈ b'.outbox)
    (hs : r.status = .sent) : r ∈ b.outbox := by
  induction h with
  | refl => exact hr
  | tail _ h ih => exact ih (h.sent hK hr hs)

/-- The call reports a delivery. -/
def Request.Delivers (request : Request) (i : ℤ) (t : Uuid) (p : DeliveryReport) : Prop :=
  request = .complete (some i) (some t) p ∧ p.success = some true

/-- Nothing is delivered. -/
def Premises.undelivering : Premises := { Premises.any with deliver := fun _ _ => False }

theorem Call.meets_undelivering {w : World} {c : Call}
    (h : ∀ i t p, ¬ c.request.Delivers i t p) : c.Meets .undelivering w where
  settings := trivial
  report _ _ := trivial
  opens _ _ _ _ _ _ := trivial
  release _ _ _ _ _ _ _ _ _ := trivial
  suppress _ _ _ _ _ _ _ := trivial
  deliver i t p hc hp _ _ _ := absurd ⟨hc, hp⟩ (h i t p)
  retire _ := trivial
  claim _ _ _ := trivial

theorem complete_eq_ok {i : ℤ} {t : Uuid} {p : DeliveryReport} {res : DeliveryAnswer}
    (hp : p.success = some true)
    (h : completeNotificationDelivery e (some i) (some t) p b = .ok (res, b')) :
    (b.held? i t = none ∧ res = .claimMismatch ∧ b' = b) ∨
      ∃ r, b.held? i t = some r ∧ res = .moved .sent ∧
        b.updateOutbox (fun r => (r.id : ℤ) = i) (OutboxRow.deliver p e.now) = .ok b' := by
  obtain ⟨i', t', success, hi, ht, hsuccess, hcase⟩ := completeNotificationDelivery_eq_ok h
  cases hi
  cases ht
  rcases hcase with hnone | ⟨r, hheld, ⟨-, hres, hupdate⟩ | ⟨rfl, -, -⟩⟩
  · exact .inl hnone
  · exact .inr ⟨r, hheld, hres, hupdate⟩
  · rw [hp] at hsuccess
    cases hsuccess

/-- A row that is sent after a call was sent before, or the call has delivered it. -/
theorem World.sent_step {w : World} {c : Call} (hb : w.board.Wf)
    (hr : r' ∈ (w.step c).board.outbox) (hs : r'.status = .sent) :
    r' ∈ w.board.outbox ∨ ∃ i t p r, c.request.Delivers i t p ∧ r ∈ w.board.outbox ∧
      r.heldBy i t = true ∧ r' = r.deliver p c.now := by
  by_cases hdeliver : ∃ i t p, c.request.Delivers i t p
  · obtain ⟨i, t, p, hc, hp⟩ := hdeliver
    rcases step_eq (w := w) (c := c) with h | h
    · rw [h] at hr
      exact .inl hr
    · obtain ⟨now, request⟩ := c
      obtain rfl : request = .complete (some i) (some t) p := hc
      obtain ⟨hx, -, -⟩ := withBoard_eq_ok (w := w) h
      obtain ⟨⟨res, board⟩, hres, hboard⟩ := map_eq_ok.1 hx
      rcases complete_eq_ok hp hres with ⟨-, -, rfl⟩ | ⟨r, hheld, -, hupdate⟩
      · rw [← hboard] at hr
        exact .inl hr
      · rw [← hboard] at hr
        obtain ⟨hr₀, hheldBy⟩ := held?_eq_some hheld
        obtain ⟨r₁, hr₁, ⟨hid, rfl⟩ | ⟨-, rfl⟩⟩ := mem_updateOutbox hupdate hr
        · have hid' : (r₁.id : ℤ) = i := of_decide_eq_true hid
          obtain rfl := hb.eq_of_id hr₁ hr₀ (by have := (heldBy_iff.1 hheldBy).1; omega)
          exact .inr ⟨i, t, p, r₁, ⟨rfl, hp⟩, hr₀, hheldBy, rfl⟩
        · exact .inl hr₁
  · have hnone : ∀ i t p, ¬ c.request.Delivers i t p := fun i t p h => hdeliver ⟨i, t, p, h⟩
    have hchanges := changes_step hb (Call.meets_undelivering (w := w) hnone)
    exact .inl (hchanges.sent (fun _ _ h => h) hr hs)

end IvrmDashboard.Notifications

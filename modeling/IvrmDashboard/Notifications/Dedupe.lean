import IvrmDashboard.Notifications.Episodes

/-!
# Transitions and the rows they insert

A transition is inserted under a key made of the signal, the transition and its time, and under a
key that is taken nothing is inserted, while the answer is that of the transition all the same.
What the state machine does follows from the signal and the report alone (`Board.due`); it accepts
the same time twice, and a retirement makes it forget the signal but not the rows. So a transition
reaches the outbox exactly when no row carries its key (`transition_inserted_once_iff`).
-/

namespace IvrmDashboard.Notifications

open Sql Operations

variable {K : Premises} {e : Env} {b b' : Board} {r r' : OutboxRow}

/-! ## Transitions -/

/-- The transition the report makes. -/
def Board.due (b : Board) (o : Observation) : Option Transition :=
  match b.signal? o.signalKey with
  | none => if o.active then some .opened else none
  | some s =>
    if o.occurredAt < s.lastSeenAt then none
    else if o.active then
      if !s.active then some .opened
      else if o.severity.any (s.severity.rank < ·.rank) then some .escalated
      else none
    else if s.active then some .recovered
    else none

/-- The transition of an answer. -/
def SignalResult.transition? : SignalResult → Option Transition
  | .moved t => some t
  | _ => none

/-- The answer names the transition that was due. -/
theorem Applied.transition {o : Observation} {res : SignalResult} (h : Applied K e o b res b') :
    res.transition? = b.due o := by
  unfold Board.due
  cases h with
  | absent hs ha => simp [hs, ha, SignalResult.transition?]
  | stale hs hlate => simp [hs, hlate, SignalResult.transition?]
  | inactive hs hseen ha hactive => simp [hs, ha, hactive, SignalResult.transition?]
  | opened hs ha => simp [hs, ha, SignalResult.transition?]
  | reopened hs hseen ha hactive =>
    simp [hs, not_lt.2 hseen, ha, hactive, SignalResult.transition?]
  | seen hs hseen ha hactive hrank => simp [hs, ha, hactive, hrank, SignalResult.transition?]
  | escalated hs hseen ha hactive hrank hins hlevel =>
    simp [hs, not_lt.2 hseen, ha, hactive, hrank, hlevel, SignalResult.transition?]
  | deescalated hs hseen ha hactive hrank hchecked hlevel =>
    simp [hs, ha, hactive, not_lt.2 hrank.le, hlevel, SignalResult.transition?]
  | recovered hs hseen ha hactive =>
    simp [hs, not_lt.2 hseen, ha, hactive, SignalResult.transition?]

/-! ## Rows a call inserts -/

/-- The rows of `b'` that are not in `b`. -/
def Board.newRows (b b' : Board) : List OutboxRow :=
  b'.outbox.filter fun r => r.id ∉ b.outbox.map (·.id)

/-- The report finds the key of its transition free. -/
def Board.KeyFree (b : Board) (o : Observation) : Prop :=
  ∀ t, b.due o = some t → ∀ r ∈ b.outbox,
    dedupeKey o.signalKey t o.occurredAt ≠ some r.dedupeKey

/-- A transition has inserted one row, which tells of it; otherwise nothing is inserted. -/
def InsertedOnce (o : Observation) (res : SignalResult) (b b' : Board) : Prop :=
  match res with
  | .moved t => ∃ r, b.newRows b' = [r] ∧ r.signalKey = some o.signalKey ∧ r.transition = t ∧
      r.occurredAt = o.occurredAt
  | _ => b.newRows b' = []

theorem newRows_eq_nil (h : b'.outbox.map (·.id) = b.outbox.map (·.id)) : b.newRows b' = [] := by
  apply List.filter_eq_nil_iff.2
  intro r hr
  have hid : r.id ∈ b.outbox.map (·.id) := by
    rw [← h]
    exact List.mem_map_of_mem hr
  simpa using hid

/-- An insertion after an update of the rows: one row if the key is free, and none otherwise. -/
theorem newRows_of_inserted {b₁ : Board} {n : Notice} (hwf : b.Wf)
    (hids : b₁.outbox.map (·.id) = b.outbox.map (·.id))
    (hkeys : b₁.outbox.map (·.dedupeKey) = b.outbox.map (·.dedupeKey))
    (hnext : b₁.nextId = b.nextId) (h : Inserted e n b₁ b') :
    ((∀ r ∈ b.outbox, n.dedupeKey ≠ some r.dedupeKey) ∧
        ∃ key, b.newRows b' = [n.newRow e key b.nextId]) ∨
      (∃ r ∈ b.outbox, n.dedupeKey = some r.dedupeKey) ∧ b.newRows b' = [] := by
  have hold : ∀ key, (∃ r ∈ b₁.outbox, r.dedupeKey = key) ↔ ∃ r ∈ b.outbox, r.dedupeKey = key := by
    intro key
    rw [← List.mem_map, ← List.mem_map, hkeys]
  cases h with
  | fresh key hkey hnew hchecked =>
    left
    constructor
    · intro r hr hrkey
      rw [hkey, Option.some.injEq] at hrkey
      obtain ⟨r₁, hr₁, heq⟩ := (hold key).2 ⟨r, hr, hrkey.symm⟩
      exact hnew r₁ hr₁ heq
    · refine ⟨key, ?_⟩
      have hlast : (n.newRow e key b.nextId).id ∉ b.outbox.map (·.id) := by
        intro hin
        obtain ⟨r, hr, hid⟩ := List.mem_map.1 hin
        exact absurd (hwf.fresh r hr) (by rw [hid]; exact lt_irrefl _)
      have hnone : b.newRows b₁ = [] := newRows_eq_nil hids
      unfold Board.newRows at hnone ⊢
      rw [List.filter_append, hnone, hnext, List.nil_append]
      exact List.filter_cons_of_pos (by simpa using hlast)
  | swallowed key hkey r hr hrkey =>
    right
    obtain ⟨r₁, hr₁, heq⟩ := (hold key).1 ⟨r, hr, hrkey⟩
    exact ⟨⟨r₁, hr₁, by rw [hkey, heq]⟩, newRows_eq_nil hids⟩

/-- The transition of a report has inserted its row exactly when the key was free. -/
theorem insertedOnce_of_inserted {b₁ : Board} {o : Observation} {t : Transition}
    {severity : Severity} (hwf : b.Wf) (hdue : b.due o = some t)
    (h : Inserted e (o.notice t severity) b₁ b')
    (hids : b₁.outbox.map (·.id) = b.outbox.map (·.id))
    (hkeys : b₁.outbox.map (·.dedupeKey) = b.outbox.map (·.dedupeKey))
    (hnext : b₁.nextId = b.nextId) :
    InsertedOnce o (.moved t) b b' ↔ b.KeyFree o := by
  have hfree : b.KeyFree o ↔
      ∀ r ∈ b.outbox, dedupeKey o.signalKey t o.occurredAt ≠ some r.dedupeKey := by
    unfold Board.KeyFree
    rw [hdue]
    constructor
    · exact fun hfree => hfree t rfl
    · rintro hfree t' ht'
      cases ht'
      exact hfree
  rw [hfree]
  rcases newRows_of_inserted hwf hids hkeys hnext h with ⟨hnot, key, hrows⟩ | ⟨⟨r, hr, hrkey⟩, hrows⟩
  · exact ⟨fun _ => hnot, fun _ => ⟨_, hrows, rfl, rfl, rfl⟩⟩
  · constructor
    · rintro ⟨r', hr', -⟩
      rw [hrows] at hr'
      cases hr'
    · exact fun hnot => absurd hrkey (hnot r hr)

/-- Nothing is due, and nothing is inserted. -/
theorem insertedOnce_of_still {o : Observation} {res : SignalResult}
    (hids : b'.outbox.map (·.id) = b.outbox.map (·.id)) (hres : res.transition? = none)
    (hdue : b.due o = none) : InsertedOnce o res b b' ↔ b.KeyFree o := by
  constructor
  · rintro - t ht
    rw [hdue] at ht
    cases ht
  · intro _
    unfold InsertedOnce
    cases res with
    | moved t => cases hres
    | _ => exact newRows_eq_nil hids

theorem suppressRows_ids {p : OutboxRow → Bool} {reason : String} :
    (b.suppressRows p reason).outbox.map (·.id) = b.outbox.map (·.id) := by
  unfold Board.suppressRows
  rw [Board.mapRows_outbox, List.map_map]
  exact List.map_congr_left fun r _ => (suppress_frame p reason r).1

theorem suppressRows_keys {p : OutboxRow → Bool} {reason : String} :
    (b.suppressRows p reason).outbox.map (·.dedupeKey) = b.outbox.map (·.dedupeKey) := by
  unfold Board.suppressRows
  rw [Board.mapRows_outbox, List.map_map]
  exact List.map_congr_left fun r _ => dedupeKey_eq_of_toNotice (suppress_frame p reason r).2

theorem Applied.insertedOnce_iff {o : Observation} {res : SignalResult} (hwf : b.Wf)
    (h : Applied K e o b res b') : InsertedOnce o res b b' ↔ b.KeyFree o := by
  have hdue := h.transition
  cases h with
  | absent => exact insertedOnce_of_still rfl rfl hdue.symm
  | stale => exact insertedOnce_of_still rfl rfl hdue.symm
  | inactive => exact insertedOnce_of_still rfl rfl hdue.symm
  | opened hs ha hk hins => exact insertedOnce_of_inserted hwf hdue.symm hins rfl rfl rfl
  | reopened hs hseen ha hactive hk hins =>
    exact insertedOnce_of_inserted hwf hdue.symm hins rfl rfl rfl
  | seen => exact insertedOnce_of_still rfl rfl hdue.symm
  | escalated hs hseen ha hactive hrank hins =>
    exact insertedOnce_of_inserted hwf hdue.symm hins rfl rfl rfl
  | deescalated => exact insertedOnce_of_still suppressRows_ids rfl hdue.symm
  | recovered hs hseen ha hactive hchecked hins =>
    exact insertedOnce_of_inserted hwf hdue.symm hins suppressRows_ids suppressRows_keys rfl

/-- In every reachable state, a call of `apply_notification_signal_v1` that returns has inserted
exactly one row for the transition it answers, and none if it answers none, exactly when no row
carries the key of the transition that is due. -/
theorem transition_inserted_once_iff (calls : List Call) (now : ℤ) (p : SignalParams)
    (o : Observation) (ho : p.observation? Identity.hostNamed = some o) (res : SignalResult)
    (b' : Board) (h : applyNotificationSignal ((World.initial.run calls).env now) p
      (World.initial.run calls).board = .ok (res, b')) :
    InsertedOnce o res (World.initial.run calls).board b' ↔
      (World.initial.run calls).board.KeyFree o := by
  have hwf : (World.initial.run calls).board.Wf := World.wf_run calls Board.Wf.empty
  simp only [applyNotificationSignal, bind_eq_ok, orRaise_eq_ok] at h
  obtain ⟨o', ho', h⟩ := h
  obtain rfl : o = o' := Option.some.inj (ho.symm.trans ho')
  have happ := Variant.applySignal_eq_ok (K := .any) notificationVariant_enqueues
    (fun _ _ _ _ => trivial) h
  exact happ.insertedOnce_iff hwf

/-- The heartbeat of the host is reported missing in a state. -/
def reportMissing (calls : List Call) (now : ℤ) : Except DbError (SignalResult × Board) :=
  applyNotificationSignal ((World.initial.run calls).env now) (sampleParams true "warning" 10)
    (World.initial.run calls).board

theorem reportMissing_inserted_once :
    ∃ o res b', (sampleParams true "warning" 10).observation? Identity.hostNamed = some o ∧
      reportMissing sampleStart (10 * second) = .ok (res, b') ∧
        InsertedOnce o res (World.initial.run sampleStart).board b' := by
  have ho : ((sampleParams true "warning" 10).observation? Identity.hostNamed).isSome = true := by
    decide +kernel
  obtain ⟨o, ho⟩ := Option.isSome_iff_exists.1 ho
  have hok : (reportMissing sampleStart (10 * second)).isOk = true := by decide +kernel
  cases h : reportMissing sampleStart (10 * second) with
  | error err =>
    rw [h] at hok
    cases hok
  | ok x =>
    obtain ⟨res, b'⟩ := x
    refine ⟨o, res, b', ho, rfl, ?_⟩
    refine (transition_inserted_once_iff sampleStart (10 * second) _ o ho res b' h).2 ?_
    exact fun _ _ r hr => absurd hr List.not_mem_nil

/-- The heartbeat of a host is missed, and the host is switched off. -/
def hostSwitchedOff : List Call :=
  sampleStart ++
    [⟨10 * second, sampleReport true "warning" 10⟩, ⟨20 * second, .retireHost sampleHost.id⟩]

/-- The host is switched on again and still silent: its signal is opened again without a row. -/
theorem reopened_without_row :
    (reportMissing hostSwitchedOff (30 * second)).toOption.any (fun x => x.1 = .moved .opened &&
      (World.initial.run hostSwitchedOff).board.newRows x.2 = []) = true := by
  decide +kernel

end IvrmDashboard.Notifications

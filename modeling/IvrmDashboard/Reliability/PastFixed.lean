import Mathlib.Order.MinMax
import IvrmDashboard.Foundations.Runs
import IvrmDashboard.Reliability.Windows

/-!
# What has been excluded stays excluded

A call stores a window that begins at most five minutes before it, or ends a window now, or writes
nothing (`Effect`). So no call changes whether an instant that lies more than five minutes back is
excluded, and from this the same follows for runs. A window keeps all columns but its cancellation,
which is what makes a create and a cancel repeatable.
-/

namespace IvrmDashboard.Reliability

open Sql

/-! ## Excluded instants -/

/-- The window covers an instant before it ends or is cancelled. -/
def Window.Covers (w : Window) (t : ℤ) : Prop :=
  w.startsAt ≤ .ofInstant t ∧ .ofInstant t < w.effectiveEnd

/-- A window that applies to the incident covers the instant. -/
def Center.Excluded (c : Center) (i : Incident) (t : ℤ) : Prop :=
  ∃ w ∈ c.windows.rows, appliesToIncident w i = true ∧ w.Covers t

/-- The interval of a window consists of the instants it covers inside the range. -/
theorem effectiveWindowInterval_covers {w : Window} {s e : ℤ} (hs : w.startsAt = .ofInstant s)
    (he : w.effectiveEnd = .ofInstant e) (rangeStart rangeEnd t : ℤ) :
    (∃ i ∈ effectiveWindowInterval w rangeStart rangeEnd, i.1 ≤ t ∧ t < i.2) ↔
      w.Covers t ∧ rangeStart ≤ t ∧ t < rangeEnd := by
  have hinterval : effectiveWindowInterval w rangeStart rangeEnd =
      if max s rangeStart < min e rangeEnd then some (max s rangeStart, min e rangeEnd)
      else none := by
    rw [effectiveWindowInterval, hs, he]
    rfl
  rw [hinterval, Window.Covers, hs, he, Timestamptz.ofInstant_le, Timestamptz.ofInstant_lt]
  split
  next hlt =>
    simp only [Option.mem_some_iff, exists_eq_left']
    omega
  next hlt =>
    simp only [Option.mem_def, reduceCtorEq, false_and, exists_false, false_iff]
    omega

/-! ## What a call does -/

/-- The columns of a window that nothing changes. -/
def Window.fixed (w : Window) : Window := { w with cancelledAt := none }

/-- Exactly one row has been added to the audit log. -/
def Audited (c c' : Center) : Prop := ∃ row, c'.audit.logs = c.audit.logs ++ [row]

/-- What a call did. -/
inductive Effect (v : Invocation) (c c' : Center) : Prop
  | nothing (h : c' = c)
  | created (w : Window) (hfresh : c.windows.Fresh w) (hwindows : c'.windows = c.windows.add w hfresh)
    (hstart : .ofInstant (v.now - fiveMinutes) ≤ w.startsAt) (haudit : Audited c c')
  | cancelled (w : Window) (hw : w ∈ c.windows.rows) (hactive : w.cancelledAt = none)
    (hwindows : c'.windows = c.windows.cancel w.id v.now) (haudit : Audited c c')

section Calls

variable [Server] {v : Invocation} {c c' : Center} {w : Window}

theorem appendAudit_eq_ok {requestId : Uuid} {a : Actor} {action : String}
    {fields : List (String × Jsonb)}
    (h : c.appendAudit v requestId a action w fields = .ok c') :
    c'.windows = c.windows ∧ Audited c c' := by
  simp only [Center.appendAudit, bind_eq_ok, pure_eq_ok] at h
  obtain ⟨⟨id, audit⟩, haudit, rfl⟩ := h
  obtain ⟨columns, -, -, rfl⟩ := Audit.appendAuditLog_eq_ok haudit
  exact ⟨rfl, _, rfl⟩

omit [Server] in
theorem insert_eq_ok {t : Windows} {o : Option Windows} (h : t.insert w = .ok o) :
    (o = none ∧ ∃ r ∈ t.rows, ∃ k ∈ r.createRequestId, k ∈ w.createRequestId) ∨
      ∃ hfresh : t.Fresh w, o = some (t.add w hfresh) := by
  obtain ⟨-, -, h⟩ := bind_eq_ok.1 h
  split at h
  next hany =>
    cases h
    obtain ⟨r, hr, hrequest⟩ := List.any_eq_true.1 hany
    obtain ⟨k, hk, hkey⟩ := (Option.any_eq_true _ _).1 hrequest
    exact .inl ⟨rfl, r, hr, k, hk, of_decide_eq_true hkey⟩
  next =>
    split at h
    next hfresh =>
      cases h
      exact .inr ⟨hfresh, rfl⟩
    next => cases h

namespace Draft

variable {d : Draft}

omit [Server] in
theorem resolve_eq_ok {r : Window} (h : d.resolve r c = .ok (w, c')) :
    w = r ∧ c' = c ∧ (d.conflicts w).holds = false := by
  simp only [resolve, bind_eq_ok, raiseIf_eq_ok, pure_eq_ok, Prod.mk.injEq] at h
  obtain ⟨-, hconflicts, rfl, rfl⟩ := h
  exact ⟨rfl, rfl, hconflicts⟩

omit [Server] in
/-- A window agrees with the arguments it was created with. -/
theorem conflicts_row {scopeType : ScopeType} (h : d.scopeType = some scopeType) :
    (d.conflicts (d.row v scopeType)).holds = false := by
  simp [conflicts, row, h]

omit [Server] in
/-- Whether a window agrees with the arguments does not depend on its cancellation. -/
theorem conflicts_fixed (d : Draft) {r : Window} (h : w.fixed = r.fixed) :
    d.conflicts w = d.conflicts r := by
  have hfixed : ∀ x : Window, d.conflicts x = d.conflicts x.fixed := fun _ => rfl
  rw [hfixed w, h, ← hfixed]

/-- **A window that was not there** is stored, unless the call raises. -/
theorem create_eq_ok {a : Actor} (hnone : c.windows.find? d.key = none)
    (h : d.create v a c = .ok (w, c')) :
    ∃ hfresh : c.windows.Fresh w, c'.windows = c.windows.add w hfresh ∧
      .ofInstant (v.now - fiveMinutes) ≤ w.startsAt ∧ w.createRequestId = some d.key ∧
      (d.conflicts w).holds = false ∧ Audited c c' := by
  simp only [create, bind_eq_ok, raiseIf_eq_ok, orRaise_eq_ok] at h
  obtain ⟨-, hold, -, -, -, -, scopeType, hscope, o, hinsert, h⟩ := h
  rcases insert_eq_ok hinsert with ⟨rfl, r, hr, k, hk, hkey⟩ | ⟨hfresh, rfl⟩
  · -- the request would have been found at the beginning
    obtain rfl : d.key = k := Option.some.inj hkey
    exact absurd hk (c.windows.find?_eq_none.1 hnone r hr)
  · simp only [bind_eq_ok, pure_eq_ok, Prod.mk.injEq] at h
    obtain ⟨c₁, haudit, rfl, rfl⟩ := h
    obtain ⟨hwindows, haudited⟩ := appendAudit_eq_ok haudit
    exact ⟨hfresh, hwindows, not_lt.1 (of_decide_eq_false hold), rfl, conflicts_row hscope, haudited⟩

end Draft

/-- **A create** finds the window under its key or stores a new one. -/
theorem create_eq_ok {p : CreateParams}
    (h : createReliabilityMaintenanceWindow v p c = .ok (w, c')) :
    ∃ d, p.validate = .ok d ∧ w ∈ c'.windows.rows ∧ w.createRequestId = some d.key ∧
      (d.conflicts w).holds = false ∧ (c' = c ∨ ∃ hfresh : c.windows.Fresh w,
        c'.windows = c.windows.add w hfresh ∧ .ofInstant (v.now - fiveMinutes) ≤ w.startsAt ∧
          Audited c c') := by
  obtain ⟨d, hd, h⟩ := bind_eq_ok.1 h
  refine ⟨d, hd, ?_⟩
  split at h
  next r hr =>
    obtain ⟨rfl, rfl, hconflicts⟩ := Draft.resolve_eq_ok h
    obtain ⟨hmem, hkey⟩ := Windows.find?_eq_some _ hr
    exact ⟨hmem, hkey, hconflicts, .inl rfl⟩
  next hnone =>
    obtain ⟨hfresh, hwindows, hstart, hkey, hconflicts, haudit⟩ := Draft.create_eq_ok hnone h
    refine ⟨?_, hkey, hconflicts, .inr ⟨hfresh, hwindows, hstart, haudit⟩⟩
    rw [hwindows]
    exact List.mem_append_right _ (List.mem_singleton_self w)

/-- **A cancel** finds the window cancelled, or cancels it. -/
theorem cancel_eq_ok {p : CancelParams}
    (h : cancelReliabilityMaintenanceWindow v p c = .ok (w, c')) :
    p.actor.check = .ok () ∧ p.requestId.isSome = true ∧ p.windowId = some w.id ∧
      ((w ∈ c.windows.rows ∧ w.cancelledAt.isSome = true ∧ c' = c) ∨
        ∃ r ∈ c.windows.rows, r.cancelledAt = none ∧ w = r.cancelled v.now ∧
          c'.windows = c.windows.cancel r.id v.now ∧ Audited c c') := by
  simp only [cancelReliabilityMaintenanceWindow, bind_eq_ok, orRaise_eq_ok] at h
  obtain ⟨windowId, hid, requestId, hrequest, _, hactor, r, hr, h⟩ := h
  obtain ⟨hmem, rfl⟩ := find?_key_eq_some hr
  refine ⟨hactor, by rw [hrequest]; rfl, ?_⟩
  split at h
  next hcancelled =>
    obtain ⟨rfl, rfl⟩ := Prod.mk.inj (pure_eq_ok.1 h)
    exact ⟨hid, .inl ⟨hmem, hcancelled, rfl⟩⟩
  next hactive =>
    simp only [bind_eq_ok, pure_eq_ok, Prod.mk.injEq] at h
    obtain ⟨-, -, -, -, c₁, haudit, rfl, rfl⟩ := h
    obtain ⟨hwindows, haudited⟩ := appendAudit_eq_ok haudit
    exact ⟨hid, .inr ⟨r, hmem, Option.not_isSome_iff_eq_none.1 hactive, rfl, hwindows, haudited⟩⟩

/-- What any call does. -/
theorem step_effect (c : Center) (x : Call) : Effect x.invocation c (c.step x) := by
  rw [Center.step]
  cases h : x.request.perform x.invocation c with
  | error e => exact .nothing rfl
  | ok a =>
    obtain ⟨w, c'⟩ := a
    cases hx : x.request with
    | create p =>
      rw [hx] at h
      obtain ⟨d, -, -, -, -, rfl | ⟨hfresh, hwindows, hstart, haudit⟩⟩ := create_eq_ok h
      · exact .nothing rfl
      · exact .created w hfresh hwindows hstart haudit
    | cancel p =>
      rw [hx] at h
      obtain ⟨-, -, -, ⟨-, -, rfl⟩ | ⟨r, hr, hactive, -, hwindows, haudit⟩⟩ := cancel_eq_ok h
      · exact .nothing rfl
      · exact .cancelled r hr hactive hwindows haudit

end Calls

/-! ## The past is not changed -/

/-- A cancellation only takes what lies after it. -/
theorem covers_cancelled {w : Window} {now t : ℤ} (hactive : w.cancelledAt = none) (ht : t < now) :
    (w.cancelled now).Covers t ↔ w.Covers t := by
  have hcancelled : (w.cancelled now).effectiveEnd = min w.endsAt (.ofInstant now) := rfl
  have hend : w.effectiveEnd = w.endsAt := by rw [Window.effectiveEnd, hactive]
  rw [Window.Covers, Window.Covers, hcancelled, hend, lt_min_iff, Timestamptz.ofInstant_lt]
  exact and_congr_right fun _ => and_iff_left ht

/-- **A call does not change the past**, up to the five minutes a window may reach back. -/
theorem Effect.excluded_iff {v : Invocation} {c c' : Center} (h : Effect v c c') {i : Incident}
    {t : ℤ} (ht : t < v.now - fiveMinutes) : c'.Excluded i t ↔ c.Excluded i t := by
  have hnow : t < v.now := by
    rw [fiveMinutes, second] at ht
    omega
  cases h with
  | nothing h => rw [h]
  | created w hfresh hwindows hstart =>
    have hnot : ¬ w.Covers t := by
      intro hcovers
      have := hstart.trans hcovers.1
      rw [Timestamptz.ofInstant_le] at this
      omega
    simp only [Center.Excluded, hwindows, Windows.add, List.mem_append, List.mem_singleton,
      or_and_right, exists_or, exists_eq_left]
    exact or_iff_left fun h => hnot h.2
  | cancelled w hw hactive hwindows =>
    have hcovers : ∀ r ∈ c.windows.rows,
        (appliesToIncident (if r.id = w.id then r.cancelled v.now else r) i = true ∧
          (if r.id = w.id then r.cancelled v.now else r).Covers t) ↔
        (appliesToIncident r i = true ∧ r.Covers t) := by
      intro r hr
      split
      next hid =>
        obtain rfl : r = w := c.windows.ids.eq hr hw hid
        exact and_congr_right fun _ => covers_cancelled hactive hnow
      next => exact Iff.rfl
    simp only [Center.Excluded, hwindows, Windows.cancel, mem_updateWhere, decide_eq_true_eq,
      exists_exists_and_eq_and]
    exact exists_congr fun r => and_congr_right fun hr => hcovers r hr

/-! ## Windows stay -/

/-- Every window is still there, with a cancellation at most added. -/
structure Later (c c' : Center) : Prop where
  kept : Kept Window.fixed c.windows.rows c'.windows.rows
  cancelled : ∀ w ∈ c.windows.rows, w.cancelledAt.isSome = true → w ∈ c'.windows.rows

namespace Later

theorem refl (c : Center) : Later c c := ⟨Kept.refl _, fun _ h _ => h⟩

theorem trans {a b c : Center} (h : Later a b) (h' : Later b c) : Later a c where
  kept := h.kept.trans h'.kept
  cancelled w hw hcancelled := h'.cancelled w (h.cancelled w hw hcancelled) hcancelled

/-- A window under a key is found later under it, as it is then. -/
theorem find? {c c' : Center} (h : Later c c') {w : Window} {key : Uuid}
    (hw : w ∈ c.windows.rows) (hkey : w.createRequestId = some key) :
    ∃ r, c'.windows.find? key = some r ∧ r.fixed = w.fixed := by
  obtain ⟨r, hr, hfixed⟩ := h.kept w hw
  have hrequest : r.createRequestId = some key :=
    (congrArg Window.createRequestId hfixed).trans hkey
  refine ⟨r, ?_, hfixed⟩
  cases hfind : c'.windows.find? key with
  | none => exact absurd hrequest (c'.windows.find?_eq_none.1 hfind r hr)
  | some b =>
    obtain ⟨hb, hbkey⟩ := c'.windows.find?_eq_some hfind
    rw [c'.windows.eq_of_request hb hr hbkey hrequest]

end Later

theorem Effect.later {v : Invocation} {c c' : Center} (h : Effect v c c') : Later c c' := by
  cases h with
  | nothing h =>
    rw [h]
    exact Later.refl c
  | created w hfresh hwindows =>
    constructor
    · rw [hwindows]
      exact Kept.append _ _
    · intro r hr _
      rw [hwindows]
      exact List.mem_append_left _ hr
  | cancelled w hw hactive hwindows =>
    constructor
    · rw [hwindows]
      exact Kept.updateWhere fun _ _ _ => rfl
    · intro r hr hcancelled
      rw [hwindows]
      refine mem_updateWhere.2 ⟨r, hr, if_neg fun hid => ?_⟩
      rw [c.windows.ids.eq hr hw (of_decide_eq_true hid), hactive] at hcancelled
      cases hcancelled

/-! ## The audit log -/

/-- The rows of a call: none, or one window stored or cancelled together with one entry of the
audit log. -/
def OneEntry (c c' : Center) : Prop :=
  c' = c ∨ (c'.windows.rows ≠ c.windows.rows ∧ Audited c c')

theorem Effect.oneEntry {v : Invocation} {c c' : Center} (h : Effect v c c') : OneEntry c c' := by
  cases h with
  | nothing h => exact .inl h
  | created w hfresh hwindows hstart haudit =>
    refine .inr ⟨fun heq => ?_, haudit⟩
    rw [hwindows] at heq
    have := congrArg List.length heq
    simp [Windows.add] at this
  | cancelled w hw hactive hwindows haudit =>
    refine .inr ⟨fun heq => ?_, haudit⟩
    have hmem : w.cancelled v.now ∈ c.windows.rows := by
      rw [← heq, hwindows]
      exact mem_updateWhere.2 ⟨w, hw, if_pos (decide_eq_true rfl)⟩
    have hsame : w.cancelled v.now = w := c.windows.ids.eq hmem hw rfl
    rw [← hsame] at hactive
    cases hactive

/-! ## Runs -/

section Runs

variable [Server]

/-- The tables after a list of calls. -/
def Center.run (c : Center) (calls : List Call) : Center := Runs.run Center.step c calls

theorem Center.run_append (c : Center) (front back : List Call) :
    c.run (front ++ back) = (c.run front).run back :=
  Runs.run_append c front back

/-- The tables `c` are stored at the time `T` in a run: between a call no later and a call no
earlier. -/
def StoredAt (start : Center) (calls : List Call) (T : ℤ) (c : Center) : Prop :=
  ∃ front back, calls = front ++ back ∧ (∀ x ∈ front, x.invocation.now ≤ T) ∧
    (∀ x ∈ back, T ≤ x.invocation.now) ∧ c = start.run front

/-- On a clock that does not go back there are tables stored at every time. -/
theorem exists_storedAt (start : Center) {calls : List Call}
    (hclock : calls.Pairwise fun x y => x.invocation.now ≤ y.invocation.now) (T : ℤ) :
    ∃ c, StoredAt start calls T c := by
  induction calls generalizing start with
  | nil => exact ⟨start, [], [], rfl, by simp, by simp, rfl⟩
  | cons x calls ih =>
    obtain ⟨hx, hcalls⟩ := List.pairwise_cons.1 hclock
    by_cases hT : x.invocation.now ≤ T
    · obtain ⟨c, front, back, rfl, hfront, hback, rfl⟩ := ih (start.step x) hcalls
      exact ⟨_, x :: front, back, rfl, List.forall_mem_cons.2 ⟨hT, hfront⟩, hback, rfl⟩
    · refine ⟨start, [], x :: calls, rfl, by simp, List.forall_mem_cons.2 ⟨?_, ?_⟩, rfl⟩
      · omega
      · intro y hy
        have := hx y hy
        omega

theorem excluded_run_iff {T t : ℤ} {i : Incident} (ht : t < T - fiveMinutes) (calls : List Call)
    (hclock : ∀ x ∈ calls, T ≤ x.invocation.now) (c : Center) :
    (c.run calls).Excluded i t ↔ c.Excluded i t := by
  induction calls generalizing c with
  | nil => exact Iff.rfl
  | cons x calls ih =>
    obtain ⟨hx, hcalls⟩ := List.forall_mem_cons.1 hclock
    refine (ih hcalls (c.step x)).trans ((step_effect c x).excluded_iff ?_)
    omega

theorem later_run (c : Center) (calls : List Call) : Later c (c.run calls) :=
  Runs.run_relation (P := fun _ => True) (fun _ _ _ => trivial) Later.refl
    (fun _ _ _ => Later.trans) (fun c x _ => (step_effect c x).later) trivial calls

/-- **Exclusions do not change.** -/
theorem excluded_iff_of_storedAt {start c c' : Center} {calls : List Call} {T T' t : ℤ}
    {i : Incident} (h : StoredAt start calls T c) (h' : StoredAt start calls T' c') (hT : T ≤ T')
    (ht : t < T - fiveMinutes) : c.Excluded i t ↔ c'.Excluded i t := by
  obtain ⟨front, back, hcalls, -, hback, rfl⟩ := h
  obtain ⟨front', back', hcalls', -, hback', rfl⟩ := h'
  rw [hcalls] at hcalls'
  rcases List.append_eq_append_iff.1 hcalls' with ⟨mid, rfl, rfl⟩ | ⟨mid, rfl, rfl⟩
  · rw [Center.run_append]
    refine (excluded_run_iff ht mid (fun x hx => hback x ?_) _).symm
    exact List.mem_append_left _ hx
  · rw [Center.run_append]
    refine excluded_run_iff ht mid (fun x hx => hT.trans (hback' x ?_)) _
    exact List.mem_append_left _ hx

/-! ## Repeated calls -/

/-- **A create that is repeated** returns the window again. -/
theorem create_again {v v' : Invocation} {p : CreateParams} {c c₁ c₂ : Center} {w : Window}
    (h : createReliabilityMaintenanceWindow v p c = .ok (w, c₁)) (hlater : Later c₁ c₂) :
    ∃ r, createReliabilityMaintenanceWindow v' p c₂ = .ok (r, c₂) ∧ r.fixed = w.fixed := by
  obtain ⟨d, hd, hw, hkey, hconflicts, -⟩ := create_eq_ok h
  obtain ⟨r, hr, hfixed⟩ := hlater.find? hw hkey
  refine ⟨r, ?_, hfixed⟩
  simp only [createReliabilityMaintenanceWindow, hd, bind, Except.bind, hr]
  rw [Draft.resolve, d.conflicts_fixed hfixed, hconflicts]
  rfl

/-- A window is cancelled once a cancel has succeeded. -/
theorem cancelled_of_cancel {v : Invocation} {p : CancelParams} {c c' : Center} {w : Window}
    (h : cancelReliabilityMaintenanceWindow v p c = .ok (w, c')) :
    w ∈ c'.windows.rows ∧ w.cancelledAt.isSome = true := by
  obtain ⟨-, -, -, ⟨hw, hcancelled, rfl⟩ | ⟨r, hr, -, rfl, hwindows, -⟩⟩ := cancel_eq_ok h
  · exact ⟨hw, hcancelled⟩
  · refine ⟨?_, rfl⟩
    rw [hwindows]
    exact mem_updateWhere.2 ⟨r, hr, if_pos (decide_eq_true rfl)⟩

/-- **Cancelling a cancelled window** changes nothing, whoever does it. -/
theorem step_cancel_again {c : Center} {w : Window} (hw : w ∈ c.windows.rows)
    (hcancelled : w.cancelledAt.isSome = true) {p : CancelParams} (hid : p.windowId = some w.id)
    (v : Invocation) : c.step ⟨.cancel p, v⟩ = c := by
  rw [Center.step]
  cases h : (Request.cancel p).perform v c with
  | error e => rfl
  | ok a =>
    obtain ⟨r, c'⟩ := a
    obtain ⟨-, -, hrid, ⟨-, -, rfl⟩ | ⟨x, hx, hactive, rfl, -⟩⟩ := cancel_eq_ok h
    · rfl
    · have hxid : x.id = w.id := Option.some.inj (hrid.symm.trans hid)
      rw [c.windows.ids.eq hx hw hxid, Option.eq_none_iff_forall_ne_some] at hactive
      obtain ⟨t, ht⟩ := Option.isSome_iff_exists.1 hcancelled
      exact absurd ht (hactive t)

/-- The same cancel returns the window again. -/
theorem cancel_again {v v' : Invocation} {p : CancelParams} {c c₁ c₂ : Center} {w : Window}
    (h : cancelReliabilityMaintenanceWindow v p c = .ok (w, c₁)) (hlater : Later c₁ c₂) :
    cancelReliabilityMaintenanceWindow v' p c₂ = .ok (w, c₂) := by
  obtain ⟨hw, hcancelled⟩ := cancelled_of_cancel h
  obtain ⟨hactor, hrequest, hid, -⟩ := cancel_eq_ok h
  obtain ⟨requestId, hrequest⟩ := Option.isSome_iff_exists.1 hrequest
  have hfind : c₂.windows.rows.find? (·.id = w.id) = some w :=
    c₂.windows.ids.find?_eq (hlater.cancelled w hw hcancelled)
  rw [cancelReliabilityMaintenanceWindow, hid, hrequest, hactor]
  change (orRaise (c₂.windows.rows.find? (·.id = w.id)) _ >>= _) = _
  rw [hfind]
  change (if w.cancelledAt.isSome then _ else _) = _
  rw [if_pos hcancelled]
  rfl

/-! ## The law -/

/-- **What has been excluded cannot be rewritten**, in a run of calls from any tables. -/
structure PastFixed (start : Center) (calls : List Call) : Prop where
  /-- What lies more than five minutes back stays excluded, or not. -/
  excluded : ∀ {T T' t c c'} (i : Incident), StoredAt start calls T c → StoredAt start calls T' c' →
    T ≤ T' → t < T - fiveMinutes → (c.Excluded i t ↔ c'.Excluded i t)
  /-- There is at most one window under a key. -/
  oneWindow : ∀ key, ((start.run calls).windows.rows.filter
    (·.createRequestId = some key)).length ≤ 1
  /-- A create that has succeeded returns its window whenever it is repeated, and writes nothing. -/
  createAgain : ∀ front back v p w c, calls = front ++ ⟨.create p, v⟩ :: back →
    createReliabilityMaintenanceWindow v p (start.run front) = .ok (w, c) →
    ∀ v', ∃ r, createReliabilityMaintenanceWindow v' p (start.run calls) =
      .ok (r, start.run calls) ∧ r.fixed = w.fixed
  /-- A window that has been cancelled is returned as it is when the cancel is repeated, and
  whatever cancel of it follows writes nothing. -/
  cancelAgain : ∀ front back v p w c, calls = front ++ ⟨.cancel p, v⟩ :: back →
    cancelReliabilityMaintenanceWindow v p (start.run front) = .ok (w, c) →
    ∀ v', cancelReliabilityMaintenanceWindow v' p (start.run calls) = .ok (w, start.run calls) ∧
      ∀ q : CancelParams, q.windowId = p.windowId →
        (start.run calls).step ⟨.cancel q, v'⟩ = start.run calls
  /-- A call that writes a window adds one entry to the audit log, and any other writes nothing. -/
  audited : ∀ x, OneEntry (start.run calls) ((start.run calls).step x)
  /-- A call that raises changes nothing. -/
  raised : ∀ x e, x.request.perform x.invocation (start.run calls) = .error e →
    (start.run calls).step x = start.run calls

/-- The state that a call which succeeded left is followed by the rest of the run. -/
theorem later_of_perform {start c : Center} {front back : List Call} {x : Call} {w : Window}
    (h : x.request.perform x.invocation (start.run front) = .ok (w, c)) :
    Later c (start.run (front ++ x :: back)) := by
  have hstep : (start.run front).step x = c := by rw [Center.step, h]
  rw [Center.run_append]
  change Later c (((start.run front).step x).run back)
  rw [hstep]
  exact later_run c back

theorem past_fixed (start : Center) (calls : List Call) : PastFixed start calls where
  excluded _ h h' := excluded_iff_of_storedAt h h'
  oneWindow key := by
    refine length_le_one_of_pairwise ((start.run calls).windows.requests.filter _) ?_
    intro a ha b hb hdistinct
    have hakey := of_decide_eq_true (List.mem_filter.1 ha).2
    have hbkey := of_decide_eq_true (List.mem_filter.1 hb).2
    exact hdistinct key hakey hbkey
  createAgain front back v p w c hcalls h v' := by
    rw [hcalls]
    exact create_again h (later_of_perform (x := ⟨.create p, v⟩) h)
  cancelAgain front back v p w c hcalls h v' := by
    rw [hcalls]
    have hlater : Later c (start.run (front ++ ⟨.cancel p, v⟩ :: back)) :=
      later_of_perform (x := ⟨.cancel p, v⟩) h
    refine ⟨cancel_again h hlater, fun q hq => ?_⟩
    obtain ⟨hw, hcancelled⟩ := cancelled_of_cancel h
    obtain ⟨-, -, hid, -⟩ := cancel_eq_ok h
    exact step_cancel_again (hlater.cancelled w hw hcancelled) hcancelled (hq.trans hid) v'
  audited x := (step_effect _ x).oneEntry
  raised x e h := by rw [Center.step, h]

end Runs

end IvrmDashboard.Reliability

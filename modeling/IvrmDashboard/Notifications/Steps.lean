import Mathlib.Logic.Relation
import IvrmDashboard.Notifications.World

/-!
# What a call does to the signals and the outbox

Every call that commits is a sequence of changes of five kinds (`Change`): the rows of the outbox
move, each on its own (`RowMove`); a report is applied to its signal (`Applied`), which may insert
a row (`Inserted`); an event is put into the outbox; or signals are retired. What is known of the
calls of a run enters as `Premises`, so that a result can rest on it. Every invariant of the outbox
is derived from `changes_step`.
-/

namespace IvrmDashboard.Notifications

open Sql Operations

/-! ## Writes -/

namespace Board

/-- The tables with a signal written. -/
def write (s : Signal) (b : Board) : Board :=
  { b with
    signals :=
      if (b.signal? s.signalKey).isSome then
        updateWhere (·.signalKey = s.signalKey) (fun _ => s) b.signals
      else b.signals ++ [s] }

/-- The tables with every row of the outbox updated. -/
def mapRows (f : OutboxRow → OutboxRow) (b : Board) : Board := { b with outbox := b.outbox.map f }

@[simp] theorem write_outbox (s : Signal) (b : Board) : (b.write s).outbox = b.outbox := rfl

@[simp] theorem write_nextId (s : Signal) (b : Board) : (b.write s).nextId = b.nextId := rfl

@[simp] theorem mapRows_outbox (f : OutboxRow → OutboxRow) (b : Board) :
    (b.mapRows f).outbox = b.outbox.map f := rfl

@[simp] theorem mapRows_signals (f : OutboxRow → OutboxRow) (b : Board) :
    (b.mapRows f).signals = b.signals := rfl

@[simp] theorem mapRows_nextId (f : OutboxRow → OutboxRow) (b : Board) :
    (b.mapRows f).nextId = b.nextId := rfl

@[simp] theorem mapRows_signal? (f : OutboxRow → OutboxRow) (b : Board) (k : String) :
    (b.mapRows f).signal? k = b.signal? k := rfl

theorem signal?_eq_some {b : Board} {k : String} {s : Signal} (h : b.signal? k = some s) :
    s ∈ b.signals ∧ s.signalKey = k := by
  refine ⟨List.mem_of_find?_eq_some h, ?_⟩
  simpa using List.find?_some h

theorem signal?_write_self (s : Signal) (b : Board) :
    (b.write s).signal? s.signalKey = some s := by
  unfold write signal?
  split
  next h =>
    obtain ⟨t, ht⟩ := Option.isSome_iff_exists.1 h
    obtain ⟨hmem, hkey⟩ := signal?_eq_some ht
    apply find?_eq_some_of_unique
    · exact mem_updateWhere.2 ⟨t, hmem, if_pos (by simpa using hkey)⟩
    · simp
    · intro u hu hku
      obtain ⟨v, -, rfl⟩ := mem_updateWhere.1 hu
      split
      · rfl
      next hv =>
        rw [if_neg hv] at hku
        exact absurd hku hv
  next h =>
    have hnone : b.signals.find? (·.signalKey = s.signalKey) = none := by
      simpa [signal?] using h
    rw [List.find?_append, hnone]
    simp

theorem signal?_write_of_ne {s : Signal} {b : Board} {k : String} (hk : k ≠ s.signalKey) :
    (b.write s).signal? k = b.signal? k := by
  have hks : ¬ s.signalKey = k := fun h => hk h.symm
  unfold write signal?
  split
  · induction b.signals with
    | nil => rfl
    | cons t signals ih =>
      rw [updateWhere, List.map_cons, List.find?_cons, List.find?_cons]
      by_cases ht : t.signalKey = s.signalKey
      · simp only [ht, decide_true, ite_true, hks, decide_false]
        exact ih
      · simp only [ht, decide_false, Bool.false_eq_true, ite_false]
        split
        · rfl
        · exact ih
  · rw [List.find?_append]
    simp [hks]

theorem signal?_write (s : Signal) (b : Board) (k : String) :
    (b.write s).signal? k = if k = s.signalKey then some s else b.signal? k := by
  split
  next h => rw [h, signal?_write_self]
  next h => exact signal?_write_of_ne h

/-- The signals after a write: the one written, and those under other keys. -/
theorem mem_write_signals {s t : Signal} {b : Board} (h : t ∈ (b.write s).signals) :
    t = s ∨ t ∈ b.signals ∧ t.signalKey ≠ s.signalKey := by
  unfold write at h
  split at h
  · obtain ⟨u, hu, rfl⟩ := mem_updateWhere.1 h
    by_cases hkey : u.signalKey = s.signalKey
    · exact .inl (if_pos (decide_eq_true hkey))
    · rw [if_neg (by simpa using hkey)]
      exact .inr ⟨hu, hkey⟩
  next hnone =>
    rcases List.mem_append.1 h with ht | ht
    · refine .inr ⟨ht, fun hkey => hnone ?_⟩
      exact List.find?_isSome.2 ⟨t, ht, decide_eq_true hkey⟩
    · exact .inl (List.mem_singleton.1 ht)

variable {e : Env} {b b' : Board}

theorem insertSignal_eq_ok {s : Signal} (hs : b.signal? s.signalKey = none)
    (h : b.insertSignal e s = .ok b') : b' = b.write s := by
  simp only [insertSignal, bind_eq_ok, pure_eq_ok] at h
  obtain ⟨-, -, -, -, rfl⟩ := h
  simp [write, hs]

theorem updateSignal_eq_ok {s : Signal} (hs : (b.signal? s.signalKey).isSome = true)
    (h : b.updateSignal e s = .ok b') : b' = b.write s := by
  simp only [updateSignal, bind_eq_ok, pure_eq_ok] at h
  obtain ⟨-, -, -, -, rfl⟩ := h
  simp [write, hs]

/-- An update moves the rows it concerns, and they pass their constraints. -/
theorem updateOutbox_eq_ok {p : OutboxRow → Bool} {f : OutboxRow → OutboxRow}
    (h : b.updateOutbox p f = .ok b') :
    (∀ r ∈ b.outbox, p r = true → (f r).Checked) ∧
      b' = b.mapRows fun r => if p r then f r else r := by
  simp only [updateOutbox, bind_eq_ok, pure_eq_ok, checkAll_eq_ok] at h
  obtain ⟨-, hchecks, rfl⟩ := h
  refine ⟨fun r hr hp check hc => ?_, rfl⟩
  exact hchecks check (List.mem_flatMap.2 ⟨r, List.mem_filter.2 ⟨hr, hp⟩, hc⟩)

end Board

/-- The notification of a row. -/
def OutboxRow.toNotice (r : OutboxRow) : Notice where
  dedupeKey := some r.dedupeKey
  signalKey := r.signalKey
  identity := r.identity
  transition := r.transition
  severity := r.severity
  title := r.title
  message := r.message
  detailHref := r.detailHref
  occurredAt := r.occurredAt

/-! ## What is known of the calls -/

/-- What is known of the calls of a run: the settings they find, what they report, which rows
already carry the key of an opening, which rows their claims release, for which reasons their
dispatchers suppress a row, which deliveries they report, whether they retire signals, and the
tokens of their claims. -/
structure Premises where
  settings : Settings → Prop
  report : Observation → Prop
  opens : Observation → OutboxRow → Prop
  release : Board → OutboxRow → Prop
  suppress : Board → OutboxRow → String → Prop
  deliver : Board → OutboxRow → Prop
  retire : Prop
  claim : Uuid → Prop

/-- Nothing is known. -/
def Premises.any : Premises :=
  ⟨fun _ => True, fun _ => True, fun _ _ => True, fun _ _ => True, fun _ _ _ => True,
    fun _ _ => True, True, fun _ => True⟩

variable (K : Premises)

/-! ## Moves of a row -/

/-- Why a row is taken out of the queue. -/
inductive Withdrawn (e : Env) (b : Board) (r : OutboxRow) : String → Prop
  | blocked {reason} (hw : r.status.waiting = true) (hr : r.blockReason e = some reason) :
      Withdrawn e b r reason
  | ended (hw : r.status.waiting = true) (ha : r.transition.announces = true)
      (hc : b.current r = false) : Withdrawn e b r "signal_recovered_before_delivery"
  | unannounced (reason) (hw : r.status.waiting = true) (ht : r.transition = .recovered) :
      Withdrawn e b r reason
  | gate (reason) (hs : r.status = .sending) (hk : K.suppress b r reason) : Withdrawn e b r reason
  | channelOff (reason) (hu : r.status.undelivered = true)
      (hr : reason ∈ ["channel_unconfigured", "channel_disabled"]) : Withdrawn e b r reason

/-- A move of one row of the outbox. -/
inductive RowMove (e : Env) (b : Board) (r : OutboxRow) : OutboxRow → Prop
  | expire (h : r.timedOut e.now = true) : RowMove e b r (r.expire e.now)
  | withdraw {reason} (h : Withdrawn K e b r reason) : RowMove e b r (r.suppress reason)
  | release (hready : e.settings.channelReady = true) (h : b.latestSuppressed r = true)
      (hfree : r.blockReason e = none) (hk : K.release b r) : RowMove e b r (r.release e.now)
  | claim (token) (hready : e.settings.channelReady = true) (h : b.claimable e.now r = true)
      (hcur : r.signalKey.isSome = true → r.transition.announces = true → b.current r = true)
      (hk : K.claim token) :
      RowMove e b r (r.claim token e.now)
  | deliver (p) (hs : r.status = .sending) (hk : K.deliver b r) : RowMove e b r (r.deliver p e.now)
  | fail (p) (hs : r.status = .sending) : RowMove e b r (r.fail p e.now)

/-- A row stays as it is, or it moves and passes its constraints. -/
def RowStep (e : Env) (b : Board) (r r' : OutboxRow) : Prop :=
  r' = r ∨ RowMove K e b r r' ∧ r'.Checked

/-! ## Insertions and reports -/

/-- A notification is inserted, or dropped because its key is taken. -/
inductive Inserted (e : Env) (n : Notice) (b : Board) : Board → Prop
  | fresh (key) (hkey : n.dedupeKey = some key) (hnew : ∀ r ∈ b.outbox, r.dedupeKey ≠ key)
      (hchecked : (n.newRow e key b.nextId).Checked) :
      Inserted e n b
        { b with outbox := b.outbox ++ [n.newRow e key b.nextId], nextId := b.nextId + 1 }
  | swallowed (key) (hkey : n.dedupeKey = some key) (r) (hr : r ∈ b.outbox)
      (hrkey : r.dedupeKey = key) : Inserted e n b { b with nextId := b.nextId + 1 }

/-- Rows suppressed when a signal moves. -/
def Board.suppressRows (p : OutboxRow → Bool) (reason : String) (b : Board) : Board :=
  b.mapRows fun r => if p r then r.suppress reason else r

/-- What is known of the rows that carry the key of an opening. -/
def Premises.Opens (o : Observation) (b : Board) : Prop :=
  b.opens o = true → ∀ r ∈ b.outbox,
    dedupeKey o.signalKey .opened o.occurredAt = some r.dedupeKey → K.opens o r

/-- A report is applied to its signal. -/
inductive Applied (e : Env) (o : Observation) (b : Board) : SignalResult → Board → Prop
  | absent (h : b.signal? o.signalKey = none) (ha : o.active = false) : Applied e o b .unchanged b
  | stale {s} (h : b.signal? o.signalKey = some s) (hlate : o.occurredAt < s.lastSeenAt) :
      Applied e o b .staleIgnored b
  | inactive {s} (h : b.signal? o.signalKey = some s) (hseen : s.lastSeenAt ≤ o.occurredAt)
      (ha : o.active = false) (hs : s.active = false) : Applied e o b .unchanged b
  | opened {level b'} (h : b.signal? o.signalKey = none) (ha : o.active = true)
      (hk : K.Opens o b)
      (hins : Inserted e (o.notice .opened level.severity) (b.write (o.opening level)) b') :
      Applied e o b (.moved .opened) b'
  | reopened {s level re b'} (h : b.signal? o.signalKey = some s)
      (hseen : s.lastSeenAt ≤ o.occurredAt) (ha : o.active = true) (hs : s.active = false)
      (hk : K.Opens o b)
      (hins : Inserted e (o.notice .opened level.severity) (b.write (s.reopen o level re)) b') :
      Applied e o b (.moved .opened) b'
  | seen {s} (h : b.signal? o.signalKey = some s) (hseen : s.lastSeenAt ≤ o.occurredAt)
      (ha : o.active = true) (hs : s.active = true)
      (hrank : o.severity.any (s.severity.rank < ·.rank) = false) :
      Applied e o b .unchanged (b.write (s.see o s.severity))
  | escalated {s level b'} (h : b.signal? o.signalKey = some s)
      (hseen : s.lastSeenAt ≤ o.occurredAt) (ha : o.active = true) (hs : s.active = true)
      (hrank : s.severity.rank < level.rank)
      (hins : Inserted e (o.notice .escalated level.severity) (b.write (s.see o level)) b')
      (hlevel : o.severity = some level) : Applied e o b (.moved .escalated) b'
  | deescalated {s level} (h : b.signal? o.signalKey = some s)
      (hseen : s.lastSeenAt ≤ o.occurredAt) (ha : o.active = true) (hs : s.active = true)
      (hrank : level.rank < s.severity.rank)
      (hchecked : ∀ r ∈ b.outbox, r.undeliveredCritical o.signalKey s.openedAt = true →
        (r.suppress "signal_deescalated_before_delivery").Checked)
      (hlevel : o.severity = some level) :
      Applied e o b .deescalated
        ((b.suppressRows (OutboxRow.undeliveredCritical o.signalKey s.openedAt)
          "signal_deescalated_before_delivery").write (s.see o level))
  | recovered {s b'} (h : b.signal? o.signalKey = some s) (hseen : s.lastSeenAt ≤ o.occurredAt)
      (ha : o.active = false) (hs : s.active = true)
      (hchecked : ∀ r ∈ b.outbox, r.unannounced o.signalKey s.openedAt = true →
        (r.suppress "signal_recovered_before_delivery").Checked)
      (hins : Inserted e (o.notice .recovered .recovery)
        ((b.suppressRows (OutboxRow.unannounced o.signalKey s.openedAt)
          "signal_recovered_before_delivery").write (s.recover o)) b') :
      Applied e o b (.moved .recovered) b'

/-! ## Changes -/

/-- What retires signals: a policy, a host or a cloud target that is switched off. -/
inductive Retired (e : Env) (b : Board) : Board → Prop
  | policy (p : BackupPolicy)
      (hchecked : ∀ r ∈ b.outbox, r.ofPolicy p = true →
        (r.suppress "backup_policy_disabled").Checked) :
      Retired e b
        { b.suppressRows (OutboxRow.ofPolicy p) "backup_policy_disabled" with
          signals := b.signals.filter (·.signalKey ∉ policySignalKeys p) }
  | host (hostId : Uuid)
      (hchecked : ∀ r ∈ b.outbox, r.ofHost hostId = true → (r.suppress "host_disabled").Checked) :
      Retired e b
        { b.suppressRows (OutboxRow.ofHost hostId) "host_disabled" with
          signals := b.signals.filter (·.identity.hostId ≠ some hostId) }
  | target {s} (h : b.signal? s.signalKey = some s) (hs : s.active = true)
      (hchecked : ∀ r ∈ b.outbox, r.ofTarget s.signalKey = true →
        (r.suppress "cloud_target_disabled").Checked) :
      Retired e b
        ((b.suppressRows (OutboxRow.ofTarget s.signalKey) "cloud_target_disabled").write
          (s.close e.at))
  | idleTarget (k) (hk : ∀ s, b.signal? k = some s → s.active = false)
      (hchecked : ∀ r ∈ b.outbox, r.ofTarget k = true →
        (r.suppress "cloud_target_disabled").Checked) :
      Retired e b (b.suppressRows (OutboxRow.ofTarget k) "cloud_target_disabled")

/-- Rows are not taken while others are put back. -/
def OneWay (f : OutboxRow → OutboxRow) (rows : List OutboxRow) : Prop :=
  (∀ r ∈ rows, (f r).status = .sending → r.status = .sending) ∨
    ∀ r ∈ rows, (f r).status.undelivered = true → r.status.undelivered = true

/-- A change of the signals and the outbox. -/
inductive Change (e : Env) (b : Board) : Board → Prop
  | rows (f : OutboxRow → OutboxRow) (h : ∀ r ∈ b.outbox, RowStep K e b r (f r))
      (hway : OneWay f b.outbox) : Change e b (b.mapRows f)
  | report {o res b'} (hk : K.report o) (h : Applied K e o b res b') : Change e b b'
  | event {n b'} (hn : n.signalKey = none) (h : Inserted e n b b')
      (ht : n.transition = .event) : Change e b b'
  | retire {b'} (hk : K.retire) (h : Retired e b b') : Change e b b'

/-- Changes one after the other. -/
abbrev Changes (e : Env) : Board → Board → Prop := Relation.ReflTransGen (Change K e)

section

variable {K} {e : Env}

/-! ## Reports -/

theorem insertNotice_eq_ok {n : Notice} {key : String} {b : Board} {res : ℕ × Board}
    (hkey : n.dedupeKey = some key) (h : insertNotice e n key b = .ok res) :
    Inserted e n b res.2 := by
  simp only [insertNotice, bind_eq_ok, checkAll_eq_ok] at h
  obtain ⟨-, hchecked, h⟩ := h
  split at h
  next old hold =>
    rw [pure_eq_ok] at h
    subst h
    refine .swallowed key hkey old (List.mem_of_find?_eq_some hold) ?_
    simpa using List.find?_some hold
  next hnone =>
    simp only [bind_eq_ok, pure_eq_ok] at h
    obtain ⟨-, -, rfl⟩ := h
    refine .fresh key hkey (fun r hr => ?_) hchecked
    simpa using List.find?_eq_none.1 hnone r hr

/-- Each of the three ways into the outbox ends in an insertion. -/
theorem enqueue_eq_ok {ok : Notice → Bool} {message : String} {n : Notice} {b : Board}
    {res : ℕ × Board} (h : enqueue ok message e n b = .ok res) : Inserted e n b res.2 := by
  simp only [enqueue, bind_eq_ok, orRaise_eq_ok, Option.filter_eq_some_iff] at h
  obtain ⟨key, ⟨hkey, -⟩, -, -, h⟩ := h
  exact insertNotice_eq_ok hkey h

/-- The function inserts the notifications it accepts. -/
def Variant.Enqueues (v : Variant) : Prop :=
  ∀ e n b res, v.enqueue e n b = .ok res → Inserted e n b res.2

theorem notificationVariant_enqueues : notificationVariant.Enqueues := by
  intro e n b res h
  simp only [notificationVariant, enqueueNotification] at h
  exact enqueue_eq_ok h

theorem reliabilityVariant_enqueues : reliabilityVariant.Enqueues := by
  intro e n b res h
  simp only [reliabilityVariant, enqueueReliabilityNotification] at h
  exact enqueue_eq_ok h

theorem cloudVariant_enqueues : cloudVariant.Enqueues := by
  intro e n b res h
  simp only [cloudVariant, enqueueCloudNotification] at h
  exact enqueue_eq_ok h

theorem Variant.announce_eq_ok {v : Variant} (hv : v.Enqueues) {o : Observation} {t : Transition}
    {severity : Severity} {b b' : Board} {res : SignalResult}
    (h : v.announce e o t severity b = .ok (res, b')) :
    res = .moved t ∧ Inserted e (o.notice t severity) b b' := by
  simp only [announce, bind_eq_ok, pure_eq_ok, Prod.mk.injEq] at h
  obtain ⟨r, hr, rfl, rfl⟩ := h
  exact ⟨rfl, hv _ _ _ _ hr⟩

theorem reopen_signalKey (s : Signal) (o : Observation) (level : Level) (re : Bool)
    (h : s.signalKey = o.signalKey) : (s.reopen o level re).signalKey = o.signalKey := by
  cases re
  · exact h
  · rfl

theorem Variant.again_eq_ok {v : Variant} (hv : v.Enqueues) {o : Observation} {level : Level}
    {s : Signal} {b b' : Board} {res : SignalResult} (hs : b.signal? o.signalKey = some s)
    (hseen : s.lastSeenAt ≤ o.occurredAt) (ha : o.active = true) (hactive : s.active = true)
    (hlevel : o.severity = some level) (h : v.again e o level s b = .ok (res, b')) :
    Applied K e o b res b' := by
  have hkey : s.signalKey = o.signalKey := (Board.signal?_eq_some hs).2
  have hsome : (b.signal? s.signalKey).isSome = true := by rw [hkey, hs]; rfl
  unfold again at h
  split at h
  next hrank =>
    simp only [bind_eq_ok] at h
    obtain ⟨b₁, hb₁, h⟩ := h
    obtain rfl := Board.updateSignal_eq_ok (s := s.see o level) hsome hb₁
    obtain ⟨rfl, hins⟩ := announce_eq_ok hv h
    exact .escalated hs hseen ha hactive hrank hins hlevel
  next hup =>
  split at h
  next hrank =>
    rw [Bool.and_eq_true, decide_eq_true_eq] at hrank
    simp only [bind_eq_ok, pure_eq_ok, Prod.mk.injEq] at h
    obtain ⟨b₁, hb₁, b₂, hb₂, rfl, rfl⟩ := h
    obtain ⟨hchecked, rfl⟩ := Board.updateOutbox_eq_ok hb₁
    obtain rfl := Board.updateSignal_eq_ok (s := s.see o level) (b := b.mapRows _) hsome hb₂
    exact .deescalated hs hseen ha hactive hrank.2 hchecked hlevel
  next =>
    simp only [bind_eq_ok, pure_eq_ok, Prod.mk.injEq] at h
    obtain ⟨b₁, hb₁, rfl, rfl⟩ := h
    obtain rfl := Board.updateSignal_eq_ok (s := s.see o s.severity) hsome hb₁
    refine .seen hs hseen ha hactive ?_
    rw [hlevel, Option.any_some]
    exact decide_eq_false hup

/-- What applying a report does. -/
theorem Variant.applySignal_eq_ok {v : Variant} (hv : v.Enqueues) {o : Observation} {b b' : Board}
    {res : SignalResult} (hk : K.Opens o b) (h : v.applySignal e o b = .ok (res, b')) :
    Applied K e o b res b' := by
  unfold applySignal at h
  cases hs : b.signal? o.signalKey with
  | none =>
    simp only [hs] at h
    split at h
    next ha =>
      simp only [bind_eq_ok] at h
      obtain ⟨level, -, b₁, hb₁, h⟩ := h
      obtain rfl := Board.insertSignal_eq_ok (s := o.opening level) hs hb₁
      obtain ⟨rfl, hins⟩ := announce_eq_ok hv h
      exact .opened hs ha hk hins
    next ha =>
      cases h
      exact .absent hs (Bool.not_eq_true _ ▸ ha)
  | some s =>
    have hkey : s.signalKey = o.signalKey := (Board.signal?_eq_some hs).2
    have hsome : (b.signal? s.signalKey).isSome = true := by rw [hkey, hs]; rfl
    simp only [hs] at h
    split at h
    next hlate =>
      cases h
      exact .stale hs hlate
    next hlate =>
    have hseen : s.lastSeenAt ≤ o.occurredAt := not_lt.1 hlate
    split at h
    next ha =>
      simp only [bind_eq_ok, orRaise_eq_ok] at h
      obtain ⟨level, hlevel, h⟩ := h
      cases hactive : s.active with
      | false =>
        simp only [hactive, Bool.not_false, ite_true, bind_eq_ok] at h
        obtain ⟨b₁, hb₁, h⟩ := h
        have hre := reopen_signalKey s o level v.reidentifies hkey
        have hsome' : (b.signal? (s.reopen o level v.reidentifies).signalKey).isSome = true := by
          rw [hre, hs]; rfl
        obtain rfl := Board.updateSignal_eq_ok hsome' hb₁
        obtain ⟨rfl, hins⟩ := announce_eq_ok hv h
        exact .reopened hs hseen ha hactive hk hins
      | true =>
        simp only [hactive, Bool.not_true, Bool.false_eq_true, ite_false] at h
        exact again_eq_ok hv hs hseen ha hactive hlevel h
    next ha =>
      have ha : o.active = false := Bool.not_eq_true _ ▸ ha
      cases hactive : s.active with
      | false =>
        simp only [hactive, Bool.not_false, ite_true] at h
        cases h
        exact .inactive hs hseen ha hactive
      | true =>
        simp only [hactive, Bool.not_true, Bool.false_eq_true, ite_false, recover, bind_eq_ok] at h
        obtain ⟨b₁, hb₁, b₂, hb₂, h⟩ := h
        obtain ⟨hchecked, rfl⟩ := Board.updateOutbox_eq_ok hb₁
        obtain rfl := Board.updateSignal_eq_ok (s := s.recover o) (b := b.mapRows _) hsome hb₂
        obtain ⟨rfl, hins⟩ := announce_eq_ok hv h
        exact .recovered hs hseen ha hactive hchecked hins

/-! ## Rows keep what they announce -/

theorem RowMove.frame {b : Board} {r r' : OutboxRow} (h : RowMove K e b r r') :
    r'.id = r.id ∧ r'.toNotice = r.toNotice := by
  cases h <;> exact ⟨rfl, rfl⟩

theorem RowStep.frame {b : Board} {r r' : OutboxRow} (h : RowStep K e b r r') :
    r'.id = r.id ∧ r'.toNotice = r.toNotice := by
  rcases h with rfl | ⟨h, -⟩
  · exact ⟨rfl, rfl⟩
  · exact h.frame

section

variable {r r' : OutboxRow} (h : r'.toNotice = r.toNotice)

include h

theorem dedupeKey_eq_of_toNotice : r'.dedupeKey = r.dedupeKey :=
  Option.some.inj (congrArg Notice.dedupeKey h)

theorem signalKey_eq_of_toNotice : r'.signalKey = r.signalKey := congrArg Notice.signalKey h

theorem identity_eq_of_toNotice : r'.identity = r.identity := congrArg Notice.identity h

theorem transition_eq_of_toNotice : r'.transition = r.transition := congrArg Notice.transition h

theorem occurredAt_eq_of_toNotice : r'.occurredAt = r.occurredAt := congrArg Notice.occurredAt h

end

/-! ## Well-formed tables -/

/-- What holds of the tables at any time. -/
structure Board.Wf (b : Board) : Prop where
  signalKeys : (b.signals.map (·.signalKey)).Nodup
  ids : (b.outbox.map (·.id)).Nodup
  fresh : ∀ r ∈ b.outbox, r.id < b.nextId
  checked : ∀ r ∈ b.outbox, r.Checked
  seen : ∀ s ∈ b.signals, s.openedAt ≤ s.lastSeenAt

namespace Board.Wf

variable {b b' : Board}

theorem empty : Board.empty.Wf :=
  ⟨List.nodup_nil, List.nodup_nil, fun _ h => absurd h List.not_mem_nil,
    fun _ h => absurd h List.not_mem_nil, fun _ h => absurd h List.not_mem_nil⟩

/-- Rows of one id are one row. -/
theorem eq_of_id (h : b.Wf) {r r' : OutboxRow} (hr : r ∈ b.outbox) (hr' : r' ∈ b.outbox)
    (hid : r.id = r'.id) : r = r' :=
  List.inj_on_of_nodup_map h.ids hr hr' hid

/-- The look-up under its key finds a signal. -/
theorem signal?_of_mem (h : b.Wf) {s : Signal} (hs : s ∈ b.signals) :
    b.signal? s.signalKey = some s := by
  apply find?_eq_some_of_unique hs
  · simp
  · intro t ht hkey
    exact List.inj_on_of_nodup_map h.signalKeys ht hs (by simpa using hkey)

theorem mapRows (h : b.Wf) {f : OutboxRow → OutboxRow} (hid : ∀ r ∈ b.outbox, (f r).id = r.id)
    (hchecked : ∀ r ∈ b.outbox, (f r).Checked) : (b.mapRows f).Wf where
  signalKeys := h.signalKeys
  ids := by
    have hmap : (b.outbox.map f).map (·.id) = b.outbox.map (·.id) := by
      rw [List.map_map]
      exact List.map_congr_left hid
    rw [mapRows_outbox, hmap]
    exact h.ids
  fresh r' hr' := by
    obtain ⟨r, hr, rfl⟩ := List.mem_map.1 hr'
    rw [hid r hr]
    exact h.fresh r hr
  checked r' hr' := by
    obtain ⟨r, hr, rfl⟩ := List.mem_map.1 hr'
    exact hchecked r hr
  seen := h.seen

theorem suppressRows (h : b.Wf) {p : OutboxRow → Bool} {reason : String}
    (hchecked : ∀ r ∈ b.outbox, p r = true → (r.suppress reason).Checked) :
    (b.suppressRows p reason).Wf := by
  apply h.mapRows
  · intro r _
    split <;> rfl
  · intro r hr
    split
    next hp => exact hchecked r hr hp
    next => exact h.checked r hr

theorem write (h : b.Wf) {s : Signal} (hs : s.openedAt ≤ s.lastSeenAt) : (b.write s).Wf where
  signalKeys := by
    unfold Board.write
    split
    next =>
      rw [map_updateWhere_of_mem]
      · exact h.signalKeys
      · intro t _ ht
        simpa using (of_decide_eq_true ht).symm
    next hnone =>
      rw [List.map_append, List.nodup_append]
      refine ⟨h.signalKeys, List.nodup_singleton _, ?_⟩
      intro k hk k' hk' hkk
      obtain ⟨t, ht, rfl⟩ := List.mem_map.1 hk
      rw [List.map_singleton, List.mem_singleton] at hk'
      have hkey : t.signalKey = s.signalKey := hkk.trans hk'
      rw [← hkey, h.signal?_of_mem ht] at hnone
      exact hnone rfl
  ids := h.ids
  fresh := h.fresh
  checked := h.checked
  seen t ht := by
    rcases mem_write_signals ht with rfl | ⟨ht, -⟩
    · exact hs
    · exact h.seen t ht

theorem inserted {n : Notice} (h : b.Wf) (hins : Inserted e n b b') : b'.Wf := by
  cases hins with
  | fresh key hkey hnew hchecked =>
    have hlast : ∀ r ∈ b.outbox, r.id ≠ (n.newRow e key b.nextId).id :=
      fun r hr hid => absurd (h.fresh r hr) (by rw [hid]; exact lt_irrefl _)
    constructor
    · exact h.signalKeys
    · rw [List.map_append, List.nodup_append]
      refine ⟨h.ids, List.nodup_singleton _, ?_⟩
      intro i hi j hj hij
      obtain ⟨r, hr, rfl⟩ := List.mem_map.1 hi
      rw [List.map_singleton, List.mem_singleton] at hj
      exact hlast r hr (hij.trans hj)
    · intro r hr
      rcases List.mem_append.1 hr with hr | hr
      · exact Nat.lt_succ_of_lt (h.fresh r hr)
      · rw [List.mem_singleton.1 hr]
        exact Nat.lt_succ_self _
    · intro r hr
      rcases List.mem_append.1 hr with hr | hr
      · exact h.checked r hr
      · rw [List.mem_singleton.1 hr]
        exact hchecked
    · exact h.seen
  | swallowed key hkey r hr hrkey =>
    exact ⟨h.signalKeys, h.ids, fun r hr => Nat.lt_succ_of_lt (h.fresh r hr), h.checked, h.seen⟩

theorem filter (h : b.Wf) (p : Signal → Bool) :
    Board.Wf { b with signals := b.signals.filter p } where
  signalKeys := h.signalKeys.sublist (List.filter_sublist.map _)
  ids := h.ids
  fresh := h.fresh
  checked := h.checked
  seen s hs := h.seen s (List.mem_filter.1 hs).1

end Board.Wf

theorem Applied.wf {o : Observation} {b b' : Board} {res : SignalResult}
    (h : Applied K e o b res b') (hb : b.Wf) : b'.Wf := by
  have hopened : ∀ s, b.signal? o.signalKey = some s → s.lastSeenAt ≤ o.occurredAt →
      s.openedAt ≤ o.occurredAt :=
    fun s hs hseen => le_trans (hb.seen _ (Board.signal?_eq_some hs).1) hseen
  cases h with
  | absent => exact hb
  | stale => exact hb
  | inactive => exact hb
  | @opened level _ hs ha hk hins =>
    exact (hb.write (s := o.opening level) (le_refl o.occurredAt)).inserted hins
  | @reopened s level re _ hs hseen ha hactive hk hins =>
    have hre : (s.reopen o level re).openedAt ≤ (s.reopen o level re).lastSeenAt := by
      cases re <;> exact le_refl o.occurredAt
    exact (hb.write hre).inserted hins
  | @seen s hs hseen ha hactive => exact hb.write (s := s.see o _) (hopened s hs hseen)
  | @escalated s level _ hs hseen ha hactive hrank hins =>
    exact (hb.write (s := s.see o level) (hopened s hs hseen)).inserted hins
  | @deescalated s level hs hseen ha hactive hrank hchecked =>
    exact (hb.suppressRows hchecked).write (s := s.see o level) (hopened s hs hseen)
  | @recovered s _ hs hseen ha hactive hchecked hins =>
    have hw := (hb.suppressRows hchecked).write (s := s.recover o) (hopened s hs hseen)
    exact hw.inserted hins

theorem Retired.wf {b b' : Board} (h : Retired e b b') (hb : b.Wf) : b'.Wf := by
  cases h with
  | policy p hchecked => exact (hb.suppressRows hchecked).filter _
  | host hostId hchecked => exact (hb.suppressRows hchecked).filter _
  | @target s hs hactive hchecked =>
    have hopened := hb.seen s (Board.signal?_eq_some hs).1
    exact (hb.suppressRows hchecked).write (s := s.close e.at) hopened
  | idleTarget k hk hchecked => exact hb.suppressRows hchecked

theorem Change.wf {b b' : Board} (h : Change K e b b') (hb : b.Wf) : b'.Wf := by
  cases h with
  | rows f hf hway =>
    apply hb.mapRows
    · exact fun r hr => (hf r hr).frame.1
    · intro r hr
      rcases hf r hr with hr' | ⟨-, hchecked⟩
      · rw [hr']
        exact hb.checked r hr
      · exact hchecked
  | report hk h => exact h.wf hb
  | event hn h => exact hb.inserted h
  | retire hk h => exact h.wf hb

theorem Changes.wf {b b' : Board} (h : Changes K e b b') (hb : b.Wf) : b'.Wf := by
  induction h with
  | refl => exact hb
  | tail _ h ih => exact h.wf ih

end

end IvrmDashboard.Notifications

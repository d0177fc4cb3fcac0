import IvrmDashboard.Notifications.Settled

/-!
# Rows and the episodes of their signals

Episodes are not stored: a row belongs to the present episode of its signal when the signal is
active and was opened no later than the row (`Board.current`). Rows are never deleted and keep what
they say (`World.persists_run`). As long as a signal key stands for one host (`Board.Named`), which
the callers see to, every announcement that is still to be delivered belongs to the present episode
of its signal (`Board.Current`): a recovery takes the announcements of the episode out of the queue
before it closes the signal, and a retirement takes out the rows with the signals.
-/

namespace IvrmDashboard.Notifications

open Sql Operations

variable {K : Premises} {e : Env} {b b' : Board} {r r' : OutboxRow}

/-! ## Rows persist -/

/-- A row with the id and the text of `r`. -/
def Board.Holds (b : Board) (r : OutboxRow) : Prop :=
  ∃ r' ∈ b.outbox, r'.id = r.id ∧ r'.toNotice = r.toNotice

theorem holds_of_mem (h : r ∈ b.outbox) : b.Holds r := ⟨r, h, rfl, rfl⟩

theorem holds_mapRows {f : OutboxRow → OutboxRow}
    (h : ∀ r ∈ b.outbox, (f r).id = r.id ∧ (f r).toNotice = r.toNotice) (hr : b.Holds r) :
    (b.mapRows f).Holds r := by
  obtain ⟨r₁, hr₁, hid, hnotice⟩ := hr
  obtain ⟨hid', hnotice'⟩ := h r₁ hr₁
  exact ⟨f r₁, List.mem_map_of_mem hr₁, hid'.trans hid, hnotice'.trans hnotice⟩

theorem suppress_frame (p : OutboxRow → Bool) (reason : String) (r : OutboxRow) :
    (if p r then r.suppress reason else r).id = r.id ∧
      (if p r then r.suppress reason else r).toNotice = r.toNotice := by
  split <;> exact ⟨rfl, rfl⟩

theorem holds_suppressRows {p : OutboxRow → Bool} {reason : String} (hr : b.Holds r) :
    (b.suppressRows p reason).Holds r :=
  holds_mapRows (fun r _ => suppress_frame p reason r) hr

theorem Inserted.holds {n : Notice} (h : Inserted e n b b') (hr : b.Holds r) : b'.Holds r := by
  obtain ⟨r₁, hr₁, hframe⟩ := hr
  exact ⟨r₁, h.mem_of_mem hr₁, hframe⟩

theorem Change.holds (h : Change K e b b') (hr : b.Holds r) : b'.Holds r := by
  cases h with
  | rows f hf hway => exact holds_mapRows (fun r hr => (hf r hr).frame) hr
  | report hk h =>
    cases h with
    | absent => exact hr
    | stale => exact hr
    | inactive => exact hr
    | opened _ _ _ hins => exact hins.holds hr
    | reopened _ _ _ _ _ hins => exact hins.holds hr
    | seen => exact hr
    | escalated _ _ _ _ _ hins => exact hins.holds hr
    | deescalated => exact holds_suppressRows hr
    | recovered _ _ _ _ _ hins => exact hins.holds (holds_suppressRows hr)
  | event hn h => exact h.holds hr
  | retire hk h => cases h <;> exact holds_suppressRows hr

theorem Changes.holds (h : Changes K e b b') (hr : b.Holds r) : b'.Holds r := by
  induction h with
  | refl => exact hr
  | tail _ h ih => exact h.holds ih

theorem World.holds_run {w : World} (calls : List Call) (hb : w.board.Wf)
    (hr : w.board.Holds r) : (w.run calls).board.Holds r := by
  suffices h : (w.run calls).board.Wf ∧ (w.run calls).board.Holds r from h.2
  apply Runs.run_invariant (P := fun w : World => w.board.Wf ∧ w.board.Holds r) _ ⟨hb, hr⟩
  exact fun w c h => ⟨wf_step h.1, (changes_step h.1 (c.meets_any w)).holds h.2⟩

/-- A row keeps what it says as long as it is there. -/
theorem World.toNotice_run {w : World} {calls : List Call} (hb : w.board.Wf)
    (hr : r ∈ w.board.outbox) (hr' : r' ∈ (w.run calls).board.outbox) (hid : r'.id = r.id) :
    r'.toNotice = r.toNotice := by
  obtain ⟨r₁, hr₁, hid₁, hnotice⟩ := holds_run calls hb (holds_of_mem hr)
  rw [← hnotice, (wf_run calls hb).eq_of_id hr' hr₁ (hid.trans hid₁.symm)]

/-! ## Names -/

section

variable {α : Type*} (name : Identity → α) (nameOf : String → α)

/-- What a signal key stands for is the same in the signals and in the outbox. -/
structure Board.Named (b : Board) : Prop where
  signals : ∀ s ∈ b.signals, name s.identity = nameOf s.signalKey
  rows : ∀ r ∈ b.outbox, ∀ k, r.signalKey = some k → name r.identity = nameOf k

variable {name nameOf}

namespace Board.Named

theorem empty : Board.empty.Named name nameOf :=
  ⟨fun _ h => absurd h List.not_mem_nil, fun _ h => absurd h List.not_mem_nil⟩

theorem mapRows {f : OutboxRow → OutboxRow} (h : b.Named name nameOf)
    (hf : ∀ r ∈ b.outbox, (f r).id = r.id ∧ (f r).toNotice = r.toNotice) :
    (b.mapRows f).Named name nameOf where
  signals := h.signals
  rows r' hr' k hk := by
    obtain ⟨r, hr, rfl⟩ := List.mem_map.1 hr'
    have hnotice := (hf r hr).2
    rw [signalKey_eq_of_toNotice hnotice] at hk
    rw [identity_eq_of_toNotice hnotice]
    exact h.rows r hr k hk

theorem suppressRows {p : OutboxRow → Bool} {reason : String} (h : b.Named name nameOf) :
    (b.suppressRows p reason).Named name nameOf :=
  h.mapRows fun r _ => suppress_frame p reason r

theorem write {s : Signal} (h : b.Named name nameOf) (hs : name s.identity = nameOf s.signalKey) :
    (b.write s).Named name nameOf where
  rows := h.rows
  signals t ht := by
    rcases mem_write_signals ht with rfl | ⟨ht, -⟩
    · exact hs
    · exact h.signals t ht

theorem filter (h : b.Named name nameOf) (p : Signal → Bool) :
    Board.Named name nameOf { b with signals := b.signals.filter p } :=
  ⟨fun s hs => h.signals s (List.mem_filter.1 hs).1, h.rows⟩

theorem inserted {n : Notice} (h : b.Named name nameOf)
    (hn : ∀ k, n.signalKey = some k → name n.identity = nameOf k) (hins : Inserted e n b b') :
    b'.Named name nameOf := by
  cases hins with
  | swallowed => exact ⟨h.signals, h.rows⟩
  | fresh =>
    refine ⟨h.signals, fun r hr k hk => ?_⟩
    rcases List.mem_append.1 hr with hr | hr
    · exact h.rows r hr k hk
    · rw [List.mem_singleton.1 hr] at hk ⊢
      exact hn k hk

end Board.Named

/-- The report gives its key the name it stands for. -/
def Observation.Named (name : Identity → α) (nameOf : String → α) (o : Observation) : Prop :=
  name o.identity = nameOf o.signalKey

theorem named_report {o : Observation} {res : SignalResult} (ho : o.Named name nameOf)
    (h : b.Named name nameOf) (happ : Applied K e o b res b') : b'.Named name nameOf := by
  have hn : ∀ t severity k, (o.notice t severity).signalKey = some k →
      name (o.notice t severity).identity = nameOf k := by
    intro t severity k hk
    obtain rfl : o.signalKey = k := Option.some.inj hk
    exact ho
  have hold : ∀ s, b.signal? o.signalKey = some s → name s.identity = nameOf o.signalKey := by
    intro s hs
    obtain ⟨hmem, hkey⟩ := Board.signal?_eq_some hs
    rw [← hkey]
    exact h.signals s hmem
  have hkeyOf : ∀ s, b.signal? o.signalKey = some s → s.signalKey = o.signalKey :=
    fun s hs => (Board.signal?_eq_some hs).2
  cases happ with
  | absent => exact h
  | stale => exact h
  | inactive => exact h
  | @opened level _ hs ha hk hins =>
    exact (h.write (s := o.opening level) ho).inserted (hn _ _) hins
  | @reopened s level re _ hs hseen ha hactive hk hins =>
    have hre : name (s.reopen o level re).identity = nameOf (s.reopen o level re).signalKey := by
      rw [reopen_signalKey s o level re (hkeyOf s hs)]
      cases re
      · exact hold s hs
      · exact ho
    exact (h.write hre).inserted (hn _ _) hins
  | @seen s hs =>
    apply h.write
    change name s.identity = nameOf s.signalKey
    rw [hkeyOf s hs, hold s hs]
  | @escalated s level _ hs hseen ha hactive hrank hins =>
    have hsee : name (s.see o level).identity = nameOf (s.see o level).signalKey := by
      change name s.identity = nameOf s.signalKey
      rw [hkeyOf s hs, hold s hs]
    exact (h.write hsee).inserted (hn _ _) hins
  | @deescalated s level hs =>
    apply h.suppressRows.write
    change name s.identity = nameOf s.signalKey
    rw [hkeyOf s hs, hold s hs]
  | @recovered s _ hs hseen ha hactive hchecked hins =>
    have hrec : name (s.recover o).identity = nameOf (s.recover o).signalKey := by
      change name s.identity = nameOf s.signalKey
      rw [hkeyOf s hs, hold s hs]
    exact (h.suppressRows.write hrec).inserted (hn _ _) hins

theorem named_change (hK : ∀ o, K.report o → o.Named name nameOf) (h : b.Named name nameOf)
    (hchange : Change K e b b') : b'.Named name nameOf := by
  cases hchange with
  | rows f hf hway => exact h.mapRows fun r hr => (hf r hr).frame
  | report hk happ => exact named_report (hK _ hk) h happ
  | event hn hins =>
    apply h.inserted _ hins
    intro k hk
    rw [hn] at hk
    cases hk
  | retire hk hret =>
    cases hret with
    | policy => exact h.suppressRows.filter _
    | host => exact h.suppressRows.filter _
    | @target s hs =>
      apply h.suppressRows.write
      exact h.signals s (Board.signal?_eq_some hs).1
    | idleTarget => exact h.suppressRows

theorem Changes.named (h : Changes K e b b') (hK : ∀ o, K.report o → o.Named name nameOf)
    (hb : b.Named name nameOf) : b'.Named name nameOf := by
  induction h with
  | refl => exact hb
  | tail _ h ih => exact named_change hK ih h

end

/-! ## What a retirement leaves in the queue -/

/-- The look-up in the signals that are kept. -/
theorem signal?_filter (b : Board) {p : Signal → Bool} {k : String} (hwf : b.Wf)
    (hp : ∀ s, b.signal? k = some s → p s = true) :
    Board.signal? { b with signals := b.signals.filter p } k = b.signal? k := by
  cases hs : b.signal? k with
  | some s =>
    obtain ⟨hmem, hkey⟩ := Board.signal?_eq_some hs
    have hfound := (hwf.filter p).signal?_of_mem (List.mem_filter.2 ⟨hmem, hp s hs⟩)
    rwa [hkey] at hfound
  | none =>
    apply List.find?_eq_none.2
    intro s hmem
    exact List.find?_eq_none.1 hs s (List.mem_filter.1 hmem).1

theorem mem_suppressRows_undelivered {p : OutboxRow → Bool} {reason : String}
    (h : r ∈ (b.suppressRows p reason).outbox) (hu : r.status.undelivered = true) :
    r ∈ b.outbox ∧ p r = false := by
  obtain ⟨r₀, hr₀, rfl⟩ := List.mem_map.1 h
  by_cases hp : p r₀ = true
  · rw [if_pos hp] at hu
    cases hu
  · rw [if_neg hp]
    exact ⟨hr₀, Bool.not_eq_true _ ▸ hp⟩

/-- A row that is still to be delivered was so before, and its signal is as it was. -/
theorem Retired.undelivered {hostOf : String → Option Uuid} (hwf : b.Wf)
    (hnamed : b.Named Identity.hostId hostOf) (hret : Retired e b b') (hr : r ∈ b'.outbox)
    (hu : r.status.undelivered = true) :
    r ∈ b.outbox ∧ ∀ k, r.signalKey = some k → b'.signal? k = b.signal? k := by
  cases hret with
  | policy p hchecked =>
    obtain ⟨hr₀, hp⟩ := mem_suppressRows_undelivered hr hu
    refine ⟨hr₀, fun k hk => ?_⟩
    refine signal?_filter (b.suppressRows _ _) (hwf.suppressRows hchecked) fun s hs => ?_
    have hkey : s.signalKey = k := (Board.signal?_eq_some hs).2
    have hnot : k ∉ policySignalKeys p := by
      intro hin
      simp [OutboxRow.ofPolicy, OutboxRow.retirable, hk, hin, hu] at hp
    rw [hkey]
    exact decide_eq_true hnot
  | host hostId hchecked =>
    obtain ⟨hr₀, hp⟩ := mem_suppressRows_undelivered hr hu
    refine ⟨hr₀, fun k hk => ?_⟩
    refine signal?_filter (b.suppressRows _ _) (hwf.suppressRows hchecked) fun s hs => ?_
    obtain ⟨hmem, hkey⟩ := Board.signal?_eq_some (b := b) hs
    -- the signal is of the host of its rows
    have hnot : s.identity.hostId ≠ some hostId := by
      intro hhost
      have hrhost : r.identity.hostId = some hostId := by
        rw [hnamed.rows r hr₀ k hk, ← hkey, ← hnamed.signals s hmem, hhost]
      simp [OutboxRow.ofHost, OutboxRow.retirable, hrhost, hu] at hp
    exact decide_eq_true hnot
  | @target s hs hactive hchecked =>
    obtain ⟨hr₀, hp⟩ := mem_suppressRows_undelivered hr hu
    refine ⟨hr₀, fun k hk => Board.signal?_write_of_ne (s := s.close e.at) fun hkey => ?_⟩
    have hk' : r.signalKey = some s.signalKey := by rw [hk, hkey]; rfl
    simp [OutboxRow.ofTarget, hk', hu] at hp
  | idleTarget => exact ⟨(mem_suppressRows_undelivered hr hu).1, fun _ _ => rfl⟩

/-! ## Announcements of the present episode -/

/-- The row belongs to the present episode of the signal. -/
structure OutboxRow.Of (r : OutboxRow) (s : Signal) : Prop where
  key : r.signalKey = some s.signalKey
  announces : r.transition.announces = true
  opened : s.openedAt ≤ r.occurredAt

theorem current_iff : b.current r = true ↔
    ∃ k s, r.signalKey = some k ∧ b.signal? k = some s ∧ s.active = true ∧
      s.openedAt ≤ r.occurredAt := by
  unfold Board.current
  cases hk : r.signalKey with
  | none => simp
  | some k => cases hs : b.signal? k <;> simp [hs]

/-- Every announcement that is still to be delivered belongs to the present episode of its signal. -/
def Board.Current (b : Board) : Prop :=
  ∀ r ∈ b.outbox, r.status.undelivered = true → r.transition.announces = true →
    ∀ k, r.signalKey = some k → ∃ s, b.signal? k = some s ∧ s.active = true ∧
      s.openedAt ≤ r.occurredAt

namespace Board.Current

theorem empty : Board.empty.Current := fun _ h => absurd h List.not_mem_nil

theorem rows {f : OutboxRow → OutboxRow} (h : b.Current)
    (hf : ∀ r ∈ b.outbox, RowStep K e b r (f r)) : (b.mapRows f).Current := by
  intro r' hr' hu ha k hk
  obtain ⟨r, hr, rfl⟩ := List.mem_map.1 hr'
  have hnotice := (hf r hr).frame.2
  rw [transition_eq_of_toNotice hnotice] at ha
  rw [signalKey_eq_of_toNotice hnotice] at hk
  rw [occurredAt_eq_of_toNotice hnotice]
  -- only a release puts a row back, and it asks for the present episode itself
  have hcases : r.status.undelivered = true ∨ b.current r = true := by
    rcases hf r hr with hfr | ⟨hmove, -⟩
    · rw [hfr] at hu
      exact .inl hu
    · generalize f r = r' at hmove hu
      cases hmove with
      | expire hout => exact .inl (by rw [timedOut_sending hout]; rfl)
      | withdraw => cases hu
      | release hready hlatest =>
        right
        have hrev := latestSuppressed_revivable hlatest
        unfold Board.revivable at hrev
        simp only [Bool.and_eq_true] at hrev
        exact hrev.1.2
      | claim token hready hclaim => exact .inl (undelivered_of_waiting (waiting_of_claimable hclaim))
      | deliver => cases hu
      | fail p hsending => exact .inl (by rw [hsending]; rfl)
  rcases hcases with hold | hcur
  · exact h r hr hold ha k hk
  · obtain ⟨k', s, hk', hs⟩ := current_iff.1 hcur
    obtain rfl : k = k' := Option.some.inj (hk.symm.trans hk')
    exact ⟨s, hs⟩

/-- Rows taken out of the queue do not matter. -/
theorem suppressRows {p : OutboxRow → Bool} {reason : String} (h : b.Current) :
    (b.suppressRows p reason).Current := by
  intro r hr hu ha k hk
  exact h r (mem_suppressRows_undelivered hr hu).1 hu ha k hk

/-- A signal is written that still is active and has the same episode, or that has no announcement
to be delivered. -/
theorem write {s : Signal} (h : b.Current)
    (hs : ∀ r ∈ b.outbox, r.status.undelivered = true → r.transition.announces = true →
      r.signalKey = some s.signalKey → s.active = true ∧ s.openedAt ≤ r.occurredAt) :
    (b.write s).Current := by
  intro r hr hu ha k hk
  by_cases hkey : k = s.signalKey
  · subst hkey
    exact ⟨s, signal?_write_self s b, hs r hr hu ha hk⟩
  · rw [signal?_write_of_ne hkey]
    exact h r hr hu ha k hk

theorem inserted {n : Notice} (h : b.Current)
    (hn : n.transition.announces = true → ∀ k, n.signalKey = some k →
      ∃ s, b.signal? k = some s ∧ s.active = true ∧ s.openedAt ≤ n.occurredAt)
    (hins : Inserted e n b b') : b'.Current := by
  cases hins with
  | swallowed => exact h
  | fresh =>
    intro r hr hu ha k hk
    rcases List.mem_append.1 hr with hr | hr
    · exact h r hr hu ha k hk
    · rw [List.mem_singleton] at hr
      subst hr
      exact hn ha k hk

/-- A signal is seen again in its episode. -/
theorem write_seen {s s' : Signal} (h : b.Current) (hs : b.signal? s'.signalKey = some s)
    (hactive : s'.active = true) (hopened : s'.openedAt = s.openedAt) : (b.write s').Current := by
  apply h.write
  intro r hr hu ha hk
  obtain ⟨t, ht, -, hle⟩ := h r hr hu ha _ hk
  rw [hs, Option.some.injEq] at ht
  rw [hopened, ht]
  exact ⟨hactive, hle⟩

/-- A signal is written that has no announcement to be delivered. -/
theorem write_idle {s : Signal} (h : b.Current)
    (hs : ∀ t, b.signal? s.signalKey = some t → t.active = false) : (b.write s).Current := by
  apply h.write
  intro r hr hu ha hk
  obtain ⟨t, ht, htactive, -⟩ := h r hr hu ha _ hk
  rw [hs t ht] at htactive
  cases htactive

/-- The announcement of an episode that has just been written. -/
theorem inserted_written {o : Observation} {s : Signal} {t : Transition} {severity : Severity}
    (h : (b.write s).Current) (hkey : s.signalKey = o.signalKey) (hactive : s.active = true)
    (hopened : s.openedAt ≤ o.occurredAt)
    (hins : Inserted e (o.notice t severity) (b.write s) b') : b'.Current := by
  refine h.inserted (fun _ k hk => ?_) hins
  obtain rfl : o.signalKey = k := Option.some.inj hk
  exact ⟨s, by rw [← hkey, signal?_write_self], hactive, hopened⟩

theorem report {o : Observation} {res : SignalResult} (hwf : b.Wf) (h : b.Current)
    (happ : Applied K e o b res b') : b'.Current := by
  have hkeyOf : ∀ s, b.signal? o.signalKey = some s → s.signalKey = o.signalKey :=
    fun s hs => (Board.signal?_eq_some hs).2
  cases happ with
  | absent => exact h
  | stale => exact h
  | inactive => exact h
  | @opened level _ hs ha hk hins =>
    have hw : (b.write (o.opening level)).Current := by
      apply h.write_idle
      intro t ht
      rw [show (o.opening level).signalKey = o.signalKey from rfl, hs] at ht
      cases ht
    exact hw.inserted_written (s := o.opening level) rfl rfl (le_refl _) hins
  | @reopened s level re _ hs hseen ha hactive hk hins =>
    have hre := reopen_signalKey s o level re (hkeyOf s hs)
    have hw : (b.write (s.reopen o level re)).Current := by
      apply h.write_idle
      intro t ht
      rw [hre, hs, Option.some.injEq] at ht
      rw [← ht, hactive]
    refine hw.inserted_written hre ?_ ?_ hins
    · cases re <;> rfl
    · cases re <;> exact le_refl _
  | @seen s hs hseen ha hactive =>
    have hs' : b.signal? (s.see o s.severity).signalKey = some s := by
      rw [show (s.see o s.severity).signalKey = s.signalKey from rfl, hkeyOf s hs, hs]
    exact h.write_seen hs' hactive rfl
  | @escalated s level _ hs hseen ha hactive hrank hins =>
    have hs' : b.signal? (s.see o level).signalKey = some s := by
      rw [show (s.see o level).signalKey = s.signalKey from rfl, hkeyOf s hs, hs]
    have hopened := hwf.seen s (Board.signal?_eq_some hs).1
    exact (h.write_seen hs' hactive rfl).inserted_written (s := s.see o level) (hkeyOf s hs)
      hactive (le_trans hopened hseen) hins
  | @deescalated s level hs hseen ha hactive hrank hchecked =>
    have hs' : b.signal? (s.see o level).signalKey = some s := by
      rw [show (s.see o level).signalKey = s.signalKey from rfl, hkeyOf s hs, hs]
    exact h.suppressRows.write_seen hs' hactive rfl
  | @recovered s _ hs hseen ha hactive hchecked hins =>
    have hw : ((b.suppressRows (OutboxRow.unannounced o.signalKey s.openedAt)
        "signal_recovered_before_delivery").write (s.recover o)).Current := by
      apply h.suppressRows.write
      intro r hr hu hra hrk
      rw [show (s.recover o).signalKey = s.signalKey from rfl, hkeyOf s hs] at hrk
      -- what is left in the queue would belong to the episode, and that has been taken out
      obtain ⟨hr₀, hp⟩ := mem_suppressRows_undelivered hr hu
      obtain ⟨t, ht, -, hle⟩ := h r hr₀ hu hra _ hrk
      rw [hs, Option.some.injEq] at ht
      rw [← ht] at hle
      simp [OutboxRow.unannounced, hrk, hra, hle, hu] at hp
    refine hw.inserted (fun ha => ?_) hins
    cases ha

/-- A retirement takes the rows out with their signals. -/
theorem retired {hostOf : String → Option Uuid} (hwf : b.Wf)
    (hnamed : b.Named Identity.hostId hostOf) (h : b.Current) (hret : Retired e b b') :
    b'.Current := by
  intro r hr hu ha k hk
  obtain ⟨hr₀, hsame⟩ := hret.undelivered hwf hnamed hr hu
  rw [hsame k hk]
  exact h r hr₀ hu ha k hk

theorem change {hostOf : String → Option Uuid} (hwf : b.Wf)
    (hnamed : b.Named Identity.hostId hostOf) (h : b.Current) (hchange : Change K e b b') :
    b'.Current := by
  cases hchange with
  | rows f hf hway => exact h.rows hf
  | report hk happ => exact h.report hwf happ
  | event hn hins =>
    refine h.inserted (fun _ k hk => ?_) hins
    rw [hn] at hk
    cases hk
  | retire hk hret => exact h.retired hwf hnamed hret

end Board.Current

end IvrmDashboard.Notifications

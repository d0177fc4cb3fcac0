import IvrmDashboard.Notifications.Episodes
import IvrmDashboard.Notifications.Order
import IvrmDashboard.Notifications.Origins

/-!
# Recoveries are sent for announced incidents

A recovery is inserted when its episode ends, and nothing stores which episode that was; the claim
and the gate reconstruct it from times. What makes this sound: as long as a recovery is to be
delivered its signal is not opened at an earlier time than the episode the recovery ended
(`Board.After`), so an announcement that was sent since the present opening was sent since that
one. For openings and escalations the gate is not even needed (`Board.Current`).
-/

namespace IvrmDashboard.Notifications

open Sql Operations

variable {K : Premises} {e : Env} {b b' : Board} {r r' : OutboxRow}

/-! ## Where recoveries come from -/

/-- A row that a change has inserted. -/
theorem Inserted.new_row {n : Notice} (h : Inserted e n b b') (hr : r ∈ b'.outbox) :
    r ∈ b.outbox ∨ ∃ key, r = n.newRow e key b.nextId := by
  cases h with
  | fresh key =>
    rcases List.mem_append.1 hr with hr | hr
    · exact .inl hr
    · exact .inr ⟨key, List.mem_singleton.1 hr⟩
  | swallowed => exact .inl hr

theorem holds_of_suppressRows {p : OutboxRow → Bool} {reason : String}
    (h : r ∈ (b.suppressRows p reason).outbox) : b.Holds r := by
  obtain ⟨r₀, hr₀, rfl⟩ := List.mem_map.1 h
  obtain ⟨hid, hnotice⟩ := suppress_frame p reason r₀
  exact ⟨r₀, hr₀, hid.symm, hnotice.symm⟩

/-- A recovered row is inserted where its signal recovers. -/
theorem Applied.recovered_row {o : Observation} {res : SignalResult} (happ : Applied K e o b res b')
    (hr : r ∈ b'.outbox) (ht : r.transition = .recovered) :
    b.Holds r ∨ ∃ s s', r.signalKey = some o.signalKey ∧ b.signal? o.signalKey = some s ∧
      s.active = true ∧ b'.signal? o.signalKey = some s' ∧ s'.openedAt = s.openedAt := by
  have hold : ∀ t severity b₁, b₁.outbox = b.outbox →
      Inserted e (o.notice t severity) b₁ b' → t ≠ .recovered → b.Holds r := by
    intro t severity b₁ hb₁ hins hne
    rcases hins.new_row hr with hmem | ⟨key, rfl⟩
    · exact holds_of_mem (hb₁ ▸ hmem)
    · exact absurd ht hne
  cases happ with
  | absent => exact .inl (holds_of_mem hr)
  | stale => exact .inl (holds_of_mem hr)
  | inactive => exact .inl (holds_of_mem hr)
  | opened _ _ _ hins => exact .inl (hold .opened _ (b.write _) rfl hins nofun)
  | reopened _ _ _ _ _ hins => exact .inl (hold .opened _ (b.write _) rfl hins nofun)
  | seen => exact .inl (holds_of_mem hr)
  | escalated _ _ _ _ _ hins => exact .inl (hold .escalated _ (b.write _) rfl hins nofun)
  | deescalated => exact .inl (holds_of_suppressRows hr)
  | @recovered s _ hs hseen ha hactive hchecked hins =>
    have hkey : s.signalKey = o.signalKey := (Board.signal?_eq_some hs).2
    rcases hins.new_row hr with hmem | ⟨key, rfl⟩
    · exact .inl (holds_of_suppressRows hmem)
    · refine .inr ⟨s, s.recover o, rfl, hs, hactive, ?_, rfl⟩
      have hfound : ((b.suppressRows (OutboxRow.unannounced o.signalKey s.openedAt)
          "signal_recovered_before_delivery").write (s.recover o)).signal? s.signalKey =
          some (s.recover o) := Board.signal?_write_self (s.recover o) _
      rw [hkey] at hfound
      cases hins <;> exact hfound

/-- No report is applied. -/
def Premises.silent : Premises := { Premises.any with report := fun _ => False }

theorem Call.meets_silent {c : Call} {w : World} (h : c.request.isReport = false) :
    c.Meets .silent w := by
  have hno : ∀ request o, Request.Reports request o → request.isReport = true := by
    intro request o ho
    cases ho <;> rfl
  constructor
  · trivial
  · intro o ho
    rw [hno _ o ho] at h
    cases h
  · exact fun _ _ _ _ _ _ => trivial
  · exact fun _ _ _ _ _ _ _ _ _ => trivial
  · exact fun _ _ _ _ _ _ _ => trivial
  · exact fun _ _ _ _ _ _ _ _ => trivial
  · exact fun _ => trivial
  · exact fun _ _ _ => trivial

/-- Other calls insert events only. -/
theorem Change.silent_row (hK : ∀ o, ¬ K.report o) (h : Change K e b b') (hr : r ∈ b'.outbox) :
    b.Holds r ∨ r.transition = .event := by
  cases h with
  | rows f hf hway =>
    obtain ⟨d, hd, rfl⟩ := List.mem_map.1 hr
    obtain ⟨hid, hnotice⟩ := (hf d hd).frame
    exact .inl ⟨d, hd, hid.symm, hnotice.symm⟩
  | report hk => exact absurd hk (hK _)
  | event hn hins ht =>
    rcases hins.new_row hr with hmem | ⟨key, rfl⟩
    · exact .inl (holds_of_mem hmem)
    · exact .inr ht
  | retire hk hret => cases hret <;> exact .inl (holds_of_suppressRows hr)

theorem Changes.silent_row (hK : ∀ o, ¬ K.report o) (h : Changes K e b b') (hr : r ∈ b'.outbox) :
    b.Holds r ∨ r.transition = .event := by
  induction h generalizing r with
  | refl => exact .inl (holds_of_mem hr)
  | tail _ h ih =>
    rcases h.silent_row hK hr with ⟨d, hd, hid, hnotice⟩ | hevent
    · rcases ih hd with ⟨d', hd', hid', hnotice'⟩ | hevent
      · exact .inl ⟨d', hd', hid'.trans hid, hnotice'.trans hnotice⟩
      · exact .inr ((transition_eq_of_toNotice hnotice).symm.trans hevent)
    · exact .inr hevent

/-- The call that inserts a recovered row finds its signal active, and leaves the time at which it
was opened. -/
theorem World.recovered_step {w : World} {c : Call} (hb : w.board.Wf)
    (hr : r ∈ (w.step c).board.outbox) (ht : r.transition = .recovered)
    (hnew : ¬ w.board.Holds r) :
    ∃ k s s', r.signalKey = some k ∧ w.board.signal? k = some s ∧ s.active = true ∧
      (w.step c).board.signal? k = some s' ∧ s'.openedAt = s.openedAt := by
  rcases step_eq (w := w) (c := c) with hsame | happly
  · rw [hsame] at hr
    exact absurd (holds_of_mem hr) hnew
  · cases hc : c.request.isReport with
    | true =>
      rcases applied_apply (K := .any) hc (fun _ _ _ _ _ _ => trivial) happly with
        hboard | ⟨o, res, -, happ⟩
      · rw [hboard] at hr
        exact absurd (holds_of_mem hr) hnew
      · rcases happ.recovered_row hr ht with hold | ⟨s, s', hkey, hs⟩
        · exact absurd hold hnew
        · exact ⟨o.signalKey, s, s', hkey, hs⟩
    | false =>
      have hchanges := changes_step hb (Call.meets_silent (w := w) hc)
      rcases hchanges.silent_row (fun _ h => h) hr with hold | hevent
      · exact absurd hold hnew
      · rw [ht] at hevent
        cases hevent

/-! ## While a recovery is to be delivered -/

/-- As long as the row is to be delivered, its signal was opened at `t` or later. -/
def Board.After (b : Board) (r : OutboxRow) (k : String) (t : Timestamptz) : Prop :=
  ∀ r' ∈ b.outbox, r'.id = r.id → r'.status.undelivered = true →
    ∃ s, b.signal? k = some s ∧ t ≤ s.openedAt

namespace Board.After

variable {k : String} {t : Timestamptz}

theorem suppressRows {p : OutboxRow → Bool} {reason : String} (h : b.After r k t) :
    (b.suppressRows p reason).After r k t := by
  intro r₁ hr₁ hid hu
  exact h r₁ (mem_suppressRows_undelivered hr₁ hu).1 hid hu

/-- A signal that is written is opened no earlier than it was. -/
theorem write {s : Signal} (h : b.After r k t)
    (hs : ∀ u, b.signal? s.signalKey = some u → u.openedAt ≤ s.openedAt) :
    (b.write s).After r k t := by
  intro r₁ hr₁ hid hu
  obtain ⟨u, hsu, hle⟩ := h r₁ hr₁ hid hu
  by_cases hkey : k = s.signalKey
  · subst hkey
    exact ⟨s, signal?_write_self s b, le_trans hle (hs u hsu)⟩
  · exact ⟨u, by rw [signal?_write_of_ne hkey, hsu], hle⟩

/-- The row was there before. -/
theorem inserted {n : Notice} (h : b.After r k t) (hid : r.id < b.nextId)
    (hins : Inserted e n b b') : b'.After r k t := by
  cases hins with
  | swallowed => exact h
  | fresh =>
    intro r₁ hr₁ hrid hu
    rcases List.mem_append.1 hr₁ with hr₁ | hr₁
    · exact h r₁ hr₁ hrid hu
    · rw [List.mem_singleton] at hr₁
      subst hr₁
      exact absurd hrid (Nat.ne_of_gt hid)

theorem rows {f : OutboxRow → OutboxRow} (h : b.After r k t)
    (hrow : ∀ r' ∈ b.outbox, r'.id = r.id → r'.toNotice = r.toNotice)
    (ht : r.transition = .recovered) (hf : ∀ r ∈ b.outbox, RowStep K e b r (f r)) :
    (b.mapRows f).After r k t := by
  intro r₁ hr₁ hid hu
  obtain ⟨r₀, hr₀, rfl⟩ := List.mem_map.1 hr₁
  rw [(hf r₀ hr₀).frame.1] at hid
  apply h r₀ hr₀ hid
  rcases hf r₀ hr₀ with hfr | ⟨hmove, -⟩
  · rwa [hfr] at hu
  · generalize f r₀ = r₁ at hmove hu
    cases hmove with
    | expire hout => rw [timedOut_sending hout]; rfl
    | withdraw => cases hu
    | release hready hlatest =>
      -- what is put back are announcements
      have hrev := latestSuppressed_revivable hlatest
      unfold Board.revivable at hrev
      simp only [Bool.and_eq_true] at hrev
      rw [transition_eq_of_toNotice (hrow r₀ hr₀ hid), ht] at hrev
      cases hrev.1.1.2
    | claim token hready hclaim => exact undelivered_of_waiting (waiting_of_claimable hclaim)
    | deliver => cases hu
    | fail p hsending => rw [hsending]; rfl

theorem report {o : Observation} {res : SignalResult} (hwf : b.Wf) (hid : r.id < b.nextId)
    (h : b.After r k t) (happ : Applied K e o b res b') : b'.After r k t := by
  have hlater : ∀ s s' : Signal, b.signal? o.signalKey = some s → s'.signalKey = o.signalKey →
      s.openedAt ≤ s'.openedAt →
      ∀ u, b.signal? s'.signalKey = some u → u.openedAt ≤ s'.openedAt := by
    intro s s' hs hkey hle u hu
    rw [hkey, hs, Option.some.injEq] at hu
    rwa [← hu]
  have hkeyOf : ∀ s, b.signal? o.signalKey = some s → s.signalKey = o.signalKey :=
    fun s hs => (Board.signal?_eq_some hs).2
  cases happ with
  | absent => exact h
  | stale => exact h
  | inactive => exact h
  | @opened level _ hs ha hk hins =>
    have hw : (b.write (o.opening level)).After r k t := by
      apply h.write
      intro u hu
      rw [show (o.opening level).signalKey = o.signalKey from rfl, hs] at hu
      cases hu
    exact hw.inserted hid hins
  | @reopened s level re _ hs hseen ha hactive hk hins =>
    have hre := reopen_signalKey s o level re (hkeyOf s hs)
    have hopened : s.openedAt ≤ (s.reopen o level re).openedAt := by
      have hle := le_trans (hwf.seen s (Board.signal?_eq_some hs).1) hseen
      cases re <;> exact hle
    exact (h.write (hlater s _ hs hre hopened)).inserted hid hins
  | @seen s hs => exact h.write (hlater s (s.see o s.severity) hs (hkeyOf s hs) (le_refl _))
  | @escalated s level _ hs hseen ha hactive hrank hins =>
    have hw := h.write (hlater s (s.see o level) hs (hkeyOf s hs) (le_refl _))
    exact hw.inserted hid hins
  | @deescalated s level hs =>
    exact h.suppressRows.write (hlater s (s.see o level) hs (hkeyOf s hs) (le_refl _))
  | @recovered s _ hs hseen ha hactive hchecked hins =>
    have hlater' := hlater s (s.recover o) hs (hkeyOf s hs) (le_refl _)
    have hw : ((b.suppressRows (OutboxRow.unannounced o.signalKey s.openedAt)
        "signal_recovered_before_delivery").write (s.recover o)).After r k t :=
      h.suppressRows.write hlater'
    exact hw.inserted hid hins

/-- A retirement that deletes the signal takes the row out with it. -/
theorem retired {hostOf : String → Option Uuid} (hwf : b.Wf)
    (hnamed : b.Named Identity.hostId hostOf) (h : b.After r k t)
    (hrow : ∀ r' ∈ b.outbox, r'.id = r.id → r'.toNotice = r.toNotice) (hk : r.signalKey = some k)
    (hret : Retired e b b') : b'.After r k t := by
  intro r₁ hr₁ hid hu
  obtain ⟨hr₀, hsame⟩ := hret.undelivered hwf hnamed hr₁ hu
  rw [hsame k ((signalKey_eq_of_toNotice (hrow r₁ hr₀ hid)).trans hk)]
  exact h r₁ hr₀ hid hu

theorem change {hostOf : String → Option Uuid} (hwf : b.Wf)
    (hnamed : b.Named Identity.hostId hostOf) (hholds : b.Holds r) (hk : r.signalKey = some k)
    (ht : r.transition = .recovered) (h : b.After r k t) (hchange : Change K e b b') :
    b'.After r k t := by
  obtain ⟨r₀, hr₀, hid₀, hnotice₀⟩ := hholds
  have hid : r.id < b.nextId := hid₀ ▸ hwf.fresh r₀ hr₀
  have hrow : ∀ r' ∈ b.outbox, r'.id = r.id → r'.toNotice = r.toNotice := by
    intro r' hr' hid'
    rw [← hnotice₀, hwf.eq_of_id hr' hr₀ (hid'.trans hid₀.symm)]
  cases hchange with
  | rows f hf hway => exact h.rows hrow ht hf
  | report _ happ => exact h.report hwf hid happ
  | event _ hins => exact h.inserted hid hins
  | retire _ hret => exact h.retired hwf hnamed hrow hk hret

end Board.After

/-! ## Runs -/

section

variable {α : Type*} (name : Identity → α) (nameOf : String → α)

/-- A signal key stands for one thing in everything the calls report. -/
def KeysNamed (calls : List Call) : Prop :=
  ∀ c ∈ calls, ∀ o, c.request.Reports o → o.Named name nameOf

/-- What is known of the calls of such a run. -/
def namedPremises : Premises := { Premises.any with report := Observation.Named name nameOf }

variable {name nameOf}

theorem meets_named {calls : List Call} (h : KeysNamed name nameOf calls) (w : World) :
    w.Meets (namedPremises name nameOf) calls := by
  intro front c back hsplit
  constructor
  · trivial
  · exact h c (by rw [hsplit]; simp)
  · exact fun _ _ _ _ _ _ => trivial
  · exact fun _ _ _ _ _ _ _ _ _ => trivial
  · exact fun _ _ _ _ _ _ _ => trivial
  · exact fun _ _ _ _ _ _ _ _ => trivial
  · exact fun _ => trivial
  · exact fun _ _ _ => trivial

/-- And so it is in the tables. -/
theorem World.named_run {calls : List Call} (h : KeysNamed name nameOf calls) :
    (initial.run calls).board.Named name nameOf := by
  apply run_changes (K := namedPremises name nameOf)
  · exact fun _ _ _ _ _ hP hchange => named_change (fun _ ho => ho) hP hchange
  · exact meets_named h initial
  · exact Board.Wf.empty
  · exact Board.Named.empty

end

/-- The callers build the key and the entity from one origin. -/
theorem Reported.keysNamed {calls : List Call} (h : Reported calls) :
    KeysNamed Identity.footprint footprintOf calls := by
  intro c hc o ho
  obtain ⟨x, hx⟩ := h c hc o ho
  unfold Observation.Named
  rw [hx.key, footprintOf_signalKey, hx.footprint]

theorem Reported.hostsNamed {calls : List Call} (h : Reported calls) :
    KeysNamed Identity.hostId (fun k => (footprintOf k).hostId) calls :=
  fun c hc o ho => congrArg Footprint.hostId (h.keysNamed c hc o ho)

namespace World

/-- The gate has just let the row through. -/
def Passes (w : World) (g : Call) (i : ℤ) (t : Uuid) : Prop :=
  g.request = .gate (some i) (some t) ∧
    notificationDeliveryBlockReason (w.env g.now) (some i) (some t) w.board = none

/-- Dispatchers send a row they have claimed only when the gate has let it through. -/
def Gated (w : World) (calls : List Call) : Prop :=
  ∀ front c back, calls = front ++ c :: back → ∀ i t p, c.request.Delivers i t p →
    ∃ f g rest, front = f ++ g :: rest ∧ (w.run f).Passes g i t

/-- The recovered row ends the episode of its signal that was opened at `openedAt`: so the call found
it that inserted the row. -/
def EndsEpisode (w : World) (calls : List Call) (r : OutboxRow) (openedAt : Timestamptz) : Prop :=
  ∃ f x rest k s, calls = f ++ x :: rest ∧ r.signalKey = some k ∧ ¬ (w.run f).board.Holds r ∧
    (w.run (f ++ [x])).board.Holds r ∧ (w.run f).board.signal? k = some s ∧ s.active = true ∧
      s.openedAt = openedAt

/-- An announcement of the episode has been sent. -/
def Announced (b : Board) (r : OutboxRow) (openedAt : Timestamptz) : Prop :=
  ∃ d ∈ b.outbox, d.signalKey = r.signalKey ∧ d.transition.announces = true ∧ d.status = .sent ∧
    openedAt ≤ d.occurredAt ∧ d.occurredAt ≤ r.occurredAt

/-- The row announces the present episode of its signal, which is active. -/
def AnnouncesCurrent (b : Board) (r : OutboxRow) : Prop :=
  ∀ k, r.signalKey = some k →
    ∃ s, b.signal? k = some s ∧ s.active = true ∧ s.openedAt ≤ r.occurredAt

/-- In any run, an announcement to be delivered belongs to the present episode of its signal. -/
theorem current_run {hostOf : String → Option Uuid} {calls : List Call}
    (h : KeysNamed Identity.hostId hostOf calls) :
    (initial.run calls).board.Named Identity.hostId hostOf ∧ (initial.run calls).board.Current := by
  apply run_changes (K := namedPremises Identity.hostId hostOf)
    (P := fun b => b.Named Identity.hostId hostOf ∧ b.Current)
  · intro e b b' _ hwf hP hchange
    exact ⟨named_change (fun _ ho => ho) hP.1 hchange, hP.2.change hwf hP.1 hchange⟩
  · exact meets_named h initial
  · exact Board.Wf.empty
  · exact ⟨Board.Named.empty, Board.Current.empty⟩

/-- A recovered row of a run ends an episode, and while it is to be delivered its signal is not opened
at an earlier time. -/
theorem endsEpisode_run {hostOf : String → Option Uuid} {calls : List Call}
    (h : KeysNamed Identity.hostId hostOf calls) {r : OutboxRow}
    (hr : r ∈ (initial.run calls).board.outbox) (ht : r.transition = .recovered) :
    ∃ k t, r.signalKey = some k ∧ initial.EndsEpisode calls r t ∧
      (initial.run calls).board.After r k t := by
  have hinit : ¬ initial.board.Holds r := fun ⟨_, hmem, _⟩ => absurd hmem List.not_mem_nil
  obtain ⟨f, x, rest, hsplit, hnot, hholds⟩ :=
    Runs.exists_leaving (P := fun w : World => ¬ w.board.Holds r) hinit
      (not_not.2 (holds_of_mem hr))
  have hholds : (initial.run (f ++ [x])).board.Holds r := by
    rw [run_concat]
    exact not_not.1 hholds
  have hwf : (initial.run f).board.Wf := wf_run f Board.Wf.empty
  obtain ⟨r₁, hr₁, hid₁, hnotice₁⟩ := hholds
  rw [run_concat] at hr₁
  obtain ⟨k, s, s', hk₁, hs, hactive, hs', hopened⟩ := recovered_step hwf hr₁
    ((transition_eq_of_toNotice hnotice₁).trans ht)
    (fun ⟨d, hd, hid, hnotice⟩ => hnot ⟨d, hd, hid.trans hid₁, hnotice.trans hnotice₁⟩)
  have hk : r.signalKey = some k := (signalKey_eq_of_toNotice hnotice₁).symm.trans hk₁
  refine ⟨k, s.openedAt, hk, ⟨f, x, rest, k, s, hsplit, hk, hnot, ?_, hs, hactive, rfl⟩, ?_⟩
  · rw [run_concat]
    exact ⟨r₁, hr₁, hid₁, hnotice₁⟩
  · have hsplit' : calls = (f ++ [x]) ++ rest := by
      rw [hsplit, List.append_assoc, List.singleton_append]
    have hrest : KeysNamed Identity.hostId hostOf rest := by
      intro c hc
      exact h c (by rw [hsplit']; simp [hc])
    have hfirst : (initial.run (f ++ [x])).board.Named Identity.hostId hostOf := by
      apply named_run
      intro c hc
      exact h c (by rw [hsplit']; exact List.mem_append_left _ hc)
    rw [hsplit', run_append]
    suffices hinv : ∀ b, b = ((initial.run (f ++ [x])).run rest).board →
        b.Named Identity.hostId hostOf ∧ b.Holds r ∧ b.After r k s.openedAt from (hinv _ rfl).2.2
    rintro _ rfl
    apply run_changes (K := namedPremises Identity.hostId hostOf)
      (P := fun b => b.Named Identity.hostId hostOf ∧ b.Holds r ∧ b.After r k s.openedAt)
    · intro e b b' _ hwf hP hchange
      exact ⟨named_change (fun _ ho => ho) hP.1 hchange, hchange.holds hP.2.1,
        hP.2.2.change hwf hP.1 hP.2.1 hk ht hchange⟩
    · exact meets_named hrest _
    · exact wf_run _ Board.Wf.empty
    · rw [run_concat]
      refine ⟨by rw [← run_concat]; exact hfirst, ⟨r₁, hr₁, hid₁, hnotice₁⟩, ?_⟩
      intro _ _ _ _
      exact ⟨s', hs', le_of_eq hopened.symm⟩

/-- What the gate asks of a row it lets through. -/
theorem signalBlock_of_passes {w : World} {g : Call} {i : ℤ} {t : Uuid} (h : w.Passes g i t) :
    ∃ r ∈ w.board.outbox, r.heldBy i t = true ∧ w.board.signalBlock r = none := by
  have hnone := h.2
  unfold notificationDeliveryBlockReason at hnone
  split at hnone
  next i' t' hi ht =>
    obtain ⟨hi, -⟩ := Option.filter_eq_some_iff.1 hi
    cases hi
    cases ht
    split at hnone
    · cases hnone
    next r hheld =>
      obtain ⟨hr, hheldBy⟩ := held?_eq_some hheld
      split at hnone
      · cases hnone
      · exact ⟨r, hr, hheldBy, (Option.or_eq_none_iff.1 hnone).2⟩
  · cases hnone

/-- A recovered row passes only when an announcement has been sent since the present opening. -/
theorem announced_of_signalBlock {b : Board} {r : OutboxRow} {k : String} {s : Signal}
    (hk : r.signalKey = some k) (ht : r.transition = .recovered) (hs : b.signal? k = some s)
    (h : b.signalBlock r = none) : Announced b r s.openedAt := by
  unfold Board.signalBlock at h
  simp only [hk, ht, hs, Transition.announces, Bool.false_eq_true, ite_false, ite_true] at h
  split at h
  · cases h
  · split at h
    next hany =>
      obtain ⟨d, hd, hd'⟩ := List.any_eq_true.1 hany
      simp only [Option.all_some, Bool.and_eq_true, decide_eq_true_eq] at hd'
      obtain ⟨⟨⟨⟨hkey, hannounces⟩, hsent⟩, hopened⟩, hocc⟩ := hd'
      exact ⟨d, hd, hkey.trans hk.symm, hannounces, hsent, hopened, hocc⟩
    · cases h

/-! ## What passes and what is sent -/

/-- What the gate and the completion say of a row: a recovery ends an episode of which an
announcement has been sent, and an announcement is of the present episode. -/
structure Justified (calls : List Call) (r : OutboxRow) : Prop where
  recovery : r.transition = .recovered → ∃ openedAt,
    initial.EndsEpisode calls r openedAt ∧ Announced (initial.run calls).board r openedAt
  announcement : r.transition.announces = true →
    AnnouncesCurrent (initial.run calls).board r

/-- The row ends the episode that a row with its id and text ends. -/
theorem EndsEpisode.congr {w : World} {calls : List Call} {openedAt : Timestamptz}
    (h : w.EndsEpisode calls r openedAt) (hid : r'.id = r.id) (hnotice : r'.toNotice = r.toNotice) :
    w.EndsEpisode calls r' openedAt := by
  have hholds : ∀ b : Board, b.Holds r' ↔ b.Holds r := by
    intro b
    unfold Board.Holds
    rw [hid, hnotice]
  obtain ⟨f, x, rest, k, s, hsplit, hk, hnot, hafter, h⟩ := h
  rw [← hholds] at hnot hafter
  exact ⟨f, x, rest, k, s, hsplit, (signalKey_eq_of_toNotice hnotice).trans hk, hnot, hafter, h⟩

theorem Announced.congr {openedAt : Timestamptz} (h : Announced b r openedAt)
    (hnotice : r'.toNotice = r.toNotice) : Announced b r' openedAt := by
  unfold Announced
  rw [signalKey_eq_of_toNotice hnotice, occurredAt_eq_of_toNotice hnotice]
  exact h

theorem EndsEpisode.append {w : World} {front : List Call} {openedAt : Timestamptz}
    (h : w.EndsEpisode front r openedAt) (back : List Call) :
    w.EndsEpisode (front ++ back) r openedAt := by
  obtain ⟨f, x, rest, k, s, rfl, h⟩ := h
  refine ⟨f, x, rest ++ back, k, s, ?_, h⟩
  rw [List.append_assoc, List.cons_append]

/-- A row sent earlier is still a sent row later. -/
theorem Announced.run {w : World} {openedAt : Timestamptz} (calls : List Call) (hb : w.board.Wf)
    (h : Announced w.board r openedAt) : Announced (w.run calls).board r openedAt := by
  obtain ⟨d, hd, hkey, ha, hsent, h⟩ := h
  exact ⟨d, settled_run calls hb hd (by rw [hsent]; rfl), hkey, ha, hsent, h⟩

/-- A row to be delivered announces the present episode, if it announces one. -/
theorem announcesCurrent_of_undelivered {hostOf : String → Option Uuid} {calls : List Call}
    (h : KeysNamed Identity.hostId hostOf calls) (hr : r ∈ (initial.run calls).board.outbox)
    (hu : r.status.undelivered = true) (ha : r.transition.announces = true) :
    AnnouncesCurrent (initial.run calls).board r :=
  fun k hk => (current_run h).2 r hr hu ha k hk

theorem justified_of_passes {hostOf : String → Option Uuid} {calls : List Call} {g : Call} {i : ℤ}
    {t : Uuid} (h : KeysNamed Identity.hostId hostOf calls)
    (hg : (initial.run calls).Passes g i t) :
    ∃ r ∈ (initial.run calls).board.outbox, r.heldBy i t = true ∧ Justified calls r := by
  obtain ⟨r, hr, hheld, hblock⟩ := signalBlock_of_passes hg
  have hu : r.status.undelivered = true := by
    rw [(heldBy_iff.1 hheld).2.1]
    rfl
  refine ⟨r, hr, hheld, fun ht => ?_, announcesCurrent_of_undelivered h hr hu⟩
  obtain ⟨k, openedAt, hk, hends, hafter⟩ := endsEpisode_run h hr ht
  -- the announcement was sent since the present opening, and that is no earlier
  obtain ⟨s, hs, hle⟩ := hafter r hr rfl hu
  obtain ⟨d, hd, hdkey, ha, hsent, hopened, hocc⟩ := announced_of_signalBlock hk ht hs hblock
  exact ⟨openedAt, hends, d, hd, hdkey, ha, hsent, le_trans hle hopened, hocc⟩

theorem justified_of_sent {hostOf : String → Option Uuid} {front : List Call} {c : Call}
    (h : KeysNamed Identity.hostId hostOf front)
    (hgated : ∀ i t p, c.request.Delivers i t p →
      ∃ f g rest, front = f ++ g :: rest ∧ (initial.run f).Passes g i t)
    (hr : r ∈ (initial.run front).sentBy c) : Justified front r := by
  have hwf : ∀ f, (initial.run f).board.Wf := fun f => wf_run f Board.Wf.empty
  obtain ⟨i, t, p, r₀, hdelivers, hr₀, hheld, rfl⟩ := mem_sentBy (hwf front) hr
  have hu : r₀.status.undelivered = true := by
    rw [(heldBy_iff.1 hheld).2.1]
    rfl
  constructor
  · intro ht
    obtain ⟨f, g, rest, rfl, hpasses⟩ := hgated i t p hdelivers
    have hf : KeysNamed Identity.hostId hostOf f := fun c hc => h c (List.mem_append_left _ hc)
    obtain ⟨d, hd, hdheld, hjust⟩ := justified_of_passes hf hpasses
    -- the row that passed is the row that is sent
    have hid : r₀.id = d.id := by
      have hr₀id := (heldBy_iff.1 hheld).1
      have hdid := (heldBy_iff.1 hdheld).1
      omega
    have hnotice : r₀.toNotice = d.toNotice := by
      rw [run_append] at hr₀
      exact toNotice_run (hwf f) hd hr₀ hid
    have hdt : d.transition = .recovered := (transition_eq_of_toNotice hnotice).symm.trans ht
    obtain ⟨openedAt, hends, hann⟩ := hjust.recovery hdt
    refine ⟨openedAt, ?_, ?_⟩
    · exact (hends.append (g :: rest)).congr hid hnotice
    · rw [run_append]
      exact (hann.run (g :: rest) (hwf f)).congr hnotice
  · intro ha
    have hcurrent : AnnouncesCurrent (initial.run front).board r₀ :=
      announcesCurrent_of_undelivered h hr₀ hu ha
    exact hcurrent

end World


/-- In runs whose dispatchers ask the gate: when the gate lets a recovered row through, and later
when it is sent, an announcement of the episode it ends has been sent; and when the gate lets an
opened or escalated row through, and when it is sent, its signal is active and was opened no later
than the row. -/
theorem recoveries_follow_announcements (calls : List Call) (hreported : Reported calls)
    (hgated : World.initial.Gated calls) :
    (∀ front g back, calls = front ++ g :: back → ∀ i t, (World.initial.run front).Passes g i t →
      ∃ r ∈ (World.initial.run front).board.outbox, r.heldBy i t = true ∧
        World.Justified front r) ∧
    (∀ front c back, calls = front ++ c :: back → ∀ r ∈ (World.initial.run front).sentBy c,
      World.Justified front r) := by
  have hnamed := hreported.hostsNamed
  constructor
  · intro front g back hsplit i t hg
    exact World.justified_of_passes (fun c hc => hnamed c (by rw [hsplit]; simp [hc])) hg
  · intro front c back hsplit r hr
    exact World.justified_of_sent (fun c hc => hnamed c (by rw [hsplit]; simp [hc]))
      (hgated front c back hsplit) hr

theorem about_sampleReport {active : Bool} {severity : String} {second_ : ℤ} {o : Observation}
    (h : (sampleReport active severity second_).Reports o) :
    o.About (.heartbeat sampleHost.id) := by
  cases h with
  | notification h =>
    obtain ⟨hkey, hhost, htype, hentity, -⟩ := SignalParams.observation?_eq_some h
    have htype : o.identity.entityType = .host := (Option.some.inj htype).symm
    constructor
    · rw [← Option.some.inj hkey]
      decide
    · have hentity : o.identity.entityKey = sampleHost.id.text := by
        rw [← Option.some.inj hentity]
        decide
      unfold Identity.footprint
      rw [← hhost, htype, hentity, if_neg nofun]
      rfl

/-- The dispatcher of a claimed opening asks the gate. -/
def claimAndGate : List Call :=
  openAndClaim ++ [⟨50 * second, .gate (some 1) (some ⟨1⟩)⟩]

/-- And then it sends the opening. -/
def sampleDelivery : Call :=
  ⟨60 * second, .complete (some 1) (some ⟨1⟩) ⟨some true, none, none, none⟩⟩

theorem sampleDelivery_justified :
    ((World.initial.run claimAndGate).sentBy sampleDelivery).map (·.id) = [1] ∧
      ∀ r ∈ (World.initial.run claimAndGate).sentBy sampleDelivery,
        World.Justified claimAndGate r := by
  constructor
  · decide +kernel
  refine (recoveries_follow_announcements (claimAndGate ++ [sampleDelivery]) ?_ ?_).2
    claimAndGate sampleDelivery [] rfl
  · intro c hc o ho
    simp only [claimAndGate, openAndClaim, sampleStart, List.cons_append,
      List.nil_append, List.mem_cons, List.not_mem_nil, or_false] at hc
    obtain rfl | rfl | rfl | rfl | rfl | rfl := hc
    case inr.inr.inl => exact ⟨_, about_sampleReport ho⟩
    all_goals cases ho
  · refine Runs.forall_split_cons ?_ (Runs.forall_split_cons ?_ (Runs.forall_split_cons ?_
      (Runs.forall_split_cons ?_ (Runs.forall_split_cons ?_ (Runs.forall_split_cons ?_
        Runs.forall_split_nil)))))
    all_goals rintro i t p ⟨hc, -⟩
    all_goals cases hc
    refine ⟨openAndClaim, ⟨50 * second, .gate (some 1) (some ⟨1⟩)⟩, [], rfl, rfl, ?_⟩
    decide +kernel

end IvrmDashboard.Notifications

import Mathlib.Data.List.Induction
import Mathlib.Data.Prod.Lex
import IvrmDashboard.Foundations.Lines
import IvrmDashboard.Notifications.Settled

/-!
# The notifications of a signal in order

The rows of a signal form a line, in the order of their times and ids. What keeps the line in
order is that the rows being sent, and those that were, precede all that are still to go out
(`Board.InOrder`). A claim respects it when it takes rows, and a new row joins at the end because
nothing older than the last report is accepted (`Board.Followed`). The release of suppressed rows
does not: of two suppressed announcements of an episode it puts back the later one first, and the
earlier one at the next claim (`two_sending`). In runs without such a release at most one row of a
signal is being sent at a time and the rows are sent in order (`outbox_delivers_in_order`).
-/

namespace IvrmDashboard.Notifications

open Sql Operations Lines

/-- The phase of a delivery. -/
def DeliveryStatus.phase : DeliveryStatus → Phase
  | .pending | .retry => .waiting
  | .sending => .sending
  | .sent => .sent
  | .failed | .suppressed => .out

/-- The outbox as lines of signals. -/
def outboxLines : Lines.Reading OutboxRow String (Timestamptz ×ₗ ℕ) where
  line := OutboxRow.signalKey
  place r := toLex (r.occurredAt, r.id)
  phase r := r.status.phase

theorem started_iff {s : DeliveryStatus} : s.phase.Started ↔ s = .sending ∨ s = .sent := by
  cases s <;> simp [DeliveryStatus.phase, Phase.Started]

theorem undelivered_iff {s : DeliveryStatus} : s.phase.Undelivered ↔ s.undelivered = true := by
  cases s <;> simp [DeliveryStatus.phase, Phase.Undelivered, DeliveryStatus.undelivered]

theorem precedes_iff {r r' : OutboxRow} :
    r.precedes r' = true ↔ outboxLines.place r < outboxLines.place r' := by
  simp [OutboxRow.precedes, outboxLines, Prod.Lex.toLex_lt_toLex]

theorem outboxLines_fixes {f : OutboxRow → OutboxRow} {rows : List OutboxRow}
    (h : ∀ r ∈ rows, (f r).id = r.id ∧ (f r).toNotice = r.toNotice) : outboxLines.Fixes f rows := by
  intro r hr
  obtain ⟨hid, hnotice⟩ := h r hr
  refine ⟨signalKey_eq_of_toNotice hnotice, ?_⟩
  change toLex ((f r).occurredAt, (f r).id) = toLex (r.occurredAt, r.id)
  rw [hid, occurredAt_eq_of_toNotice hnotice]

/-! ## The invariant -/

/-- The lines are in order. -/
def Board.InOrder (b : Board) : Prop := outboxLines.InOrder b.outbox

/-- No row of a signal is later than the last report of it. -/
def Board.Followed (b : Board) : Prop :=
  ∀ r ∈ b.outbox, ∀ k, r.signalKey = some k →
    ∃ s, b.signal? k = some s ∧ r.occurredAt ≤ s.lastSeenAt

/-- The row comes after all of its signal that have been started. -/
def Board.ReleasedBehind (b : Board) (r : OutboxRow) : Prop :=
  ∀ d ∈ b.outbox, d.signalKey = r.signalKey → d.status = .sending ∨ d.status = .sent →
    d.precedes r = true

/-- Claims release only rows behind those that have been started, and no signal is retired. -/
def orderPremises : Premises :=
  { Premises.any with release := Board.ReleasedBehind, retire := False }

variable {e : Env} {b b' : Board}

section

variable {p : OutboxRow → Bool} {reason : String}

theorem Board.InOrder.suppressRows (h : b.InOrder) : (b.suppressRows p reason).InOrder := by
  apply Lines.Reading.InOrder.keep h
  · apply outboxLines_fixes
    intro r _
    split <;> exact ⟨rfl, rfl⟩
  · intro r _ hs
    by_cases hp : p r = true
    · rw [if_pos hp] at hs
      exact hs.elim
    · rwa [if_neg hp] at hs
  · intro r _ hu
    by_cases hp : p r = true
    · rw [if_pos hp] at hu
      exact hu.elim
    · rwa [if_neg hp] at hu

theorem Board.Followed.suppressRows (h : b.Followed) : (b.suppressRows p reason).Followed := by
  intro r' hr' k hk
  obtain ⟨r, hr, rfl⟩ := List.mem_map.1 hr'
  by_cases hp : p r = true
  · rw [if_pos hp] at hk ⊢
    exact h r hr k hk
  · rw [if_neg hp] at hk ⊢
    exact h r hr k hk

end

/-- A later report of a signal keeps its rows behind. -/
theorem Board.Followed.write (h : b.Followed) {s : Signal}
    (hs : ∀ t, b.signal? s.signalKey = some t → t.lastSeenAt ≤ s.lastSeenAt) :
    (b.write s).Followed := by
  intro r hr k hk
  obtain ⟨t, ht, hle⟩ := h r hr k hk
  by_cases hkey : k = s.signalKey
  · subst hkey
    exact ⟨s, signal?_write_self s b, le_trans hle (hs t ht)⟩
  · exact ⟨t, by rw [signal?_write_of_ne hkey, ht], hle⟩

/-- A notification at the time of the last report of its signal joins the line at its end. -/
theorem inOrder_inserted {n : Notice} (hwf : b.Wf) (h : b.InOrder ∧ b.Followed)
    (hn : ∀ k, n.signalKey = some k → ∃ s, b.signal? k = some s ∧ n.occurredAt = s.lastSeenAt)
    (hins : Inserted e n b b') : b'.InOrder ∧ b'.Followed := by
  cases hins with
  | swallowed => exact h
  | fresh key hkey hnew hchecked =>
    constructor
    · apply Lines.Reading.InOrder.append h.1
      · intro r hr hs
        rw [List.mem_singleton] at hr
        subst hr
        rcases newRow_status (e := e) n key b.nextId with hst | hst
        · exact absurd (started_iff.1 hs) (by rw [hst]; simp)
        · exact absurd (started_iff.1 hs) (by rw [hst]; simp)
      · intro r hr a ha _ k hak hrk
        rw [List.mem_singleton] at hr
        subst hr
        obtain ⟨s, hs, hocc⟩ := hn k hrk
        obtain ⟨t, ht, hle⟩ := h.2 a ha k hak
        obtain rfl : t = s := Option.some.inj (ht.symm.trans hs)
        have hid : a.id < b.nextId := hwf.fresh a ha
        refine Prod.Lex.toLex_le_toLex.2 ?_
        change a.occurredAt < n.occurredAt ∨ a.occurredAt = n.occurredAt ∧ a.id ≤ b.nextId
        rw [hocc]
        rcases lt_or_eq_of_le hle with hlt | heq
        · exact .inl hlt
        · exact .inr ⟨heq, le_of_lt hid⟩
    · intro r hr k hk
      rcases List.mem_append.1 hr with hr | hr
      · exact h.2 r hr k hk
      · rw [List.mem_singleton] at hr
        subst hr
        obtain ⟨s, hs, hocc⟩ := hn k hk
        exact ⟨s, hs, le_of_eq hocc⟩

/-! ## It is preserved -/

section

variable {r r' : OutboxRow}

theorem RowStep.sent_started {K : Premises} (h : RowStep K e b r r') (hs : r'.status = .sent) :
    (outboxLines.phase r).Started := by
  rcases h with rfl | ⟨h, -⟩
  · exact started_iff.2 (.inr hs)
  · cases h with
    | deliver _ hsending => exact started_iff.2 (.inl hsending)
    | fail p hsending => exact started_iff.2 (.inl hsending)
    | expire => cases hs
    | withdraw => cases hs
    | release => cases hs
    | claim => cases hs

/-- A row that is taken is the first undelivered one of its signal. -/
theorem first_of_claimable {now : ℤ} (hwf : b.Wf) (hr : r ∈ b.outbox)
    (h : b.claimable now r = true) : outboxLines.First b.outbox r := by
  intro d hd hu k hrk hdk
  by_contra hlt
  have hprecedes : d.precedes r = true := precedes_iff.2 (not_le.1 hlt)
  have hkey : d.signalKey = r.signalKey := Eq.trans hdk (Eq.symm hrk)
  have hid : d.id ≠ r.id := by
    intro hid
    rw [hwf.eq_of_id hd hr hid] at hlt
    exact hlt (le_refl _)
  unfold Board.claimable at h
  rw [Bool.and_eq_true, Bool.or_eq_true, List.all_eq_true] at h
  rcases h.2 with hnone | hall
  · rw [show r.signalKey = some k from hrk] at hnone
    cases hnone
  · have hd' := hall d hd
    simp [hkey, hprecedes, undelivered_iff.1 hu, hid] at hd'

theorem RowStep.sending_started (hwf : b.Wf) (hr : r ∈ b.outbox)
    (h : RowStep orderPremises e b r r') (hs : r'.status = .sending) :
    (outboxLines.phase r).Started ∨ outboxLines.First b.outbox r := by
  rcases h with rfl | ⟨h, -⟩
  · exact .inl (started_iff.2 (.inl hs))
  · cases h with
    | claim token hready hclaim => exact .inr (first_of_claimable hwf hr hclaim)
    | fail p hsending => exact .inl (started_iff.2 (.inl hsending))
    | expire => cases hs
    | withdraw => cases hs
    | release => cases hs
    | deliver => cases hs

/-- A row that is put back is behind those that have been started. -/
theorem RowStep.undelivered_behind (h : RowStep orderPremises e b r r')
    (hu : r'.status.undelivered = true) :
    (outboxLines.phase r).Undelivered ∨ outboxLines.Behind b.outbox r := by
  rcases h with rfl | ⟨h, -⟩
  · exact .inl (undelivered_iff.2 hu)
  · cases h with
    | release hready hlatest hfree hk =>
      right
      intro d hd hs k hdk hrk
      exact le_of_lt (precedes_iff.1 (hk d hd (hdk.trans hrk.symm) (started_iff.1 hs)))
    | expire hout => exact .inl (undelivered_iff.2 (by rw [timedOut_sending hout]; rfl))
    | claim token hready hclaim =>
      exact .inl (undelivered_iff.2 (undelivered_of_waiting (waiting_of_claimable hclaim)))
    | fail p hsending => exact .inl (undelivered_iff.2 (by rw [hsending]; rfl))
    | withdraw => cases hu
    | deliver => cases hu

end

theorem inOrder_rows {f : OutboxRow → OutboxRow} (hwf : b.Wf)
    (hstep : ∀ r ∈ b.outbox, RowStep orderPremises e b r (f r)) (hway : OneWay f b.outbox)
    (h : b.InOrder) : (b.mapRows f).InOrder := by
  have hfix : outboxLines.Fixes f b.outbox := outboxLines_fixes fun r hr => (hstep r hr).frame
  rcases hway with hno | hno
  · apply Lines.Reading.InOrder.reopen h hfix
    · intro r hr hs
      rcases started_iff.1 hs with hs | hs
      · exact started_iff.2 (.inl (hno r hr hs))
      · exact (hstep r hr).sent_started hs
    · intro r hr hu
      exact (hstep r hr).undelivered_behind (undelivered_iff.1 hu)
  · apply Lines.Reading.InOrder.start h hfix
    · intro r hr hs
      rcases started_iff.1 hs with hs | hs
      · exact (hstep r hr).sending_started hwf hr hs
      · exact .inl ((hstep r hr).sent_started hs)
    · intro r hr hu
      exact undelivered_iff.2 (hno r hr (undelivered_iff.1 hu))

theorem followed_rows {f : OutboxRow → OutboxRow}
    (hstep : ∀ r ∈ b.outbox, RowStep orderPremises e b r (f r)) (h : b.Followed) :
    (b.mapRows f).Followed := by
  intro r' hr' k hk
  obtain ⟨r, hr, rfl⟩ := List.mem_map.1 hr'
  have hnotice := (hstep r hr).frame.2
  rw [signalKey_eq_of_toNotice hnotice] at hk
  rw [occurredAt_eq_of_toNotice hnotice]
  exact h r hr k hk

/-- A report that writes its signal and announces it. -/
theorem inOrder_write_inserted {o : Observation} {s : Signal} {t : Transition}
    {severity : Severity} (hwf : (b.write s).Wf) (h : b.InOrder ∧ b.Followed)
    (hkey : s.signalKey = o.signalKey) (hocc : s.lastSeenAt = o.occurredAt)
    (hs : ∀ t, b.signal? s.signalKey = some t → t.lastSeenAt ≤ s.lastSeenAt)
    (hins : Inserted e (o.notice t severity) (b.write s) b') : b'.InOrder ∧ b'.Followed := by
  refine inOrder_inserted hwf ⟨h.1, h.2.write hs⟩ (fun k hk => ?_) hins
  obtain rfl : o.signalKey = k := Option.some.inj hk
  refine ⟨s, ?_, hocc.symm⟩
  rw [← hkey, Board.signal?_write_self]

theorem inOrder_report {o : Observation} {res : SignalResult} (hwf : b.Wf)
    (h : b.InOrder ∧ b.Followed) (happ : Applied orderPremises e o b res b') :
    b'.InOrder ∧ b'.Followed := by
  have hlater : ∀ {s s' : Signal}, b.signal? o.signalKey = some s → s'.signalKey = o.signalKey →
      s.lastSeenAt ≤ s'.lastSeenAt →
      ∀ t, b.signal? s'.signalKey = some t → t.lastSeenAt ≤ s'.lastSeenAt := by
    intro s s' hs hkey hle t ht
    rw [hkey, hs, Option.some.injEq] at ht
    rwa [← ht]
  cases happ with
  | absent => exact h
  | stale => exact h
  | inactive => exact h
  | @opened level _ hs ha hk hins =>
    have hw : (b.write (o.opening level)).Wf := hwf.write (le_refl o.occurredAt)
    apply inOrder_write_inserted hw h rfl rfl _ hins
    intro t ht
    rw [show (o.opening level).signalKey = o.signalKey from rfl, hs] at ht
    cases ht
  | @reopened s level re _ hs hseen ha hactive hk hins =>
    have hkey : s.signalKey = o.signalKey := (Board.signal?_eq_some hs).2
    have hocc : (s.reopen o level re).openedAt = o.occurredAt ∧
        (s.reopen o level re).lastSeenAt = o.occurredAt := by
      cases re <;> exact ⟨rfl, rfl⟩
    have hre := reopen_signalKey s o level re hkey
    have hw : (b.write (s.reopen o level re)).Wf := hwf.write (by rw [hocc.1, hocc.2])
    exact inOrder_write_inserted hw h hre hocc.2 (hlater hs hre (by rw [hocc.2]; exact hseen)) hins
  | @seen s hs hseen ha hactive =>
    have hkey : (s.see o s.severity).signalKey = o.signalKey := (Board.signal?_eq_some hs).2
    exact ⟨h.1, h.2.write (hlater hs hkey hseen)⟩
  | @escalated s level _ hs hseen ha hactive hrank hins =>
    have hkey : (s.see o level).signalKey = o.signalKey := (Board.signal?_eq_some hs).2
    have hopened := hwf.seen s (Board.signal?_eq_some hs).1
    have hw : (b.write (s.see o level)).Wf := hwf.write (le_trans hopened hseen)
    exact inOrder_write_inserted hw h hkey rfl (hlater hs hkey hseen) hins
  | @deescalated s level hs hseen ha hactive hrank hchecked =>
    have hkey : (s.see o level).signalKey = o.signalKey := (Board.signal?_eq_some hs).2
    refine ⟨h.1.suppressRows, Board.Followed.write h.2.suppressRows ?_⟩
    exact hlater hs hkey hseen
  | @recovered s _ hs hseen ha hactive hchecked hins =>
    have hkey : (s.recover o).signalKey = o.signalKey := (Board.signal?_eq_some hs).2
    have hopened := hwf.seen s (Board.signal?_eq_some hs).1
    have hw := (hwf.suppressRows hchecked).write (s := s.recover o) (le_trans hopened hseen)
    exact inOrder_write_inserted hw ⟨h.1.suppressRows, h.2.suppressRows⟩ hkey rfl
      (hlater hs hkey hseen) hins

theorem inOrder_change (hwf : b.Wf) (h : b.InOrder ∧ b.Followed)
    (hchange : Change orderPremises e b b') : b'.InOrder ∧ b'.Followed := by
  cases hchange with
  | rows f hstep hway => exact ⟨inOrder_rows hwf hstep hway h.1, followed_rows hstep h.2⟩
  | report hk happ => exact inOrder_report hwf h happ
  | event hn hins =>
    apply inOrder_inserted hwf h _ hins
    intro k hk
    rw [hn] at hk
    cases hk
  | retire hk => exact hk.elim

/-! ## Runs -/

/-- The call retires signals. -/
def Request.retires : Request → Bool
  | .retirePolicy _ | .retireHost _ | .retireCloud _ => true
  | _ => false

/-- A claim puts a suppressed row back only behind those of its signal that have been started. -/
def Call.ReleasesBehind (c : Call) (w : World) : Prop :=
  ∀ token limit, c.request = .claim token limit →
    ∀ b, prepareRelease (w.env c.now) w.board = .ok b →
      ∀ r ∈ b.outbox, b.latestSuppressed r = true → r.blockReason (w.env c.now) = none →
        b.ReleasedBehind r

theorem Call.meets_order {c : Call} {w : World} (hretire : c.request.retires = false)
    (hbehind : c.ReleasesBehind w) : c.Meets orderPremises w where
  settings := trivial
  report _ _ := trivial
  opens _ _ _ _ _ _ := trivial
  release := hbehind
  suppress _ _ _ _ _ _ _ := trivial
  deliver _ _ _ _ _ _ _ _ := trivial
  claim _ _ _ := trivial
  retire h := by
    rcases h with ⟨p, hp⟩ | ⟨host, hp⟩ | ⟨k, hp⟩ <;> rw [hp] at hretire <;> cases hretire

/-- The rows a call sends. -/
def World.sentBy (w : World) (c : Call) : List OutboxRow :=
  (w.step c).board.outbox.filter fun r => r.status = .sent && r ∉ w.board.outbox

/-- The rows the calls of a run send, one after the other. -/
def World.sentLog (w : World) : List Call → List OutboxRow
  | [] => []
  | c :: calls => w.sentBy c ++ (w.step c).sentLog calls

namespace World

theorem sentLog_concat (w : World) (calls : List Call) (c : Call) :
    w.sentLog (calls ++ [c]) = w.sentLog calls ++ (w.run calls).sentBy c := by
  induction calls generalizing w with
  | nil => simp [sentLog]
  | cons d calls ih =>
    rw [List.cons_append, sentLog, ih, sentLog, List.append_assoc]
    rfl

/-- What a call sends, a dispatcher held. -/
theorem mem_sentBy {w : World} {c : Call} {r' : OutboxRow} (hb : w.board.Wf)
    (h : r' ∈ w.sentBy c) : ∃ i t p r, c.request.Delivers i t p ∧ r ∈ w.board.outbox ∧
      r.heldBy i t = true ∧ r' = r.deliver p c.now := by
  obtain ⟨hr', hs⟩ := List.mem_filter.1 h
  rw [Bool.and_eq_true, decide_eq_true_eq, decide_eq_true_eq] at hs
  rcases sent_step hb hr' hs.1 with hold | hdeliver
  · exact absurd hold hs.2
  · exact hdeliver

theorem mem_sentLog {w : World} {calls : List Call} {r : OutboxRow} (hb : w.board.Wf)
    (h : r ∈ w.sentLog calls) : r ∈ (w.run calls).board.outbox ∧ r.status = .sent := by
  induction calls generalizing w with
  | nil => cases h
  | cons c calls ih =>
    rcases List.mem_append.1 h with h | h
    · obtain ⟨hr, hs⟩ := List.mem_filter.1 h
      rw [Bool.and_eq_true, decide_eq_true_eq] at hs
      exact ⟨settled_run calls (wf_step hb) hr (by rw [hs.1]; rfl), hs.1⟩
    · exact ih (wf_step hb) h

/-- A call sends at most one row. -/
theorem sentBy_eq {w : World} {c : Call} {r r' : OutboxRow} (hb : w.board.Wf)
    (hr : r ∈ w.sentBy c) (hr' : r' ∈ w.sentBy c) : r = r' := by
  obtain ⟨i, t, p, d, ⟨hc, -⟩, hd, hheld, rfl⟩ := mem_sentBy hb hr
  obtain ⟨i', t', p', d', ⟨hc', -⟩, hd', hheld', rfl⟩ := mem_sentBy hb hr'
  rw [hc] at hc'
  cases hc'
  have hid : (d.id : ℤ) = d'.id := (heldBy_iff.1 hheld).1.trans (heldBy_iff.1 hheld').1.symm
  rw [hb.eq_of_id hd hd' (by omega)]

theorem sentBy_nodup {w : World} {c : Call} (hb : w.board.Wf) : (w.sentBy c).Nodup :=
  (wf_step (c := c) hb).ids.of_map.filter _

end World

/-- The rows of the signal that are being sent. -/
def OutboxRow.sendingOf (k : String) (r : OutboxRow) : Bool :=
  r.signalKey = some k && r.status = .sending

/-- In runs without retirements, whose claims release rows only behind those of their signal that
have been started, at most one row of a signal is being sent at a time, and the rows of a signal
are sent in the order of their times and ids. -/
theorem outbox_delivers_in_order (calls : List Call)
    (h : ∀ front c back, calls = front ++ c :: back →
      c.request.retires = false ∧ c.ReleasesBehind (World.initial.run front)) (k : String) :
    (∀ front back, calls = front ++ back →
      ((World.initial.run front).board.outbox.filter (OutboxRow.sendingOf k)).length ≤ 1) ∧
    ((World.initial.sentLog calls).filter (·.signalKey = some k)).Pairwise
      fun d r => d.precedes r = true := by
  have hwf : ∀ front, (World.initial.run front).board.Wf :=
    fun front => World.wf_run front Board.Wf.empty
  have hinv : ∀ front back, calls = front ++ back →
      (World.initial.run front).board.InOrder ∧ (World.initial.run front).board.Followed := by
    intro front back hsplit
    apply World.run_changes (K := orderPremises) (P := fun b => b.InOrder ∧ b.Followed)
    · exact fun _ _ _ _ hwf h hchange => inOrder_change hwf h hchange
    · intro front' c back' hfront
      have hc := h front' c (back' ++ back) (by
        rw [hsplit, hfront, List.append_assoc, List.cons_append])
      exact Call.meets_order hc.1 hc.2
    · exact Board.Wf.empty
    · exact ⟨Lines.Reading.inOrder_nil, fun _ h => absurd h List.not_mem_nil⟩
  constructor
  · intro front back hsplit
    have hnodup : ((World.initial.run front).board.outbox.filter
        (OutboxRow.sendingOf k)).Nodup := (hwf front).ids.of_map.filter _
    apply length_le_one_of_pairwise hnodup
    intro a ha b hb hne
    obtain ⟨ha, hka⟩ := List.mem_filter.1 ha
    obtain ⟨hb, hkb⟩ := List.mem_filter.1 hb
    simp only [OutboxRow.sendingOf, Bool.and_eq_true, decide_eq_true_eq] at hka hkb
    have hplace := (hinv front back hsplit).1.sending_unique ha hb
      (congrArg DeliveryStatus.phase hka.2) (congrArg DeliveryStatus.phase hkb.2) hka.1 hkb.1
    have hid : a.id = b.id := congrArg (fun x => (ofLex x).2) hplace
    exact hne ((hwf front).eq_of_id ha hb hid)
  · suffices hpre : ∀ front back, calls = front ++ back →
        ((World.initial.sentLog front).filter (·.signalKey = some k)).Pairwise
          fun d r => d.precedes r = true from hpre calls [] (List.append_nil _).symm
    intro front
    induction front using List.reverseRecOn with
    | nil => exact fun _ _ => List.Pairwise.nil
    | append_singleton front c ih =>
      intro back hsplit
      have hsplit' : calls = front ++ c :: back := by
        rw [hsplit, List.append_assoc, List.singleton_append]
      rw [World.sentLog_concat, List.filter_append, List.pairwise_append]
      refine ⟨ih _ hsplit', ?_, ?_⟩
      · apply List.Nodup.pairwise_of_forall_ne ((World.sentBy_nodup (hwf front)).filter _)
        intro a ha b hb hne
        exact absurd (World.sentBy_eq (hwf front) (List.mem_of_mem_filter ha)
          (List.mem_of_mem_filter hb)) hne
      · intro d hd r hr
        obtain ⟨hd, hkd⟩ := List.mem_filter.1 hd
        obtain ⟨hr, hkr⟩ := List.mem_filter.1 hr
        obtain ⟨hdmem, hdsent⟩ := World.mem_sentLog Board.Wf.empty hd
        obtain ⟨i, t, p, r₀, -, hr₀, hheld, rfl⟩ := World.mem_sentBy (hwf front) hr
        have hsending : r₀.status = .sending := (heldBy_iff.1 hheld).2.1
        have hle := (hinv front _ hsplit').1.sent_le hdmem hr₀
          (congrArg DeliveryStatus.phase hdsent) (congrArg DeliveryStatus.phase hsending)
          (of_decide_eq_true hkd) (of_decide_eq_true hkr)
        apply precedes_iff.2
        apply lt_of_le_of_ne hle
        intro heq
        have hid : d.id = r₀.id := congrArg (fun x => (ofLex x).2) heq
        rw [(hwf front).eq_of_id hdmem hr₀ hid, hsending] at hdsent
        cases hdsent

/-- An incident opens and a dispatcher claims it. -/
def openAndClaim : List Call :=
  sampleStart ++
    [⟨10 * second, sampleReport true "warning" 10⟩, ⟨40 * second, .claim (some ⟨1⟩) (some 10)⟩]

theorem openAndClaim_in_order :
    ((World.initial.run openAndClaim).board.outbox.filter
      (OutboxRow.sendingOf sampleKey)).length ≤ 1 := by
  refine (outbox_delivers_in_order openAndClaim ?_ sampleKey).1 openAndClaim []
    (List.append_nil _).symm
  refine Runs.forall_split_cons ⟨rfl, ?_⟩ (Runs.forall_split_cons ⟨rfl, ?_⟩
    (Runs.forall_split_cons ⟨rfl, ?_⟩ (Runs.forall_split_cons ⟨rfl, ?_⟩ Runs.forall_split_nil)))
  · rintro token limit ⟨⟩
  · rintro token limit ⟨⟩
  · rintro token limit ⟨⟩
  -- the claim finds no suppressed row
  intro token limit _ b hb r hr hlatest _
  have hnone : (prepareRelease ⟨40 * second, (World.initial.run openAndClaim.dropLast).settings⟩
      (World.initial.run openAndClaim.dropLast).board).toOption.any
        (fun b => b.outbox.all fun r => !b.latestSuppressed r) = true := by
    decide +kernel
  have hok : prepareRelease ⟨40 * second, (World.initial.run openAndClaim.dropLast).settings⟩
      (World.initial.run openAndClaim.dropLast).board = .ok b := hb
  rw [hok] at hnone
  have hr' := List.all_eq_true.1 hnone r hr
  rw [hlatest] at hr'
  cases hr'

/-- An incident opens and escalates while everything is suppressed; then the suppression is lifted and
two dispatchers claim. -/
def releaseTwice : List Call :=
  sampleStart ++
    [⟨0, .maintain ⟨[], [], [sampleSuppression]⟩⟩,
      ⟨10 * second, sampleReport true "warning" 10⟩,
      ⟨20 * second, sampleReport true "critical" 20⟩,
      ⟨30 * second, .maintain ⟨[], [], []⟩⟩,
      ⟨40 * second, .claim (some ⟨1⟩) (some 10)⟩,
      ⟨50 * second, .claim (some ⟨2⟩) (some 10)⟩]

/-- The first dispatcher gets the escalation and the second one the opening. -/
theorem two_sending :
    ((World.initial.run releaseTwice).board.outbox.filter
      (OutboxRow.sendingOf sampleKey)).length = 2 := by
  decide +kernel

end IvrmDashboard.Notifications

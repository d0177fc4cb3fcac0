import IvrmDashboard.Foundations.OpenSpans
import IvrmDashboard.Monitoring.Incidents

/-!
# The two readings of a timeline

Both loops over the events of a container are compared with what is open without a loop
(`deriveOpenSignals_tells`, `follows`). They agree about the signals that are open; the episodes of
the second one come one after the other and cover every instant at which a signal is open, except
those that belong to an earlier expected state.
-/

namespace IvrmDashboard.Monitoring.Incidents

open Sql OpenSpans Runs

/-- What the events of a container do to its signals. -/
def signalling : Signalling MonitoringEvent SignalName (Option ContainerExpectedState) where
  starts x e := signalName e = some x ∧ (incidentSeverity e.severity).isSome
  resolves x e :=
    signalName e = some x ∧ incidentSeverity e.severity = none ∧ resolvesSignal e = true
  phase e := e.expectedState

/-- The events are sorted by time. -/
abbrev Sorted (l : List MonitoringEvent) : Prop := Committed MonitoringEvent.occurredAt l

variable {l : List MonitoringEvent} {a e : MonitoringEvent} {x y : SignalName} {rangeStart t : ℤ}

theorem Sorted.le_last (h : Sorted (l ++ [a])) (he : e ∈ l) : e.occurredAt ≤ a.occurredAt :=
  (List.pairwise_append.1 h).2.2 e he a (by simp)

theorem Sorted.front (h : Sorted (l ++ [a])) : Sorted l := (List.pairwise_append.1 h).1

/-- The loops see a change when what they saw last is about another expected state. -/
theorem expectationChanges_iff {s : Option ContainerExpectedState}
    (h : l.getLast?.map signalling.phase = some s) :
    expectationChanges (l.getLast?.map (·.expectedState)) a = true ↔ a.expectedState ≠ s := by
  have h : l.getLast?.map (·.expectedState) = some s := h
  rw [h, expectationChanges, Option.any_some, decide_eq_true_iff]
  exact ne_comm

/-! ## One signal at a time -/

/-- What the map holds of a signal: the earliest event that opened it. -/
def Tells (opened : MonitoringEvent → Prop) : Option OpenSignal → Prop
  | none => ∀ e, ¬ opened e
  | some o => opened o.startEvent ∧ o.startedAt = o.startEvent.occurredAt ∧
      ∀ e, opened e → o.startedAt ≤ e.occurredAt

theorem Tells.congr {P Q : MonitoringEvent → Prop} {o : Option OpenSignal} (h : Tells P o)
    (hiff : ∀ e, P e ↔ Q e) : Tells Q o := by
  obtain rfl : P = Q := by
    funext e
    exact propext (hiff e)
  exact h

theorem Tells.isSome_iff {P : MonitoringEvent → Prop} {o : Option OpenSignal} (h : Tells P o) :
    o.isSome ↔ ∃ e, P e := by
  cases o with
  | none => simpa [Tells] using h
  | some o => simpa using ⟨_, h.1⟩

/-- Whether the signal was opened by an instant, by an event of what is expected now. -/
theorem Tells.exists_iff {F : Type} {container : ContainerOverview F} {P : MonitoringEvent → Prop}
    {o : Option OpenSignal} (h : Tells P o)
    (hphase : ∀ e e', P e → P e' → e.expectedState = e'.expectedState) :
    (∃ o' ∈ currentSignal container o, o'.startedAt ≤ t) ↔
      ∃ e, P e ∧ e.expectedState = container.expectedState ∧ e.occurredAt ≤ t := by
  cases o with
  | none =>
    refine ⟨by simp [currentSignal], ?_⟩
    rintro ⟨e, he, -⟩
    exact absurd he (h e)
  | some o =>
    obtain ⟨hopened, hat, hfirst⟩ := h
    have hmem : ∀ o', o' ∈ currentSignal container (some o) ↔
        o' = o ∧ o.startEvent.expectedState = container.expectedState := by
      intro o'
      rw [currentSignal, Option.mem_toList, Option.filter_eq_some_iff]
      constructor
      · rintro ⟨ho, hs⟩
        obtain rfl := Option.some.inj ho
        exact ⟨rfl, of_decide_eq_true hs⟩
      · rintro ⟨rfl, hs⟩
        exact ⟨rfl, decide_eq_true hs⟩
    constructor
    · rintro ⟨o', ho', ht⟩
      obtain ⟨rfl, hs⟩ := (hmem o').1 ho'
      exact ⟨o'.startEvent, hopened, hs, hat ▸ ht⟩
    · rintro ⟨e, he, hs, ht⟩
      exact ⟨o, (hmem o).2 ⟨rfl, (hphase _ _ hopened he).trans hs⟩, (hfirst e he).trans ht⟩

/-- What an event does to the map. -/
theorem Tells.observe {opened : SignalName → MonitoringEvent → Prop}
    {signals : SignalName → Option OpenSignal} (h : ∀ x, Tells (opened x) (signals x))
    (hbefore : ∀ x e, opened x e → e.occurredAt ≤ a.occurredAt) (x : SignalName) :
    Tells (fun e => (e = a ∧ signalling.starts x a) ∨ (opened x e ∧ ¬ signalling.resolves x a))
      (observeSignal signals a x) := by
  unfold observeSignal
  cases hname : signalName a with
  | none =>
    refine (h x).congr fun e => ?_
    simp [signalling, hname]
  | some signal =>
    by_cases hx : x = signal
    · subst hx
      cases hseverity : incidentSeverity a.severity with
      | some startSeverity =>
        have hiff : ∀ e, (e = a ∧ signalling.starts x a) ∨ (opened x e ∧ ¬ signalling.resolves x a) ↔
            e = a ∨ opened x e := by
          intro e
          simp [signalling, hname, hseverity]
        dsimp only
        rw [Function.update_self]
        have hx := h x
        cases hsignal : signals x with
        | none =>
          rw [hsignal] at hx
          refine ⟨(hiff a).2 (Or.inl rfl), rfl, fun e he => ?_⟩
          rcases (hiff e).1 he with rfl | he
          · exact le_rfl
          · exact absurd he (hx e)
        | some o =>
          rw [hsignal] at hx
          obtain ⟨hopened, hat, hfirst⟩ := hx
          refine ⟨(hiff _).2 (Or.inr hopened), hat, fun e he => ?_⟩
          rcases (hiff e).1 he with rfl | he
          · exact hat.trans_le (hbefore x _ hopened)
          · exact hfirst e he
      | none =>
        dsimp only
        split
        next hresolves =>
          rw [Function.update_self]
          rintro e (⟨-, -, hsome⟩ | ⟨-, hnot⟩)
          · simp [hseverity] at hsome
          · exact hnot ⟨hname, hseverity, hresolves⟩
        next hresolves =>
          refine (h x).congr fun e => ?_
          simp [signalling, hname, hseverity, hresolves]
    · have hsame : ∀ o : Option OpenSignal, Function.update signals signal o x = signals x :=
        fun o => Function.update_of_ne hx o signals
      have htells := (h x).congr (Q := fun e =>
        (e = a ∧ signalling.starts x a) ∨ (opened x e ∧ ¬ signalling.resolves x a)) fun e => by
          simp [signalling, hname, Ne.symm hx]
      cases incidentSeverity a.severity with
      | some startSeverity => simpa only [hsame] using htells
      | none =>
        dsimp only
        split
        · simpa only [hsame] using htells
        · exact htells

theorem signalLoop_concat (l : List MonitoringEvent) (a : MonitoringEvent) :
    signalLoop (l ++ [a]) = signalStep (signalLoop l) a := by
  rw [signalLoop, List.foldl_append]
  rfl

theorem signalLoop_expectedState (l : List MonitoringEvent) :
    (signalLoop l).expectedState = l.getLast?.map (·.expectedState) := by
  cases l using List.reverseRecOn with
  | nil => rfl
  | append_singleton l a _ =>
    rw [signalLoop_concat, List.getLast?_concat]
    rfl

/-- **The map of open signals holds of each signal the earliest event that keeps it open.** -/
theorem deriveOpenSignals_tells (h : Sorted l) (x : SignalName) :
    Tells (OpenedBy signalling x l) (deriveOpenSignals l x) := by
  induction l using List.reverseRecOn generalizing x with
  | nil => exact fun e he => not_heldFor_nil he
  | append_singleton l a ih =>
    have hreset : ∀ x, Tells (fun e => OpenedBy signalling x l e ∧ a.expectedState = e.expectedState)
        ((if expectationChanges (signalLoop l).expectedState a then fun _ => none
          else (signalLoop l).signals) x) := by
      intro x
      rw [signalLoop_expectedState]
      split
      next hchange =>
        rintro e ⟨he, hphase⟩
        exact (expectationChanges_iff he.phase_eq).1 hchange hphase
      next hchange =>
        refine (ih h.front x).congr fun e => ⟨fun he => ⟨he, ?_⟩, And.left⟩
        by_contra hne
        exact hchange ((expectationChanges_iff he.phase_eq).2 hne)
    rw [deriveOpenSignals, signalLoop_concat]
    refine (Tells.observe hreset (fun x e he => h.le_last he.1.mem) x).congr fun e => ?_
    exact openedBy_concat.symm

/-! ## All signals together -/

/-- What an event can do to an episode: nothing, begin it, continue it, leave signals open, or end
it. -/
inductive Observed (rangeStart : ℤ) (s : RecoveryLoop) (a : MonitoringEvent) : RecoveryLoop → Prop
  | nothing (hstarts : ∀ x, ¬ signalling.starts x a)
      (hresolves : ∀ x ∈ s.activeSignals, ¬ signalling.resolves x a) : Observed rangeStart s a s
  | begins (x : SignalName) (e : OpenEpisode) (hstarts : signalling.starts x a)
      (hnone : s.episode = none) (hevent : e.startEvent = a) (hat : e.startedAt = a.occurredAt) :
      Observed rangeStart s a
        { s with activeSignals := insert x s.activeSignals, episode := some e }
  | continues (x : SignalName) (e e' : OpenEpisode) (hstarts : signalling.starts x a)
      (hsome : s.episode = some e) (hevent : e'.startEvent = e.startEvent)
      (hat : e'.startedAt = e.startedAt) :
      Observed rangeStart s a
        { s with activeSignals := insert x s.activeSignals, episode := some e' }
  | leaves (x : SignalName) (e e' : OpenEpisode) (hresolves : signalling.resolves x a)
      (hsome : s.episode = some e) (hevent : e'.startEvent = e.startEvent)
      (hat : e'.startedAt = e.startedAt) (hopen : (s.activeSignals.erase x).Nonempty) :
      Observed rangeStart s a
        { s with activeSignals := s.activeSignals.erase x, episode := some e' }
  | ends (x : SignalName) (e e' : OpenEpisode) (hresolves : signalling.resolves x a)
      (hsome : s.episode = some e) (hat : e'.startedAt = e.startedAt)
      (hclosed : s.activeSignals.erase x = ∅) :
      Observed rangeStart s a
        { s with
          activeSignals := s.activeSignals.erase x
          episode := none
          recovered :=
            if a.occurredAt ≥ e.startedAt ∧ a.occurredAt ≥ rangeStart then
              s.recovered ++ [recoveredIncident e' a]
            else s.recovered }

theorem observed (rangeStart : ℤ) (s : RecoveryLoop) (a : MonitoringEvent)
    (hnone : s.episode = none → s.activeSignals = ∅) :
    Observed rangeStart s a (observeRecovery rangeStart s a) := by
  unfold observeRecovery
  cases hname : signalName a with
  | none => exact .nothing (by simp [signalling, hname]) (by simp [signalling, hname])
  | some signal =>
    cases hseverity : incidentSeverity a.severity with
    | some startSeverity =>
      have hstarts : signalling.starts signal a := ⟨hname, by simp [hseverity]⟩
      cases hepisode : s.episode with
      | none => exact .begins signal _ hstarts hepisode rfl rfl
      | some e => exact .continues signal e _ hstarts hepisode rfl rfl
    | none =>
      have hstarts : ∀ x, ¬ signalling.starts x a := by simp [signalling, hseverity]
      cases hepisode : s.episode with
      | none => exact .nothing hstarts (by simp [hnone hepisode])
      | some e =>
        dsimp only
        split
        next hskip =>
          refine .nothing hstarts fun x hx hresolves => ?_
          obtain rfl : signal = x := Option.some.inj (hname.symm.trans hresolves.1)
          simp [hresolves.2.2, hx] at hskip
        next hskip =>
          have hresolves : signalling.resolves signal a := ⟨hname, hseverity, by simp_all⟩
          split
          next hcard =>
            exact .leaves signal e _ hresolves hepisode rfl rfl (Finset.card_pos.1 hcard)
          next hcard =>
            have hclosed : s.activeSignals.erase signal = ∅ := by
              by_contra hne
              exact hcard (Finset.card_pos.2 (Finset.nonempty_iff_ne_empty.2 hne))
            exact .ends signal e _ hresolves hepisode rfl hclosed

theorem starts_iff (h : signalling.starts x a) : signalling.starts y a ↔ y = x := by
  obtain ⟨hname, hsome⟩ := h
  refine ⟨fun hy => Option.some.inj (hy.1.symm.trans hname), ?_⟩
  rintro rfl
  exact ⟨hname, hsome⟩

theorem resolves_iff (h : signalling.resolves x a) : signalling.resolves y a ↔ y = x := by
  obtain ⟨hname, hrest⟩ := h
  refine ⟨fun hy => Option.some.inj (hy.1.symm.trans hname), ?_⟩
  rintro rfl
  exact ⟨hname, hrest⟩

theorem not_resolves_of_starts (h : signalling.starts x a) : ¬ signalling.resolves y a := by
  rintro ⟨-, hnone, -⟩
  have hsome := h.2
  simp [hnone] at hsome

section

variable {s s' : RecoveryLoop}

theorem Observed.mem_activeSignals (h : Observed rangeStart s a s') :
    y ∈ s'.activeSignals ↔
      signalling.starts y a ∨ (y ∈ s.activeSignals ∧ ¬ signalling.resolves y a) := by
  cases h with
  | nothing hstarts hresolves =>
    exact ⟨fun hy => Or.inr ⟨hy, hresolves y hy⟩,
      fun hy => hy.elim (fun hs => absurd hs (hstarts y)) And.left⟩
  | begins x e hstarts =>
    simp [starts_iff hstarts, not_resolves_of_starts hstarts]
  | continues x e e' hstarts =>
    simp [starts_iff hstarts, not_resolves_of_starts hstarts]
  | leaves x e e' hresolves =>
    have hstarts : ¬ signalling.starts y a := fun hs => not_resolves_of_starts hs hresolves
    simp [resolves_iff hresolves, hstarts, and_comm]
  | ends x e e' hresolves =>
    have hstarts : ¬ signalling.starts y a := fun hs => not_resolves_of_starts hs hresolves
    simp [resolves_iff hresolves, hstarts, and_comm]

theorem Observed.none_active (h : Observed rangeStart s a s')
    (hnone : s.episode = none → s.activeSignals = ∅) :
    s'.episode = none → s'.activeSignals = ∅ := by
  cases h with
  | nothing hstarts hresolves => exact hnone
  | begins => exact fun h => nomatch h
  | continues => exact fun h => nomatch h
  | leaves => exact fun h => nomatch h
  | ends x e e' hresolves hsome hat hclosed => exact fun _ => hclosed

theorem Observed.subset_recovered (h : Observed rangeStart s a s') :
    ∀ r ∈ s.recovered, r ∈ s'.recovered := by
  intro r hr
  cases h with
  | nothing | begins | continues | leaves => exact hr
  | ends =>
    dsimp only
    split
    · exact List.mem_append_left _ hr
    · exact hr

/-! ## What the loop holds -/

/-- The event at which an incident has recovered, one of the same container. -/
def EndedBy (r : RecoveredIncident) (b : MonitoringEvent) : Prop :=
  r.recoveredAt = b.occurredAt ∧ entityKey r.hostId r.containerName = b.key

/-- The loop has followed the events: it holds what is open after them, the episode began when the
span did, and the incidents it has told of are in order and cover what the episode does not. -/
structure Follows (rangeStart : ℤ) (l : List MonitoringEvent) (s : RecoveryLoop) : Prop where
  active : ∀ x, x ∈ s.activeSignals ↔ IsOpen signalling x l
  none_active : s.episode = none → s.activeSignals = ∅
  episode : ∀ e ∈ s.episode, SpanBegins signalling l e.startEvent ∧
    e.startedAt = e.startEvent.occurredAt
  past : ∀ r ∈ s.recovered, r.startedAt ≤ r.recoveredAt ∧ ∃ b ∈ l, EndedBy r b
  before : ∀ r ∈ s.recovered, ∀ e ∈ s.episode, r.recoveredAt ≤ e.startedAt
  ordered : s.recovered.Pairwise fun r r' => r.recoveredAt ≤ r'.startedAt
  covered : ∀ t x e, rangeStart ≤ t → e.occurredAt ≤ t →
    HeldFor signalling (t < ·.occurredAt) x l e →
      (∃ r ∈ s.recovered, r.startedAt ≤ t ∧ t < r.recoveredAt) ∨ ∃ e ∈ s.episode, e.startedAt ≤ t

/-- The same once the expected state of the next event is known. -/
structure Carries (rangeStart : ℤ) (l : List MonitoringEvent) (a : MonitoringEvent)
    (s : RecoveryLoop) : Prop where
  active : ∀ x, x ∈ s.activeSignals ↔
    ∃ e, OpenedBy signalling x l e ∧ a.expectedState = e.expectedState
  none_active : s.episode = none → s.activeSignals = ∅
  episode : ∀ e ∈ s.episode, (SpanBegins signalling l e.startEvent ∧
    e.startedAt = e.startEvent.occurredAt) ∧ a.expectedState = e.startEvent.expectedState
  past : ∀ r ∈ s.recovered, r.startedAt ≤ r.recoveredAt ∧ ∃ b ∈ l, EndedBy r b
  before : ∀ r ∈ s.recovered, ∀ e ∈ s.episode, r.recoveredAt ≤ e.startedAt
  ordered : s.recovered.Pairwise fun r r' => r.recoveredAt ≤ r'.startedAt
  covered : ∀ t x e, rangeStart ≤ t → e.occurredAt ≤ t →
    HeldFor signalling (t < ·.occurredAt) x l e → a.expectedState = e.expectedState →
      (∃ r ∈ s.recovered, r.startedAt ≤ t ∧ t < r.recoveredAt) ∨ ∃ e ∈ s.episode, e.startedAt ≤ t

/-- **A change of the expected state drops what belongs to the one before.** -/
theorem Follows.reset (h : Follows rangeStart l s)
    (hexpected : s.expectedState = l.getLast?.map (·.expectedState)) (a : MonitoringEvent) :
    Carries rangeStart l a (resetRecovery s a) := by
  have hphase : ∀ {P x e}, HeldFor signalling P x l e →
      (expectationChanges s.expectedState a = true ↔ a.expectedState ≠ e.expectedState) := by
    intro P x e he
    rw [hexpected]
    exact expectationChanges_iff he.phase_eq
  unfold resetRecovery
  split
  next hchange =>
    refine ⟨fun x => ?_, fun _ => rfl, by simp, h.past, by simp, h.ordered, ?_⟩
    · simp only [Finset.notMem_empty, false_iff, not_exists, not_and]
      exact fun e he => (hphase he).1 hchange
    · exact fun t x e _ _ he hsame => absurd hsame ((hphase he).1 hchange)
  next hchange =>
    have hsame : ∀ {P x e}, HeldFor signalling P x l e → a.expectedState = e.expectedState := by
      intro P x e he
      by_contra hne
      exact hchange ((hphase he).2 hne)
    refine ⟨fun x => ?_, h.none_active, fun e he => ⟨h.episode e he, ?_⟩, h.past, h.before,
      h.ordered, fun t x e hstart ht he _ => h.covered t x e hstart ht he⟩
    · rw [h.active]
      exact ⟨fun ⟨e, he⟩ => ⟨e, he, hsame he⟩, fun ⟨e, he, _⟩ => ⟨e, he⟩⟩
    · by_contra hne
      rw [hexpected] at hchange
      exact hchange ((expectationChanges_iff (h.episode e he).1.phase_eq).2 hne)

theorem Carries.startedAt_le (hs : Carries rangeStart l a s) (hsorted : Sorted (l ++ [a]))
    {e : OpenEpisode} (he : e ∈ s.episode) : e.startedAt ≤ a.occurredAt := by
  obtain ⟨⟨hbegins, hat⟩, -⟩ := hs.episode e he
  exact hat.trans_le (hsorted.le_last hbegins.mem)

/-- What has recovered has done so before the next event. -/
theorem Carries.recoveredAt_le (hs : Carries rangeStart l a s) (hsorted : Sorted (l ++ [a]))
    {r : RecoveredIncident} (hr : r ∈ s.recovered) : r.recoveredAt ≤ a.occurredAt := by
  obtain ⟨-, b, hb, hended⟩ := hs.past r hr
  exact hended.1.trans_le (hsorted.le_last hb)

section

variable (hs : Carries rangeStart l a s) (h : Observed rangeStart s a s')

include hs h

theorem Observed.active_iff (x : SignalName) :
    x ∈ s'.activeSignals ↔ IsOpen signalling x (l ++ [a]) := by
  rw [h.mem_activeSignals, hs.active]
  constructor
  · rintro (hstarts | ⟨⟨e, he, hphase⟩, hresolves⟩)
    · exact ⟨a, openedBy_concat.2 (Or.inl ⟨rfl, hstarts⟩)⟩
    · exact ⟨e, openedBy_concat.2 (Or.inr ⟨⟨he, hphase⟩, hresolves⟩)⟩
  · rintro ⟨e, he⟩
    rcases openedBy_concat.1 he with ⟨-, hstarts⟩ | ⟨⟨he, hphase⟩, hresolves⟩
    · exact Or.inl hstarts
    · exact Or.inr ⟨⟨e, he, hphase⟩, hresolves⟩

theorem Observed.episode_begins : ∀ e ∈ s'.episode,
    SpanBegins signalling (l ++ [a]) e.startEvent ∧ e.startedAt = e.startEvent.occurredAt := by
  -- an episode that goes on lasts as long as some signal is open
  have hkeep : ∀ {x e}, e ∈ s.episode → x ∈ s'.activeSignals →
      SpanBegins signalling (l ++ [a]) e.startEvent := fun he hx =>
    (hs.episode _ he).1.1.keep (hs.episode _ he).2 ((h.active_iff hs _).1 hx)
  intro b hb
  cases h with
  | nothing hstarts hresolves =>
    obtain ⟨x, o, ho⟩ := (hs.episode b hb).1.1.isOpen
    have hx : x ∈ s.activeSignals := by
      refine (hs.active x).2 ⟨o, ho, ?_⟩
      have hlast := ho.phase_eq.symm.trans (hs.episode b hb).1.1.phase_eq
      exact (hs.episode b hb).2.trans (Option.some.inj hlast).symm
    exact ⟨hkeep hb hx, (hs.episode b hb).1.2⟩
  | begins x e hstarts hnone hevent hat =>
    obtain rfl := Option.some.inj hb
    rw [hevent]
    refine ⟨spanBegins_concat (x := x) (fun y o ho hphase => ?_) hstarts, hat⟩
    have hy := (hs.active y).2 ⟨o, ho, hphase.symm⟩
    rw [hs.none_active hnone] at hy
    exact absurd hy (Finset.notMem_empty y)
  | continues x e e' hstarts hsome hevent hat =>
    obtain rfl := Option.some.inj hb
    rw [hevent, hat]
    exact ⟨hkeep hsome (Finset.mem_insert_self x _), (hs.episode e hsome).1.2⟩
  | leaves x e e' hresolves hsome hevent hat hopen =>
    obtain rfl := Option.some.inj hb
    obtain ⟨y, hy⟩ := hopen
    rw [hevent, hat]
    exact ⟨hkeep hsome hy, (hs.episode e hsome).1.2⟩
  | ends => exact absurd hb (by simp)

variable (hsorted : Sorted (l ++ [a]))

include hsorted

theorem Observed.past : ∀ r ∈ s'.recovered,
    r.startedAt ≤ r.recoveredAt ∧ ∃ b ∈ l ++ [a], EndedBy r b := by
  have hold : ∀ r ∈ s.recovered,
      r.startedAt ≤ r.recoveredAt ∧ ∃ b ∈ l ++ [a], EndedBy r b := by
    intro r hr
    obtain ⟨hvalid, b, hb, heq⟩ := hs.past r hr
    exact ⟨hvalid, b, List.mem_append_left _ hb, heq⟩
  cases h with
  | nothing | begins | continues | leaves => exact hold
  | ends x e e' hresolves hsome hat hclosed =>
    dsimp only
    split
    · intro r hr
      rcases List.mem_append.1 hr with hr | hr
      · exact hold r hr
      · obtain rfl := List.mem_singleton.1 hr
        exact ⟨hat.trans_le (hs.startedAt_le hsorted hsome), a, by simp, rfl, rfl⟩
    · exact hold

theorem Observed.before : ∀ r ∈ s'.recovered, ∀ e ∈ s'.episode, r.recoveredAt ≤ e.startedAt := by
  intro r hr b hb
  cases h with
  | nothing => exact hs.before r hr b hb
  | begins x e hstarts hnone hevent hat =>
    obtain rfl := Option.some.inj hb
    exact (hs.recoveredAt_le hsorted hr).trans_eq hat.symm
  | continues x e e' hstarts hsome hevent hat =>
    obtain rfl := Option.some.inj hb
    exact (hs.before r hr e hsome).trans_eq hat.symm
  | leaves x e e' hresolves hsome hevent hat hopen =>
    obtain rfl := Option.some.inj hb
    exact (hs.before r hr e hsome).trans_eq hat.symm
  | ends => exact absurd hb (by simp)

omit hsorted in
theorem Observed.ordered : s'.recovered.Pairwise fun r r' => r.recoveredAt ≤ r'.startedAt := by
  cases h with
  | nothing | begins | continues | leaves => exact hs.ordered
  | ends x e e' hresolves hsome hat hclosed =>
    dsimp only
    split
    · refine List.pairwise_append.2 ⟨hs.ordered, List.pairwise_singleton _ _, fun r hr r' hr' => ?_⟩
      obtain rfl := List.mem_singleton.1 hr'
      exact (hs.before r hr e hsome).trans_eq hat.symm
    · exact hs.ordered

/-- **What the episode covered is covered when it ends.** -/
theorem Observed.covered {e : MonitoringEvent} (hstart : rangeStart ≤ t) (ht : e.occurredAt ≤ t)
    (hheld : HeldFor signalling (t < ·.occurredAt) x (l ++ [a]) e) :
    (∃ r ∈ s'.recovered, r.startedAt ≤ t ∧ t < r.recoveredAt) ∨
      ∃ e ∈ s'.episode, e.startedAt ≤ t := by
  rcases heldFor_concat.1 hheld with ⟨rfl, hstarts⟩ | ⟨hheld, hphase, hlater⟩
  · cases h with
    | nothing hnot => exact absurd hstarts (hnot x)
    | begins y b _ hnone hevent hat => exact Or.inr ⟨b, rfl, hat.trans_le ht⟩
    | continues y b b' _ hsome hevent hat =>
      exact Or.inr ⟨b', rfl, (hat.trans_le (hs.startedAt_le hsorted hsome)).trans ht⟩
    | leaves y b b' hresolves => exact absurd hresolves (not_resolves_of_starts hstarts)
    | ends y b b' hresolves => exact absurd hresolves (not_resolves_of_starts hstarts)
  rcases hs.covered t x e hstart ht hheld hphase with ⟨r, hr, hrt⟩ | ⟨b, hb, hbt⟩
  · exact Or.inl ⟨r, h.subset_recovered r hr, hrt⟩
  cases h with
  | nothing => exact Or.inr ⟨b, hb, hbt⟩
  | begins y c hstarts hnone => rw [hnone] at hb; exact absurd hb (by simp)
  | continues y c c' hstarts hsome hevent hat =>
    obtain rfl := Option.some.inj (hsome.symm.trans hb)
    exact Or.inr ⟨c', rfl, hat.trans_le hbt⟩
  | leaves y c c' hresolves hsome hevent hat =>
    obtain rfl := Option.some.inj (hsome.symm.trans hb)
    exact Or.inr ⟨c', rfl, hat.trans_le hbt⟩
  | ends y c c' hresolves hsome hat hclosed =>
    obtain rfl := Option.some.inj (hsome.symm.trans hb)
    -- the signal was resolved by an earlier event, or it is the one this event resolves
    have hta : t < a.occurredAt := by
      rcases hheld.openedBy_or with hopened | ⟨b, hb, hlt⟩
      · have hx : x ∈ s.activeSignals := (hs.active x).2 ⟨e, hopened, hphase⟩
        have hxy : x = y := by
          by_contra hne
          have hmem := Finset.mem_erase.2 ⟨hne, hx⟩
          rw [hclosed] at hmem
          exact absurd hmem (Finset.notMem_empty x)
        exact hlater ((resolves_iff hresolves).2 hxy)
      · exact hlt.trans_le (hsorted.le_last hb)
    have hkept : a.occurredAt ≥ c.startedAt ∧ a.occurredAt ≥ rangeStart :=
      ⟨hs.startedAt_le hsorted hsome, (hstart.trans_lt hta).le⟩
    refine Or.inl ⟨recoveredIncident c' a, ?_, hat.trans_le hbt, hta⟩
    dsimp only
    rw [if_pos hkept]
    exact List.mem_append_right _ (List.mem_singleton_self _)

theorem Observed.follows : Follows rangeStart (l ++ [a]) s' where
  active := h.active_iff hs
  none_active := h.none_active hs.none_active
  episode := h.episode_begins hs
  past := h.past hs hsorted
  before := h.before hs hsorted
  ordered := h.ordered hs
  covered _ _ _ hstart ht hheld := h.covered hs hsorted hstart ht hheld

end

end

theorem recoveryLoop_concat (rangeStart : ℤ) (l : List MonitoringEvent) (a : MonitoringEvent) :
    recoveryLoop rangeStart (l ++ [a]) = recoveryStep rangeStart (recoveryLoop rangeStart l) a := by
  rw [recoveryLoop, List.foldl_append]
  rfl

theorem observeRecovery_expectedState (rangeStart : ℤ) (s : RecoveryLoop) (a : MonitoringEvent) :
    (observeRecovery rangeStart s a).expectedState = s.expectedState := by
  unfold observeRecovery
  cases signalName a with
  | none => rfl
  | some signal =>
    cases incidentSeverity a.severity with
    | some startSeverity => rfl
    | none =>
      cases s.episode with
      | none => rfl
      | some e =>
        dsimp only
        split
        · rfl
        · split <;> rfl

theorem recoveryLoop_expectedState (rangeStart : ℤ) (l : List MonitoringEvent) :
    (recoveryLoop rangeStart l).expectedState = l.getLast?.map (·.expectedState) := by
  cases l using List.reverseRecOn with
  | nil => rfl
  | append_singleton l a _ =>
    rw [recoveryLoop_concat, recoveryStep, observeRecovery_expectedState, List.getLast?_concat,
      resetRecovery]
    split <;> rfl

/-- **The loop over all signals follows the events.** -/
theorem follows (h : Sorted l) : Follows rangeStart l (recoveryLoop rangeStart l) := by
  induction l using List.reverseRecOn with
  | nil =>
    refine ⟨fun x => ?_, fun _ => rfl, ?_, ?_, ?_, List.Pairwise.nil, ?_⟩
    · simp [recoveryLoop, OpenSpans.IsOpen, OpenedBy]
    · exact fun e he => absurd he (by simp [recoveryLoop])
    · exact fun r hr => absurd hr (by simp [recoveryLoop])
    · exact fun r hr => absurd hr (by simp [recoveryLoop])
    · exact fun t x e _ _ he => absurd he not_heldFor_nil
  | append_singleton l a ih =>
    have hcarries := (ih h.front).reset (recoveryLoop_expectedState rangeStart l) a
    rw [recoveryLoop_concat, recoveryStep]
    exact (observed rangeStart _ a hcarries.none_active).follows hcarries h

end IvrmDashboard.Monitoring.Incidents

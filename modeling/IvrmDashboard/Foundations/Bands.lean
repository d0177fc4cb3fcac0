import Mathlib.Data.List.Induction
import IvrmDashboard.Foundations.AsOf

/-!
# What a timeline shows, drawn as bands

A fold over events shows something after each of them, or nothing. A program draws it: whenever what
is shown changes, it closes the band that is open and opens the next one. The bands that are closed
do not overlap, and at every instant they show what the fold over the events up to it shows, except
where the band lies that the last events have left open (`tells_drawn`).
-/

namespace Bands

open Runs

variable {α σ κ : Type*}

/-- A fold over events, and what its states show. -/
structure Timeline (α σ κ : Type*) where
  initial : σ
  step : σ → α → σ
  shows : σ → Option κ
  blank : shows initial = none

/-- Something is shown for a while. -/
structure Band (κ : Type*) where
  kind : κ
  start : ℤ
  finish : ℤ

/-- The instants of a band. -/
def Band.Covers (b : Band κ) (t : ℤ) : Prop := b.start ≤ t ∧ t < b.finish

/-- The state of the fold, the band that is open, and those that are closed. -/
structure Drawing (σ κ : Type*) where
  state : σ
  opened : Option (κ × ℤ)
  closed : List (Band κ)

variable (T : Timeline α σ κ) (time : α → ℤ)

/-- The state after some events. -/
def Timeline.after (l : List α) : σ := l.foldl T.step T.initial

/-- What is shown at an instant. -/
def shownAt (l : List α) (t : ℤ) : Option κ := T.shows (T.after (upTo time t l))

variable {T time} {l : List α} {a : α} {t : ℤ} {k : κ}

theorem after_concat : T.after (l ++ [a]) = T.step (T.after l) a := by
  rw [Timeline.after, List.foldl_append]
  rfl

/-! ## Up to an instant -/

theorem upTo_concat_of_lt (h : t < time a) (l : List α) :
    upTo time t (l ++ [a]) = upTo time t l := by
  induction l with
  | nil => simp [upTo, h]
  | cons b l ih =>
    simp only [upTo, List.cons_append, List.takeWhile_cons] at ih ⊢
    rw [ih]

theorem upTo_eq_self (h : ∀ b ∈ l, time b ≤ t) : upTo time t l = l := by
  rw [upTo, List.takeWhile_eq_self_iff]
  intro b hb
  exact decide_eq_true (h b hb)

/-- An event says nothing about the time before it. -/
theorem shownAt_concat_of_lt (h : t < time a) :
    shownAt T time (l ++ [a]) t = shownAt T time l t := by
  rw [shownAt, upTo_concat_of_lt h, shownAt]

/-- From the last event on it is shown what the last state shows. -/
theorem shownAt_concat_of_le (hl : Committed time (l ++ [a])) (h : time a ≤ t) :
    shownAt T time (l ++ [a]) t = T.shows (T.step (T.after l) a) := by
  have hlast : ∀ b ∈ l ++ [a], time b ≤ t := by
    intro b hb
    rcases List.mem_append.1 hb with hb | hb
    · exact ((List.pairwise_append.1 hl).2.2 b hb a (List.mem_singleton_self a)).trans h
    · rw [List.mem_singleton.1 hb]
      exact h
  rw [shownAt, upTo_eq_self hlast, after_concat]

/-! ## The drawing tells the timeline -/

variable (T time) in
/-- What the drawing tells of the events. -/
structure Tells (l : List α) (d : Drawing σ κ) : Prop where
  state : d.state = T.after l
  shows : d.opened.map Prod.fst = T.shows d.state
  /-- A band is opened by an event. -/
  since : ∀ o ∈ d.opened, ∃ b ∈ l, time b = o.2
  /-- What the open band shows is shown ever since. -/
  held : ∀ o ∈ d.opened, ∀ t, o.2 ≤ t → shownAt T time l t = some o.1
  covers : ∀ t k, (∃ b ∈ d.closed, b.kind = k ∧ b.Covers t) ↔
    shownAt T time l t = some k ∧ ∀ o ∈ d.opened, t < o.2
  apart : d.closed.Pairwise fun b b' => b.finish ≤ b'.start
  ended : ∀ b ∈ d.closed, (∃ c ∈ l, time c = b.finish) ∧ ∀ o ∈ d.opened, b.finish ≤ o.2

theorem tells_nil : Tells T time [] ⟨T.initial, none, []⟩ where
  state := rfl
  shows := T.blank.symm
  since := nofun
  held := nofun
  covers t k := by simp [shownAt, upTo, Timeline.after, T.blank]
  apart := .nil
  ended := nofun

variable {d : Drawing σ κ}

/-- The closed bands, and the open one where something lets it last, tell the timeline. -/
theorem Tells.covers_or (h : Tells T time l d) (p : Prop) :
    ((∃ b ∈ d.closed, b.kind = k ∧ b.Covers t) ∨ ∃ o ∈ d.opened, o.1 = k ∧ o.2 ≤ t ∧ p) ↔
      shownAt T time l t = some k ∧ ∀ o ∈ d.opened, o.2 ≤ t → p := by
  rw [h.covers]
  cases ho : d.opened with
  | none => simp
  | some o =>
    rcases lt_or_ge t o.2 with hlt | hle
    · simp [hlt, hlt.not_ge]
    · simp [h.held o ho t hle, hle, hle.not_gt]

/-- What is shown does not change. -/
theorem Tells.keep (h : Tells T time l d) (hl : Committed time (l ++ [a]))
    (hsame : T.shows d.state = T.shows (T.step d.state a)) :
    Tells T time (l ++ [a]) { d with state := T.step d.state a } := by
  have hlast : ∀ b ∈ l, time b ≤ time a := fun b hb =>
    (List.pairwise_append.1 hl).2.2 b hb a (List.mem_singleton_self a)
  have hshown (t : ℤ) : shownAt T time (l ++ [a]) t = shownAt T time l t := by
    rcases lt_or_ge t (time a) with hlt | hle
    · exact shownAt_concat_of_lt hlt
    · rw [shownAt_concat_of_le hl hle, ← h.state, ← hsame, shownAt,
        upTo_eq_self fun b hb => (hlast b hb).trans hle, h.state]
  refine ⟨?_, ?_, fun o ho => ?_, ?_, ?_, h.apart, fun b hb => ⟨?_, (h.ended b hb).2⟩⟩
  · rw [after_concat, h.state]
  · exact h.shows.trans hsame
  · obtain ⟨b, hb, htime⟩ := h.since o ho
    exact ⟨b, List.mem_append_left _ hb, htime⟩
  · simpa only [hshown] using h.held
  · simpa only [hshown] using h.covers
  · obtain ⟨c, hc, htime⟩ := (h.ended b hb).1
    exact ⟨c, List.mem_append_left _ hc, htime⟩

/-- Before the event the bands tell the timeline, once the open one is closed. -/
theorem Tells.covers_before (h : Tells T time l d) (ht : t < time a) :
    ((∃ b ∈ d.closed, b.kind = k ∧ b.Covers t) ∨
        ∃ o ∈ d.opened, o.1 = k ∧ o.2 ≤ t ∧ t < time a) ↔
      shownAt T time (l ++ [a]) t = some k := by
  rw [h.covers, shownAt_concat_of_lt ht]
  cases ho : d.opened with
  | none => simp
  | some o =>
    rcases lt_or_ge t o.2 with hlt | hle
    · simp [hlt, hlt.not_ge]
    · simp [h.held o ho t hle, hle, hle.not_gt, ht]

/-- From the event on no closed band covers anything. -/
theorem Tells.not_covers_after (h : Tells T time l d) (hlast : ∀ b ∈ l, time b ≤ time a)
    (ht : time a ≤ t) : ¬ ∃ b ∈ d.closed, b.kind = k ∧ b.Covers t := by
  rintro ⟨b, hb, -, hcovers⟩
  obtain ⟨c, hc, htime⟩ := (h.ended b hb).1
  exact absurd (htime ▸ (hlast c hc).trans ht) hcovers.2.not_ge

/-- What is shown changes, and the open band is closed. -/
theorem Tells.change (h : Tells T time l d) (hl : Committed time (l ++ [a])) :
    Tells T time (l ++ [a])
      { state := T.step d.state a
        opened := (T.shows (T.step d.state a)).map fun k => (k, time a)
        closed := d.closed ++ (d.opened.map fun o => ⟨o.1, o.2, time a⟩).toList } := by
  have hlast : ∀ b ∈ l, time b ≤ time a := fun b hb =>
    (List.pairwise_append.1 hl).2.2 b hb a (List.mem_singleton_self a)
  have hself : a ∈ l ++ [a] := List.mem_append_right _ (List.mem_singleton_self a)
  have hopened : ∀ o ∈ (T.shows (T.step d.state a)).map fun k => (k, time a),
      T.shows (T.step d.state a) = some o.1 ∧ o.2 = time a := by
    intro o ho
    obtain ⟨k, hk, rfl⟩ := Option.map_eq_some_iff.1 ho
    exact ⟨hk, rfl⟩
  have hclosed : ∀ b : Band κ, b ∈ d.closed ++ (d.opened.map fun o => ⟨o.1, o.2, time a⟩).toList ↔
      b ∈ d.closed ∨ ∃ o ∈ d.opened, b = ⟨o.1, o.2, time a⟩ := by
    intro b
    rw [List.mem_append, Option.mem_toList, Option.map_eq_some_iff]
    simp only [Option.mem_def, @eq_comm _ _ b]
  refine ⟨?_, ?_, fun o ho => ⟨a, hself, (hopened o ho).2.symm⟩, fun o ho t ht => ?_,
    fun t k => ?_, ?_, fun b hb => ?_⟩
  · rw [after_concat, h.state]
  · rw [Option.map_map]
    exact Option.map_id'
  · rw [shownAt_concat_of_le hl ((hopened o ho).2 ▸ ht), ← h.state]
    exact (hopened o ho).1
  · have hsplit : (∃ b ∈ d.closed ++ (d.opened.map fun o => ⟨o.1, o.2, time a⟩).toList,
        b.kind = k ∧ b.Covers t) ↔
        (∃ b ∈ d.closed, b.kind = k ∧ b.Covers t) ∨
          ∃ o ∈ d.opened, o.1 = k ∧ o.2 ≤ t ∧ t < time a := by
      simp only [hclosed, or_and_right, exists_or]
      refine or_congr_right ⟨?_, ?_⟩
      · rintro ⟨b, ⟨o, ho, rfl⟩, hk, hcovers⟩
        exact ⟨o, ho, hk, hcovers⟩
      · rintro ⟨o, ho, hk, hcovers⟩
        exact ⟨_, ⟨o, ho, rfl⟩, hk, hcovers⟩
    rw [hsplit]
    rcases lt_or_ge t (time a) with hlt | hle
    · rw [h.covers_before hlt]
      exact (and_iff_left fun o ho => (hopened o ho).2 ▸ hlt).symm
    · rw [shownAt_concat_of_le hl hle, ← h.state]
      refine iff_of_false ?_ fun ⟨hk, hbefore⟩ => ?_
      · rintro (hcovers | ⟨o, -, -, -, hlt⟩)
        · exact h.not_covers_after hlast hle hcovers
        · exact hlt.not_ge hle
      · exact (hbefore (k, time a) (by simp [hk])).not_ge hle
  · refine List.pairwise_append.2 ⟨h.apart, ?_, fun b hb b' hb' => ?_⟩
    · cases d.opened <;> simp
    · obtain ⟨o, ho, rfl⟩ := Option.map_eq_some_iff.1 (Option.mem_toList.1 hb')
      exact (h.ended b hb).2 o ho
  · rcases (hclosed b).1 hb with hb | ⟨o, -, rfl⟩
    · obtain ⟨c, hc, htime⟩ := (h.ended b hb).1
      refine ⟨⟨c, List.mem_append_left _ hc, htime⟩, fun o ho => ?_⟩
      rw [(hopened o ho).2, ← htime]
      exact hlast c hc
    · exact ⟨⟨a, hself, rfl⟩, fun o ho => (hopened o ho).2.ge⟩

section Draw

variable [DecidableEq κ]

variable (T time) in
/-- One event more. -/
def draw (d : Drawing σ κ) (a : α) : Drawing σ κ :=
  let state := T.step d.state a
  if T.shows d.state = T.shows state then { d with state }
  else
    { state
      opened := (T.shows state).map fun k => (k, time a)
      closed := d.closed ++ (d.opened.map fun o => ⟨o.1, o.2, time a⟩).toList }

variable (T time) in
/-- The drawing of a list of events. -/
def drawn (l : List α) : Drawing σ κ := l.foldl (draw T time) ⟨T.initial, none, []⟩

theorem draw_of_same (h : T.shows d.state = T.shows (T.step d.state a)) :
    draw T time d a = { d with state := T.step d.state a } :=
  if_pos h

theorem draw_of_ne (h : T.shows d.state ≠ T.shows (T.step d.state a)) :
    draw T time d a =
      { state := T.step d.state a
        opened := (T.shows (T.step d.state a)).map fun k => (k, time a)
        closed := d.closed ++ (d.opened.map fun o => ⟨o.1, o.2, time a⟩).toList } :=
  if_neg h

theorem Tells.draw (h : Tells T time l d) (hl : Committed time (l ++ [a])) :
    Tells T time (l ++ [a]) (draw T time d a) := by
  by_cases hsame : T.shows d.state = T.shows (T.step d.state a)
  · rw [draw_of_same hsame]
    exact h.keep hl hsame
  · rw [draw_of_ne hsame]
    exact h.change hl

/-- **The drawing of a timeline tells it.** -/
theorem tells_drawn (hl : Committed time l) : Tells T time l (drawn T time l) := by
  induction l using List.reverseRecOn with
  | nil => exact tells_nil
  | append_singleton l a ih =>
    rw [drawn, List.foldl_append]
    exact (ih (List.pairwise_append.1 hl).1).draw hl

end Draw

end Bands

import Mathlib.Data.List.Induction
import Mathlib.Data.Int.Order.Basic
import Mathlib.Order.Basic

/-!
# Observations told by their changes

Of a series of observations only the changes are kept, each with the value before and after it. The
changes form a chain, and whoever knows the first value finds every observation again by replaying
the changes up to its time (`Encodes`). One more observation keeps this when a change is kept exactly
if the value is another one than before (`Encodes.same`, `Encodes.change`).
-/

namespace DeltaEncoding

/-- A change of a value at a time. -/
structure Change (α : Type*) where
  time : ℤ
  old : α
  new : α

variable {α : Type*} {changes : List (Change α)} {observed : List (ℤ × α)} {c : Change α}
  {x₀ x : α} {t : ℤ}

/-- Every change starts from where the one before it ended, the first from `x₀`. -/
def IsChain (x₀ : α) : List (Change α) → Prop
  | [] => True
  | c :: changes => c.old = x₀ ∧ IsChain c.new changes

/-- The value after the changes. -/
def replay (x₀ : α) (changes : List (Change α)) : α := changes.foldl (fun _ c => c.new) x₀

/-- The changes up to a time. -/
def upTo (t : ℤ) (changes : List (Change α)) : List (Change α) := changes.filter (·.time ≤ t)

/-- The changes stand for the observations: they are a chain, and replaying them from the first
observation gives every observation at its time. -/
structure Encodes (observed : List (ℤ × α)) (changes : List (Change α)) : Prop where
  chain : ∀ o ∈ observed.head?, IsChain o.2 changes
  replays : ∀ o ∈ observed.head?, ∀ p ∈ observed, replay o.2 (upTo p.1 changes) = p.2
  timed : ∀ c ∈ changes, ∃ p ∈ observed, c.time = p.1

@[simp] theorem replay_nil (x₀ : α) : replay x₀ [] = x₀ := rfl

@[simp] theorem replay_concat (x₀ : α) (changes : List (Change α)) (c : Change α) :
    replay x₀ (changes ++ [c]) = c.new := by
  rw [replay, List.foldl_append]
  rfl

theorem isChain_concat :
    IsChain x₀ (changes ++ [c]) ↔ IsChain x₀ changes ∧ c.old = replay x₀ changes := by
  induction changes generalizing x₀ with
  | nil => simp [IsChain]
  | cons d changes ih =>
    rw [List.cons_append, IsChain, IsChain, ih, and_assoc]
    rfl

theorem upTo_eq_self (h : ∀ c ∈ changes, c.time ≤ t) : upTo t changes = changes :=
  List.filter_eq_self.2 fun c hc => decide_eq_true (h c hc)

theorem upTo_concat_of_lt (h : t < c.time) : upTo t (changes ++ [c]) = upTo t changes := by
  have hnone : [c].filter (·.time ≤ t) = [] :=
    List.filter_cons_of_neg (by simpa using h)
  rw [upTo, List.filter_append, hnone, List.append_nil]
  rfl

theorem encodes_nil : Encodes ([] : List (ℤ × α)) [] := ⟨by simp, by simp, by simp⟩

/-- The first observation changes nothing. -/
theorem encodes_first (t : ℤ) (x : α) : Encodes [(t, x)] [] where
  chain := fun _ _ => trivial
  replays := by simp [upTo]
  timed := by simp

namespace Encodes

/-- After the last change stands the last observation. -/
theorem replay_last (h : Encodes observed changes) {o p : ℤ × α} (ho : o ∈ observed.head?)
    (hp : p ∈ observed) (hlast : ∀ q ∈ observed, q.1 ≤ p.1) : replay o.2 changes = p.2 := by
  have hall : ∀ c ∈ changes, c.time ≤ p.1 := by
    intro c hc
    obtain ⟨q, hq, hcq⟩ := h.timed c hc
    exact hcq.trans_le (hlast q hq)
  have hreplay := h.replays o ho p hp
  rwa [upTo_eq_self hall] at hreplay

theorem head?_concat {o p : ℤ × α} (hp : p ∈ observed) :
    o ∈ (observed ++ [(t, x)]).head? ↔ o ∈ observed.head? := by
  cases observed with
  | nil => simp at hp
  | cons q observed => rfl

variable {p : ℤ × α} (h : Encodes observed changes) (hp : p ∈ observed)
  (hlast : ∀ q ∈ observed, q.1 ≤ p.1) (ht : p.1 < t)

include h hp hlast ht

/-- The value is the one before. -/
theorem same : Encodes (observed ++ [(t, p.2)]) changes where
  chain o ho := h.chain o ((head?_concat hp).1 ho)
  replays o ho q hq := by
    have ho := (head?_concat hp).1 ho
    rcases List.mem_append.1 hq with hq | hq
    · exact h.replays o ho q hq
    · obtain rfl := List.mem_singleton.1 hq
      rw [upTo_eq_self, h.replay_last ho hp hlast]
      intro c hc
      obtain ⟨r, hr, hcr⟩ := h.timed c hc
      exact (hcr.trans_le (hlast r hr)).trans ht.le
  timed c hc := by
    obtain ⟨q, hq, hcq⟩ := h.timed c hc
    exact ⟨q, List.mem_append_left _ hq, hcq⟩

/-- The value is another one, and the change is kept. -/
theorem change : Encodes (observed ++ [(t, x)]) (changes ++ [⟨t, p.2, x⟩]) where
  chain o ho := by
    have ho := (head?_concat hp).1 ho
    exact isChain_concat.2 ⟨h.chain o ho, (h.replay_last ho hp hlast).symm⟩
  replays o ho q hq := by
    have ho := (head?_concat hp).1 ho
    rcases List.mem_append.1 hq with hq | hq
    · rw [upTo_concat_of_lt ((hlast q hq).trans_lt ht)]
      exact h.replays o ho q hq
    · obtain rfl := List.mem_singleton.1 hq
      rw [upTo_eq_self, replay_concat]
      intro c hc
      rcases List.mem_append.1 hc with hc | hc
      · obtain ⟨r, hr, hcr⟩ := h.timed c hc
        exact (hcr.trans_le (hlast r hr)).trans ht.le
      · obtain rfl := List.mem_singleton.1 hc
        exact le_rfl
  timed c hc := by
    rcases List.mem_append.1 hc with hc | hc
    · obtain ⟨q, hq, hcq⟩ := h.timed c hc
      exact ⟨q, List.mem_append_left _ hq, hcq⟩
    · obtain rfl := List.mem_singleton.1 hc
      exact ⟨(t, x), by simp, rfl⟩

end Encodes

end DeltaEncoding

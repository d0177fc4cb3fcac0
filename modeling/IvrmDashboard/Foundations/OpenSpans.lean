import Mathlib.Data.List.Induction
import IvrmDashboard.Foundations.AsOf

/-!
# Signals that open and close

A list of events opens and closes signals, several of which can be open at once, and every event
belongs to a phase: when the phase changes, all signals are closed. A span begins with an event that
finds no signal open and lasts while any signal is. What is open after the last event is told here
without a loop; a program that keeps the open signals in a variable is compared with it event by
event (`heldFor_concat`, `SpanBegins.keep`, `spanBegins_concat`).
-/

namespace OpenSpans

open Runs

/-- What events do to signals, and the phase they belong to. -/
structure Signalling (α σ κ : Type*) where
  starts : σ → α → Prop
  resolves : σ → α → Prop
  phase : α → κ

variable {α σ κ : Type*} {S : Signalling α σ κ} {P : α → Prop} {time : α → ℤ} {l : List α} {a e e' : α} {x : σ}

/-- The event opens the signal, the phase lasts, and what resolves the signal later satisfies `P`. -/
def HeldFor (S : Signalling α σ κ) (P : α → Prop) (x : σ) (l : List α) (e : α) : Prop :=
  ∃ pre post, l = pre ++ e :: post ∧ S.starts x e ∧
    ∀ e' ∈ post, S.phase e' = S.phase e ∧ (S.resolves x e' → P e')

/-- The event opens the signal, which nothing resolves. -/
def OpenedBy (S : Signalling α σ κ) (x : σ) (l : List α) (e : α) : Prop :=
  HeldFor S (fun _ => False) x l e

/-- The signal is open after the last event. -/
def IsOpen (S : Signalling α σ κ) (x : σ) (l : List α) : Prop := ∃ e, OpenedBy S x l e

/-- A span begins with the event and has not ended: no signal of the phase is open before it, and
some signal is open ever after. -/
def SpanBegins (S : Signalling α σ κ) (l : List α) (e : α) : Prop :=
  ∃ pre post, l = pre ++ e :: post ∧ (∀ e' ∈ post, S.phase e' = S.phase e) ∧
    (∀ x o, OpenedBy S x pre o → S.phase o ≠ S.phase e) ∧
    ∀ p, p <+: post → ∃ x, IsOpen S x (pre ++ e :: p)

/-- At an instant some signal is open that belongs to the phase of the last event. -/
def OpenAt (S : Signalling α σ κ) (time : α → ℤ) (l : List α) (t : ℤ) : Prop :=
  ∃ x e, HeldFor S (fun e' => t < time e') x l e ∧ time e ≤ t

/-! ## One more event -/

@[simp] theorem not_heldFor_nil : ¬ HeldFor S P x [] e := by
  rintro ⟨pre, post, h, -⟩
  exact absurd h (by simp)

/-- **What holds a signal open after one more event.** -/
theorem heldFor_concat : HeldFor S P x (l ++ [a]) e ↔
    (e = a ∧ S.starts x a) ∨
      (HeldFor S P x l e ∧ S.phase a = S.phase e ∧ (S.resolves x a → P a)) := by
  constructor
  · rintro ⟨pre, post, h, hstarts, hpost⟩
    cases post using List.reverseRecOn with
    | nil =>
      obtain ⟨-, ha⟩ := List.append_inj' h rfl
      obtain rfl : a = e := by simpa using ha
      exact Or.inl ⟨rfl, hstarts⟩
    | append_singleton post b _ =>
      rw [← List.cons_append, ← List.append_assoc] at h
      obtain ⟨hl, hb⟩ := List.append_inj' h rfl
      obtain rfl : a = b := by simpa using hb
      refine Or.inr ⟨⟨pre, post, hl, hstarts, fun e' he' => ?_⟩, ?_⟩
      · exact hpost e' (List.mem_append_left _ he')
      · exact hpost a (by simp)
  · rintro (⟨rfl, hstarts⟩ | ⟨⟨pre, post, rfl, hstarts, hpost⟩, hphase, hresolves⟩)
    · exact ⟨l, [], rfl, hstarts, by simp⟩
    · refine ⟨pre, post ++ [a], by simp, hstarts, fun e' he' => ?_⟩
      rcases List.mem_append.1 he' with he' | he'
      · exact hpost e' he'
      · obtain rfl := List.mem_singleton.1 he'
        exact ⟨hphase, hresolves⟩

theorem openedBy_concat : OpenedBy S x (l ++ [a]) e ↔
    (e = a ∧ S.starts x a) ∨
      ((OpenedBy S x l e ∧ S.phase a = S.phase e) ∧ ¬ S.resolves x a) := by
  rw [OpenedBy, heldFor_concat, and_assoc]
  rfl

theorem HeldFor.mem (h : HeldFor S P x l e) : e ∈ l := by
  obtain ⟨pre, post, rfl, -⟩ := h
  simp

/-- When the phase lasts to the end, it is the last one. -/
theorem getLast?_map_phase {pre post : List α} (hpost : ∀ e' ∈ post, S.phase e' = S.phase e) :
    (pre ++ e :: post).getLast?.map S.phase = some (S.phase e) := by
  cases post using List.reverseRecOn with
  | nil => simp
  | append_singleton post b _ =>
    rw [← List.cons_append, ← List.append_assoc, List.getLast?_concat, Option.map_some,
      hpost b (by simp)]

/-- The phase of what holds a signal open is the last one. -/
theorem HeldFor.phase_eq (h : HeldFor S P x l e) : l.getLast?.map S.phase = some (S.phase e) := by
  obtain ⟨pre, post, rfl, -, hpost⟩ := h
  exact getLast?_map_phase fun e' he' => (hpost e' he').1

/-- A signal that was held open is open still, or was resolved as allowed. -/
theorem HeldFor.openedBy_or (h : HeldFor S P x l e) :
    OpenedBy S x l e ∨ ∃ e' ∈ l, P e' := by
  obtain ⟨pre, post, rfl, hstarts, hpost⟩ := h
  by_cases hresolved : ∃ e' ∈ post, S.resolves x e'
  · obtain ⟨e', he', hresolves⟩ := hresolved
    exact Or.inr ⟨e', by simp [he'], (hpost e' he').2 hresolves⟩
  · push Not at hresolved
    exact Or.inl ⟨pre, post, rfl, hstarts, fun e' he' =>
      ⟨(hpost e' he').1, fun hr => hresolved e' he' hr⟩⟩

theorem OpenedBy.heldFor (h : OpenedBy S x l e) : HeldFor S P x l e := by
  obtain ⟨pre, post, rfl, hstarts, hpost⟩ := h
  exact ⟨pre, post, rfl, hstarts, fun e' he' =>
    ⟨(hpost e' he').1, fun hr => ((hpost e' he').2 hr).elim⟩⟩

theorem HeldFor.append (h : HeldFor S P x l e) {q : List α}
    (hq : ∀ b ∈ q, S.phase b = S.phase e ∧ (S.resolves x b → P b)) :
    HeldFor S P x (l ++ q) e := by
  obtain ⟨pre, post, rfl, hstarts, hpost⟩ := h
  refine ⟨pre, post ++ q, by simp, hstarts, fun b hb => ?_⟩
  rcases List.mem_append.1 hb with hb | hb
  · exact hpost b hb
  · exact hq b hb

/-! ## Spans -/

/-- A span begins when a signal opens and none of its phase is open. -/
theorem spanBegins_concat (hnone : ∀ x o, OpenedBy S x l o → S.phase o ≠ S.phase a)
    (hstarts : S.starts x a) : SpanBegins S (l ++ [a]) a := by
  refine ⟨l, [], rfl, by simp, hnone, fun p hp => ⟨x, a, ?_⟩⟩
  obtain rfl := List.prefix_nil.1 hp
  exact openedBy_concat.2 (Or.inl ⟨rfl, hstarts⟩)

/-- A span lasts as long as the phase does and some signal is open. -/
theorem SpanBegins.keep (h : SpanBegins S l e) (hphase : S.phase a = S.phase e)
    (hopen : IsOpen S x (l ++ [a])) : SpanBegins S (l ++ [a]) e := by
  obtain ⟨pre, post, rfl, hpost, hpre, hever⟩ := h
  refine ⟨pre, post ++ [a], by simp, fun e' he' => ?_, hpre, fun p hp => ?_⟩
  · rcases List.mem_append.1 he' with he' | he'
    · exact hpost e' he'
    · obtain rfl := List.mem_singleton.1 he'
      exact hphase
  · rcases List.prefix_concat_iff.1 hp with rfl | hp
    · exact ⟨x, by simpa using hopen⟩
    · exact hever p hp

theorem SpanBegins.mem (h : SpanBegins S l e) : e ∈ l := by
  obtain ⟨pre, post, rfl, -⟩ := h
  simp

theorem SpanBegins.phase_eq (h : SpanBegins S l e) :
    l.getLast?.map S.phase = some (S.phase e) := by
  obtain ⟨pre, post, rfl, hpost, -⟩ := h
  exact getLast?_map_phase hpost

theorem SpanBegins.isOpen (h : SpanBegins S l e) : ∃ x, IsOpen S x l := by
  obtain ⟨pre, post, rfl, -, -, hever⟩ := h
  exact hever post (List.prefix_refl post)

/-- **While a span lasts some signal is open at every instant.** -/
theorem SpanBegins.openAt {t : ℤ} (h : SpanBegins S l e) (hsorted : Committed time l)
    (ht : time e ≤ t) : OpenAt S time l t := by
  obtain ⟨pre, post, rfl, hpost, -, hever⟩ := h
  obtain ⟨-, hafter, hbefore⟩ := List.pairwise_append.1 hsorted
  -- a signal that is open after the last event up to `t`
  obtain ⟨q, hsplit, hlater⟩ := exists_append (List.pairwise_cons.1 hafter).2 t
  obtain ⟨x, o, ho⟩ := hever (upTo time t post) ⟨q, hsplit.symm⟩
  have htime : time o ≤ t := by
    rcases List.mem_append.1 ho.mem with hmem | hmem
    · exact (hbefore o hmem e (by simp)).trans ht
    · rcases List.mem_cons.1 hmem with rfl | hmem
      · exact ht
      · exact clock_le_of_mem_upTo hmem
  have hphase : S.phase o = S.phase e := by
    have hlast := ho.phase_eq
    rw [getLast?_map_phase fun b hb => hpost b (hsplit ▸ List.mem_append_left q hb)] at hlast
    exact (Option.some.inj hlast).symm
  have hheld := (OpenedBy.heldFor (P := fun e' => t < time e') ho).append (q := q) fun b hb =>
    ⟨(hpost b (hsplit ▸ List.mem_append_right _ hb)).trans hphase.symm, fun _ => hlater b hb⟩
  refine ⟨x, o, ?_, htime⟩
  rwa [List.append_assoc, List.cons_append, ← hsplit] at hheld

/-- A span cannot begin while another one lasts. -/
theorem not_begins_within {pre p post' : List α}
    (hpost : ∀ b ∈ p ++ e' :: post', S.phase b = S.phase e)
    (hever : ∃ x, IsOpen S x (pre ++ e :: p))
    (hpre' : ∀ x o, OpenedBy S x (pre ++ e :: p) o → S.phase o ≠ S.phase e') : False := by
  obtain ⟨x, o, ho⟩ := hever
  have hlast := ho.phase_eq
  rw [getLast?_map_phase fun b hb => hpost b (List.mem_append_left _ hb)] at hlast
  refine hpre' x o ho ?_
  rw [← Option.some.inj hlast]
  exact (hpost e' (by simp)).symm

/-- **The span that lasts began with one event.** -/
theorem SpanBegins.unique (h : SpanBegins S l e) (h' : SpanBegins S l e') : e = e' := by
  obtain ⟨pre, post, rfl, hpost, hpre, hever⟩ := h
  obtain ⟨pre', post', heq, hpost', hpre', hever'⟩ := h'
  rcases List.append_eq_append_iff.1 heq with ⟨m, rfl, hm⟩ | ⟨m, rfl, hm⟩
  · cases m with
    | nil => exact (List.cons.inj hm).1
    | cons b p =>
      obtain ⟨rfl, rfl⟩ := List.cons.inj hm
      exact (not_begins_within hpost (hever p (List.prefix_append _ _)) hpre').elim
  · cases m with
    | nil => exact ((List.cons.inj hm).1).symm
    | cons b p =>
      obtain ⟨rfl, rfl⟩ := List.cons.inj hm
      exact (not_begins_within hpost' (hever' p (List.prefix_append _ _)) hpre).elim

end OpenSpans

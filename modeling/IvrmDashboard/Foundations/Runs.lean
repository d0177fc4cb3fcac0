import Mathlib.Data.List.Induction

/-!
# Runs of a deterministic machine

A run applies a list of calls to a state, one after the other. An invariant of the step is one of
the run (`run_invariant`), a reflexive and transitive relation between the states around every
step relates the ends of a run (`run_relation`), and a property lost along a run is lost at one of
its calls (`exists_leaving`).
-/

namespace Runs

variable {σ α : Type*} (step : σ → α → σ)

/-- The state after a list of calls. -/
def run (s : σ) (calls : List α) : σ := calls.foldl step s

variable {step}

@[simp] theorem run_nil (s : σ) : run step s [] = s := rfl

@[simp] theorem run_cons (s : σ) (a : α) (calls : List α) :
    run step s (a :: calls) = run step (step s a) calls := rfl

theorem run_append (s : σ) (front back : List α) :
    run step s (front ++ back) = run step (run step s front) back :=
  List.foldl_append

@[simp] theorem run_concat (s : σ) (calls : List α) (a : α) :
    run step s (calls ++ [a]) = step (run step s calls) a := by
  rw [run_append]
  rfl

theorem run_invariant {P : σ → Prop} (hstep : ∀ s a, P s → P (step s a)) {s : σ} (hs : P s)
    (calls : List α) : P (run step s calls) := by
  induction calls generalizing s with
  | nil => exact hs
  | cons a calls ih => exact ih (hstep s a hs)

/-- The calls may be known to meet a condition in the states they find. -/
theorem run_invariant_of {P : σ → Prop} {Q : σ → α → Prop}
    (hstep : ∀ s a, P s → Q s a → P (step s a)) {s : σ} {calls : List α}
    (hQ : ∀ front a back, calls = front ++ a :: back → Q (run step s front) a) (hs : P s) :
    P (run step s calls) := by
  induction calls generalizing s with
  | nil => exact hs
  | cons a calls ih =>
    apply ih
    · intro front b back h
      exact hQ (a :: front) b back (by rw [h, List.cons_append])
    · exact hstep s a hs (hQ [] a calls rfl)

/-- A condition on the calls of a run, one call after the other. -/
theorem forall_split_cons {P : List α → α → Prop} {a : α} {calls : List α} (ha : P [] a)
    (h : ∀ front b back, calls = front ++ b :: back → P (a :: front) b) :
    ∀ front b back, a :: calls = front ++ b :: back → P front b := by
  intro front b back hsplit
  cases front with
  | nil =>
    obtain ⟨rfl, -⟩ := List.cons.inj hsplit
    exact ha
  | cons c front =>
    obtain ⟨rfl, htail⟩ := List.cons.inj hsplit
    exact h front b back htail

theorem forall_split_nil {P : List α → α → Prop} :
    ∀ front b back, [] = front ++ b :: back → P front b :=
  fun _ _ _ h => absurd h.symm (List.append_ne_nil_of_right_ne_nil _ (List.cons_ne_nil _ _))

/-- The relation may use an invariant of the states it starts from. -/
theorem run_relation {P : σ → Prop} {R : σ → σ → Prop} (hP : ∀ s a, P s → P (step s a))
    (hrefl : ∀ s, R s s) (htrans : ∀ s t u, R s t → R t u → R s u)
    (hstep : ∀ s a, P s → R s (step s a)) {s : σ} (hs : P s) (calls : List α) :
    R s (run step s calls) := by
  induction calls generalizing s with
  | nil => exact hrefl s
  | cons a calls ih => exact htrans _ _ _ (hstep s a hs) (ih (hP s a hs))

variable (step) in
/-- How many calls of a run satisfy `p` in the state they find. -/
def count (p : σ → α → Bool) (s : σ) : List α → ℕ
  | [] => 0
  | a :: calls => (if p s a then 1 else 0) + count p (step s a) calls

theorem count_concat (p : σ → α → Bool) (s : σ) (calls : List α) (a : α) :
    count step p s (calls ++ [a]) =
      count step p s calls + if p (run step s calls) a then 1 else 0 := by
  induction calls generalizing s with
  | nil => exact Nat.add_comm _ 0
  | cons b calls ih => rw [List.cons_append, count, count, ih, Nat.add_assoc, run_cons]

/-- An invariant that knows how many calls have satisfied `p`. -/
theorem run_count {p : σ → α → Bool} {P : ℕ → σ → Prop}
    (hother : ∀ n s a, P n s → p s a = false → P n (step s a))
    (hcount : ∀ n s a, P n s → p s a = true → P (n + 1) (step s a)) {s : σ} (hs : P 0 s)
    (calls : List α) : P (count step p s calls) (run step s calls) := by
  suffices h : ∀ n s, P n s → P (n + count step p s calls) (run step s calls) by
    have h0 := h 0 s hs
    rwa [Nat.zero_add] at h0
  induction calls with
  | nil => exact fun n s hs => hs
  | cons a calls ih =>
    intro n s hs
    rw [count, ← Nat.add_assoc]
    cases hp : p s a with
    | false => exact ih n (step s a) (hother n s a hs hp)
    | true => exact ih (n + 1) (step s a) (hcount n s a hs hp)

variable (step) in
/-- What the calls of a run leave behind, each in the state it finds. -/
def trace {β : Type*} (emit : σ → α → List β) (s : σ) : List α → List β
  | [] => []
  | a :: calls => emit s a ++ trace emit (step s a) calls

theorem trace_concat {β : Type*} (emit : σ → α → List β) (s : σ) (calls : List α) (a : α) :
    trace step emit s (calls ++ [a]) = trace step emit s calls ++ emit (run step s calls) a := by
  induction calls generalizing s with
  | nil => exact List.append_nil (emit s a)
  | cons b calls ih => rw [List.cons_append, trace, trace, ih, List.append_assoc, run_cons]

/-- An invariant that knows what the calls have left behind. -/
theorem run_trace {β : Type*} {emit : σ → α → List β} {P : List β → σ → Prop}
    (hstep : ∀ l s a, P l s → P (l ++ emit s a) (step s a)) {s : σ} (hs : P [] s)
    (calls : List α) : P (trace step emit s calls) (run step s calls) := by
  induction calls using List.reverseRecOn with
  | nil => exact hs
  | append_singleton calls a ih =>
    rw [trace_concat, run_concat]
    exact hstep _ _ a ih

theorem exists_leaving {P : σ → Prop} {s : σ} {calls : List α} (hs : P s)
    (h : ¬ P (run step s calls)) :
    ∃ front a back, calls = front ++ a :: back ∧ P (run step s front) ∧
      ¬ P (step (run step s front) a) := by
  induction calls generalizing s with
  | nil => exact absurd hs h
  | cons a calls ih =>
    by_cases ha : P (step s a)
    · obtain ⟨front, b, back, rfl, hfront, hb⟩ := ih ha h
      exact ⟨a :: front, b, back, rfl, hfront, hb⟩
    · exact ⟨[], a, calls, rfl, hs, ha⟩

end Runs

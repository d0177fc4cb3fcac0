import Mathlib.Data.List.Induction

/-!
# Scripts that may be stopped

A script runs one command after the other on a state `σ`. What the world does at a command (what
it answers, whether it fails, whether a signal arrives first) is a choice in `ω`. The choices of a
run form a stream, and every command takes the next one. A script runs to its end, leaves early
with an exit code, or is killed; `onExit` is the shell's exit trap, which follows a body that ran
to its end or left, and not one that was killed.

`wp m Q E s` says where `m` can take the state `s`, whatever the world does: to `Q` at its end and
to `E` where it is stopped. The rules below follow the shape of the script (`wp_bind`, `wp_onExit`)
and take one choice at a command (`wp_act`).

The second part is about the record of a run. `Since p P l` says that `P` holds of what the record
`l` has after each entry of `p`; `since_concat` is what one more entry does to it.
-/

namespace Shell

/-- How a script ends. -/
inductive Ending (α : Type*)
  | done (a : α)
  | exited (code : ℕ)
  | killed
  deriving DecidableEq

/-- A script that yields a value in `α`. It is given the stream of choices and the place of the
next one, which it returns with its ending and the state it leaves. -/
def Script (ω σ α : Type*) := (ℕ → ω) → ℕ → σ → Ending α × ℕ × σ

variable {ω σ α β : Type}

namespace Script

protected def pure (a : α) : Script ω σ α := fun _ n s => (.done a, n, s)

protected def bind (m : Script ω σ α) (f : α → Script ω σ β) : Script ω σ β := fun env n s =>
  match m env n s with
  | (.done a, n', s') => f a env n' s'
  | (.exited code, n', s') => (.exited code, n', s')
  | (.killed, n', s') => (.killed, n', s')

instance : Monad (Script ω σ) where
  pure := Script.pure
  bind := Script.bind

/-- A command: it takes the next choice. -/
def act (f : ω → σ → Ending α × σ) : Script ω σ α := fun env n s =>
  ((f (env n) s).1, n + 1, (f (env n) s).2)

/-- An assignment, which no choice enters. -/
def modify (f : σ → σ) : Script ω σ Unit := fun _ n s => (.done (), n, f s)

/-- Reading the state. -/
def read (f : σ → α) : Script ω σ α := fun _ n s => (.done (f s), n, s)

/-- The exit trap `trap` follows `body`, with the code it ended with. -/
def onExit (body : Script ω σ ℕ) (trap : ℕ → Script ω σ ℕ) : Script ω σ ℕ := fun env n s =>
  match body env n s with
  | (.done code, n', s') => trap code env n' s'
  | (.exited code, n', s') => trap code env n' s'
  | (.killed, n', s') => (.killed, n', s')

end Script

open Script

/-! ## Weakest preconditions -/

/-- `Q` for a script that ran to its end and `E` for one that was stopped: with the code it left
with, or with none where it was killed. -/
def Post (Q : α → σ → Prop) (E : Option ℕ → σ → Prop) : Ending α → σ → Prop
  | .done a => Q a
  | .exited code => E (some code)
  | .killed => E none

/-- Wherever `m` takes `s`, `Post Q E` holds. -/
def wp (m : Script ω σ α) (Q : α → σ → Prop) (E : Option ℕ → σ → Prop) (s : σ) : Prop :=
  ∀ env n, Post Q E (m env n s).1 (m env n s).2.2

variable {Q Q' : α → σ → Prop} {E E' : Option ℕ → σ → Prop} {s : σ}

theorem Post.mono {r : Ending α} (hQ : ∀ a s, Q a s → Q' a s) (hE : ∀ o s, E o s → E' o s)
    (h : Post Q E r s) : Post Q' E' r s := by
  cases r with
  | done a => exact hQ a s h
  | exited code => exact hE _ s h
  | killed => exact hE _ s h

theorem wp.mono {m : Script ω σ α} (h : wp m Q E s) (hQ : ∀ a s, Q a s → Q' a s)
    (hE : ∀ o s, E o s → E' o s) : wp m Q' E' s :=
  fun env n => Post.mono hQ hE (h env n)

theorem wp_pure {a : α} (h : Q a s) : wp (pure a : Script ω σ α) Q E s :=
  fun _ _ => h

theorem wp_bind {m : Script ω σ α} {f : α → Script ω σ β} {Q : β → σ → Prop}
    (h : wp m (fun a s => wp (f a) Q E s) E s) : wp (m >>= f) Q E s := by
  intro env n
  have hm := h env n
  change Post Q E (Script.bind m f env n s).1 (Script.bind m f env n s).2.2
  unfold Script.bind
  generalize m env n s = outcome at hm ⊢
  obtain ⟨r, n', s'⟩ := outcome
  cases r with
  | done a => exact hm env n'
  | exited code => exact hm
  | killed => exact hm

theorem wp_act {f : ω → σ → Ending α × σ} (h : ∀ w, Post Q E (f w s).1 (f w s).2) :
    wp (act f) Q E s :=
  fun env n => h (env n)

theorem wp_modify {f : σ → σ} {Q : Unit → σ → Prop} (h : Q () (f s)) :
    wp (modify f : Script ω σ Unit) Q E s :=
  fun _ _ => h

theorem wp_read {f : σ → α} (h : Q (f s) s) : wp (read f : Script ω σ α) Q E s :=
  fun _ _ => h

theorem wp_ite {c : Prop} [Decidable c] {m m' : Script ω σ α} (ht : c → wp m Q E s)
    (he : ¬ c → wp m' Q E s) : wp (if c then m else m') Q E s := by
  by_cases h : c
  · rw [if_pos h]
    exact ht h
  · rw [if_neg h]
    exact he h

theorem wp.and {m : Script ω σ α} (h : wp m Q E s) (h' : wp m Q' E' s) :
    wp m (fun a s => Q a s ∧ Q' a s) (fun o s => E o s ∧ E' o s) s := by
  intro env n
  have hm := h env n
  have hm' := h' env n
  generalize m env n s = outcome at hm hm' ⊢
  obtain ⟨r, n', s'⟩ := outcome
  cases r with
  | done a => exact ⟨hm, hm'⟩
  | exited code => exact ⟨hm, hm'⟩
  | killed => exact ⟨hm, hm'⟩

/-- The trap meets its precondition wherever the body can leave it. -/
theorem wp_onExit {body : Script ω σ ℕ} {trap : ℕ → Script ω σ ℕ} {Q : ℕ → σ → Prop}
    (Leave : ℕ → σ → Prop) (hbody : wp body Leave (fun o s => o.elim (E none s) (Leave · s)) s)
    (htrap : ∀ code s, Leave code s → wp (trap code) Q E s) : wp (onExit body trap) Q E s := by
  intro env n
  have hb := hbody env n
  unfold onExit
  generalize body env n s = outcome at hb ⊢
  obtain ⟨r, n', s'⟩ := outcome
  cases r with
  | done code => exact htrap code s' hb env n'
  | exited code => exact htrap code s' hb env n'
  | killed => exact hb

/-! ## The record of a run -/

section Record

variable {ε : Type*} {p : ε → Prop} {P P' : List ε → Prop} {l tail : List ε} {e : ε}

/-- `P` holds of what follows each entry of `p`. -/
def Since (p : ε → Prop) (P : List ε → Prop) (l : List ε) : Prop :=
  ∀ front e back, l = front ++ e :: back → p e → P back

theorem Since.mono (h : Since p P l) (hP : ∀ back, P back → P' back) : Since p P' l :=
  fun front e back hl he => hP back (h front e back hl he)

theorem since_of_forall (hP : ∀ back, P back) : Since p P l :=
  fun _ _ back _ _ => hP back

theorem since_of_none (h : ∀ e ∈ l, ¬ p e) : Since p P l := by
  rintro front e back rfl he
  exact absurd he (h e (List.mem_append_right _ List.mem_cons_self))

theorem since_concat :
    Since p P (l ++ [e]) ↔ (p e → P []) ∧ Since p (fun back => P (back ++ [e])) l := by
  constructor
  · intro h
    refine ⟨h l e [] rfl, fun front d back hl hd => ?_⟩
    exact h front d (back ++ [e]) (by rw [hl, List.append_assoc, List.cons_append]) hd
  · rintro ⟨hlast, hbefore⟩ front d back hl hd
    induction back using List.reverseRecOn with
    | nil =>
      obtain ⟨-, h⟩ := List.append_inj' hl rfl
      obtain ⟨rfl, -⟩ := List.cons.inj h
      exact hlast hd
    | append_singleton back b _ =>
      rw [← List.cons_append, ← List.append_assoc] at hl
      obtain ⟨hl', h⟩ := List.append_inj' hl rfl
      obtain ⟨rfl, -⟩ := List.cons.inj h
      exact hbefore front d back hl' hd

/-- An entry that is not of `p` and takes no `P` away. -/
theorem Since.concat (h : Since p P l) (he : ¬ p e) (hP : ∀ back, P back → P (back ++ [e])) :
    Since p P (l ++ [e]) :=
  since_concat.mpr ⟨fun hp => absurd hp he, h.mono hP⟩

/-- An entry that is not of `p` and brings `P` about. -/
theorem since_concat_of_forall (he : ¬ p e) (hP : ∀ back, P (back ++ [e])) :
    Since p P (l ++ [e]) :=
  since_concat.mpr ⟨fun hp => absurd hp he, since_of_forall hP⟩

end Record

/-! ## What a script records -/

section Records

variable {ε : Type*} {rec : σ → List ε} {K K' : ε → Prop}

/-- `s'` has the record of `s` and then entries of `K` only. -/
def Grown (rec : σ → List ε) (K : ε → Prop) (s s' : σ) : Prop :=
  ∃ tail, rec s' = rec s ++ tail ∧ ∀ e ∈ tail, K e

theorem Grown.of_eq {s' : σ} (h : rec s' = rec s) : Grown rec K s s' :=
  ⟨[], by rw [h, List.append_nil], List.forall_mem_nil K⟩

theorem Grown.of_concat {s' : σ} {e : ε} (h : rec s' = rec s ++ [e]) (he : K e) :
    Grown rec K s s' :=
  ⟨[e], h, List.forall_mem_singleton.mpr he⟩

theorem Grown.trans {s' s'' : σ} (h : Grown rec K s s') (h' : Grown rec K s' s'') :
    Grown rec K s s'' := by
  obtain ⟨tail, hrec, htail⟩ := h
  obtain ⟨tail', hrec', htail'⟩ := h'
  exact ⟨tail ++ tail', by rw [hrec', hrec, List.append_assoc],
    List.forall_mem_append.mpr ⟨htail, htail'⟩⟩

/-- A property that survives each entry of `K` survives a growth. -/
theorem Grown.keeps {P : List ε → Prop} (hP : ∀ l e, P l → K e → P (l ++ [e])) {s' : σ}
    (h : Grown rec K s s') (hs : P (rec s)) : P (rec s') := by
  obtain ⟨tail, hrec, htail⟩ := h
  rw [hrec]
  clear hrec
  induction tail using List.reverseRecOn with
  | nil => rwa [List.append_nil]
  | append_singleton tail e ih =>
    rw [List.forall_mem_append, List.forall_mem_singleton] at htail
    rw [← List.append_assoc]
    exact hP _ e (ih htail.1) htail.2

/-- Wherever `m` takes a state, it adds entries of `K` only to its record. -/
def Records (rec : σ → List ε) (K : ε → Prop) (m : Script ω σ α) : Prop :=
  ∀ s, wp m (fun _ => Grown rec K s) (fun _ => Grown rec K s) s

theorem Records.wp {m : Script ω σ α} (h : Records rec K m)
    (hQ : ∀ a s', Grown rec K s s' → Q a s') (hE : ∀ o s', Grown rec K s s' → E o s') :
    wp m Q E s :=
  (h s).mono hQ hE

theorem records_pure (a : α) : Records rec K (pure a : Script ω σ α) :=
  fun _ => wp_pure (Grown.of_eq rfl)

theorem records_read (f : σ → α) : Records rec K (read f : Script ω σ α) :=
  fun _ => wp_read (Grown.of_eq rfl)

theorem records_modify {f : σ → σ} (h : ∀ s, Grown rec K s (f s)) :
    Records rec K (modify f : Script ω σ Unit) :=
  fun s => wp_modify (h s)

theorem Records.bind {m : Script ω σ α} {f : α → Script ω σ β} (hm : Records rec K m)
    (hf : ∀ a, Records rec K (f a)) : Records rec K (m >>= f) := by
  intro s
  apply wp_bind
  apply (hm s).mono
  · exact fun a s' h => (hf a).wp (fun _ _ => h.trans) (fun _ _ => h.trans)
  · exact fun _ _ h => h

theorem Records.ite {c : Prop} [Decidable c] {m m' : Script ω σ α} (hm : Records rec K m)
    (hm' : Records rec K m') : Records rec K (if c then m else m') := by
  split
  · exact hm
  · exact hm'

theorem Records.onExit {body : Script ω σ ℕ} {trap : ℕ → Script ω σ ℕ} (hbody : Records rec K body)
    (htrap : ∀ code, Records rec K (trap code)) : Records rec K (onExit body trap) := by
  intro s
  apply wp_onExit (fun _ => Grown rec K s)
  · apply (hbody s).mono (fun _ _ h => h)
    intro o s' h
    cases o with
    | none => exact h
    | some code => exact h
  · exact fun code s' h => (htrap code).wp (fun _ _ => h.trans) (fun _ _ => h.trans)

end Records

end Shell

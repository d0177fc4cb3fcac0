import Mathlib.Data.List.Basic

/-!
# Functions that throw

A function of JavaScript that may throw an `Error` returns a value or the message of the error. A
sequence returns when all of its parts do (`bind_eq_ok`), and `map` over a list returns when every
item is accepted (`mapM_eq_ok`).
-/

namespace Js

variable {α β γ : Type}

/-- `if (b) throw new Error(message);` -/
def throwIf (b : Bool) (message : String) : Except String Unit :=
  if b then .error message else .ok ()

/-- The value, if it is there. -/
def orThrow (o : Option α) (message : String) : Except String α :=
  match o with
  | some a => .ok a
  | none => .error message

@[simp] theorem throwIf_eq_ok {b : Bool} {message : String} {u : Unit} :
    throwIf b message = .ok u ↔ b = false := by
  cases b <;> simp [throwIf]

@[simp] theorem orThrow_eq_ok {o : Option α} {message : String} {a : α} :
    orThrow o message = .ok a ↔ o = some a := by
  cases o <;> simp [orThrow]

theorem bind_eq_ok {x : Except String α} {f : α → Except String β} {b : β} :
    (x >>= f) = .ok b ↔ ∃ a, x = .ok a ∧ f a = .ok b := by
  cases x <;> simp [bind, Except.bind]

@[simp] theorem pure_eq_ok {a b : α} : (pure a : Except String α) = .ok b ↔ a = b :=
  ⟨Except.ok.inj, congrArg _⟩

/-- **Every item is accepted**, and becomes what the function makes of it. -/
theorem mapM_eq_ok {f : β → Except String γ} {g : α → β} {P : α → Prop} {r : α → γ} {l : List α}
    (h : ∀ a ∈ l, ∀ c, f (g a) = .ok c ↔ P a ∧ c = r a) (cs : List γ) :
    (l.map g).mapM f = .ok cs ↔ (∀ a ∈ l, P a) ∧ cs = l.map r := by
  induction l generalizing cs with
  | nil =>
    rw [List.map_nil, List.mapM_nil, pure_eq_ok]
    simp [eq_comm]
  | cons a l ih =>
    have ih := ih fun b hb => h b (List.mem_cons_of_mem a hb)
    rw [List.map_cons, List.mapM_cons, bind_eq_ok, List.forall_mem_cons, List.map_cons]
    constructor
    · rintro ⟨c, hc, hrest⟩
      obtain ⟨cs', hcs', hpure⟩ := bind_eq_ok.1 hrest
      obtain ⟨ha, rfl⟩ := (h a List.mem_cons_self c).1 hc
      obtain ⟨hl, rfl⟩ := (ih cs').1 hcs'
      exact ⟨⟨ha, hl⟩, (pure_eq_ok.1 hpure).symm⟩
    · rintro ⟨⟨ha, hl⟩, rfl⟩
      refine ⟨r a, (h a List.mem_cons_self _).2 ⟨ha, rfl⟩, bind_eq_ok.2 ⟨l.map r, ?_, rfl⟩⟩
      exact (ih _).2 ⟨hl, rfl⟩

end Js

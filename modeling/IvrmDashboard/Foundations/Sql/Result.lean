import IvrmDashboard.Foundations.Sql.Logic

/-!
# Results of a database function

A call either commits, with its result and the new tables, or aborts with an error and leaves the
tables as they were. The errors are what the caller sees: an exception raised by the function
with its message and `errcode`, or a constraint of a table.
-/

namespace Sql

/-- Why a call aborted. -/
inductive DbError
  | raised (message errcode : String)
  | notNullViolation (column : String)
  | checkViolation (constraint : String)
  | foreignKeyViolation (constraint : String)
  | uniqueViolation (index : String)
  deriving DecidableEq

instance {α : Type} [DecidableEq α] : DecidableEq (Except DbError α)
  | .ok a, .ok b => decidable_of_iff (a = b) (by simp)
  | .error e, .error f => decidable_of_iff (e = f) (by simp)
  | .ok _, .error _ => isFalse nofun
  | .error _, .ok _ => isFalse nofun

section

variable {α β : Type}

/-- `if b then raise e; end if;` -/
def raiseIf (b : Bool) (e : DbError) : Except DbError Unit := if b then .error e else .ok ()

/-- The value of a parameter or a row that has to be there. -/
def orRaise (o : Option α) (e : DbError) : Except DbError α :=
  match o with
  | some a => .ok a
  | none => .error e

/-- The `CHECK` constraints of a row, by name; the first that fails is reported. -/
def checkAll : List (String × Bool) → Except DbError Unit
  | [] => .ok ()
  | (name, ok) :: checks => if ok then checkAll checks else .error (.checkViolation name)

@[simp] theorem raiseIf_eq_ok {b : Bool} {e : DbError} {u : Unit} :
    raiseIf b e = .ok u ↔ b = false := by
  cases b <;> simp [raiseIf]

@[simp] theorem raiseIf_eq_error {b : Bool} {e e' : DbError} :
    raiseIf b e = .error e' ↔ b = true ∧ e = e' := by
  cases b <;> simp [raiseIf]

@[simp] theorem orRaise_eq_ok {o : Option α} {e : DbError} {a : α} :
    orRaise o e = .ok a ↔ o = some a := by
  cases o <;> simp [orRaise]

@[simp] theorem orRaise_eq_error {o : Option α} {e e' : DbError} :
    orRaise o e = .error e' ↔ o = none ∧ e = e' := by
  cases o <;> simp [orRaise]

@[simp] theorem checkAll_eq_ok {checks : List (String × Bool)} {u : Unit} :
    checkAll checks = .ok u ↔ ∀ c ∈ checks, c.2 = true := by
  induction checks with
  | nil => simp [checkAll]
  | cons c checks ih =>
    obtain ⟨name, ok⟩ := c
    cases ok <;> simp [checkAll, ih]

theorem checkAll_eq_error {checks : List (String × Bool)} {e : DbError}
    (h : checkAll checks = .error e) : ∃ name, e = .checkViolation name := by
  induction checks with
  | nil => simp [checkAll] at h
  | cons c checks ih =>
    obtain ⟨name, ok⟩ := c
    cases ok
    · exact ⟨name, by simpa [checkAll] using h.symm⟩
    · exact ih (by simpa [checkAll] using h)

/-- A sequence commits when both parts do. -/
theorem bind_eq_ok {x : Except DbError α} {f : α → Except DbError β} {b : β} :
    (x >>= f) = .ok b ↔ ∃ a, x = .ok a ∧ f a = .ok b := by
  cases x <;> simp [bind, Except.bind]

/-- A sequence aborts in its first part, or in its second after the first. -/
theorem bind_eq_error {x : Except DbError α} {f : α → Except DbError β} {e : DbError} :
    (x >>= f) = .error e ↔ x = .error e ∨ ∃ a, x = .ok a ∧ f a = .error e := by
  cases x <;> simp [bind, Except.bind]

theorem map_eq_ok {x : Except DbError α} {f : α → β} {b : β} :
    x.map f = .ok b ↔ ∃ a, x = .ok a ∧ f a = b := by
  cases x <;> simp [Except.map]

@[simp] theorem pure_eq_ok {a b : α} : (pure a : Except DbError α) = .ok b ↔ a = b :=
  ⟨Except.ok.inj, congrArg _⟩

/-! ## Whether a computation commits -/

/-- The computation commits. -/
def Commits (x : Except DbError α) : Prop := ∃ a, x = .ok a

theorem commits_ok (a : α) : Commits (.ok a) := ⟨a, rfl⟩

theorem commits_pure (a : α) : Commits (pure a) := ⟨a, rfl⟩

theorem not_commits_error (e : DbError) : ¬ Commits (.error e : Except DbError α) := nofun

/-- A sequence whose first part commits. -/
theorem commits_bind {x : Except DbError α} {f : α → Except DbError β} {a : α} (hx : x = .ok a) :
    Commits (x >>= f) ↔ Commits (f a) := by
  rw [hx]
  rfl

/-- A sequence whose second part always commits. -/
theorem commits_bind_of_forall {x : Except DbError α} {f : α → Except DbError β}
    (hf : ∀ a, Commits (f a)) : Commits (x >>= f) ↔ Commits x := by
  cases x with
  | error e => exact iff_of_false nofun nofun
  | ok a => exact iff_of_true (hf a) (commits_ok a)

/-! ## How a computation fails -/

/-- Every error the computation can end in satisfies `P`. -/
def Fails (P : DbError → Prop) (x : Except DbError α) : Prop := ∀ e, x = .error e → P e

section

variable {P : DbError → Prop}

theorem Fails.mono {Q : DbError → Prop} {x : Except DbError α} (hPQ : ∀ e, P e → Q e)
    (h : Fails P x) : Fails Q x :=
  fun e he => hPQ e (h e he)

theorem fails_ok (a : α) : Fails P (.ok a) := fun _ h => nomatch h

theorem fails_pure (a : α) : Fails P (pure a) := fails_ok a

theorem fails_error {e : DbError} (h : P e) : Fails P (.error e : Except DbError α) := by
  rintro _ ⟨⟩
  exact h

theorem fails_raiseIf {b : Bool} {e : DbError} (h : b = true → P e) : Fails P (raiseIf b e) := by
  intro e' he
  obtain ⟨hb, rfl⟩ := raiseIf_eq_error.1 he
  exact h hb

theorem fails_orRaise {o : Option α} {e : DbError} (h : o = none → P e) :
    Fails P (orRaise o e) := by
  intro e' he
  obtain ⟨ho, rfl⟩ := orRaise_eq_error.1 he
  exact h ho

theorem fails_checkAll {checks : List (String × Bool)} (h : ∀ name, P (.checkViolation name)) :
    Fails P (checkAll checks) := by
  intro e he
  obtain ⟨name, rfl⟩ := checkAll_eq_error he
  exact h name

theorem fails_checkAll_of_names {checks : List (String × Bool)}
    (h : ∀ c ∈ checks, P (.checkViolation c.1)) : Fails P (checkAll checks) := by
  induction checks with
  | nil => exact fails_ok ()
  | cons c checks ih =>
    obtain ⟨name, ok⟩ := c
    cases ok with
    | false => exact fails_error (h (name, false) (by simp))
    | true => exact ih fun c hc => h c (List.mem_cons_of_mem _ hc)

/-- Constraints that hold do not fail. -/
theorem fails_checkAll_of_forall {checks : List (String × Bool)}
    (h : ∀ c ∈ checks, c.2 = true) : Fails P (checkAll checks) := by
  intro e he
  rw [checkAll_eq_ok (u := ()) |>.2 h] at he
  exact nomatch he

theorem fails_bind {x : Except DbError α} {f : α → Except DbError β} (hx : Fails P x)
    (hf : ∀ a, x = .ok a → Fails P (f a)) : Fails P (x >>= f) := by
  intro e he
  rcases bind_eq_error.1 he with he | ⟨a, ha, he⟩
  · exact hx e he
  · exact hf a ha e he

theorem fails_bind_iff {x : Except DbError α} {f : α → Except DbError β} :
    Fails P (x >>= f) ↔ Fails P x ∧ ∀ a, x = .ok a → Fails P (f a) := by
  constructor
  · intro h
    exact ⟨fun e he => h e (bind_eq_error.2 (.inl he)),
      fun a ha e he => h e (bind_eq_error.2 (.inr ⟨a, ha, he⟩))⟩
  · rintro ⟨hx, hf⟩
    exact fails_bind hx hf

theorem fails_raiseIf_iff {b : Bool} {e : DbError} :
    Fails P (raiseIf b e) ↔ (b = true → P e) :=
  ⟨fun h hb => h e (raiseIf_eq_error.2 ⟨hb, rfl⟩), fails_raiseIf⟩

theorem fails_orRaise_iff {o : Option α} {e : DbError} :
    Fails P (orRaise o e) ↔ (o = none → P e) :=
  ⟨fun h ho => h e (orRaise_eq_error.2 ⟨ho, rfl⟩), fails_orRaise⟩

/-- Constraints whose failure is excluded have to hold. -/
theorem fails_checkAll_iff {checks : List (String × Bool)}
    (hP : ∀ c ∈ checks, ¬ P (.checkViolation c.1)) :
    Fails P (checkAll checks) ↔ ∀ c ∈ checks, c.2 = true := by
  refine ⟨fun h => ?_, fails_checkAll_of_forall⟩
  induction checks with
  | nil => simp
  | cons c checks ih =>
    obtain ⟨name, ok⟩ := c
    cases ok with
    | false => exact absurd (h _ rfl) (hP (name, false) (by simp))
    | true =>
      have hrest := ih (fun c hc => hP c (List.mem_cons_of_mem _ hc)) h
      exact List.forall_mem_cons.2 ⟨rfl, hrest⟩

theorem fails_map {x : Except DbError α} {f : α → β} (hx : Fails P x) : Fails P (x.map f) := by
  intro e he
  cases x with
  | error e' =>
    obtain rfl : e' = e := by simpa [Except.map] using he
    exact hx e' rfl
  | ok a => simp [Except.map] at he

end

end

end Sql

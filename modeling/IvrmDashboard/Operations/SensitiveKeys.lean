import IvrmDashboard.Operations.Steps

/-!
# Sensitive keys stay out of the logs

`jsonb_contains_sensitive_key` follows the nesting of a value. What it finds is an object that occurs
somewhere inside the value and has a forbidden key (`jsonbContainsSensitiveKey_iff`). Every function
that writes metadata or details tests them in this way or builds them from keys of its own, so no row
of the audit log or of the event log has such a key.
-/

namespace Sql.Jsonb

/-- The first value occurs in the second, at any depth. -/
inductive Inside : Jsonb → Jsonb → Prop
  | refl (v : Jsonb) : Inside v v
  | field {u v : Jsonb} {k : String} {fields : List (String × Jsonb)} (hmem : (k, v) ∈ fields)
    (h : Inside u v) : Inside u (.obj fields)
  | item {u v : Jsonb} {items : List Jsonb} (hmem : v ∈ items) (h : Inside u v) :
    Inside u (.arr items)

theorem inside_obj_iff {u : Jsonb} {fields : List (String × Jsonb)} :
    Inside u (.obj fields) ↔ u = .obj fields ∨ ∃ f ∈ fields, Inside u f.2 := by
  constructor
  · intro h
    cases h with
    | refl => exact .inl rfl
    | field hmem h => exact .inr ⟨_, hmem, h⟩
  · rintro (rfl | ⟨f, hmem, h⟩)
    · exact .refl _
    · exact .field hmem h

theorem inside_arr_iff {u : Jsonb} {items : List Jsonb} :
    Inside u (.arr items) ↔ u = .arr items ∨ ∃ v ∈ items, Inside u v := by
  constructor
  · intro h
    cases h with
    | refl => exact .inl rfl
    | item hmem h => exact .inr ⟨_, hmem, h⟩
  · rintro (rfl | ⟨v, hmem, h⟩)
    · exact .refl _
    · exact .item hmem h

end Sql.Jsonb

namespace IvrmDashboard

open Sql Jsonb

/-! ## What the test finds -/

/-- Some object inside the value has a forbidden key. -/
def HasSensitiveKey [Server] (v : Jsonb) : Prop :=
  ∃ fields, Inside (.obj fields) v ∧ ∃ f ∈ fields, Text.lower f.1 ∈ sensitiveKeys

section

variable [Server]

theorem hasSensitiveKey_obj {fields : List (String × Jsonb)} : HasSensitiveKey (.obj fields) ↔
    ∃ f ∈ fields, Text.lower f.1 ∈ sensitiveKeys ∨ HasSensitiveKey f.2 := by
  constructor
  · rintro ⟨inner, hinside, g, hg, hkey⟩
    rcases inside_obj_iff.1 hinside with heq | ⟨f, hf, hinside⟩
    · obtain rfl := Jsonb.obj.inj heq
      exact ⟨g, hg, .inl hkey⟩
    · exact ⟨f, hf, .inr ⟨inner, hinside, g, hg, hkey⟩⟩
  · rintro ⟨f, hf, hkey | ⟨inner, hinside, hkey⟩⟩
    · exact ⟨fields, .refl _, f, hf, hkey⟩
    · exact ⟨inner, inside_obj_iff.2 (.inr ⟨f, hf, hinside⟩), hkey⟩

theorem hasSensitiveKey_arr {items : List Jsonb} : HasSensitiveKey (.arr items) ↔
    ∃ v ∈ items, HasSensitiveKey v := by
  constructor
  · rintro ⟨inner, hinside, hkey⟩
    rcases inside_arr_iff.1 hinside with heq | ⟨v, hv, hinside⟩
    · exact absurd heq nofun
    · exact ⟨v, hv, inner, hinside, hkey⟩
  · rintro ⟨v, hv, inner, hinside, hkey⟩
    exact ⟨inner, inside_arr_iff.2 (.inr ⟨v, hv, hinside⟩), hkey⟩

theorem not_hasSensitiveKey {v : Jsonb} (hobj : ∀ fields, v ≠ .obj fields)
    (harr : ∀ items, v ≠ .arr items) : ¬ HasSensitiveKey v := by
  rintro ⟨fields, hinside, -⟩
  cases hinside with
  | refl => exact hobj _ rfl
  | field => exact hobj _ rfl
  | item => exact harr _ rfl

mutual

/-- **The test finds a forbidden key at any depth, and nothing else.** -/
theorem jsonbContainsSensitiveKey_iff : ∀ v : Jsonb,
    jsonbContainsSensitiveKey v = true ↔ HasSensitiveKey v
  | .obj fields => by
    rw [jsonbContainsSensitiveKey, fieldsContainSensitiveKey_iff fields, hasSensitiveKey_obj]
  | .arr items => by
    rw [jsonbContainsSensitiveKey, itemsContainSensitiveKey_iff items, hasSensitiveKey_arr]
  | .null => iff_of_false nofun (not_hasSensitiveKey nofun nofun)
  | .bool _ => iff_of_false nofun (not_hasSensitiveKey nofun nofun)
  | .num _ _ => iff_of_false nofun (not_hasSensitiveKey nofun nofun)
  | .str _ => iff_of_false nofun (not_hasSensitiveKey nofun nofun)

theorem fieldsContainSensitiveKey_iff : ∀ fields : List (String × Jsonb),
    fieldsContainSensitiveKey fields = true ↔
      ∃ f ∈ fields, Text.lower f.1 ∈ sensitiveKeys ∨ HasSensitiveKey f.2
  | [] => by simp [fieldsContainSensitiveKey]
  | (k, v) :: fields => by
    rw [fieldsContainSensitiveKey, Bool.or_eq_true, Bool.or_eq_true, decide_eq_true_eq,
      jsonbContainsSensitiveKey_iff v, fieldsContainSensitiveKey_iff fields, List.exists_mem_cons_iff]

theorem itemsContainSensitiveKey_iff : ∀ items : List Jsonb,
    itemsContainSensitiveKey items = true ↔ ∃ v ∈ items, HasSensitiveKey v
  | [] => by simp [itemsContainSensitiveKey]
  | v :: items => by
    rw [itemsContainSensitiveKey, Bool.or_eq_true, jsonbContainsSensitiveKey_iff v,
      itemsContainSensitiveKey_iff items, List.exists_mem_cons_iff]

end

theorem not_hasSensitiveKey_iff {v : Jsonb} :
    ¬ HasSensitiveKey v ↔ jsonbContainsSensitiveKey v = false := by
  rw [← jsonbContainsSensitiveKey_iff, Bool.not_eq_true]

theorem not_hasSensitiveKey_of_safe {v : Jsonb} (h : safeObject v = true) : ¬ HasSensitiveKey v := by
  simp only [safeObject, Bool.and_eq_true, Bool.not_eq_true'] at h
  exact not_hasSensitiveKey_iff.2 h.2

/-! ## The audit log -/

/-- No row has a forbidden key in its metadata. -/
def Audit.Tables.Clean (t : Audit.Tables) : Prop := ∀ r ∈ t.logs, ¬ HasSensitiveKey r.metadata

theorem Audit.Tables.Clean.push {t : Audit.Tables} (h : t.Clean) (c : Audit.SafeColumns)
    (occurredAt : ℤ) : (t.push (t.newRow c.toColumns) occurredAt).Clean := by
  intro r hr
  rcases List.mem_append.1 hr with hr | hr
  · exact h r hr
  · obtain rfl := List.mem_singleton.1 hr
    exact not_hasSensitiveKey_of_safe c.safe

/-- An entry is refused or passes the test. -/
theorem Audit.Tables.Clean.apply {t : Audit.Tables} (h : t.Clean) (call : Audit.Call) :
    (call.apply t).Clean := by
  cases call with
  | lostIds n => exact h
  | append isConsoleUser occurredAt e =>
    cases happend : Audit.appendAuditLog isConsoleUser occurredAt e t with
    | error e' =>
      simp only [Audit.Call.apply, happend]
      exact h
    | ok r =>
      obtain ⟨id, t'⟩ := r
      obtain ⟨c, hc, -, rfl⟩ := Audit.appendAuditLog_eq_ok happend
      simp only [Audit.Call.apply, happend]
      exact h.push ⟨c, Audit.safeObject_of_validate hc⟩ occurredAt

/-- **No entry of any caller** leaves a forbidden key in the audit log. -/
theorem Audit.run_clean (t : ℤ) (calls : List Audit.Call) :
    (Audit.run (.initial t) calls).Clean := by
  induction calls using List.reverseRecOn with
  | nil => exact fun r hr => absurd hr List.not_mem_nil
  | append_singleton calls call ih =>
    rw [Audit.run, List.foldl_concat]
    exact ih.apply call

/-! ## The event log -/

namespace Operations

/-- No row of either log has a forbidden key. -/
structure Store.Clean (s : Store) : Prop where
  events : ∀ e ∈ s.events, ¬ HasSensitiveKey e.details
  audit : s.audit.Clean

theorem Store.Clean.written {s : Store} (h : s.Clean) {c : Context} {jobs : List Job}
    {e : Store.NewEvent} (he : ¬ HasSensitiveKey e.details) (columns : Audit.SafeColumns) :
    (s.written c jobs e columns.toColumns).Clean where
  events := by
    intro f hf
    rcases List.mem_append.1 hf with hf | hf
    · exact h.events f hf
    · obtain rfl := List.mem_singleton.1 hf
      exact he
  audit := h.audit.push columns c.now

/-- **Every change keeps forbidden keys out**: details of a caller are tested, the others are built
from keys that are allowed. -/
theorem Store.Clean.change {s s' : Store} (h : s.Clean) {c : Context} {Q : TransitionParams → Prop}
    (hchange : Change c Q s s') : s'.Clean := by
  cases hchange with
  | audited columns => exact ⟨h.events, h.audit.push columns c.now⟩
  | requested columns hnew => exact h.written (not_hasSensitiveKey_iff.2 hnew.details) columns
  | moved columns hp ht hrow => exact h.written (not_hasSensitiveKey_of_safe ht.safe) columns
  | renewed columns hr hrow =>
    exact h.written
      (not_hasSensitiveKey_iff.2 (containsSensitiveKey_single (by decide) (by decide))) columns

theorem run_clean (t : ℤ) (calls : List Call) : ((World.initial t).run calls).store.Clean :=
  World.run_induction (P := fun _ s => s.Clean) (fun _ _ h => ⟨h.events, h.audit⟩)
    (fun _ _ _ _ h hchange => h.change hchange)
    ⟨fun _ he => absurd he List.not_mem_nil, fun _ hr => absurd hr List.not_mem_nil⟩ calls

/-- **The secret filter**: the test finds a forbidden key at any depth, and no run of the queue or of
any callers of the audit log leaves one in a row. -/
theorem secret_filter :
    (∀ v : Jsonb, jsonbContainsSensitiveKey v = true ↔
      ∃ fields, Inside (.obj fields) v ∧ ∃ f ∈ fields, Text.lower f.1 ∈ sensitiveKeys) ∧
    (∀ (t : ℤ) (calls : List Call),
      (∀ e ∈ ((World.initial t).run calls).store.events, ¬ HasSensitiveKey e.details) ∧
        ∀ r ∈ ((World.initial t).run calls).store.audit.logs, ¬ HasSensitiveKey r.metadata) ∧
    ∀ (t : ℤ) (calls : List Audit.Call),
      ∀ r ∈ (Audit.run (.initial t) calls).logs, ¬ HasSensitiveKey r.metadata :=
  ⟨jsonbContainsSensitiveKey_iff,
    fun t calls => ⟨(run_clean t calls).events, (run_clean t calls).audit⟩,
    fun t calls => Audit.run_clean t calls⟩

end Operations

end

namespace Operations

open Sample in
/-- The first event of a job that is requested. -/
theorem secret_filter_sample : ∃ e ∈ ((World.initial 0).run [sampleStart 0]).store.events,
    ¬ HasSensitiveKey e.details := by
  have hlength : ((World.initial 0).run [sampleStart 0]).store.events.length = 1 := by
    decide +kernel
  obtain ⟨e, he⟩ := List.length_eq_one_iff.1 hlength
  have hmem : e ∈ ((World.initial 0).run [sampleStart 0]).store.events := by
    rw [he]
    exact List.mem_singleton_self e
  exact ⟨e, hmem, (secret_filter.2.1 0 [sampleStart 0]).1 e hmem⟩

end Operations

end IvrmDashboard

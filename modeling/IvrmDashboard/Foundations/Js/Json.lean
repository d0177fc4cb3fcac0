import Mathlib.Algebra.Group.Int.Defs
import Mathlib.Data.List.Dedup
import Mathlib.Data.List.Sort
import IvrmDashboard.Foundations.Sql.Objects

/-!
# What `JSON.parse` returns

The members of an object are kept as the text lists them: a key may occur twice, and then the later
member counts. `toJsonb` is what a value has become once it has been written by `JSON.stringify` and
read by the database. Keys are compared by joining them in order; with all the expected ones present
this finds no others (`perm_of_join_sorted`).
-/

namespace Js

/-- A number that `JSON.parse` can return. A finite one is given by the decimal it is written with,
`n / 10 ^ scale`, which has a fraction exactly when `scale` is not zero. -/
inductive Number
  | finite (n : ℤ) (scale : ℕ)
  | negativeZero
  | infinity (negative : Bool)
  deriving DecidableEq

namespace Number

/-- `Number.isInteger(x)` -/
def isInteger : Number → Bool
  | finite _ scale => scale = 0
  | negativeZero => true
  | infinity _ => false

/-- `x < 0` -/
def isNegative : Number → Bool
  | finite n _ => n < 0
  | negativeZero => false
  | infinity negative => negative

/-- `x > bound` -/
def exceeds (bound : ℕ) : Number → Bool
  | finite n scale => (bound : ℤ) * 10 ^ scale < n
  | negativeZero => false
  | infinity negative => !negative

end Number

/-- A value that `JSON.parse` returns. -/
inductive Json
  | null
  | bool (b : Bool)
  | num (x : Number)
  | str (s : String)
  | arr (items : List Json)
  | obj (members : List (String × Json))

namespace Json

/-- `Object.keys(v)`, in the order in which they were first set. -/
def keys : Json → List String
  | .obj members => (members.map (·.1)).reverse.dedup.reverse
  | _ => []

/-- `v.k` -/
def get? (v : Json) (k : String) : Option Json :=
  match v with
  | .obj members => members.reverse.lookup k
  | _ => none

/-- `typeof v === "object"`, neither `null` nor an array -/
def isObject : Json → Bool
  | .obj _ => true
  | _ => false

/-- The value, if it is a string. -/
def str? : Json → Option String
  | .str s => some s
  | _ => none

/-- The value, if it is an array. -/
def arr? : Json → Option (List Json)
  | .arr items => some items
  | _ => none

/-- What the database reads where a number was written; infinities are written as `null`. -/
def numberToJsonb : Number → Sql.Jsonb
  | .finite n scale => .num n scale
  | .negativeZero => .num 0 0
  | .infinity _ => .null

mutual

/-- `JSON.stringify(v)`, read as `jsonb`. -/
def toJsonb : Json → Sql.Jsonb
  | .null => .null
  | .bool b => .bool b
  | .num x => numberToJsonb x
  | .str s => .str s
  | .arr items => .arr (itemsToJsonb items)
  | .obj members => .buildObject (membersToJsonb members)

/-- The items of an array. -/
def itemsToJsonb : List Json → List Sql.Jsonb
  | [] => []
  | v :: items => toJsonb v :: itemsToJsonb items

/-- The members of an object. -/
def membersToJsonb : List (String × Json) → List (String × Sql.Jsonb)
  | [] => []
  | (k, v) :: members => (k, toJsonb v) :: membersToJsonb members

end

theorem itemsToJsonb_eq (items : List Json) : itemsToJsonb items = items.map toJsonb := by
  induction items with
  | nil => rfl
  | cons v items ih => rw [itemsToJsonb, ih, List.map_cons]

theorem membersToJsonb_eq (members : List (String × Json)) :
    membersToJsonb members = members.map fun f => (f.1, toJsonb f.2) := by
  induction members with
  | nil => rfl
  | cons f members ih =>
    obtain ⟨k, v⟩ := f
    rw [membersToJsonb, ih, List.map_cons]

theorem mem_keys {members : List (String × Json)} {k : String} :
    k ∈ (obj members).keys ↔ k ∈ members.map (·.1) := by
  simp [keys]

theorem nodup_keys (v : Json) : v.keys.Nodup := by
  cases v with
  | obj members => exact List.nodup_reverse.2 (List.nodup_dedup _)
  | _ => exact List.nodup_nil

/-- **The database finds the keys** that the program found. -/
theorem keys_toJsonb_perm (v : Json) : v.toJsonb.keys.Perm v.keys := by
  cases v with
  | obj members =>
    rw [toJsonb, membersToJsonb_eq]
    refine (List.perm_ext_iff_of_nodup (Sql.Jsonb.nodup_keys_buildObject _) (nodup_keys _)).2 ?_
    intro k
    rw [Sql.Jsonb.mem_keys_buildObject, mem_keys, List.map_map]
    rfl
  | num x => cases x <;> exact List.Perm.refl _
  | _ => exact List.Perm.refl _

/-- It finds under a key what the program found there. -/
theorem get?_toJsonb (v : Json) (k : String) : v.toJsonb.get? k = (v.get? k).map toJsonb := by
  cases v with
  | obj members =>
    rw [toJsonb, membersToJsonb_eq, Sql.Jsonb.get?_buildObject, ← List.map_reverse, get?]
    induction members.reverse with
    | nil => rfl
    | cons f fields ih =>
      obtain ⟨k', w⟩ := f
      rw [List.map_cons, List.lookup_cons, List.lookup_cons, ih]
      cases k == k' <;> rfl
  | num x => cases x <;> rfl
  | _ => rfl

theorem mem_keys_of_get? {v w : Json} {k : String} (h : v.get? k = some w) : k ∈ v.keys := by
  cases v with
  | obj members =>
    obtain ⟨front, back, hsplit, -⟩ := List.lookup_eq_some_iff.1 h
    rw [mem_keys, ← List.mem_reverse, ← List.map_reverse, hsplit]
    simp
  | _ => cases h

end Json

/-! ## Keys that are joined -/

/-- `l.join()` -/
def join : List String → String
  | [] => ""
  | [s] => s
  | s :: t :: l => s ++ "," ++ join (t :: l)

/-- `l.sort()` -/
def sorted (l : List String) : List String := l.insertionSort fun a b => a ≤ b

/-- The characters of a joined list, with one comma too many. -/
theorem length_join (l : List String) (hne : l ≠ []) :
    (join l).length + 1 = (l.map fun s => s.length + 1).sum := by
  induction l with
  | nil => exact absurd rfl hne
  | cons s l ih =>
    cases l with
    | nil => simp [join]
    | cons t l =>
      have := ih (List.cons_ne_nil t l)
      rw [join, String.length_append, String.length_append, List.map_cons, List.sum_cons, ← this]
      have : ",".length = 1 := rfl
      omega

/-- **A list that joins to the expected keys, and has all of them, has no others.** -/
theorem perm_of_join_sorted {keys expected : List String} (hkeys : keys.Nodup)
    (hexpected : expected.Nodup) (hne : expected ≠ []) (hsub : ∀ k ∈ expected, k ∈ keys)
    (h : join (sorted keys) = join (sorted expected)) : keys.Perm expected := by
  -- what is there beside the expected keys would make the text longer
  have hsplit := List.filter_append_perm (· ∈ expected) keys
  have hknown : (keys.filter (· ∈ expected)).Perm expected := by
    refine (List.perm_ext_iff_of_nodup (hkeys.filter _) hexpected).2 fun k => ?_
    rw [List.mem_filter, decide_eq_true_eq]
    exact ⟨And.right, fun hk => ⟨hsub k hk, hk⟩⟩
  have hsum : ∀ l : List String, l ≠ [] →
      (join (sorted l)).length + 1 = (l.map fun s => s.length + 1).sum := by
    intro l hl
    have hperm : (sorted l).Perm l := List.perm_insertionSort _ l
    rw [length_join _ fun hnil => hl ?_]
    · exact (hperm.map _).sum_nat
    · rw [hnil] at hperm
      exact hperm.symm.eq_nil
  have hkeysne : keys ≠ [] := by
    obtain ⟨k, hk⟩ := List.exists_mem_of_ne_nil _ hne
    exact List.ne_nil_of_mem (hsub k hk)
  have hlength := congrArg (fun s : String => s.length + 1) h
  simp only [hsum keys hkeysne, hsum expected hne] at hlength
  rw [← (hsplit.map _).sum_nat, List.map_append, List.sum_append, (hknown.map _).sum_nat] at hlength
  have hrest : keys.filter (fun k => !decide (k ∈ expected)) = [] := by
    cases hother : keys.filter (fun k => !decide (k ∈ expected)) with
    | nil => rfl
    | cons k rest =>
      rw [hother, List.map_cons, List.sum_cons] at hlength
      omega
  rw [hrest, List.append_nil] at hsplit
  exact hsplit.symm.trans hknown

end Js

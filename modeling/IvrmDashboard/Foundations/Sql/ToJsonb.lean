import IvrmDashboard.Foundations.Sql.Jsonb
import IvrmDashboard.Foundations.Sql.Timestamp

/-!
# SQL values inside `jsonb`

How arrays of text and timestamps are written when an object is built from them, and what
`jsonb_strip_nulls` leaves. An array of text may have more than one dimension: its elements are
listed in storage order, and `to_jsonb` nests them again (`TextArray.toJsonb_of_nested`).
-/

namespace Sql

/-! ## `text[]` -/

/-- A `text[]`: the sizes of all dimensions but the last, and the elements in storage order. -/
structure TextArray where
  outer : List ℕ
  elements : List (Option String)
  outer_pos : ∀ n ∈ outer, 0 < n
  outer_dvd : outer.foldr (· * ·) 1 ∣ elements.length
  deriving DecidableEq

namespace TextArray

/-- An array of one dimension without `NULL`. -/
def ofList (l : List String) : TextArray := ⟨[], l.map some, nofun, Nat.one_dvd _⟩

/-- `cardinality(a)` -/
def cardinality (a : TextArray) : ℕ := a.elements.length

/-- `items` in `n` groups of `size`. -/
def groups (size : ℕ) : ℕ → List Jsonb → List (List Jsonb)
  | 0, _ => []
  | n + 1, items => items.take size :: groups size n (items.drop size)

/-- The items as an array of arrays, by the sizes of its outer dimensions. -/
def nest : List ℕ → List Jsonb → Jsonb
  | [], items => .arr items
  | n :: outer, items => .arr ((groups (items.length / n) n items).map (nest outer))

/-- `to_jsonb(a)` -/
def toJsonb (a : TextArray) : Jsonb := nest a.outer (a.elements.map (Jsonb.ofOption .str))

theorem toJsonb_ofList (l : List String) : (ofList l).toJsonb = .arr (l.map .str) := by
  rw [toJsonb, ofList, nest, List.map_map]
  rfl

theorem exists_map_some {l : List (Option String)} (h : ∀ x ∈ l, x ≠ none) :
    ∃ l' : List String, l = l'.map some := by
  induction l with
  | nil => exact ⟨[], rfl⟩
  | cons x l ih =>
    obtain ⟨s, rfl⟩ := Option.ne_none_iff_exists'.1 (h x List.mem_cons_self)
    obtain ⟨l', rfl⟩ := ih fun y hy => h y (List.mem_cons_of_mem _ hy)
    exact ⟨s :: l', rfl⟩

theorem eq_ofList_of_flat {a : TextArray} (houter : a.outer = [])
    (hnull : ∀ x ∈ a.elements, x ≠ none) : ∃ l, a = ofList l := by
  obtain ⟨outer, elements, hpos, hdvd⟩ := a
  obtain rfl : outer = [] := houter
  obtain ⟨l, rfl⟩ := exists_map_some hnull
  exact ⟨l, rfl⟩

/-- Below an outer dimension there are arrays, not strings. -/
theorem toJsonb_of_nested {a : TextArray} (h : a.outer ≠ []) :
    ∃ inner rest, a.toJsonb = .arr (.arr inner :: rest) := by
  obtain ⟨outer, elements, hpos, hdvd⟩ := a
  cases outer with
  | nil => exact absurd rfl h
  | cons n outer =>
    obtain ⟨k, rfl⟩ := Nat.exists_eq_succ_of_ne_zero (Nat.ne_of_gt (hpos n List.mem_cons_self))
    rw [toJsonb, nest, groups, List.map_cons]
    cases outer with
    | nil => exact ⟨_, _, rfl⟩
    | cons m outer => exact ⟨_, _, rfl⟩

end TextArray

/-! ## Timestamps -/

/-- `t + interval`, the interval in microseconds; the infinities stay. -/
def Timestamptz.add (t : Timestamptz) (interval : ℤ) : Timestamptz :=
  t.map fun t => t.map (· + interval)

/-- A timestamp inside `jsonb`. -/
def Timestamptz.toJsonb : Timestamptz → Jsonb
  | none => .str "-infinity"
  | some none => .str "infinity"
  | some (some t) => .str (jsonTimestamptz t)

/-- A finite timestamp inside `jsonb`. -/
def instantJson (t : ℤ) : Jsonb := .str (jsonTimestamptz t)

/-! ## `jsonb_strip_nulls` -/

namespace Jsonb

/-- `v = 'null'::jsonb` -/
def isNull : Jsonb → Bool
  | .null => true
  | _ => false

mutual

/-- `jsonb_strip_nulls(v)` -/
def stripNulls : Jsonb → Jsonb
  | .obj fields => .obj (stripFields fields)
  | .arr items => .arr (stripItems items)
  | v => v

/-- The fields that are not null. -/
def stripFields : List (String × Jsonb) → List (String × Jsonb)
  | [] => []
  | (k, v) :: fields =>
    if v.isNull then stripFields fields else (k, stripNulls v) :: stripFields fields

/-- Null items stay, and keep their places. -/
def stripItems : List Jsonb → List Jsonb
  | [] => []
  | v :: items => stripNulls v :: stripItems items

end

end Jsonb

end Sql

import Mathlib.Data.List.Basic
import IvrmDashboard.Foundations.Sql.Jsonb

/-!
# Reading `jsonb`

The functions that take a value apart: its type, the keys of an object, the elements of an array.
An object that was built has every key once (`nodup_keys_buildObject`). A text that was read from an
object and is a word was a string there (`getText_word`), and one that consists of digits was a
number without a fraction (`numText_digits`), as far as it was a number.
-/

namespace Sql

namespace Jsonb

/-! ## Taking a value apart -/

/-- `jsonb_typeof(v)` -/
def typeof : Jsonb → String
  | .null => "null"
  | .bool _ => "boolean"
  | .num _ _ => "number"
  | .str _ => "string"
  | .arr _ => "array"
  | .obj _ => "object"

/-- `jsonb_object_keys(v)` -/
def keys : Jsonb → List String
  | .obj fields => fields.map (·.1)
  | _ => []

/-- `jsonb_array_elements(v)` -/
def elements : Jsonb → List Jsonb
  | .arr items => items
  | _ => []

/-- `v ?& array[…]` -/
def hasKeys (v : Jsonb) (l : List String) : Bool := l.all (· ∈ v.keys)

theorem typeof_eq_array {v : Jsonb} (h : v.typeof = "array") : ∃ items, v = .arr items := by
  cases v with
  | arr items => exact ⟨items, rfl⟩
  | _ => simp [typeof] at h

theorem typeof_eq_bool {v : Jsonb} (h : v.typeof = "boolean") : ∃ b, v = .bool b := by
  cases v with
  | bool b => exact ⟨b, rfl⟩
  | _ => simp [typeof] at h

theorem typeof_eq_num {v : Jsonb} (h : v.typeof = "number") : ∃ n scale, v = .num n scale := by
  cases v with
  | num n scale => exact ⟨n, scale, rfl⟩
  | _ => simp [typeof] at h

theorem typeof_eq_str {v : Jsonb} (h : v.typeof = "string") : ∃ s, v = .str s := by
  cases v with
  | str s => exact ⟨s, rfl⟩
  | _ => simp [typeof] at h

/-! ## The keys of an object that was built -/

theorem keyLt_trans {a b c : String} (hab : keyLt a b = true) (hbc : keyLt b c = true) :
    keyLt a c = true := by
  simp only [keyLt, Bool.or_eq_true, Bool.and_eq_true, decide_eq_true_eq, beq_iff_eq] at *
  rcases hab with hab | ⟨hab, hab'⟩
  · rcases hbc with hbc | ⟨hbc, -⟩ <;> exact .inl (by omega)
  · rcases hbc with hbc | ⟨hbc, hbc'⟩
    · exact .inl (by omega)
    · exact .inr ⟨hab.trans hbc, String.lt_trans hab' hbc'⟩

theorem keyLt_irrefl (a : String) : keyLt a a = false := by
  simp [keyLt, String.lt_irrefl]

/-- Of two keys one comes first. -/
theorem keyLt_of_ne {a b : String} (hne : a ≠ b) (h : keyLt a b = false) : keyLt b a = true := by
  simp only [keyLt, Bool.or_eq_false_iff, Bool.and_eq_false_iff, decide_eq_false_iff_not,
    beq_eq_false_iff_ne, Bool.or_eq_true, Bool.and_eq_true, decide_eq_true_eq, beq_iff_eq] at *
  obtain ⟨hlen, hrest⟩ := h
  rcases Nat.lt_or_eq_of_le (Nat.le_of_not_lt hlen) with hlt | heq
  · exact .inl hlt
  · refine .inr ⟨heq, ?_⟩
    rcases hrest with hrest | hrest
    · exact absurd heq.symm hrest
    · exact String.not_le.1 fun hle => hne (String.le_antisymm hle (String.not_lt.1 hrest))

/-- The fields stand in the order of their keys. -/
def Ordered (fields : List (String × Jsonb)) : Prop :=
  (fields.map (·.1)).Pairwise fun a b => keyLt a b = true

theorem mem_keys_insertField {k k' : String} {v : Jsonb} {fields : List (String × Jsonb)} :
    k' ∈ (insertField k v fields).map (·.1) ↔ k' = k ∨ k' ∈ fields.map (·.1) := by
  induction fields with
  | nil => simp [insertField]
  | cons f fields ih =>
    obtain ⟨k₀, v₀⟩ := f
    simp only [insertField]
    split_ifs with heq hlt
    · rw [heq]
      simp
    · simp
    · simp only [List.map_cons, List.mem_cons, ih]
      tauto

theorem Ordered.insertField {fields : List (String × Jsonb)} (h : Ordered fields) (k : String)
    (v : Jsonb) : Ordered (insertField k v fields) := by
  induction fields with
  | nil => simp [Ordered, Jsonb.insertField]
  | cons f fields ih =>
    obtain ⟨k₀, v₀⟩ := f
    simp only [Ordered, List.map_cons, List.pairwise_cons] at h
    obtain ⟨hfirst, hrest⟩ := h
    simp only [Jsonb.insertField]
    split_ifs with heq hlt
    · rw [heq]
      exact List.pairwise_cons.2 ⟨hfirst, hrest⟩
    · refine List.pairwise_cons.2 ⟨?_, List.pairwise_cons.2 ⟨hfirst, hrest⟩⟩
      intro k' hk'
      rcases List.mem_cons.1 hk' with rfl | hk'
      · exact hlt
      · exact keyLt_trans hlt (hfirst k' hk')
    · refine List.pairwise_cons.2 ⟨?_, ih hrest⟩
      intro k' hk'
      rcases mem_keys_insertField.1 hk' with rfl | hk'
      · exact keyLt_of_ne heq (Bool.eq_false_iff.2 hlt)
      · exact hfirst k' hk'

theorem ordered_buildObject (fields : List (String × Jsonb)) :
    Ordered (fields.foldl (fun acc f => insertField f.1 f.2 acc) []) := by
  have key : ∀ acc, Ordered acc →
      Ordered (fields.foldl (fun acc f => insertField f.1 f.2 acc) acc) := by
    induction fields with
    | nil => exact fun acc h => h
    | cons f fields ih => exact fun acc h => ih _ (h.insertField f.1 f.2)
  exact key [] List.Pairwise.nil

/-- **A built object has every key once.** -/
theorem nodup_keys_buildObject (fields : List (String × Jsonb)) :
    (buildObject fields).keys.Nodup := by
  refine (ordered_buildObject fields).imp fun {a b} h heq => ?_
  rw [heq, keyLt_irrefl] at h
  cases h

/-- It has the keys it was built from. -/
theorem mem_keys_buildObject {fields : List (String × Jsonb)} {k : String} :
    k ∈ (buildObject fields).keys ↔ k ∈ fields.map (·.1) := by
  have key : ∀ acc : List (String × Jsonb),
      k ∈ (fields.foldl (fun acc f => insertField f.1 f.2 acc) acc).map (·.1) ↔
        k ∈ acc.map (·.1) ∨ k ∈ fields.map (·.1) := by
    induction fields with
    | nil => intro acc; simp
    | cons f fields ih =>
      intro acc
      rw [List.foldl_cons, ih, mem_keys_insertField, List.map_cons, List.mem_cons]
      tauto
  exact (key []).trans (or_iff_right List.not_mem_nil)

theorem mem_keys_of_get? {v w : Jsonb} {k : String} (h : v.get? k = some w) : k ∈ v.keys := by
  cases v with
  | obj fields =>
    obtain ⟨front, back, rfl, -⟩ := List.lookup_eq_some_iff.1 h
    simp [keys]
  | _ => cases h

/-! ## Texts -/

theorem getText_of_get? {v : Jsonb} {k s : String} (h : v.get? k = some (.str s)) :
    v.getText k = some s := by
  rw [getText, h]

theorem getText_num {v : Jsonb} {k : String} {n : ℤ} {scale : ℕ}
    (h : v.get? k = some (.num n scale)) :
    v.getText k = some (String.ofList (numText n scale)) := by
  rw [getText, h]
  rfl

/-- A word begins with a small letter, and is neither `true` nor `false`. -/
def word (s : String) : Bool := s.toList.head?.any fun c => Text.lowerAlpha c && c ≠ 't' && c ≠ 'f'

/-- **A word was a string.** -/
theorem getText_word {v : Jsonb} {k s : String} (h : v.getText k = some s) (hs : word s = true) :
    v.get? k = some (.str s) := by
  obtain ⟨c, hhead, hc⟩ := (Option.any_eq_true _ _).1 hs
  simp only [Bool.and_eq_true, ne_eq, decide_eq_true_eq] at hc
  obtain ⟨⟨hlower, ht⟩, hf⟩ := hc
  have hother : ∀ w : Jsonb, w.text = s → w.kind = 0 := by
    intro w hw
    obtain ⟨d, l, hrender, hkind⟩ := render_lead w
    have hdc : d = c := by
      rw [← hw, text, hrender, String.toList_ofList] at hhead
      exact Option.some.inj hhead
    rw [hdc] at hrender hkind
    have hnot : leadKind c = 0 ∨ leadKind c = 2 := by
      unfold leadKind
      split_ifs with h0 h1 h3 h4 h5
      · exact .inl rfl
      · exact absurd h1 (by tauto)
      · subst h3; cases hlower
      · subst h4; cases hlower
      · subst h5; cases hlower
      · exact .inr rfl
    rcases hnot with hnot | hnot
    · rw [← hkind, hnot]
    · -- a number does not begin with a letter
      rw [hnot] at hkind
      cases w with
      | num n scale =>
        have hmem : c ∈ numText n scale := by
          change c ∈ render (.num n scale)
          rw [hrender]
          exact List.mem_cons_self
        have hnum := numChar_of_mem_numText hmem
        simp only [numChar, Bool.or_eq_true, beq_iff_eq, Char.isDigit, Bool.and_eq_true,
          decide_eq_true_eq] at hnum
        simp only [Text.lowerAlpha, Bool.and_eq_true, decide_eq_true_eq] at hlower
        rcases hnum with (⟨-, h9⟩ | rfl) | rfl
        · have h97 : 'a'.val ≤ c.val := hlower.1
          have : 97 ≤ c.val.toNat := UInt32.le_iff_toNat_le.1 h97
          have : c.val.toNat ≤ 57 := UInt32.le_iff_toNat_le.1 h9
          omega
        · exact absurd hlower.1 (by decide)
        · exact absurd hlower.1 (by decide)
      | _ => cases hkind
  rw [getText] at h
  split at h
  next => cases h
  next => cases h
  next s' hget =>
    rw [hget]
    exact congrArg _ (congrArg _ (Option.some.inj h))
  next w hnull hstr hget =>
    have hw := hother w (Option.some.inj h)
    cases w with
    | null => exact absurd rfl hnull
    | _ => cases hw

/-- **Digits were written by a number** that has neither a sign nor a fraction. -/
theorem numText_digits {n : ℤ} {scale : ℕ}
    (h : (String.ofList (numText n scale)).toList.all Text.digit = true) : 0 ≤ n ∧ scale = 0 := by
  rw [String.toList_ofList, List.all_eq_true] at h
  constructor
  · by_contra hneg
    have := h '-' (by simp [numText, not_le.1 hneg])
    cases this
  · by_contra hscale
    have := h '.' (by simp [numText, hscale])
    cases this

/-- The text of a number without sign and fraction. -/
theorem numText_nat (n : ℕ) : numText n 0 = Text.decimal 0 n := by
  simp [numText]

end Jsonb

end Sql

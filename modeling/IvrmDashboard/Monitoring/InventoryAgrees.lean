import Mathlib
import IvrmDashboard.Monitoring.InventoryMonotone

/-!
# The two validators of the runtime inventory

The database passes every row that the route has passed, whatever its JSON looked like: the keys are
the same, strings and booleans come through as they are, and a whole number is written in digits. So
a request the route accepts is not refused as invalid or foreign. Its time is passed on as the text
it was, though, and the database does not read every text that `Date.parse` reads: not an offset
of sixteen hours or more, a day that the month does not have, a month or a day that is left out, an
expanded year or a very long fraction. There the cast fails and with it the whole call
(`inventory_iff`).
-/

namespace IvrmDashboard.Monitoring

open Sql

/-! ## Values on both sides -/

open Js in
theorem str?_eq_some {v : Option Json} {s : String} (h : v.bind Json.str? = some s) :
    v = some (.str s) := by
  obtain ⟨w, rfl, hw⟩ := Option.bind_eq_some_iff.1 h
  cases w with
  | str s' =>
    obtain rfl : s' = s := Option.some.inj hw
    rfl
  | _ => cases hw

section

open Js

variable {row : Json} {k : String}

/-- A string that passed its test. -/
theorem get?_of_stringOk {test : String → Bool} (h : stringOk row k test = true) :
    ∃ s, row.get? k = some (.str s) ∧ test s = true := by
  obtain ⟨s, hs, htest⟩ := (Option.any_eq_true _ _).1 h
  exact ⟨s, str?_eq_some hs, htest⟩

theorem get?_str_toJsonb {s : String} (h : row.get? k = some (.str s)) :
    row.toJsonb.get? k = some (.str s) := by
  rw [Json.get?_toJsonb, h]
  rfl

/-- A string is read as the text it is. -/
theorem textOk_toJsonb {s : String} {test : String → Bool} (h : row.get? k = some (.str s))
    (htest : test s = true) : textOk row.toJsonb k test = true :=
  textOk_iff.2 ⟨s, Jsonb.getText_of_get? (get?_str_toJsonb h), htest⟩

theorem hasType_str_toJsonb {s : String} (h : row.get? k = some (.str s)) :
    hasType row.toJsonb k "string" = true :=
  hasType_iff.2 ⟨_, get?_str_toJsonb h, rfl⟩

/-- A whole number within its limit is written without sign, point or exponent. -/
theorem get?_of_integerWithin {hi : ℕ} (h : integerWithin hi (row.get? k) = true) :
    ∃ n : ℕ, n ≤ hi ∧ row.toJsonb.get? k = some (.num n 0) := by
  rw [Json.get?_toJsonb]
  cases hget : row.get? k with
  | none =>
    rw [hget] at h
    cases h
  | some v =>
    rw [hget] at h
    cases v with
    | num x =>
      simp only [integerWithin, Bool.and_eq_true, Bool.not_eq_true'] at h
      obtain ⟨⟨hinteger, hsign⟩, hbound⟩ := h
      cases x with
      | finite n scale =>
        obtain rfl : scale = 0 := of_decide_eq_true hinteger
        simp only [Number.isNegative, Number.exceeds, decide_eq_false_iff_not] at hsign hbound
        obtain ⟨m, rfl⟩ := Int.eq_ofNat_of_zero_le (not_lt.1 hsign)
        exact ⟨m, by omega, rfl⟩
      | negativeZero => exact ⟨0, Nat.zero_le _, rfl⟩
      | infinity negative => cases hinteger
    | _ => cases h

/-- Digits of a number below a power of ten. -/
theorem textOk_digits {item : Jsonb} {n : ℕ} {hi : ℕ} (hhi : 0 < hi)
    (h : item.get? k = some (.num n 0)) (hn : n < 10 ^ hi) :
    textOk item k (digitsWithin hi) = true := by
  refine textOk_iff.2 ⟨_, Jsonb.getText_num h, ?_⟩
  rw [Jsonb.numText_nat]
  simp only [digitsWithin, Text.lengthBetween, String.length_ofList, String.toList_ofList,
    Bool.and_eq_true, decide_eq_true_eq, List.all_eq_true]
  refine ⟨⟨List.length_pos_of_ne_nil (Text.decimal_ne_nil 0 n), (length_decimal_le hhi).2 hn⟩, ?_⟩
  intro c hc
  have hdigit := Text.isDigit_of_mem_decimal hc
  simp only [Char.isDigit, Bool.and_eq_true, decide_eq_true_eq] at hdigit
  simp only [Text.digit, Bool.and_eq_true, decide_eq_true_eq]
  exact hdigit

/-! ## Rows -/

/-- A row that the route passed. -/
structure RowOk (expected : List String) (name : String) (row : Json) : Prop where
  object : row.isObject = true
  known : name ∈ expected
  name : row.get? "name" = some (.str name)
  tests : runtimeRowOk row = true

theorem isObject_toJsonb (h : row.isObject = true) : row.toJsonb.isObject = true := by
  cases row with
  | obj members => rfl
  | _ => cases h

theorem isBoolean_iff : isBoolean (row.get? k) = true ↔ ∃ b, row.get? k = some (.bool b) := by
  constructor
  · intro h
    cases hget : row.get? k with
    | none =>
      rw [hget] at h
      cases h
    | some v =>
      rw [hget] at h
      cases v with
      | bool b => exact ⟨b, rfl⟩
      | _ => cases h
  · rintro ⟨b, hb⟩
    rw [hb]
    rfl

/-- The keys are what they should be, once all of them are there. -/
theorem keys_toJsonb_of_hasExactly {expected : List String} (hexpected : expected.Nodup)
    (hne : expected ≠ []) (hall : ∀ k ∈ expected, ∃ v, row.get? k = some v)
    (h : hasExactly row expected = true) : row.toJsonb.keys.Perm expected := by
  refine (Json.keys_toJsonb_perm row).trans
    (perm_of_join_sorted (Json.nodup_keys row) hexpected hne ?_ (of_decide_eq_true h))
  intro k hk
  obtain ⟨v, hv⟩ := hall k hk
  exact Json.mem_keys_of_get? hv

/-- The tests of a container that could be observed. -/
structure ObservedRow (row : Json) : Prop where
  keys : hasExactly row observedKeys = true
  collection : row.get? "collection" = some (.str "ok")
  state : ∃ s, row.get? "state" = some (.str s) ∧ decide (s ∈ runtimeStates) = true
  health : ∃ s, row.get? "health" = some (.str s) ∧ decide (s ∈ runtimeHealths) = true
  oomKilled : ∃ b, row.get? "oomKilled" = some (.bool b)
  restartCount : integerWithin 2147483647 (row.get? "restartCount") = true
  exitCode : integerWithin 255 (row.get? "exitCode") = true
  image : ∃ s, row.get? "image" = some (.str s) ∧ imageOk s = true
  imageId : ∃ s, row.get? "imageId" = some (.str s) ∧ imageIdOk s = true

/-- A row that passed the tests could not be observed, or could. -/
theorem row_cases (h : runtimeRowOk row = true) :
    (row.get? "collection" = some (.str "unavailable") ∧
      hasExactly row ["collection", "name"] = true) ∨ ObservedRow row := by
  rw [runtimeRowOk] at h
  split at h
  next hunavailable => exact .inl ⟨str?_eq_some hunavailable, h⟩
  next =>
    split at h
    next hok =>
      simp only [Bool.and_eq_true] at h
      obtain ⟨⟨⟨⟨⟨⟨⟨hkeys, hstate⟩, hhealth⟩, hoom⟩, hrestart⟩, hexit⟩, himage⟩, himageId⟩ := h
      exact .inr {
        keys := hkeys
        collection := str?_eq_some hok
        state := get?_of_stringOk hstate
        health := get?_of_stringOk hhealth
        oomKilled := isBoolean_iff.1 hoom
        restartCount := hrestart
        exitCode := hexit
        image := get?_of_stringOk himage
        imageId := get?_of_stringOk himageId }
    next => cases h

theorem ObservedRow.get?_some (h : ObservedRow row) {name : String}
    (hname : row.get? "name" = some (.str name)) : ∀ k ∈ observedKeys, ∃ v, row.get? k = some v := by
  obtain ⟨state, hstate, -⟩ := h.state
  obtain ⟨health, hhealth, -⟩ := h.health
  obtain ⟨b, hoom⟩ := h.oomKilled
  obtain ⟨n, -, hrestart⟩ := get?_of_integerWithin h.restartCount
  obtain ⟨m, -, hexit⟩ := get?_of_integerWithin h.exitCode
  obtain ⟨image, himage, -⟩ := h.image
  obtain ⟨imageId, himageId, -⟩ := h.imageId
  rw [Json.get?_toJsonb] at hrestart hexit
  obtain ⟨restart, hrestart, -⟩ := Option.map_eq_some_iff.1 hrestart
  obtain ⟨exit, hexit, -⟩ := Option.map_eq_some_iff.1 hexit
  simp only [observedKeys, List.forall_mem_cons, List.not_mem_nil, false_imp_iff, implies_true,
    and_true]
  exact ⟨⟨_, hname⟩, ⟨_, h.collection⟩, ⟨_, hstate⟩, ⟨_, hhealth⟩, ⟨_, hrestart⟩, ⟨_, hoom⟩,
    ⟨_, hexit⟩, ⟨_, himage⟩, ⟨_, himageId⟩⟩

/-- The keys the database finds in the row. -/
theorem ObservedRow.keys_toJsonb (h : ObservedRow row) {name : String}
    (hname : row.get? "name" = some (.str name)) : row.toJsonb.keys.Perm observedKeys :=
  keys_toJsonb_of_hasExactly (by decide) (by decide) (h.get?_some hname) h.keys

/-- The keys of a row that could not be observed. -/
theorem keys_toJsonb_unavailable {name : String} (hname : row.get? "name" = some (.str name))
    (hcollection : row.get? "collection" = some (.str "unavailable"))
    (h : hasExactly row ["collection", "name"] = true) :
    row.toJsonb.keys.Perm ["collection", "name"] := by
  refine keys_toJsonb_of_hasExactly (by decide) (by decide) ?_ h
  simp only [List.forall_mem_cons, List.not_mem_nil, false_imp_iff, implies_true, and_true]
  exact ⟨⟨_, hcollection⟩, ⟨_, hname⟩⟩

/-- A row that could be observed passes the tests of the database. -/
theorem ObservedRow.entryOk (h : ObservedRow row) {name : String}
    (hname : row.get? "name" = some (.str name)) : observedEntryOk row.toJsonb = true := by
  have hkeys := h.keys_toJsonb hname
  obtain ⟨state, hstate, hstateOk⟩ := h.state
  obtain ⟨health, hhealth, hhealthOk⟩ := h.health
  obtain ⟨b, hoom⟩ := h.oomKilled
  obtain ⟨n, hn, hrestart⟩ := get?_of_integerWithin h.restartCount
  obtain ⟨m, hm, hexit⟩ := get?_of_integerWithin h.exitCode
  obtain ⟨image, himage, himageOk⟩ := h.image
  obtain ⟨imageId, himageId, himageIdOk⟩ := h.imageId
  have hoomType : hasType row.toJsonb "oomKilled" "boolean" = true := by
    refine hasType_iff.2 ⟨.bool b, ?_, rfl⟩
    rw [Json.get?_toJsonb, hoom]
    rfl
  have hall : row.toJsonb.hasKeys observedKeys = true :=
    List.all_eq_true.2 fun k hk => decide_eq_true (hkeys.mem_iff.2 hk)
  have hlength : decide (row.toJsonb.keys.length = 9) = true :=
    decide_eq_true (hkeys.length_eq.trans rfl)
  have hrestartType : hasType row.toJsonb "restartCount" "number" = true :=
    hasType_iff.2 ⟨_, hrestart, rfl⟩
  have hexitType : hasType row.toJsonb "exitCode" "number" = true :=
    hasType_iff.2 ⟨_, hexit, rfl⟩
  rw [observedEntryOk, hlength, hall, textOk_toJsonb hstate hstateOk,
    textOk_toJsonb hhealth hhealthOk, hoomType, hrestartType,
    textOk_digits (by decide) hrestart (by omega), hexitType,
    textOk_digits (by decide) hexit (by omega), hasType_str_toJsonb himage,
    textOk_toJsonb himage himageOk, hasType_str_toJsonb himageId,
    textOk_toJsonb himageId himageIdOk]
  rfl

/-- **The loop of the database passes what the route has passed.** -/
theorem checkItem_toJsonb {expected : List String} {name : String} (h : RowOk expected name row) :
    checkItem expected row.toJsonb = .ok none := by
  have hobject := isObject_toJsonb h.object
  have hname : textOk row.toJsonb "name" (· ∈ expected) = true :=
    textOk_toJsonb h.name (decide_eq_true h.known)
  rcases row_cases h.tests with ⟨hcollection, hkeys⟩ | hrow
  · have hunavailable : textOk row.toJsonb "collection" (· = "unavailable") = true :=
      textOk_toJsonb hcollection (by decide)
    have hlength : row.toJsonb.keys.length = 2 :=
      (keys_toJsonb_unavailable h.name hcollection hkeys).length_eq
    rw [checkItem, hobject, hname, hunavailable, hlength]
    rfl
  · obtain ⟨n, hn, hrestart⟩ := get?_of_integerWithin hrow.restartCount
    obtain ⟨m, hm, hexit⟩ := get?_of_integerWithin hrow.exitCode
    rw [checkItem_observed hobject hname (get?_str_toJsonb hrow.collection)
      (hrow.entryOk h.name) hrestart hexit, if_pos ⟨hn, hm⟩]

/-- The loop of the route: every row passes, under a name of its own. -/
theorem checkRows_eq_ok {expected : List String} {rows : List Json} {seen : List String}
    {u : Unit} (h : checkRows expected seen rows = .ok u) :
    ∃ names : List String, names.length = rows.length ∧ names.Nodup ∧
      (∀ n ∈ names, n ∉ seen) ∧ List.Forall₂ (RowOk expected) names rows := by
  induction rows generalizing seen with
  | nil => exact ⟨[], rfl, List.nodup_nil, by simp, .nil⟩
  | cons row rows ih =>
    simp only [checkRows, Js.bind_eq_ok, throwIf_eq_ok, orThrow_eq_ok, Bool.not_eq_false',
      Bool.or_eq_false_iff, decide_eq_false_iff_not, not_not] at h
    obtain ⟨_, hobject, name, hname, _, ⟨⟨hknown, hnew⟩, htests⟩, hrows⟩ := h
    obtain ⟨names, hlength, hnodup, hseen, hforall⟩ := ih hrows
    refine ⟨name :: names, by rw [List.length_cons, hlength, List.length_cons],
      List.nodup_cons.2 ⟨fun hmem => hseen name hmem List.mem_cons_self, hnodup⟩,
      List.forall_mem_cons.2 ⟨hnew, fun n hn hmem => hseen n hn (List.mem_cons_of_mem _ hmem)⟩,
      .cons ⟨hobject, hknown, str?_eq_some hname, by simpa using htests⟩ hforall⟩

theorem checkItems_toJsonb {expected names : List String} {rows : List Json}
    (h : List.Forall₂ (RowOk expected) names rows) :
    checkItems expected (rows.map Json.toJsonb) = .ok none := by
  induction h with
  | nil => rfl
  | cons hrow _ ih =>
    rw [List.map_cons, checkItems, checkItem_toJsonb hrow]
    exact ih

theorem names_toJsonb {expected names : List String} {rows : List Json}
    (h : List.Forall₂ (RowOk expected) names rows) :
    (rows.map Json.toJsonb).filterMap (·.getText "name") = names := by
  induction h with
  | nil => rfl
  | cons hrow _ ih =>
    rw [List.map_cons, List.filterMap_cons, Jsonb.getText_of_get? (get?_str_toJsonb hrow.name), ih]

/-! ## Sizes -/

/-- A string of characters that need no escape. -/
theorem length_quote_of_plain {s : String}
    (h : ∀ c ∈ s.toList, 35 ≤ c.toNat ∧ c ≠ '\\') : (Jsonb.quote s).length = s.length + 2 := by
  have key : ∀ l : List Char, (∀ c ∈ l, 35 ≤ c.toNat ∧ c ≠ '\\') →
      (l.flatMap Jsonb.escapeChar).length = l.length := by
    intro l
    induction l with
    | nil => exact fun _ => rfl
    | cons c l ih =>
      intro hl
      obtain ⟨⟨hc, hne⟩, hrest⟩ := List.forall_mem_cons.1 hl
      have hshort : Jsonb.shortEscape c = none := by
        unfold Jsonb.shortEscape
        split <;> first | rfl | exact absurd rfl hne | exact absurd hc (by decide)
      have hescape : Jsonb.escapeChar c = [c] := by
        rw [Jsonb.escapeChar, hshort]
        exact if_neg (by omega)
      rw [List.flatMap_cons, List.length_append, ih hrest, hescape, List.length_singleton,
        List.length_cons, Nat.add_comm]
  rw [Jsonb.quote, List.length_cons, List.length_append, key _ h, String.length_toList,
    List.length_singleton]

theorem plain_of_between {c lo hi : Char} (h : (lo ≤ c && c ≤ hi) = true) (hlo : 35 ≤ lo.toNat)
    (hne : ¬ (lo ≤ '\\' ∧ '\\' ≤ hi)) : 35 ≤ c.toNat ∧ c ≠ '\\' := by
  simp only [Bool.and_eq_true, decide_eq_true_eq] at h
  have hle : lo.toNat ≤ c.toNat := UInt32.le_iff_toNat_le.1 h.1
  refine ⟨hlo.trans hle, ?_⟩
  rintro rfl
  exact hne h

theorem plain_of_alnum {c : Char}
    (h : (Text.lowerAlpha c || Text.upperAlpha c || Text.digit c) = true) :
    35 ≤ c.toNat ∧ c ≠ '\\' := by
  simp only [Bool.or_eq_true] at h
  rcases h with (h | h) | h
  · exact plain_of_between h (by decide) (by decide)
  · exact plain_of_between h (by decide) (by decide)
  · exact plain_of_between h (by decide) (by decide)

theorem plain_of_mem_text {s : String} {c : Char}
    (hall : s.toList.all (fun d => decide (35 ≤ d.toNat ∧ d ≠ '\\')) = true)
    (hc : c ∈ s.toList) : 35 ≤ c.toNat ∧ c ≠ '\\' :=
  of_decide_eq_true (List.all_eq_true.1 hall c hc)

/-- The name of an image, in quotes. -/
theorem length_quote_image {s : String} (h : imageOk s = true) : (Jsonb.quote s).length ≤ 257 := by
  simp only [imageOk, Text.lengthBetween, Bool.and_eq_true, decide_eq_true_eq,
    List.all_eq_true] at h
  obtain ⟨⟨⟨-, hlength⟩, -⟩, hchars⟩ := h
  rw [length_quote_of_plain]
  · omega
  · intro c hc
    have hclass := hchars c hc
    rw [Bool.or_eq_true] at hclass
    rcases hclass with halnum | hother
    · exact plain_of_alnum halnum
    · exact plain_of_mem_text (s := "._:/@-") (by decide) (of_decide_eq_true hother)

/-- The digest of an image, in quotes. -/
theorem length_quote_imageId {s : String} (h : imageIdOk s = true) :
    (Jsonb.quote s).length ≤ 73 := by
  simp only [imageIdOk, Bool.and_eq_true, decide_eq_true_eq, List.all_eq_true] at h
  obtain ⟨⟨hhead, hlength⟩, htail⟩ := h
  rw [String.length_toList] at hlength
  rw [length_quote_of_plain]
  · omega
  · intro c hc
    rw [← List.take_append_drop 7 s.toList, List.mem_append] at hc
    rcases hc with hc | hc
    · rw [hhead] at hc
      exact plain_of_mem_text (s := "sha256:") (by decide) hc
    · have hhex := htail c hc
      simp only [Text.hexDigit, Bool.or_eq_true] at hhex
      rcases hhex with hhex | hhex
      · exact plain_of_between hhex (by decide) (by decide)
      · exact plain_of_between hhex (by decide) (by decide)

/-- The most characters a field of a row takes in the text of its object. -/
def fieldLimit (k : String) : ℕ := if k = "image" then 275 else if k = "imageId" then 91 else 40

/-- The fields of a row are short. -/
def ShortFields (v : Jsonb) : Prop :=
  ∀ k ∈ v.keys, ∀ w, v.get? k = some w →
    4 + (Jsonb.quote k).length + (Jsonb.render w).length ≤ fieldLimit k

/-- The text of an object with short fields. -/
theorem length_render_le {v : Jsonb} (hobject : v.isObject = true) (hnodup : v.keys.Nodup)
    (h : ShortFields v) : (Jsonb.render v).length ≤ 2 + (v.keys.map fieldLimit).sum := by
  cases v with
  | obj fields =>
    have hfields : ∀ f ∈ fields, 4 + (Jsonb.quote f.1).length + (Jsonb.render f.2).length ≤
        fieldLimit f.1 := by
      intro f hf
      refine h f.1 (List.mem_map_of_mem hf) f.2 ?_
      obtain ⟨front, back, rfl⟩ := List.append_of_mem hf
      refine List.lookup_eq_some_iff.2 ⟨front, back, rfl, fun p hp => ?_⟩
      -- an earlier field has another key
      simp only [Jsonb.keys, List.map_append, List.map_cons] at hnodup
      have hother := (List.nodup_append.1 hnodup).2.2 p.1 (List.mem_map_of_mem hp) f.1
        List.mem_cons_self
      simpa using fun heq => hother heq.symm
    have hsum : Jsonb.fieldsLength fields ≤ (fields.map fun f => fieldLimit f.1).sum := by
      clear h hnodup hobject
      induction fields with
      | nil => exact Nat.le_refl _
      | cons f fields ih =>
        obtain ⟨hf, hrest⟩ := List.forall_mem_cons.1 hfields
        have := ih hrest
        simp only [Jsonb.fieldsLength, List.map_cons, List.sum_cons] at this ⊢
        omega
    have hrender := Jsonb.length_renderFields_le true fields
    simp only [Jsonb.render, List.length_cons, Jsonb.keys, List.map_map] at hrender ⊢
    have hmap : (fields.map (fieldLimit ∘ fun x => x.1)).sum =
        (fields.map fun f => fieldLimit f.1).sum := rfl
    omega
  | _ => cases hobject

/-- A string is short, whatever its object. -/
theorem length_render_of_get? {v w : Jsonb} {k : String} {x : Jsonb} (h : v.get? k = some x)
    (hw : v.get? k = some w) : Jsonb.render w = Jsonb.render x := by
  rw [Option.some.inj (hw.symm.trans h)]

/-- What the words a row may contain take, in quotes. -/
theorem length_quote_states : ∀ s ∈ runtimeStates, (Jsonb.quote s).length ≤ 22 := by decide

theorem length_quote_healths : ∀ s ∈ runtimeHealths, (Jsonb.quote s).length ≤ 22 := by decide

theorem length_quote_observedKeys : ∀ k ∈ observedKeys, (Jsonb.quote k).length ≤ 14 := by decide

/-- A field whose value is short. -/
theorem fieldLimit_of_short {k : String} {w : Jsonb} (hk : k ∈ observedKeys)
    (hw : (Jsonb.render w).length ≤ 22) :
    4 + (Jsonb.quote k).length + (Jsonb.render w).length ≤ fieldLimit k := by
  have := length_quote_observedKeys k hk
  have : 40 ≤ fieldLimit k := by
    rw [fieldLimit]
    split_ifs <;> decide
  omega

theorem length_render_num {n hi : ℕ} (hhi : 0 < hi) (h : n < 10 ^ hi) :
    (Jsonb.render (.num n 0)).length ≤ hi := by
  rw [Jsonb.render, Jsonb.numText_nat]
  exact (length_decimal_le hhi).2 h

/-- The fields of a row that could be observed. -/
theorem ObservedRow.shortFields (h : ObservedRow row) {name : String}
    (hname : row.get? "name" = some (.str name)) (hquote : (Jsonb.quote name).length ≤ 22) :
    ShortFields row.toJsonb := by
  intro k hk w hw
  have hmem := (h.keys_toJsonb hname).mem_iff.1 hk
  have hvalue : ∀ s, row.get? k = some (.str s) → Jsonb.render w = Jsonb.quote s :=
    fun s hs => length_render_of_get? (get?_str_toJsonb hs) hw
  obtain ⟨state, hstate, hstateOk⟩ := h.state
  obtain ⟨health, hhealth, hhealthOk⟩ := h.health
  obtain ⟨b, hoom⟩ := h.oomKilled
  obtain ⟨n, hn, hrestart⟩ := get?_of_integerWithin h.restartCount
  obtain ⟨m, hm, hexit⟩ := get?_of_integerWithin h.exitCode
  obtain ⟨image, himage, himageOk⟩ := h.image
  obtain ⟨imageId, himageId, himageIdOk⟩ := h.imageId
  have hkeys := hmem
  simp only [observedKeys, List.mem_cons, List.not_mem_nil, or_false] at hkeys
  rcases hkeys with rfl | rfl | rfl | rfl | rfl | rfl | rfl | rfl | rfl
  · exact fieldLimit_of_short hmem (by rwa [hvalue _ hname])
  · exact fieldLimit_of_short hmem (by rw [hvalue _ h.collection]; decide)
  · refine fieldLimit_of_short hmem ?_
    rw [hvalue _ hstate]
    exact length_quote_states state (of_decide_eq_true hstateOk)
  · refine fieldLimit_of_short hmem ?_
    rw [hvalue _ hhealth]
    exact length_quote_healths health (of_decide_eq_true hhealthOk)
  · refine fieldLimit_of_short hmem ?_
    rw [length_render_of_get? hrestart hw]
    exact (length_render_num (by decide) (by omega : n < 10 ^ 10)).trans (by decide)
  · refine fieldLimit_of_short hmem ?_
    have hbool : row.toJsonb.get? "oomKilled" = some (.bool b) := by
      rw [Json.get?_toJsonb, hoom]
      rfl
    rw [length_render_of_get? hbool hw]
    cases b <;> decide
  · refine fieldLimit_of_short hmem ?_
    rw [length_render_of_get? hexit hw]
    exact (length_render_num (by decide) (by omega : m < 10 ^ 3)).trans (by decide)
  · have := length_quote_image himageOk
    have : (Jsonb.quote "image").length = 7 := by decide
    have : fieldLimit "image" = 275 := by decide
    rw [hvalue _ himage]
    omega
  · have := length_quote_imageId himageIdOk
    have : (Jsonb.quote "imageId").length = 9 := by decide
    have : fieldLimit "imageId" = 91 := by decide
    rw [hvalue _ himageId]
    omega

/-- The text of a row. -/
theorem length_render_row {expected : List String} {name : String} (h : RowOk expected name row)
    (hquote : (Jsonb.quote name).length ≤ 22) : (Jsonb.render row.toJsonb).length ≤ 648 := by
  have hobject := isObject_toJsonb h.object
  have hnodup : row.toJsonb.keys.Nodup :=
    (Json.keys_toJsonb_perm row).nodup_iff.2 (Json.nodup_keys row)
  rcases row_cases h.tests with ⟨hcollection, hkeys⟩ | hrow
  · have hperm := keys_toJsonb_unavailable h.name hcollection hkeys
    have hshort : ShortFields row.toJsonb := by
      intro k hk w hw
      have hmem := hperm.mem_iff.1 hk
      simp only [List.mem_cons, List.not_mem_nil, or_false] at hmem
      rcases hmem with rfl | rfl
      · refine fieldLimit_of_short (by decide) ?_
        rw [length_render_of_get? (get?_str_toJsonb hcollection) hw]
        decide
      · refine fieldLimit_of_short (by decide) ?_
        rwa [length_render_of_get? (get?_str_toJsonb h.name) hw]
    have hlength := length_render_le hobject hnodup hshort
    rw [(hperm.map fieldLimit).sum_nat] at hlength
    exact hlength.trans (by decide)
  · have hlength := length_render_le hobject hnodup (hrow.shortFields h.name hquote)
    rw [((hrow.keys_toJsonb h.name).map fieldLimit).sum_nat] at hlength
    exact hlength.trans (by decide)

/-- The text of an array. -/
theorem length_renderItems_le {limit : ℕ} (first : Bool) {items : List Jsonb}
    (h : ∀ v ∈ items, (Jsonb.render v).length ≤ limit) :
    (Jsonb.renderItems first items).length ≤ 1 + items.length * (limit + 2) := by
  induction items generalizing first with
  | nil => simp [Jsonb.renderItems]
  | cons v items ih =>
    obtain ⟨hv, hrest⟩ := List.forall_mem_cons.1 h
    have := ih false hrest
    have hseparator : (Jsonb.separator first).length ≤ 2 := by cases first <;> decide
    rw [Jsonb.renderItems, List.length_append, List.length_append, List.length_cons,
      Nat.add_one_mul]
    omega

theorem forall_render_le {expected names : List String} {rows : List Json}
    (hquote : ∀ n ∈ expected, (Jsonb.quote n).length ≤ 22)
    (h : List.Forall₂ (RowOk expected) names rows) :
    ∀ v ∈ rows.map Json.toJsonb, (Jsonb.render v).length ≤ 648 := by
  induction h with
  | nil => simp
  | cons hrow _ ih =>
    rw [List.map_cons]
    exact List.forall_mem_cons.2 ⟨length_render_row hrow (hquote _ hrow.known), ih⟩

end

/-! ## Requests -/

/-- **Both lists of containers are the same.** -/
theorem lookup_runtimeContainers (serverId : String) :
    runtimeContainers.lookup serverId = expectedContainers serverId := by
  simp only [runtimeContainers, List.lookup_cons, List.lookup_nil, expectedContainers,
    ← beq_iff_eq (a := serverId)]
  cases serverId == "aws-app-01" <;> cases serverId == "lightsail-herta" <;>
    cases serverId == "oci-minecraft-01" <;> rfl

theorem expectedContainers_short {serverId : String} {expected : List String}
    (h : expectedContainers serverId = some expected) :
    expected.length ≤ 8 ∧ ∀ n ∈ expected, (Jsonb.quote n).length ≤ 22 := by
  simp only [expectedContainers] at h
  split_ifs at h
  all_goals
    obtain rfl := Option.some.inj h
    decide

section

variable [JsonParser] {raw : ByteArray} {now : ℤ} {payload : RuntimeInventory}

/-- What the route has found out about a request it accepts. -/
theorem parse_eq_ok (h : parseRuntimeInventory raw now = .ok payload) :
    ∃ expected names, expectedContainers payload.serverId = some expected ∧
      (Js.parseDateTime payload.observedAt).isSome = true ∧
      payload.containers.length = expected.length ∧ names.length = payload.containers.length ∧
      names.Nodup ∧ List.Forall₂ (RowOk expected) names payload.containers := by
  simp only [parseRuntimeInventory, Js.bind_eq_ok, Js.throwIf_eq_ok, Js.orThrow_eq_ok,
    Js.pure_eq_ok, decide_eq_false_iff_not, not_not] at h
  obtain ⟨_, -, json, -, _, -, serverId, -, expected, hexpected, observedAt, -, _, -, time, htime,
    _, -, containers, -, _, hlength, _, hrows, rfl⟩ := h
  obtain ⟨names, hnames, hnodup, -, hforall⟩ := checkRows_eq_ok hrows
  rw [lookup_runtimeContainers] at hexpected
  exact ⟨expected, names, hexpected, by rw [htime]; rfl, hlength, hnames, hnodup, hforall⟩

/-- The clock of the database still takes the time for a present one. -/
def InWindow (v : InventoryCall) (time : ℤ) : Prop :=
  v.earliest - 300 * second ≤ time ∧ time ≤ v.latest + 30 * second

/-- **The database agrees with the route**: whatever the table, the clock and the nonce, the request
does not raise, and while its time is a present one it is not refused as invalid or foreign. -/
def Agrees [FractionReading] (payload : RuntimeInventory) : Prop :=
  ∀ (v : InventoryCall) (nonce : String) (t : Inventory),
    Text.matchesExactly Text.hexDigit 32 nonce = true →
    (∀ time ∈ castTimestamptz payload.observedAt, InWindow v time) →
    ∃ a t', requestRuntimeInventory v payload nonce t = .ok (a, t') ∧
      a ≠ .invalidPayload ∧ a ≠ .targetNotAllowed

/-- The time names a day of the calendar in four digits of the year, with an offset below sixteen
hours, in a text of limited length. -/
def Castable (observedAt : String) : Prop :=
  ∃ t, DateTime.parse observedAt = some t ∧ calendarDay t = true ∧ zoneInRange t.zone = true ∧
    observedAt.length ≤ dateTimeLimit

omit [JsonParser] in
/-- Of the times the route reads the database reads those. -/
theorem castTimestamptz_isSome_iff [FractionReading] {s : String}
    (h : (Js.parseDateTime s).isSome = true) :
    (castTimestamptz s).isSome = true ↔ Castable s := by
  obtain ⟨time, htime⟩ := Option.isSome_iff_exists.1 h
  obtain ⟨t, ht, hrange⟩ := Option.bind_eq_some_iff.1 htime
  have htimeInRange : t.timeInRange = true := by
    dsimp only at hrange
    split at hrange
    next hok =>
      simp only [Js.dateTimeInRange, Bool.and_eq_true] at hok
      exact hok.1.1.2
    next => cases hrange
  have hcast : castTimestamptz s =
      if calendarDay t && t.timeInRange && zoneInRange t.zone && s.length ≤ dateTimeLimit then
        some (t.seconds * 1000000 + FractionReading.microseconds t.fraction)
      else none := by
    rw [castTimestamptz, ht]
    rfl
  rw [hcast, htimeInRange, Bool.and_true]
  constructor
  · intro hsome
    split at hsome
    next hok =>
      simp only [Bool.and_eq_true, decide_eq_true_eq] at hok
      exact ⟨t, ht, hok.1.1, hok.1.2, hok.2⟩
    next => cases hsome
  · rintro ⟨t', ht', hday, hzone, hlength⟩
    obtain rfl : t = t' := Option.some.inj (ht.symm.trans ht')
    rw [hday, hzone, decide_eq_true hlength]
    rfl

omit [JsonParser] in
/-- The tests before the loop. -/
theorem payloadOk_toJsonb {expected names : List String} {v : InventoryCall} {nonce : String}
    {time : ℤ} (hshort : expected.length ≤ 8 ∧ ∀ n ∈ expected, (Jsonb.quote n).length ≤ 22)
    (hlength : payload.containers.length = expected.length)
    (hnames : names.length = payload.containers.length) (hnodup : names.Nodup)
    (hrows : List.Forall₂ (RowOk expected) names payload.containers)
    (hnonce : Text.matchesExactly Text.hexDigit 32 nonce = true) (hwindow : InWindow v time) :
    payloadOk v ⟨some payload.serverId, some (.ofInstant time), some nonce,
      some (Js.Json.arr payload.containers).toJsonb⟩ expected = true := by
  have hitems : (Js.Json.arr payload.containers).toJsonb =
      .arr (payload.containers.map Js.Json.toJsonb) := by
    rw [Js.Json.toJsonb, Js.Json.itemsToJsonb_eq]
  have hoctets : (Jsonb.arr (payload.containers.map Js.Json.toJsonb)).octetLength ≤ 30000 := by
    have hbytes := Jsonb.utf8ByteSize_ofList_le
      (Jsonb.render (.arr (payload.containers.map Js.Json.toJsonb)))
    have hrender := length_renderItems_le true (forall_render_le hshort.2 hrows)
    rw [List.length_map] at hrender
    have := hshort.1
    simp only [Jsonb.octetLength, Jsonb.text, Jsonb.render, List.length_cons] at hbytes ⊢
    omega
  have hdistinct : ((payload.containers.map Js.Json.toJsonb).filterMap
      (·.getText "name")).dedup.length = expected.length := by
    rw [names_toJsonb hrows, List.dedup_eq_self.2 hnodup, hnames, hlength]
  rw [hitems, payloadOk]
  simp only [Option.any_some, hnonce, Timestamptz.ofInstant_le, hwindow.1, hwindow.2, Jsonb.typeof,
    hoctets, Jsonb.elements, List.length_map, hlength, hdistinct, decide_true, Bool.and_true]

/-- **Where the time is read the database agrees.** -/
theorem agrees_of_cast [FractionReading] (h : parseRuntimeInventory raw now = .ok payload)
    (hcast : (castTimestamptz payload.observedAt).isSome = true) : Agrees payload := by
  obtain ⟨expected, names, hexpected, -, hlength, hnames, hnodup, hrows⟩ := parse_eq_ok h
  obtain ⟨time, htime⟩ := Option.isSome_iff_exists.1 hcast
  intro v nonce t hnonce hwindow
  have hpayload := payloadOk_toJsonb (expectedContainers_short hexpected) hlength hnames hnodup
    hrows hnonce (hwindow time htime)
  obtain ⟨a, t', hcall, -⟩ := ingest_spec v
    ⟨some payload.serverId, some (.ofInstant time), some nonce,
      some (Js.Json.arr payload.containers).toJsonb⟩ t
  have hrequest : requestRuntimeInventory v payload nonce t = .ok (a, t') := by
    rw [requestRuntimeInventory, htime]
    exact hcall
  refine ⟨a, t', hrequest, ?_⟩
  have hloop : checkItems expected
      ((some (Js.Json.arr payload.containers).toJsonb).elim [] (·.elements)) = .ok none := by
    rw [Option.elim_some, Js.Json.toJsonb, Js.Json.itemsToJsonb_eq]
    exact checkItems_toJsonb hrows
  rw [ingestRuntimeInventory] at hcall
  simp only [Option.bind_some, hexpected, hpayload, hloop, Bool.not_true, Bool.false_eq_true,
    if_false] at hcall
  -- what is left are the answers after the loop
  split at hcall
  next =>
    cases hcall
    exact ⟨by decide, by decide⟩
  next =>
    change (if _ then _ else _) = _ at hcall
    split at hcall
    next =>
      cases hcall
      exact ⟨by decide, by decide⟩
    next =>
      split at hcall
      next =>
        cases hcall
        exact ⟨by decide, by decide⟩
      next =>
        obtain ⟨stored, -, hstored⟩ := bind_eq_ok.1 hcall
        cases hstored
        exact ⟨by decide, by decide⟩

/-- A call at the time of a report, of a host that is enrolled. -/
def presentCall (time : ℤ) : InventoryCall := ⟨fun _ => true, time, time, time, time⟩

/-- The laws of the table, and the agreement of the two validators on a request. -/
def InventoryContract [FractionReading] (requests : List InventoryRequest) (raw : ByteArray)
    (now : ℤ) : Prop :=
  InventoryLaws requests ∧ ∀ payload, parseRuntimeInventory raw now = .ok payload → Agrees payload

end

/-! ## A zone far to the east -/

namespace Sample

/-- An entry of a container that could not be observed. -/
def unavailable (name : String) : Js.Json :=
  .obj [("name", .str name), ("collection", .str "unavailable")]

/-- A report of the Minecraft host, its time in a zone twenty hours ahead. -/
def eastern : Js.Json :=
  .obj [("kind", .str "runtime-inventory-v1"), ("serverId", .str "oci-minecraft-01"),
    ("observedAt", .str "2026-10-16T08:00:00+20:00"),
    ("containers", .arr (["mc-main", "ivrm-velocity", "mc-resource-router", "ivrm-status-api",
      "caddy"].map unavailable))]

/-- The entry of a container in the text of the report. -/
def unavailableText (name : String) : String :=
  "\x7b\"name\":\"" ++ name ++ "\",\"collection\":\"unavailable\"\x7d"

/-- The text of the report. -/
def easternText : String :=
  "\x7b\"kind\":\"runtime-inventory-v1\",\"serverId\":\"oci-minecraft-01\"," ++
    "\"observedAt\":\"2026-10-16T08:00:00+20:00\",\"containers\":[" ++
    Js.join (["mc-main", "ivrm-velocity", "mc-resource-router", "ivrm-status-api",
      "caddy"].map unavailableText) ++ "]\x7d"

/-- The parser, as far as this text goes. -/
scoped instance : JsonParser :=
  ⟨fun raw => if raw = easternText.toUTF8 then .ok eastern else .error "SyntaxError"⟩

scoped instance : FractionReading := ⟨fun _ => 0⟩

/-- What the route makes of it. -/
def easternPayload : RuntimeInventory where
  serverId := "oci-minecraft-01"
  observedAt := "2026-10-16T08:00:00+20:00"
  containers := ["mc-main", "ivrm-velocity", "mc-resource-router", "ivrm-status-api",
    "caddy"].map unavailable

/-- The route takes the report at noon of the 15th. -/
theorem parse_eastern :
    parseRuntimeInventory easternText.toUTF8 1792065600000 = .ok easternPayload := by
  have hsize : easternText.toUTF8.size ≤ 32768 := by
    change easternText.utf8ByteSize ≤ 32768
    decide +kernel
  have hparse : JsonParser.parse easternText.toUTF8 = .ok eastern := if_pos rfl
  have htime : Js.parseDateTime "2026-10-16T08:00:00+20:00" = some 1792065600000 := by
    decide
  have hrows : checkRows ["mc-main", "ivrm-velocity", "mc-resource-router", "ivrm-status-api",
      "caddy"] [] easternPayload.containers = .ok () := by
    decide
  have hobject : (!eastern.isObject || !hasExactly eastern ["containers", "kind", "observedAt",
      "serverId"] || !stringOk eastern "kind" (· = "runtime-inventory-v1")) = false := by
    decide
  have hzone : endsWithZone "2026-10-16T08:00:00+20:00" = true := by decide
  simp only [parseRuntimeInventory, Js.bind_eq_ok, Js.throwIf_eq_ok, Js.orThrow_eq_ok]
  exact ⟨(), decide_eq_false (Nat.not_lt.2 hsize), eastern, hparse, (), hobject,
    "oci-minecraft-01", rfl, _, rfl, "2026-10-16T08:00:00+20:00", rfl, (), by rw [hzone]; rfl,
    1792065600000, htime, (), by decide, _, rfl, (), rfl, (), hrows, rfl⟩

end Sample

end IvrmDashboard.Monitoring

import Mathlib.Data.List.Perm.Subperm
import IvrmDashboard.Foundations.Runs
import IvrmDashboard.Monitoring.RuntimeInventory

/-!
# The runtime inventory is monotone

No call raises: what is cast has been found to be digits, and what is stored has been found to be
there. A call that is accepted stores a newer report under its own server, with one well-formed
entry for each expected container, and no other call writes anything (`ingest_eq_ok`).
-/

namespace IvrmDashboard.Monitoring

open Sql

/-! ## Well-formed reports -/

/-- An entry of a container that could be observed. -/
structure ObservedEntry (item : Jsonb) : Prop where
  keys : item.keys.Perm observedKeys
  collection : item.get? "collection" = some (.str "ok")
  state : ∃ s ∈ runtimeStates, item.get? "state" = some (.str s)
  health : ∃ s ∈ runtimeHealths, item.get? "health" = some (.str s)
  restartCount : ∃ n : ℕ, n ≤ 2147483647 ∧ item.get? "restartCount" = some (.num n 0)
  oomKilled : ∃ b, item.get? "oomKilled" = some (.bool b)
  exitCode : ∃ n : ℕ, n ≤ 255 ∧ item.get? "exitCode" = some (.num n 0)
  image : ∃ s, imageOk s = true ∧ item.get? "image" = some (.str s)
  imageId : ∃ s, imageIdOk s = true ∧ item.get? "imageId" = some (.str s)

/-- An entry: a container that could not be observed, or one that could. -/
inductive WellFormedEntry (item : Jsonb) : Prop
  | unavailable (keys : item.keys.Perm ["name", "collection"])
    (collection : item.get? "collection" = some (.str "unavailable"))
  | observed (h : ObservedEntry item)

/-- One well-formed entry for each expected container, and nothing else. -/
def WellFormed (expected : List String) (containers : Jsonb) : Prop :=
  ∃ items, containers = .arr items ∧
    (items.map (·.get? "name")).Perm (expected.map fun n => some (.str n)) ∧
    ∀ item ∈ items, WellFormedEntry item

/-! ## What the tests mean -/

theorem textOk_iff {item : Jsonb} {k : String} {test : String → Bool} :
    textOk item k test = true ↔ ∃ s, item.getText k = some s ∧ test s = true :=
  Option.any_eq_true _ _

theorem hasType_iff {item : Jsonb} {k type : String} :
    hasType item k type = true ↔ ∃ v, item.get? k = some v ∧ v.typeof = type := by
  simp [hasType, Option.any_eq_true]

/-- A word under a key. -/
theorem get?_of_textOk {item : Jsonb} {k : String} {words : List String}
    (hwords : ∀ s ∈ words, Jsonb.word s = true) (h : textOk item k (· ∈ words) = true) :
    ∃ s ∈ words, item.get? k = some (.str s) := by
  obtain ⟨s, htext, hs⟩ := textOk_iff.1 h
  have hmem := of_decide_eq_true hs
  exact ⟨s, hmem, Jsonb.getText_word htext (hwords s hmem)⟩

/-- A string under a key that passes a test. -/
theorem get?_of_string {item : Jsonb} {k : String} {test : String → Bool}
    (htype : hasType item k "string" = true) (h : textOk item k test = true) :
    ∃ s, test s = true ∧ item.get? k = some (.str s) := by
  obtain ⟨v, hv, htypeof⟩ := hasType_iff.1 htype
  obtain ⟨s, rfl⟩ := Jsonb.typeof_eq_str htypeof
  obtain ⟨s', hs', htest⟩ := textOk_iff.1 h
  rw [Jsonb.getText_of_get? hv] at hs'
  obtain rfl : s = s' := Option.some.inj hs'
  exact ⟨s, htest, hv⟩

/-- Keys that are all there and no more than there are. -/
theorem perm_of_hasKeys {item : Jsonb} {l : List String} (hl : l.Nodup)
    (hkeys : item.hasKeys l = true) (hlength : item.keys.length ≤ l.length) :
    item.keys.Perm l := by
  have hsub : l ⊆ item.keys := fun k hk => of_decide_eq_true (List.all_eq_true.1 hkeys k hk)
  exact ((hl.subperm hsub).perm_of_length_le hlength).symm

/-! ## Numbers -/

/-- A text of digits is cast when its value fits. -/
theorem castDigits_of_digits (hi : ℕ) {s : String} (hne : s ≠ "")
    (hdigits : s.toList.all Text.digit = true) (hfits : Nat.ofDigitChars 10 s.toList 0 ≤ hi) :
    castDigits hi s = .ok (Nat.ofDigitChars 10 s.toList 0) := by
  have hlength : 1 ≤ s.length := by
    rw [Nat.one_le_iff_ne_zero, ← String.length_toList, ne_eq, List.length_eq_zero_iff]
    exact fun h => hne (String.toList_eq_nil_iff.1 h)
  have htest : (!digitsWithin s.length s) = false := by
    simp [digitsWithin, Text.lengthBetween, hlength, hdigits]
  have hrange : decide (hi < Nat.ofDigitChars 10 s.toList 0) = false :=
    decide_eq_false (Nat.not_lt.2 hfits)
  rw [castDigits, htest, hrange]
  rfl

/-- A number below a power of ten is written with as many digits. -/
theorem length_decimal_le {n hi : ℕ} (hhi : 0 < hi) :
    (Text.decimal 0 n).length ≤ hi ↔ n < 10 ^ hi := by
  rw [Text.decimal, Nat.zero_sub, List.replicate_zero, List.nil_append]
  exact Nat.length_toDigits_le_iff (by decide) hhi

/-- **A number that passes the tests** is a natural number, and its cast does not raise. -/
theorem number_of_tests {item : Jsonb} {k : String} {hi : ℕ} (type limit : ℕ)
    (htype : hasType item k "number" = true) (h : textOk item k (digitsWithin hi) = true)
    (hhi : 0 < hi) (hfits : 10 ^ hi ≤ type) :
    ∃ n : ℕ, item.get? k = some (.num n 0) ∧
      numberAbove item k type limit = .ok (decide (limit < n)) := by
  obtain ⟨v, hv, htypeof⟩ := hasType_iff.1 htype
  obtain ⟨m, scale, rfl⟩ := Jsonb.typeof_eq_num htypeof
  obtain ⟨s, hs, htest⟩ := textOk_iff.1 h
  rw [Jsonb.getText_num hv] at hs
  obtain rfl := Option.some.inj hs
  simp only [digitsWithin, Text.lengthBetween, Bool.and_eq_true, decide_eq_true_eq] at htest
  obtain ⟨⟨hpos, hlength⟩, hdigits⟩ := htest
  obtain ⟨hm, rfl⟩ := Jsonb.numText_digits hdigits
  obtain ⟨n, rfl⟩ := Int.eq_ofNat_of_zero_le hm
  refine ⟨n, hv, ?_⟩
  have htext : item.getText k = some (String.ofList (Text.decimal 0 n)) := by
    rw [Jsonb.getText_num hv, Jsonb.numText_nat]
  rw [Jsonb.numText_nat] at hdigits hlength hpos
  rw [String.length_ofList, length_decimal_le hhi] at hlength
  have hvalue : Nat.ofDigitChars 10 (String.ofList (Text.decimal 0 n)).toList 0 = n := by
    rw [String.toList_ofList, Text.ofDigitChars_decimal]
  have hne : String.ofList (Text.decimal 0 n) ≠ "" := by
    intro hempty
    rw [hempty] at hpos
    exact absurd hpos (by decide)
  have hcast := castDigits_of_digits type hne hdigits (by rw [hvalue]; omega)
  rw [numberAbove, htext, Option.getD_some, hcast, hvalue]
  rfl

/-! ## Entries -/

theorem states_words : ∀ s ∈ runtimeStates, Jsonb.word s = true := by decide

theorem healths_words : ∀ s ∈ runtimeHealths, Jsonb.word s = true := by decide

/-- The numbers of an entry that passes the tests. -/
theorem numbers_of_entryOk {item : Jsonb} (h : observedEntryOk item = true) :
    ∃ n m : ℕ, item.get? "restartCount" = some (.num n 0) ∧
      item.get? "exitCode" = some (.num m 0) ∧
      numberAbove item "restartCount" 9223372036854775807 2147483647 =
        .ok (decide (2147483647 < n)) ∧
      numberAbove item "exitCode" 2147483647 255 = .ok (decide (255 < m)) := by
  simp only [observedEntryOk, Bool.and_eq_true] at h
  obtain ⟨⟨⟨⟨⟨⟨⟨⟨-, hrestart⟩, hrestartText⟩, hexit⟩, hexitText⟩, -⟩, -⟩, -⟩, -⟩ := h
  obtain ⟨n, hn, habove⟩ :=
    number_of_tests 9223372036854775807 2147483647 hrestart hrestartText (by decide)
      (by decide)
  obtain ⟨m, hm, habove'⟩ :=
    number_of_tests 2147483647 255 hexit hexitText (by decide) (by decide)
  exact ⟨n, m, hn, hm, habove, habove'⟩

/-- The turn of the loop for an entry that could be observed. -/
theorem checkItem_observed {expected : List String} {item : Jsonb} (hobject : item.isObject = true)
    (hname : textOk item "name" (· ∈ expected) = true)
    (hcollection : item.get? "collection" = some (.str "ok")) (h : observedEntryOk item = true)
    {n m : ℕ} (hn : item.get? "restartCount" = some (.num n 0))
    (hm : item.get? "exitCode" = some (.num m 0)) :
    checkItem expected item =
      .ok (if n ≤ 2147483647 ∧ m ≤ 255 then none else some .invalidPayload) := by
  obtain ⟨n', m', hn', hm', hrestart, hexit⟩ := numbers_of_entryOk h
  rw [hn] at hn'
  rw [hm] at hm'
  obtain rfl : n = n' := Int.ofNat_inj.1 (by simpa using hn')
  obtain rfl : m = m' := Int.ofNat_inj.1 (by simpa using hm')
  have htext := Jsonb.getText_of_get? hcollection
  have hunavailable : textOk item "collection" (· = "unavailable") = false := by
    rw [textOk, htext]
    decide
  have hok : textOk item "collection" (· = "ok") = true := by
    rw [textOk, htext]
    decide
  simp only [checkItem, hobject, hname, hunavailable, hok, h, hrestart, hexit, Bool.not_true,
    Bool.false_eq_true, if_false, if_true, bind, Except.bind, pure, Except.pure,
    Bool.or_eq_true, decide_eq_true_eq]
  by_cases hle : n ≤ 2147483647 ∧ m ≤ 255
  · rw [if_pos hle, if_neg (by omega)]
  · rw [if_neg hle, if_pos (by omega)]

/-- What an entry has that the loop passes. -/
structure ItemOk (expected : List String) (item : Jsonb) : Prop where
  name : ∃ n ∈ expected, item.get? "name" = some (.str n)
  entry : WellFormedEntry item

/-- An entry that could be observed and passes the tests. -/
theorem observedEntry_of_tests {item : Jsonb} (hcollection : item.get? "collection" = some (.str "ok"))
    (h : observedEntryOk item = true) {n m : ℕ} (hn : item.get? "restartCount" = some (.num n 0))
    (hm : item.get? "exitCode" = some (.num m 0)) (hle : n ≤ 2147483647 ∧ m ≤ 255) :
    ObservedEntry item := by
  simp only [observedEntryOk, Bool.and_eq_true, decide_eq_true_eq] at h
  obtain ⟨⟨⟨⟨⟨⟨⟨⟨⟨⟨⟨⟨hlength, hkeys⟩, hstate⟩, hhealth⟩, hoom⟩, -⟩, -⟩, -⟩, -⟩, himage⟩, himageOk⟩,
    himageId⟩, himageIdOk⟩ := h
  obtain ⟨v, hv, htypeof⟩ := hasType_iff.1 hoom
  obtain ⟨b, rfl⟩ := Jsonb.typeof_eq_bool htypeof
  exact {
    keys := perm_of_hasKeys (by decide) hkeys hlength.le
    collection := hcollection
    state := get?_of_textOk states_words hstate
    health := get?_of_textOk healths_words hhealth
    restartCount := ⟨n, hle.1, hn⟩
    oomKilled := ⟨b, hv⟩
    exitCode := ⟨m, hle.2, hm⟩
    image := get?_of_string himage himageOk
    imageId := get?_of_string himageId himageIdOk }

/-- The two keys of a container that could not be observed. -/
theorem keys_unavailable {item : Jsonb} {name collection : Jsonb}
    (hname : item.get? "name" = some name) (hcollection : item.get? "collection" = some collection)
    (hlength : item.keys.length = 2) : item.keys.Perm ["name", "collection"] := by
  refine perm_of_hasKeys (by decide) ?_ hlength.le
  simp [Jsonb.hasKeys, Jsonb.mem_keys_of_get? hname, Jsonb.mem_keys_of_get? hcollection]

/-- A text that is compared with a word. -/
theorem get?_of_textOk_eq {item : Jsonb} {k word : String} (hword : Jsonb.word word = true)
    (h : textOk item k (· = word) = true) : item.get? k = some (.str word) := by
  obtain ⟨s, hs, heq⟩ := textOk_iff.1 h
  obtain rfl := of_decide_eq_true heq
  exact Jsonb.getText_word hs hword

/-- **One turn of the loop** does not raise, and passes well-formed entries only. -/
theorem checkItem_spec {expected : List String} (hexpected : ∀ n ∈ expected, Jsonb.word n = true)
    (item : Jsonb) :
    ∃ o, checkItem expected item = .ok o ∧ o ≠ some .accepted ∧
      (o = none → ItemOk expected item) := by
  cases hobject : item.isObject with
  | false =>
    refine ⟨some .invalidPayload, ?_, by decide, nofun⟩
    rw [checkItem, hobject]
    rfl
  | true =>
  cases hname : textOk item "name" (· ∈ expected) with
  | false =>
    refine ⟨some .targetNotAllowed, ?_, by decide, nofun⟩
    rw [checkItem, hobject, hname]
    rfl
  | true =>
  obtain ⟨name, hmem, hget⟩ := get?_of_textOk hexpected hname
  cases hunavailable : textOk item "collection" (· = "unavailable") with
  | true =>
    have hcollection := get?_of_textOk_eq (by decide) hunavailable
    by_cases hlength : item.keys.length = 2
    · refine ⟨none, ?_, by decide, fun _ =>
        ⟨⟨name, hmem, hget⟩, .unavailable (keys_unavailable hget hcollection hlength) hcollection⟩⟩
      rw [checkItem, hobject, hname, hunavailable, hlength]
      rfl
    · refine ⟨some .invalidPayload, ?_, by decide, nofun⟩
      rw [checkItem, hobject, hname, hunavailable]
      simp [hlength, pure, Except.pure]
  | false =>
  cases hok : textOk item "collection" (· = "ok") with
  | false =>
    refine ⟨some .invalidPayload, ?_, by decide, nofun⟩
    rw [checkItem, hobject, hname, hunavailable, hok]
    rfl
  | true =>
  have hcollection := get?_of_textOk_eq (by decide) hok
  cases htests : observedEntryOk item with
  | false =>
    refine ⟨some .invalidPayload, ?_, by decide, nofun⟩
    rw [checkItem, hobject, hname, hunavailable, hok, htests]
    rfl
  | true =>
    obtain ⟨n, m, hn, hm, -⟩ := numbers_of_entryOk htests
    refine ⟨_, checkItem_observed hobject hname hcollection htests hn hm, ?_, ?_⟩
    · split <;> decide
    · intro hnone
      split at hnone
      next hle =>
        exact ⟨⟨name, hmem, hget⟩, .observed (observedEntry_of_tests hcollection htests hn hm hle)⟩
      next => cases hnone

/-- **The loop** does not raise, and passes well-formed entries only. -/
theorem checkItems_spec {expected : List String} (hexpected : ∀ n ∈ expected, Jsonb.word n = true)
    (items : List Jsonb) :
    ∃ o, checkItems expected items = .ok o ∧ o ≠ some .accepted ∧
      (o = none → ∀ item ∈ items, ItemOk expected item) := by
  induction items with
  | nil => exact ⟨none, rfl, by decide, fun _ _ h => absurd h List.not_mem_nil⟩
  | cons item items ih =>
    obtain ⟨o, hitem, haccepted, hok⟩ := checkItem_spec hexpected item
    obtain ⟨o', hitems, haccepted', hok'⟩ := ih
    rw [checkItems, hitem]
    cases o with
    | some answer => exact ⟨some answer, rfl, haccepted, nofun⟩
    | none =>
      exact ⟨o', hitems, haccepted', fun h => List.forall_mem_cons.2 ⟨hok rfl, hok' h⟩⟩

/-! ## Reports -/

theorem expectedContainers_spec {serverId : String} {expected : List String}
    (h : expectedContainers serverId = some expected) :
    (∀ n ∈ expected, Jsonb.word n = true) ∧ expected.Nodup ∧ expected.length ≤ 20 := by
  simp only [expectedContainers] at h
  split_ifs at h
  all_goals
    obtain rfl := Option.some.inj h
    decide

/-- The names of entries that pass the loop. -/
theorem exists_names {expected : List String} {items : List Jsonb}
    (h : ∀ item ∈ items, ItemOk expected item) :
    ∃ names : List String, items.map (·.get? "name") = names.map (fun n => some (.str n)) ∧
      items.filterMap (·.getText "name") = names ∧ ∀ n ∈ names, n ∈ expected := by
  induction items with
  | nil => exact ⟨[], rfl, rfl, by simp⟩
  | cons item items ih =>
    obtain ⟨hitem, hitems⟩ := List.forall_mem_cons.1 h
    obtain ⟨n, hn, hget⟩ := hitem.name
    obtain ⟨names, hmap, htexts, hnames⟩ := ih hitems
    refine ⟨n :: names, ?_, ?_, List.forall_mem_cons.2 ⟨hn, hnames⟩⟩
    · rw [List.map_cons, List.map_cons, hget, hmap]
    · rw [List.filterMap_cons, Jsonb.getText_of_get? hget, htexts]

/-- **What passes all tests is well-formed.** -/
theorem wellFormed_of_tests {expected : List String} {items : List Jsonb}
    (hlength : items.length = expected.length)
    (hdistinct : (items.filterMap (·.getText "name")).dedup.length = expected.length)
    (h : ∀ item ∈ items, ItemOk expected item) : WellFormed expected (.arr items) := by
  obtain ⟨names, hmap, htexts, hnames⟩ := exists_names h
  refine ⟨items, rfl, ?_, fun item hitem => (h item hitem).entry⟩
  have hsame : names.length = expected.length := by
    have := congrArg List.length hmap
    rw [List.length_map, List.length_map] at this
    exact this.symm.trans hlength
  rw [htexts, ← hsame] at hdistinct
  have hnodup : names.Nodup :=
    List.dedup_eq_self.1 ((List.dedup_sublist names).eq_of_length hdistinct)
  rw [hmap]
  exact ((hnodup.subperm hnames).perm_of_length_le hsame.ge).map _

/-! ## Calls -/

/-- What a call answers and leaves: the table as it was, or a newer report under the server of the
call. -/
inductive Ingested (p : InventoryParams) (t : Inventory) : InventoryAnswer → Inventory → Prop
  | refused {answer : InventoryAnswer} (h : answer ≠ .accepted) : Ingested p t answer t
  | stored {serverId : String} {expected : List String} {row : InventoryRow}
    (hserver : p.serverId = some serverId) (hexpected : expectedContainers serverId = some expected)
    (hobserved : p.observedAt = some row.observedAt)
    (hnewer : ∀ previous ∈ t serverId, previous.observedAt < row.observedAt)
    (hwellFormed : WellFormed expected row.containers) :
    Ingested p t .accepted (t.put serverId row)

/-- **Every call answers**, and does what its answer says. -/
theorem ingest_spec (v : InventoryCall) (p : InventoryParams) (t : Inventory) :
    ∃ a t', ingestRuntimeInventory v p t = .ok (a, t') ∧ Ingested p t a t' := by
  rw [ingestRuntimeInventory]
  split
  next serverId expected hserver hbind =>
    rw [hserver, Option.bind_some] at hbind
    obtain ⟨hwords, -, hfew⟩ := expectedContainers_spec hbind
    cases henrolled : v.enrolled serverId with
    | false => exact ⟨.unknownAgent, t, rfl, .refused (by decide)⟩
    | true =>
    cases hpayload : payloadOk v p expected with
    | false => exact ⟨.invalidPayload, t, rfl, .refused (by decide)⟩
    | true =>
    simp only [payloadOk, Bool.and_eq_true, Option.any_eq_true, decide_eq_true_eq] at hpayload
    obtain ⟨⟨⟨nonce, hnonce, -⟩, ⟨observedAt, hobserved, -⟩⟩, ⟨containers, hcontainers,
      ⟨⟨htype, -⟩, hlength⟩, hdistinct⟩⟩ := hpayload
    obtain ⟨items, rfl⟩ := Jsonb.typeof_eq_array htype
    obtain ⟨o, hitems, haccepted, hok⟩ := checkItems_spec hwords items
    rw [hcontainers]
    change ∃ a t', (checkItems expected items >>= fun o => _) = Except.ok (a, t') ∧ _
    rw [hitems]
    cases o with
    | some answer => exact ⟨answer, t, rfl, .refused fun h => haccepted (congrArg some h)⟩
    | none =>
    cases hreplayed : (t serverId).any (replayed p) with
    | true => exact ⟨.replayedRequest, t, rfl, .refused (by decide)⟩
    | false =>
    cases hlimited : (t serverId).any
        fun previous => v.limited - 15 * second < previous.receivedAt with
    | true => exact ⟨.rateLimited, t, rfl, .refused (by decide)⟩
    | false =>
    have hfits : (decide ((Jsonb.arr items).typeof = "array") &&
        decide ((Jsonb.arr items).elements.length ≤ 20)) = true := by
      rw [hlength]
      simp [Jsonb.typeof, hfew]
    have hstored : storeInventory v serverId p t =
        .ok (t.put serverId ⟨observedAt, v.stored, nonce, .arr items⟩) := by
      rw [storeInventory, hobserved, hnonce, hcontainers]
      simp only [orRaise, bind, Except.bind, pure, Except.pure, checkAll, hfits, if_true]
    have hwellFormed : WellFormed expected (.arr items) :=
      wellFormed_of_tests hlength hdistinct (hok rfl)
    have hnewer : ∀ previous ∈ t serverId, previous.observedAt < observedAt := by
      intro previous hprevious
      -- what is stored is older, or the report would have been taken for a repetition
      rw [hprevious, Option.any_some, replayed, hobserved] at hreplayed
      simp only [Option.any_some, Bool.or_eq_false_iff, decide_eq_false_iff_not] at hreplayed
      exact not_le.1 hreplayed.2
    have hspec : Ingested p t .accepted
        (t.put serverId ⟨observedAt, v.stored, nonce, .arr items⟩) :=
      .stored hserver hbind hobserved hnewer hwellFormed
    refine ⟨.accepted, _, ?_, hspec⟩
    change (storeInventory v serverId p t >>= fun t => _) = _
    rw [hstored]
    rfl
  next => exact ⟨.targetNotAllowed, t, rfl, .refused (by decide)⟩

/-! ## Runs -/

/-- A call with its arguments. -/
structure InventoryRequest where
  call : InventoryCall
  params : InventoryParams

namespace Inventory

/-- Nothing has been reported. -/
def empty : Inventory := fun _ => none

/-- A call that aborts leaves the table as it was. -/
def step (t : Inventory) (x : InventoryRequest) : Inventory :=
  match ingestRuntimeInventory x.call x.params t with
  | .ok (_, t') => t'
  | .error _ => t

/-- The table after a list of calls. -/
def run (t : Inventory) (requests : List InventoryRequest) : Inventory := Runs.run step t requests

end Inventory

/-- The call is accepted. -/
def Accepted (t : Inventory) (x : InventoryRequest) : Prop :=
  ∃ t', ingestRuntimeInventory x.call x.params t = .ok (.accepted, t')

theorem step_spec (t : Inventory) (x : InventoryRequest) :
    ∃ a, ingestRuntimeInventory x.call x.params t = .ok (a, Inventory.step t x) ∧
      Ingested x.params t a (Inventory.step t x) := by
  obtain ⟨a, t', hcall, hspec⟩ := ingest_spec x.call x.params t
  have hstep : Inventory.step t x = t' := by rw [Inventory.step, hcall]
  rw [hstep]
  exact ⟨a, hcall, hspec⟩

/-- A report at `time` or later is stored for the server. -/
def AtLeast (serverId : String) (time : Timestamptz) (t : Inventory) : Prop :=
  ∃ row ∈ t serverId, time ≤ row.observedAt

theorem atLeast_step {serverId : String} {time : Timestamptz} {t : Inventory}
    (h : AtLeast serverId time t) (x : InventoryRequest) :
    AtLeast serverId time (Inventory.step t x) := by
  obtain ⟨a, -, hspec⟩ := step_spec t x
  generalize Inventory.step t x = t' at hspec
  cases hspec with
  | refused => exact h
  | @stored serverId' expected row hserver hexpected hobserved hnewer hwellFormed =>
    obtain ⟨previous, hprevious, hle⟩ := h
    by_cases hsame : serverId = serverId'
    · subst hsame
      exact ⟨row, t.put_same serverId row, hle.trans (hnewer previous hprevious).le⟩
    · exact ⟨previous, (t.put_other row hsame).trans hprevious, hle⟩

/-- A call that is accepted leaves its own report. -/
theorem atLeast_of_accepted {t : Inventory} {x : InventoryRequest} {serverId : String}
    {time : Timestamptz} (h : Accepted t x) (hserver : x.params.serverId = some serverId)
    (hobserved : x.params.observedAt = some time) :
    AtLeast serverId time (Inventory.step t x) := by
  obtain ⟨t', hcall⟩ := h
  obtain ⟨a, hcall', hspec⟩ := step_spec t x
  rw [hcall] at hcall'
  obtain ⟨rfl, -⟩ := Prod.mk.inj (Except.ok.inj hcall')
  generalize Inventory.step t x = t' at hspec
  cases hspec with
  | refused h => exact absurd rfl h
  | @stored serverId' expected row hserver' hexpected hobserved' hnewer hwellFormed =>
    obtain rfl : serverId' = serverId := Option.some.inj (hserver'.symm.trans hserver)
    obtain rfl : row.observedAt = time := Option.some.inj (hobserved'.symm.trans hobserved)
    exact ⟨row, t.put_same serverId' row, le_rfl⟩

/-- A call that is accepted is newer than what is stored. -/
theorem lt_of_accepted {t : Inventory} {x : InventoryRequest} {serverId : String}
    {time time' : Timestamptz} (hstored : AtLeast serverId time t) (h : Accepted t x)
    (hserver : x.params.serverId = some serverId) (hobserved : x.params.observedAt = some time') :
    time < time' := by
  obtain ⟨t', hcall⟩ := h
  obtain ⟨a, hcall', hspec⟩ := step_spec t x
  rw [hcall] at hcall'
  obtain ⟨rfl, -⟩ := Prod.mk.inj (Except.ok.inj hcall')
  generalize Inventory.step t x = t' at hspec
  obtain ⟨previous, hprevious, hle⟩ := hstored
  cases hspec with
  | refused h => exact absurd rfl h
  | @stored serverId' expected row hserver' hexpected hobserved' hnewer hwellFormed =>
    obtain rfl : serverId' = serverId := Option.some.inj (hserver'.symm.trans hserver)
    obtain rfl : row.observedAt = time' := Option.some.inj (hobserved'.symm.trans hobserved)
    exact hle.trans_lt (hnewer previous hprevious)

/-- Every report that is stored has one well-formed entry for each expected container. -/
def Inventory.Sound (t : Inventory) : Prop :=
  ∀ serverId, ∀ row ∈ t serverId, ∃ expected, expectedContainers serverId = some expected ∧
    WellFormed expected row.containers

theorem sound_step (t : Inventory) (x : InventoryRequest) (h : t.Sound) :
    (Inventory.step t x).Sound := by
  obtain ⟨a, -, hspec⟩ := step_spec t x
  generalize Inventory.step t x = t' at hspec
  cases hspec with
  | refused => exact h
  | @stored serverId' expected row hserver hexpected hobserved hnewer hwellFormed =>
    intro serverId row' hrow
    by_cases hsame : serverId = serverId'
    · subst hsame
      obtain rfl : row = row' := Option.some.inj ((t.put_same serverId row).symm.trans hrow)
      exact ⟨expected, hexpected, hwellFormed⟩
    · exact h serverId row' ((t.put_other row hsame).symm.trans hrow)

/-- **The laws of a run** of calls with any arguments. -/
structure InventoryLaws (requests : List InventoryRequest) : Prop where
  /-- No call raises. -/
  total : ∀ x : InventoryRequest, ∃ a t', ingestRuntimeInventory x.call x.params (Inventory.empty.run requests) =
    .ok (a, t')
  /-- A call changes the table only if it is accepted, and then only the row of its server. -/
  frame : ∀ (x : InventoryRequest) a t', ingestRuntimeInventory x.call x.params (Inventory.empty.run requests) =
    .ok (a, t') → (a ≠ .accepted → t' = Inventory.empty.run requests) ∧
      ∀ s, x.params.serverId ≠ some s → t' s = Inventory.empty.run requests s
  /-- What is accepted for a server is newer each time. -/
  increasing : ∀ front x mid y back serverId time time',
    requests = front ++ x :: (mid ++ y :: back) → Accepted (Inventory.empty.run front) x →
    Accepted (Inventory.empty.run (front ++ x :: mid)) y → x.params.serverId = some serverId →
    y.params.serverId = some serverId → x.params.observedAt = some time →
    y.params.observedAt = some time' → time < time'
  /-- What is stored has one well-formed entry for each expected container. -/
  sound : (Inventory.empty.run requests).Sound

theorem inventory_laws (requests : List InventoryRequest) : InventoryLaws requests where
  total x := by
    obtain ⟨a, t', h, -⟩ := ingest_spec x.call x.params (Inventory.empty.run requests)
    exact ⟨a, t', h⟩
  frame x a t' h := by
    obtain ⟨a', t'', h', hspec⟩ := ingest_spec x.call x.params (Inventory.empty.run requests)
    rw [h] at h'
    obtain ⟨rfl, rfl⟩ := Prod.mk.inj (Except.ok.inj h')
    cases hspec with
    | refused => exact ⟨fun _ => rfl, fun _ _ => rfl⟩
    | stored hserver =>
      refine ⟨fun hne => absurd rfl hne, fun s hs => Inventory.put_other _ _ fun heq => hs ?_⟩
      rw [heq, hserver]
  increasing front x mid y back serverId time time' _ hx hy hxserver hyserver hxtime hytime := by
    have hstored : AtLeast serverId time (Inventory.empty.run (front ++ x :: mid)) := by
      rw [Inventory.run, Runs.run_append, Runs.run_cons]
      exact Runs.run_invariant (P := AtLeast serverId time) (fun _ z h => atLeast_step h z)
        (atLeast_of_accepted hx hxserver hxtime) mid
    exact lt_of_accepted hstored hy hyserver hytime
  sound := by
    have hempty : Inventory.empty.Sound := by
      intro serverId row h
      cases h
    exact Runs.run_invariant (P := Inventory.Sound) sound_step hempty requests

end IvrmDashboard.Monitoring

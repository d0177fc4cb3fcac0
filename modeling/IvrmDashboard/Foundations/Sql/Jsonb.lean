import Mathlib.Algebra.GroupWithZero.Nat
import Mathlib.Data.Int.Order.Basic
import IvrmDashboard.Foundations.Sql.Text

/-!
# `jsonb` values and their text

A `jsonb` value is a syntax tree: numbers keep their scale, the fields of an object are listed in
storage order. `render` is the cast to text. It is injective (`render_inj`): a string literal ends
at its first unescaped quote, a number at the first character that no number contains, and a
container at its own bracket, so the text of a value, read from its beginning, is the text of no
other value. The decidable equality of values is the equality of their texts.
-/

namespace Sql

/-- A `jsonb` value. The number `n / 10 ^ scale` is written with `scale` fractional digits. -/
inductive Jsonb
  | null
  | bool (b : Bool)
  | num (n : ℤ) (scale : ℕ)
  | str (s : String)
  | arr (items : List Jsonb)
  | obj (fields : List (String × Jsonb))

namespace Jsonb

/-! ## The cast to text -/

/-- The letter of a two-character escape. -/
def shortEscape : Char → Option Char
  | '"' => some '"'
  | '\\' => some '\\'
  | '\x08' => some 'b'
  | '\x0c' => some 'f'
  | '\n' => some 'n'
  | '\r' => some 'r'
  | '\t' => some 't'
  | _ => none

/-- A character inside a string literal. -/
def escapeChar (c : Char) : List Char :=
  match shortEscape c with
  | some e => ['\\', e]
  | none => if c.toNat < 32 then '\\' :: 'u' :: Text.fixedDigits 16 4 c.toNat else [c]

/-- A string literal. -/
def quote (s : String) : List Char := '"' :: (s.toList.flatMap escapeChar ++ ['"'])

/-- A number: sign, whole part, and the fractional digits when there are any. -/
def numText (n : ℤ) (scale : ℕ) : List Char :=
  (if n < 0 then ['-'] else []) ++ Text.decimal 0 (n.natAbs / 10 ^ scale) ++
    if scale = 0 then [] else '.' :: Text.decimal scale (n.natAbs % 10 ^ scale)

/-- What stands before an item: nothing before the first one. -/
def separator (first : Bool) : List Char := if first then [] else [',', ' ']

mutual

/-- `v::text`, as characters. -/
def render : Jsonb → List Char
  | .null => ['n', 'u', 'l', 'l']
  | .bool b => if b then ['t', 'r', 'u', 'e'] else ['f', 'a', 'l', 's', 'e']
  | .num n scale => numText n scale
  | .str s => quote s
  | .arr items => '[' :: renderItems true items
  | .obj fields => '{' :: renderFields true fields

/-- The items of an array up to its closing bracket. -/
def renderItems (first : Bool) : List Jsonb → List Char
  | [] => [']']
  | v :: items => separator first ++ (render v ++ renderItems false items)

/-- The fields of an object up to its closing brace. -/
def renderFields (first : Bool) : List (String × Jsonb) → List Char
  | [] => ['}']
  | (k, v) :: fields =>
    separator first ++ (quote k ++ ':' :: ' ' :: (render v ++ renderFields false fields))

end

/-- `v::text` -/
def text (v : Jsonb) : String := String.ofList v.render

/-- `octet_length(v::text)` -/
def octetLength (v : Jsonb) : ℕ := v.text.utf8ByteSize

/-! ## Reading and building objects -/

/-- `jsonb_typeof(v) = 'object'` -/
def isObject : Jsonb → Bool
  | .obj _ => true
  | _ => false

/-- `v -> k` -/
def get? (v : Jsonb) (k : String) : Option Jsonb :=
  match v with
  | .obj fields => fields.lookup k
  | _ => none

/-- `v ->> k` -/
def getText (v : Jsonb) (k : String) : Option String :=
  match v.get? k with
  | none | some .null => none
  | some (.str s) => some s
  | some w => some w.text

/-- The storage order of keys: shorter ones first, equal lengths by their bytes. -/
def keyLt (a b : String) : Bool :=
  a.utf8ByteSize < b.utf8ByteSize || (a.utf8ByteSize == b.utf8ByteSize && a < b)

/-- One field put in its place; a field of the same key is replaced. -/
def insertField (k : String) (v : Jsonb) : List (String × Jsonb) → List (String × Jsonb)
  | [] => [(k, v)]
  | (k', v') :: fields =>
    if k = k' then (k, v) :: fields
    else if keyLt k k' then (k, v) :: (k', v') :: fields
    else (k', v') :: insertField k v fields

/-- `jsonb_build_object(…)`, and what a `jsonb` literal becomes. -/
def buildObject (fields : List (String × Jsonb)) : Jsonb :=
  .obj (fields.foldl (fun acc f => insertField f.1 f.2 acc) [])

/-- The conversion of a nullable column by `jsonb_build_object`. -/
def ofOption {α : Type*} (f : α → Jsonb) : Option α → Jsonb
  | some a => f a
  | none => .null

/-! ## Reading back what was built -/

theorem lookup_insertField (k k' : String) (v : Jsonb) (fields : List (String × Jsonb)) :
    (insertField k v fields).lookup k' = if k' = k then some v else fields.lookup k' := by
  induction fields with
  | nil =>
    by_cases h : k' = k
    · simp [insertField, h]
    · simp [insertField, List.lookup_cons, h, beq_eq_false_iff_ne.2 h]
  | cons f fields ih =>
    obtain ⟨k₀, v₀⟩ := f
    simp only [insertField]
    split_ifs with h1 h2 h3 h3 <;> simp_all [List.lookup_cons] <;> grind

/-- The object has the last of the fields given under a key. -/
theorem get?_buildObject (fields : List (String × Jsonb)) (k : String) :
    (buildObject fields).get? k = fields.reverse.lookup k := by
  have key : ∀ acc, (fields.foldl (fun acc f => insertField f.1 f.2 acc) acc).lookup k =
      (fields.reverse.lookup k).or (acc.lookup k) := by
    induction fields with
    | nil => intro acc; simp
    | cons f fields ih =>
      obtain ⟨k₀, v₀⟩ := f
      intro acc
      rw [List.foldl_cons, ih, lookup_insertField, List.reverse_cons, List.lookup_append,
        Option.or_assoc]
      by_cases h : k = k₀
      · simp [h]
      · simp [List.lookup_cons, h, beq_eq_false_iff_ne.2 h]
  simpa [get?, buildObject] using key []

/-! ## A bound on the size of an object -/

theorem utf8ByteSize_ofList_le (l : List Char) :
    (String.ofList l).utf8ByteSize ≤ 4 * l.length := by
  induction l with
  | nil => simp
  | cons c l ih =>
    have := c.utf8Size_le_four
    rw [String.ofList_cons, String.utf8ByteSize_append, String.utf8ByteSize_singleton,
      List.length_cons]
    omega

theorem length_escapeChar_le (c : Char) : (escapeChar c).length ≤ 6 := by
  unfold escapeChar
  split
  · simp
  · split <;> simp

theorem length_quote_le (s : String) : (quote s).length ≤ 2 + 6 * s.length := by
  have key : ∀ l : List Char, (l.flatMap escapeChar).length ≤ 6 * l.length := by
    intro l
    induction l with
    | nil => simp
    | cons c l ih =>
      have := length_escapeChar_le c
      simp only [List.flatMap_cons, List.length_append, List.length_cons]
      omega
  have := key s.toList
  rw [String.length_toList] at this
  simp only [quote, List.length_cons, List.length_append, List.length_nil]
  omega

/-- The characters that fields take inside their object. -/
def fieldsLength (fields : List (String × Jsonb)) : ℕ :=
  (fields.map fun f => 4 + (quote f.1).length + (render f.2).length).sum

theorem length_renderFields_le (first : Bool) (fields : List (String × Jsonb)) :
    (renderFields first fields).length ≤ 1 + fieldsLength fields := by
  induction fields generalizing first with
  | nil => simp [renderFields]
  | cons f fields ih =>
    obtain ⟨k, v⟩ := f
    have := ih false
    have hsep : (separator first).length ≤ 2 := by cases first <;> simp [separator]
    simp only [renderFields, List.length_append, List.length_cons, fieldsLength, List.map_cons,
      List.sum_cons] at this ⊢
    omega

theorem fieldsLength_insertField_le (k : String) (v : Jsonb) (fields : List (String × Jsonb)) :
    fieldsLength (insertField k v fields) ≤ fieldsLength ((k, v) :: fields) := by
  induction fields with
  | nil => exact Nat.le_refl _
  | cons f fields ih =>
    obtain ⟨k', v'⟩ := f
    simp only [insertField]
    simp only [fieldsLength, List.map_cons, List.sum_cons] at ih ⊢
    split_ifs <;> simp only [List.map_cons, List.sum_cons] <;> omega

theorem octetLength_buildObject_le (fields : List (String × Jsonb)) :
    (buildObject fields).octetLength ≤ 4 * (2 + fieldsLength fields) := by
  have key : ∀ acc, fieldsLength (fields.foldl (fun acc f => insertField f.1 f.2 acc) acc) ≤
      fieldsLength acc + fieldsLength fields := by
    induction fields with
    | nil => exact fun acc => Nat.le_refl _
    | cons f fields ih =>
      intro acc
      have h1 := ih (insertField f.1 f.2 acc)
      have h2 := fieldsLength_insertField_le f.1 f.2 acc
      simp only [List.foldl_cons]
      simp only [fieldsLength, List.map_cons, List.sum_cons] at h1 h2 ⊢
      omega
  have hfields := key []
  have hrender := length_renderFields_le true
    (fields.foldl (fun acc f => insertField f.1 f.2 acc) [])
  have hbytes := utf8ByteSize_ofList_le (render (buildObject fields))
  simp only [octetLength, text, buildObject, render, List.length_cons] at hbytes ⊢
  simp only [fieldsLength, List.map_nil, List.sum_nil] at hfields hrender ⊢
  omega

/-- A field whose key and value are short. -/
def ShortField (f : String × Jsonb) : Prop := f.1.length ≤ 24 ∧ (render f.2).length ≤ 152

theorem shortField_str {k v : String} (hk : k.length ≤ 24) (hv : v.length ≤ 25) :
    ShortField (k, .str v) := by
  have := length_quote_le v
  refine ⟨hk, ?_⟩
  simp only [render]
  omega

theorem shortField_bool {k : String} (b : Bool) (hk : k.length ≤ 24) : ShortField (k, .bool b) := by
  refine ⟨hk, ?_⟩
  cases b <;> simp [render]

/-- The size of an object whose keys and values are bounded. -/
theorem octetLength_le_of_fields {a b : ℕ} {fields : List (String × Jsonb)}
    (h : ∀ f ∈ fields, f.1.length ≤ a ∧ (render f.2).length ≤ b) :
    (buildObject fields).octetLength ≤ 4 * (2 + (6 + 6 * a + b) * fields.length) := by
  have key : fieldsLength fields ≤ (6 + 6 * a + b) * fields.length := by
    induction fields with
    | nil => simp [fieldsLength]
    | cons f fields ih =>
      obtain ⟨hkey, hvalue⟩ := h f List.mem_cons_self
      have hquote := length_quote_le f.1
      have hrest := ih fun g hg => h g (List.mem_cons_of_mem _ hg)
      simp only [fieldsLength, List.map_cons, List.sum_cons, List.length_cons, Nat.mul_succ] at *
      omega
  have := octetLength_buildObject_le fields
  omega

/-- An object of at most six short fields fits in 8192 bytes. -/
theorem octetLength_le_of_short {fields : List (String × Jsonb)} (hlen : fields.length ≤ 6)
    (h : ∀ f ∈ fields, ShortField f) : (buildObject fields).octetLength ≤ 8192 := by
  have := octetLength_le_of_fields h
  omega

theorem mem_insertField {k : String} {v : Jsonb} {fields : List (String × Jsonb)}
    {f : String × Jsonb} (h : f ∈ insertField k v fields) : f = (k, v) ∨ f ∈ fields := by
  induction fields with
  | nil => exact .inl (List.mem_singleton.1 h)
  | cons g fields ih =>
    obtain ⟨k', v'⟩ := g
    simp only [insertField] at h
    split_ifs at h <;> simp only [List.mem_cons] at h ⊢ <;> tauto

/-- An object has no other fields than it was built from. -/
theorem mem_of_buildObject {fields : List (String × Jsonb)} {f : String × Jsonb}
    (h : f ∈ fields.foldl (fun acc f => insertField f.1 f.2 acc) []) : f ∈ fields := by
  have key : ∀ acc, f ∈ fields.foldl (fun acc f => insertField f.1 f.2 acc) acc →
      f ∈ acc ∨ f ∈ fields := by
    clear h
    induction fields with
    | nil => exact fun acc h => .inl h
    | cons g fields ih =>
      intro acc h
      rcases ih _ h with h | h
      · rcases mem_insertField h with rfl | h
        · exact .inr List.mem_cons_self
        · exact .inl h
      · exact .inr (List.mem_cons_of_mem _ h)
  simpa using key [] h

/-! ## Every text is read in one way -/

/-- What may follow a value inside another: the next item or the end of the container. -/
def Stop (r : List Char) : Prop := ∀ c ∈ r.head?, c = ',' ∨ c = ']' ∨ c = '}'

theorem stop_nil : Stop [] := by simp [Stop]

/-- Two readings of the longest prefix in a class of characters agree. -/
theorem append_inj_of_class (p : Char → Bool) {l l' r r' : List Char} (hl : ∀ c ∈ l, p c = true)
    (hl' : ∀ c ∈ l', p c = true) (hr : ∀ c ∈ r.head?, p c = false)
    (hr' : ∀ c ∈ r'.head?, p c = false) (h : l ++ r = l' ++ r') : l = l' ∧ r = r' := by
  induction l generalizing l' with
  | nil =>
    cases l' with
    | nil => exact ⟨rfl, h⟩
    | cons c l' =>
      have := hr c (by simp [show r = c :: (l' ++ r') from h])
      simp [hl' c (by simp)] at this
  | cons c l ih =>
    cases l' with
    | nil =>
      have := hr' c (by simp [show r' = c :: (l ++ r) from h.symm])
      simp [hl c (by simp)] at this
    | cons c' l' =>
      obtain ⟨hc, h⟩ := List.cons_eq_cons.1 h
      obtain ⟨hll, hrr⟩ :=
        ih (fun d hd => hl d (by simp [hd])) (fun d hd => hl' d (by simp [hd])) h
      exact ⟨by rw [hc, hll], hrr⟩

theorem shortEscape_inj {c d e : Char} (hc : shortEscape c = some e) (hd : shortEscape d = some e) :
    c = d := by
  unfold shortEscape at hc hd
  split at hc <;> split at hd <;> first | rfl | (cases hc; done) | (cases hc; simp at hd)

theorem shortEscape_ne_u {c : Char} : shortEscape c ≠ some 'u' := by
  unfold shortEscape
  split <;> simp

theorem ne_backslash {c : Char} (h : shortEscape c = none) : c ≠ '\\' := by
  rintro rfl
  simp [shortEscape] at h

theorem ne_quote {c : Char} (h : shortEscape c = none) : c ≠ '"' := by
  rintro rfl
  simp [shortEscape] at h

/-- The three forms of an escaped character. -/
theorem escapeChar_cases (c : Char) :
    (∃ e, shortEscape c = some e ∧ escapeChar c = ['\\', e]) ∨
      (c.toNat < 32 ∧ escapeChar c = '\\' :: 'u' :: Text.fixedDigits 16 4 c.toNat) ∨
      (c ≠ '\\' ∧ c ≠ '"' ∧ escapeChar c = [c]) := by
  unfold escapeChar
  cases h : shortEscape c with
  | some e => exact .inl ⟨e, rfl, rfl⟩
  | none =>
    by_cases hc : c.toNat < 32
    · exact .inr (.inl ⟨hc, if_pos hc⟩)
    · exact .inr (.inr ⟨ne_backslash h, ne_quote h, if_neg hc⟩)

theorem escapeChar_append_inj {c d : Char} {r s : List Char}
    (h : escapeChar c ++ r = escapeChar d ++ s) : c = d ∧ r = s := by
  rcases escapeChar_cases c with ⟨e, hce, hc⟩ | ⟨hlt, hc⟩ | ⟨hb, hq, hc⟩ <;>
    rcases escapeChar_cases d with ⟨e', hde, hd⟩ | ⟨hlt', hd⟩ | ⟨hb', hq', hd⟩ <;>
    simp only [hc, hd, List.cons_append, List.nil_append, List.cons.injEq, true_and] at h
  · obtain ⟨rfl, h⟩ := h
    exact ⟨shortEscape_inj hce hde, h⟩
  · exact absurd (h.1 ▸ hce) shortEscape_ne_u
  · exact absurd h.1.symm hb'
  · exact absurd (h.1 ▸ hde) shortEscape_ne_u
  · obtain ⟨hn, h⟩ := List.append_inj h (by simp)
    exact ⟨Char.toNat_inj.1 (Text.fixedDigits_inj (by omega) (by omega) (by omega) (by omega) hn), h⟩
  · exact absurd h.1.symm hb'
  · exact absurd h.1 hb
  · exact absurd h.1 hb
  · exact h

theorem escapeChar_ne_quote {c : Char} {r s : List Char} : escapeChar c ++ r ≠ '"' :: s := by
  rcases escapeChar_cases c with ⟨e, -, hc⟩ | ⟨-, hc⟩ | ⟨-, hq, hc⟩ <;> simp [hc]
  intro h
  exact absurd h hq

theorem quote_append_inj {a b : String} {r s : List Char} (h : quote a ++ r = quote b ++ s) :
    a = b ∧ r = s := by
  have key : ∀ l l' : List Char,
      l.flatMap escapeChar ++ '"' :: r = l'.flatMap escapeChar ++ '"' :: s → l = l' ∧ r = s := by
    intro l
    induction l with
    | nil =>
      intro l' h
      cases l' with
      | nil => simpa using h
      | cons d l' =>
        rw [List.flatMap_cons, List.append_assoc] at h
        exact absurd h.symm escapeChar_ne_quote
    | cons c l ih =>
      intro l' h
      cases l' with
      | nil =>
        rw [List.flatMap_cons, List.append_assoc] at h
        exact absurd h escapeChar_ne_quote
      | cons d l' =>
        simp only [List.flatMap_cons, List.append_assoc] at h
        obtain ⟨hcd, h⟩ := escapeChar_append_inj h
        obtain ⟨hl, hrs⟩ := ih l' h
        exact ⟨by rw [hcd, hl], hrs⟩
  obtain ⟨hl, hr⟩ := key a.toList b.toList (by simpa [quote] using h)
  exact ⟨String.toList_inj.1 hl, hr⟩

/-! ## Numbers -/

/-- The characters of a number. -/
def numChar (c : Char) : Bool := c.isDigit || c == '-' || c == '.'

theorem numChar_of_mem_numText {n : ℤ} {scale : ℕ} {c : Char} (h : c ∈ numText n scale) :
    numChar c = true := by
  simp only [numText, List.mem_append] at h
  rcases h with (h | h) | h
  · split_ifs at h <;> simp_all [numChar]
  · simp [numChar, Text.isDigit_of_mem_decimal h]
  · split_ifs at h
    · simp at h
    · rcases List.mem_cons.1 h with rfl | h
      · rfl
      · simp [numChar, Text.isDigit_of_mem_decimal h]

theorem numChar_eq_false_of_stop {r : List Char} (h : Stop r) :
    ∀ c ∈ r.head?, numChar c = false := by
  intro c hc
  rcases h c hc with rfl | rfl | rfl <;> rfl

/-- The digits of a number, without its sign. -/
def magnitudeText (n scale : ℕ) : List Char :=
  Text.decimal 0 (n / 10 ^ scale) ++
    if scale = 0 then [] else '.' :: Text.decimal scale (n % 10 ^ scale)

theorem numText_eq (n : ℤ) (scale : ℕ) :
    numText n scale = (if n < 0 then ['-'] else []) ++ magnitudeText n.natAbs scale :=
  List.append_assoc ..

theorem magnitudeText_ne_minus (n scale : ℕ) (r : List Char) : magnitudeText n scale ≠ '-' :: r := by
  intro h
  obtain ⟨c, l, hl⟩ := List.exists_cons_of_ne_nil (Text.decimal_ne_nil 0 (n / 10 ^ scale))
  have hd : c.isDigit = true :=
    Text.isDigit_of_mem_decimal (by rw [hl]; exact List.mem_cons_self)
  rw [magnitudeText, hl, List.cons_append, List.cons_eq_cons] at h
  rw [h.1] at hd
  exact absurd hd (by decide)

theorem magnitudeText_inj {n m i j : ℕ} (h : magnitudeText n i = magnitudeText m j) :
    n = m ∧ i = j := by
  obtain ⟨hwhole, hfrac⟩ := append_inj_of_class Char.isDigit
    (fun c => Text.isDigit_of_mem_decimal) (fun c => Text.isDigit_of_mem_decimal)
    (by split_ifs <;> simp) (by split_ifs <;> simp) h
  have hlen (k x : ℕ) : (if k = 0 then [] else '.' :: Text.decimal k (x % 10 ^ k)).length =
      if k = 0 then 0 else k + 1 := by
    split_ifs with hk
    · rfl
    · rw [List.length_cons, Text.length_decimal (by omega) (Nat.mod_lt _ (Nat.pow_pos (by omega)))]
  have hij : i = j := by
    have := congrArg List.length hfrac
    rw [hlen, hlen] at this
    split_ifs at this <;> omega
  subst hij
  have hmod : n % 10 ^ i = m % 10 ^ i := by
    split_ifs at hfrac with h0
    · simp [h0, Nat.mod_one]
    · exact Text.decimal_inj (List.cons_eq_cons.1 hfrac).2
  refine ⟨?_, rfl⟩
  rw [← Nat.div_add_mod n (10 ^ i), Text.decimal_inj hwhole, hmod, Nat.div_add_mod]

/-- The sign and the digits of a number give back the number. -/
theorem numText_inj {n m : ℤ} {i j : ℕ} (h : numText n i = numText m j) : n = m ∧ i = j := by
  rw [numText_eq, numText_eq] at h
  split_ifs at h with hn hm hm
  · obtain ⟨habs, hij⟩ := magnitudeText_inj (List.cons_eq_cons.1 h).2
    exact ⟨by omega, hij⟩
  · exact absurd h.symm (magnitudeText_ne_minus m.natAbs j _)
  · exact absurd h (magnitudeText_ne_minus n.natAbs i _)
  · obtain ⟨habs, hij⟩ := magnitudeText_inj h
    exact ⟨by omega, hij⟩

theorem numText_append_inj {n m : ℤ} {i j : ℕ} {r s : List Char} (hr : Stop r) (hs : Stop s)
    (h : numText n i ++ r = numText m j ++ s) : (n = m ∧ i = j) ∧ r = s := by
  obtain ⟨hnum, hrs⟩ := append_inj_of_class numChar (fun c => numChar_of_mem_numText)
    (fun c => numChar_of_mem_numText) (numChar_eq_false_of_stop hr) (numChar_eq_false_of_stop hs) h
  exact ⟨numText_inj hnum, hrs⟩

/-! ## Values -/

/-- The constructor a text belongs to, by its first character. -/
def leadKind (c : Char) : ℕ :=
  if c = 'n' then 0 else if c = 't' ∨ c = 'f' then 1 else if c = '"' then 3
  else if c = '[' then 4 else if c = '{' then 5 else 2

/-- The constructor of a value. -/
def kind : Jsonb → ℕ
  | .null => 0
  | .bool _ => 1
  | .num .. => 2
  | .str _ => 3
  | .arr _ => 4
  | .obj _ => 5

theorem leadKind_of_numChar {c : Char} (h : numChar c = true) : leadKind c = 2 := by
  unfold leadKind
  split_ifs with h1 h2 h3 h4 h5
  · subst h1; simp [numChar] at h
  · rcases h2 with rfl | rfl <;> simp [numChar] at h
  · subst h3; simp [numChar] at h
  · subst h4; simp [numChar] at h
  · subst h5; simp [numChar] at h
  · rfl

theorem render_lead (v : Jsonb) : ∃ c l, render v = c :: l ∧ leadKind c = kind v := by
  cases v with
  | null => exact ⟨_, _, rfl, rfl⟩
  | bool b => cases b <;> exact ⟨_, _, rfl, rfl⟩
  | num n scale =>
    have hne : numText n scale ≠ [] := by simp [numText, Text.decimal_ne_nil]
    obtain ⟨c, l, hl⟩ := List.exists_cons_of_ne_nil hne
    have hc : c ∈ numText n scale := by simp [hl]
    exact ⟨c, l, by rw [render, hl], leadKind_of_numChar (numChar_of_mem_numText hc)⟩
  | str s => exact ⟨_, _, rfl, rfl⟩
  | arr items => exact ⟨_, _, rfl, rfl⟩
  | obj fields => exact ⟨_, _, rfl, rfl⟩

theorem kind_eq_of_render {v w : Jsonb} {r s : List Char} (h : render v ++ r = render w ++ s) :
    kind v = kind w := by
  obtain ⟨c, l, hv, hc⟩ := render_lead v
  obtain ⟨d, l', hw, hd⟩ := render_lead w
  rw [hv, hw, List.cons_append, List.cons_append, List.cons_eq_cons] at h
  rw [← hc, ← hd, h.1]

/-- An item list and a field list stop the value before them. -/
theorem stop_renderItems (items : List Jsonb) (r : List Char) :
    Stop (renderItems false items ++ r) := by
  cases items <;> simp [renderItems, separator, Stop]

theorem stop_renderFields (fields : List (String × Jsonb)) (r : List Char) :
    Stop (renderFields false fields ++ r) := by
  cases fields <;> simp [renderFields, separator, Stop]

/-- An item never starts like the end of its array. -/
theorem render_ne_bracket (v : Jsonb) (r s : List Char) : render v ++ r ≠ ']' :: s := by
  obtain ⟨c, l, hv, hc⟩ := render_lead v
  rw [hv, List.cons_append]
  intro h
  rw [(List.cons_eq_cons.1 h).1] at hc
  cases v with
  | num n scale =>
    have hmem : ']' ∈ numText n scale := by
      rw [render, (List.cons_eq_cons.1 h).1] at hv
      simp [hv]
    exact absurd (numChar_of_mem_numText hmem) (by decide)
  | _ => simp [leadKind, kind] at hc

mutual

theorem render_append_inj : ∀ (v w : Jsonb) {r s : List Char}, Stop r → Stop s →
    render v ++ r = render w ++ s → v = w ∧ r = s
  | .null, w, r, s, _, _, h => by
    have hk := kind_eq_of_render h
    cases w <;> simp [kind] at hk
    exact ⟨rfl, by simpa [render] using h⟩
  | .bool b, w, r, s, _, _, h => by
    have hk := kind_eq_of_render h
    cases w <;> simp [kind] at hk
    rename_i c
    cases b <;> cases c <;> simp [render] at h ⊢
    · exact h
    · exact h
  | .num n i, w, r, s, hr, hs, h => by
    have hk := kind_eq_of_render h
    cases w <;> simp [kind] at hk
    simp only [render] at h
    obtain ⟨⟨rfl, rfl⟩, hrs⟩ := numText_append_inj hr hs h
    exact ⟨rfl, hrs⟩
  | .str a, w, r, s, _, _, h => by
    have hk := kind_eq_of_render h
    cases w <;> simp [kind] at hk
    simp only [render] at h
    obtain ⟨rfl, hrs⟩ := quote_append_inj h
    exact ⟨rfl, hrs⟩
  | .arr items, w, r, s, _, _, h => by
    have hk := kind_eq_of_render h
    cases w <;> simp [kind] at hk
    simp only [render, List.cons_append, List.cons.injEq, true_and] at h
    obtain ⟨rfl, hrs⟩ := renderItems_append_inj true items _ h
    exact ⟨rfl, hrs⟩
  | .obj fields, w, r, s, _, _, h => by
    have hk := kind_eq_of_render h
    cases w <;> simp [kind] at hk
    simp only [render, List.cons_append, List.cons.injEq, true_and] at h
    obtain ⟨rfl, hrs⟩ := renderFields_append_inj true fields _ h
    exact ⟨rfl, hrs⟩

theorem renderItems_append_inj : ∀ (first : Bool) (items items' : List Jsonb) {r s : List Char},
    renderItems first items ++ r = renderItems first items' ++ s → items = items' ∧ r = s
  | first, [], [], r, s, h => by
    exact ⟨rfl, by simpa [renderItems] using h⟩
  | first, [], w :: items', r, s, h => by
    cases first
    · simp [renderItems, separator] at h
    · simp only [renderItems, separator, if_true, List.nil_append, List.append_assoc] at h
      exact absurd h.symm (render_ne_bracket w _ _)
  | first, v :: items, [], r, s, h => by
    cases first
    · simp [renderItems, separator] at h
    · simp only [renderItems, separator, if_true, List.nil_append, List.append_assoc] at h
      exact absurd h (render_ne_bracket v _ _)
  | first, v :: items, w :: items', r, s, h => by
    simp only [renderItems, List.append_assoc, List.append_cancel_left_eq] at h
    obtain ⟨rfl, htail⟩ :=
      render_append_inj v w (stop_renderItems items r) (stop_renderItems items' s) h
    obtain ⟨rfl, hrs⟩ := renderItems_append_inj false items items' htail
    exact ⟨rfl, hrs⟩

theorem renderFields_append_inj : ∀ (first : Bool) (fields fields' : List (String × Jsonb))
    {r s : List Char},
    renderFields first fields ++ r = renderFields first fields' ++ s → fields = fields' ∧ r = s
  | first, [], [], r, s, h => by
    exact ⟨rfl, by simpa [renderFields] using h⟩
  | first, [], (k, w) :: fields', r, s, h => by
    cases first <;> simp [renderFields, separator, quote] at h
  | first, (k, v) :: fields, [], r, s, h => by
    cases first <;> simp [renderFields, separator, quote] at h
  | first, (k, v) :: fields, (k', w) :: fields', r, s, h => by
    simp only [renderFields, List.append_assoc, List.append_cancel_left_eq, List.cons_append] at h
    obtain ⟨rfl, hvalue⟩ := quote_append_inj h
    simp only [List.cons.injEq, true_and] at hvalue
    obtain ⟨rfl, htail⟩ :=
      render_append_inj v w (stop_renderFields fields r) (stop_renderFields fields' s) hvalue
    obtain ⟨rfl, hrs⟩ := renderFields_append_inj false fields fields' htail
    exact ⟨rfl, hrs⟩

end

/-- **The text of a `jsonb` value determines it.** -/
theorem render_inj {v w : Jsonb} (h : render v = render w) : v = w :=
  (render_append_inj v w stop_nil stop_nil (by rw [h])).1

theorem text_inj {v w : Jsonb} (h : v.text = w.text) : v = w :=
  render_inj (String.ofList_injective h)

instance : DecidableEq Jsonb := fun v w =>
  decidable_of_iff (v.render = w.render) ⟨render_inj, congrArg render⟩

end Jsonb

end Sql

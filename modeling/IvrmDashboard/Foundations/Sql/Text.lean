import Mathlib.Algebra.Group.Nat.Defs
import Mathlib.Data.List.Basic
import Mathlib.Data.List.DropRight

/-!
# Text columns

The text predicates the migrations use: length limits, regular expressions of the two shapes
`^[class]+$` and `^[class]{n}$`, and the case and blank normalisation of identifiers. What
`lower` does outside ASCII is the business of the database's collation and is left to the
installation, as is the digest of `pgcrypto`.
-/

namespace Sql

/-- What the installed server supplies: the collation's lower case of a character outside ASCII,
and SHA-256 on byte strings. -/
class Server where
  lowerNonAscii : Char → Char
  sha256 : ByteArray → BitVec 256

/-- A small installation to evaluate definitions on: nothing outside ASCII has a lower case, and the
digest is a polynomial in the first 64 bytes. -/
@[reducible]
def sampleServer : Server where
  lowerNonAscii c := c
  sha256 b := BitVec.ofNat 256
    ((b.data.toList.take 64).foldl (fun h x => (h * 257 + x.toNat) % 2 ^ 256) 7)

namespace Sample

scoped instance : Server := sampleServer

end Sample

namespace Text

/-- `char_length(s) between lo and hi` -/
def lengthBetween (lo hi : ℕ) (s : String) : Bool := lo ≤ s.length && s.length ≤ hi

/-- `s ~ '^[p]+$'` -/
def matchesPlus (p : Char → Bool) (s : String) : Bool := s ≠ "" && s.toList.all p

/-- `s ~ '^[p]{n}$'` -/
def matchesExactly (p : Char → Bool) (n : ℕ) (s : String) : Bool := s.length == n && s.toList.all p

/-- `[0-9]` -/
def digit (c : Char) : Bool := '0' ≤ c && c ≤ '9'

/-- `[a-z]` -/
def lowerAlpha (c : Char) : Bool := 'a' ≤ c && c ≤ 'z'

/-- `[A-Z]` -/
def upperAlpha (c : Char) : Bool := 'A' ≤ c && c ≤ 'Z'

/-- `[0-9a-f]` -/
def hexDigit (c : Char) : Bool := digit c || ('a' ≤ c && c ≤ 'f')

/-- The lower case of a character: ASCII is fixed, the rest belongs to the collation. -/
def lowerChar [Server] (c : Char) : Char :=
  if c.toNat < 128 then c.toLower else Server.lowerNonAscii c

/-- `lower(s)` -/
def lower [Server] (s : String) : String := String.ofList (s.toList.map lowerChar)

/-- The lower case of an ASCII text is the same in every installation. -/
theorem lower_eq_of_ascii [Server] {s : String} (h : s.toList.all (·.toNat < 128) = true) :
    lower s = String.ofList (s.toList.map Char.toLower) := by
  have hmap : s.toList.map lowerChar = s.toList.map Char.toLower := by
    refine List.map_congr_left fun c hc => if_pos ?_
    simpa using List.all_eq_true.1 h c hc
  rw [lower, hmap]

/-- `btrim(s)`: blanks are dropped at both ends. -/
def btrim (s : String) : String :=
  String.ofList (((s.toList.dropWhile (· == ' ')).reverse.dropWhile (· == ' ')).reverse)

/-- `btrim` drops the blanks at the front and then those at the end. -/
theorem toList_btrim (s : String) :
    (btrim s).toList = (s.toList.dropWhile (· == ' ')).rdropWhile (· == ' ') :=
  String.toList_ofList

/-- What has no blank at the front keeps none when the end is dropped. -/
theorem dropWhile_rdropWhile (p : Char → Bool) (l : List Char) :
    ((l.dropWhile p).rdropWhile p).dropWhile p = (l.dropWhile p).rdropWhile p := by
  rw [List.dropWhile_eq_self_iff]
  intro hne hblank
  have hprefix := List.rdropWhile_prefix p (l.dropWhile p)
  have hpos : 0 < (l.dropWhile p).length := hne.trans_le hprefix.length_le
  have hhead := hprefix.getElem hne
  refine List.dropWhile_get_zero_not _ _ hpos ?_
  rw [List.get_eq_getElem, ← hhead]
  exact hblank

theorem btrim_btrim (s : String) : btrim (btrim s) = btrim s := by
  refine String.toList_injective ?_
  rw [toList_btrim, toList_btrim, dropWhile_rdropWhile, List.rdropWhile_idempotent]

/-- `upper` of a hex digit. -/
theorem upperHex_of_hexDigit {c : Char} (h : hexDigit c = true) :
    (digit c.toUpper || ('A' ≤ c.toUpper && c.toUpper ≤ 'F')) = true := by
  have hall : ∀ k < 128, hexDigit (Char.ofNat k) = true →
      (digit (Char.ofNat k).toUpper ||
        ('A' ≤ (Char.ofNat k).toUpper && (Char.ofNat k).toUpper ≤ 'F')) = true := by decide
  have hle : c ≤ 'f' := by
    simp only [hexDigit, digit, Bool.or_eq_true, Bool.and_eq_true, decide_eq_true_eq] at h
    rcases h with h | h
    · exact Char.le_trans h.2 (by decide)
    · exact h.2
  have hf : 'f'.toNat < 128 := by decide
  have hlt : c.toNat < 128 := lt_of_le_of_lt hle hf
  have hc := hall c.toNat hlt
  rw [Char.ofNat_toNat] at hc
  exact hc h

/-! ## Digits -/

/-- `n` in base `b` in a field of exactly `w` digits; what does not fit is dropped. -/
def fixedDigits (b : ℕ) : ℕ → ℕ → List Char
  | 0, _ => []
  | w + 1, n => fixedDigits b w (n / b) ++ [Nat.digitChar (n % b)]

/-- `n` in decimal in a field of at least `w` digits, as the fields of `to_char` are. -/
def decimal (w n : ℕ) : List Char :=
  List.replicate (w - (Nat.toDigits 10 n).length) '0' ++ Nat.toDigits 10 n

@[simp] theorem length_fixedDigits (b w n : ℕ) : (fixedDigits b w n).length = w := by
  induction w generalizing n with
  | zero => rfl
  | succ w ih => simp [fixedDigits, ih]

theorem digitChar_inj : ∀ j < 16, ∀ k < 16, Nat.digitChar j = Nat.digitChar k → j = k := by decide

theorem fixedDigits_inj {b : ℕ} (hb0 : 0 < b) (hb : b ≤ 16) :
    ∀ {w n m : ℕ}, n < b ^ w → m < b ^ w → fixedDigits b w n = fixedDigits b w m → n = m
  | 0, n, m, hn, hm, _ => by
    simp only [Nat.pow_zero] at hn hm
    omega
  | w + 1, n, m, hn, hm, h => by
    obtain ⟨hq, hr⟩ := List.append_inj' h rfl
    have hrem : n % b = m % b :=
      digitChar_inj _ (Nat.lt_of_lt_of_le (Nat.mod_lt _ hb0) hb) _
        (Nat.lt_of_lt_of_le (Nat.mod_lt _ hb0) hb) (List.singleton_inj.1 hr)
    have hquot : n / b = m / b :=
      fixedDigits_inj hb0 hb (Nat.div_lt_of_lt_mul (by rwa [Nat.pow_succ'] at hn))
        (Nat.div_lt_of_lt_mul (by rwa [Nat.pow_succ'] at hm)) hq
    rw [← Nat.div_add_mod n b, ← Nat.div_add_mod m b, hquot, hrem]

theorem ofDigitChars_decimal (w n : ℕ) : Nat.ofDigitChars 10 (decimal w n) 0 = n := by
  rw [decimal, Nat.ofDigitChars_append, Nat.ofDigitChars_replicate_zero, Nat.mul_zero,
    Nat.ofDigitChars_ten_toDigits]

theorem decimal_inj {w v n m : ℕ} (h : decimal w n = decimal v m) : n = m := by
  rw [← ofDigitChars_decimal w n, h, ofDigitChars_decimal]

theorem length_decimal {w n : ℕ} (hw : 0 < w) (h : n < 10 ^ w) : (decimal w n).length = w := by
  have := (Nat.length_toDigits_le_iff (b := 10) (by omega) hw).2 h
  simp only [decimal, List.length_append, List.length_replicate]
  omega

theorem isDigit_of_mem_decimal {w n : ℕ} {c : Char} (h : c ∈ decimal w n) : c.isDigit = true := by
  rcases List.mem_append.1 h with h | h
  · rw [List.eq_of_mem_replicate h]
    rfl
  · exact Nat.isDigit_of_mem_toDigits (by omega) (by omega) h

theorem decimal_ne_nil (w n : ℕ) : decimal w n ≠ [] := by
  simp [decimal, Nat.toDigits_ne_nil]

/-- A text is cut at its last colon in one way. -/
theorem cut_at_last_colon {a b s t : List Char} (hs : ':' ∉ s) (ht : ':' ∉ t)
    (h : a ++ ':' :: s = b ++ ':' :: t) : a = b ∧ s = t := by
  rcases List.append_eq_append_iff.1 h with ⟨c, rfl, hc⟩ | ⟨c, rfl, hc⟩
  · cases c with
    | nil => exact ⟨(List.append_nil a).symm, (List.cons.inj hc).2⟩
    | cons x c =>
      have hmem : ':' ∈ s := by
        rw [(List.cons.inj hc).2]
        simp
      exact absurd hmem hs
  · cases c with
    | nil => exact ⟨List.append_nil b, (List.cons.inj hc).2.symm⟩
    | cons x c =>
      have hmem : ':' ∈ t := by
        rw [(List.cons.inj hc).2]
        simp
      exact absurd hmem ht

/-! ## Digests -/

/-- `encode(d, 'hex')` -/
def encodeHex {w : ℕ} (d : BitVec w) : String := String.ofList (fixedDigits 16 (w / 4) d.toNat)

theorem hexDigit_digitChar : ∀ k < 16, hexDigit (Nat.digitChar k) = true := by decide

theorem hexDigit_of_mem_fixedDigits {w n : ℕ} {c : Char} (h : c ∈ fixedDigits 16 w n) :
    hexDigit c = true := by
  induction w generalizing n with
  | zero => simp [fixedDigits] at h
  | succ w ih =>
    rcases List.mem_append.1 h with h | h
    · exact ih h
    · rw [List.mem_singleton.1 h]
      exact hexDigit_digitChar _ (Nat.mod_lt _ (by omega))

theorem matchesExactly_encodeHex (d : BitVec 256) :
    matchesExactly hexDigit 64 (encodeHex d) = true := by
  simp only [matchesExactly, encodeHex, Bool.and_eq_true, beq_iff_eq, List.all_eq_true,
    String.length_ofList, length_fixedDigits, String.toList_ofList]
  exact ⟨trivial, fun c hc => hexDigit_of_mem_fixedDigits hc⟩

theorem encodeHex_inj {w : ℕ} (hw : 4 ∣ w) {d e : BitVec w} (h : encodeHex d = encodeHex e) :
    d = e := by
  have hlt (x : BitVec w) : x.toNat < 16 ^ (w / 4) := by
    have := x.isLt
    rwa [show 16 = 2 ^ 4 from rfl, ← Nat.pow_mul, Nat.mul_div_cancel' hw]
  exact BitVec.eq_of_toNat_eq
    (fixedDigits_inj (by omega) (by omega) (hlt d) (hlt e) (String.ofList_injective h))

end Text

/-! ## `uuid` -/

/-- A `uuid`: 128 bits. -/
structure Uuid where
  bits : BitVec 128
  deriving DecidableEq

namespace Uuid

/-- The 32 hex digits. -/
def digits (u : Uuid) : List Char := Text.fixedDigits 16 32 u.bits.toNat

/-- `u::text`, in groups of 8, 4, 4, 4 and 12 digits. -/
def text (u : Uuid) : String :=
  String.ofList (u.digits.take 8 ++ '-' :: ((u.digits.drop 8).take 4 ++ '-' ::
    ((u.digits.drop 12).take 4 ++ '-' :: ((u.digits.drop 16).take 4 ++ '-' :: u.digits.drop 20))))

@[simp] theorem length_digits (u : Uuid) : u.digits.length = 32 := by
  rw [digits, Text.length_fixedDigits]

theorem digits_inj {u v : Uuid} (h : u.digits = v.digits) : u = v := by
  have hlt (w : Uuid) : w.bits.toNat < 16 ^ 32 := w.bits.isLt
  have := BitVec.eq_of_toNat_eq (Text.fixedDigits_inj (by omega) (by omega) (hlt u) (hlt v) h)
  cases u
  cases v
  rw [mk.injEq]
  exact this

theorem text_inj {u v : Uuid} (h : u.text = v.text) : u = v := by
  have h := String.ofList_injective h
  obtain ⟨h0, h⟩ := List.append_inj h (by simp)
  obtain ⟨h1, h⟩ := List.append_inj (List.cons_inj_right _ |>.1 h) (by simp)
  obtain ⟨h2, h⟩ := List.append_inj (List.cons_inj_right _ |>.1 h) (by simp)
  obtain ⟨h3, h⟩ := List.append_inj (List.cons_inj_right _ |>.1 h) (by simp)
  have h4 := List.cons_inj_right _ |>.1 h
  have split (w : Uuid) : w.digits = w.digits.take 8 ++ ((w.digits.drop 8).take 4 ++
      ((w.digits.drop 12).take 4 ++ ((w.digits.drop 16).take 4 ++ w.digits.drop 20))) := by
    rw [← List.drop_drop (i := 4) (j := 16), List.take_append_drop,
      ← List.drop_drop (i := 4) (j := 12), List.take_append_drop,
      ← List.drop_drop (i := 4) (j := 8), List.take_append_drop, List.take_append_drop]
  apply digits_inj
  rw [split u, split v, h0, h1, h2, h3, h4]

theorem hexDigit_or_dash_of_mem_text {u : Uuid} {c : Char} (h : c ∈ u.text.toList) :
    Text.hexDigit c = true ∨ c = '-' := by
  have hdigit : ∀ c ∈ u.digits, Text.hexDigit c = true := fun c hc =>
    Text.hexDigit_of_mem_fixedDigits hc
  simp only [text, String.toList_ofList, List.mem_append, List.mem_cons] at h
  rcases h with h | rfl | h | rfl | h | rfl | h | rfl | h
  · exact .inl (hdigit c (List.mem_of_mem_take h))
  · exact .inr rfl
  · exact .inl (hdigit c (List.mem_of_mem_drop (List.mem_of_mem_take h)))
  · exact .inr rfl
  · exact .inl (hdigit c (List.mem_of_mem_drop (List.mem_of_mem_take h)))
  · exact .inr rfl
  · exact .inl (hdigit c (List.mem_of_mem_drop (List.mem_of_mem_take h)))
  · exact .inr rfl
  · exact .inl (hdigit c (List.mem_of_mem_drop h))

theorem length_text (u : Uuid) : u.text.length = 36 := by
  rw [text, String.length_ofList]
  simp only [List.length_append, List.length_cons, List.length_take, List.length_drop,
    length_digits]
  omega

end Uuid

/-- An `inet` value, kept as the text its output function gives, which its input function reads
back as the same value. -/
structure Inet where
  text : String
  deriving DecidableEq

theorem Inet.text_inj {a b : Inet} (h : a.text = b.text) : a = b := by
  cases a
  cases b
  rw [mk.injEq]
  exact h

end Sql

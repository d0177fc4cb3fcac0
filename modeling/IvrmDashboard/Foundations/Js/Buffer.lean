import Mathlib.Algebra.Group.Nat.Defs
import Mathlib.Data.List.Basic
import Mathlib.Tactic.SplitIfs

/-!
# Bytes and the text they are sent as

Numbers are written into a buffer with the most significant byte first. The text of a buffer is its
base64url encoding without padding. Decoding drops the bits of the last character that belong to no
byte, and a character that is left over, so that different texts decode to the same bytes; the
encoder yields one of them (`decode_encode`), and `Canonical` names it.
-/

namespace Js

/-! ## Numbers -/

/-- `writeUIntBE`, in `k` bytes. -/
def writeBE : ℕ → ℕ → List UInt8
  | 0, _ => []
  | k + 1, n => writeBE k (n / 256) ++ [UInt8.ofNat (n % 256)]

/-- `readUIntBE` -/
def readBE (bytes : List UInt8) : ℕ := bytes.foldl (fun n b => n * 256 + b.toNat) 0

@[simp] theorem length_writeBE (k n : ℕ) : (writeBE k n).length = k := by
  induction k generalizing n with
  | zero => rfl
  | succ k ih => rw [writeBE, List.length_append, ih, List.length_singleton]

theorem readBE_writeBE {k n : ℕ} (h : n < 256 ^ k) : readBE (writeBE k n) = n := by
  induction k generalizing n with
  | zero =>
    rw [Nat.pow_zero, Nat.lt_one_iff] at h
    rw [h]
    rfl
  | succ k ih =>
    have hrest : n / 256 < 256 ^ k := by
      rw [Nat.pow_succ] at h
      omega
    have hread := ih hrest
    simp only [readBE] at hread
    simp only [readBE, writeBE, List.foldl_append, hread, List.foldl_cons, List.foldl_nil,
      UInt8.toNat_ofNat']
    omega

/-! ## The alphabet -/

/-- The character of six bits. -/
def sextet (n : ℕ) : Char :=
  if n < 26 then Char.ofNat (65 + n)
  else if n < 52 then Char.ofNat (71 + n)
  else if n < 62 then Char.ofNat (n - 4)
  else if n = 62 then '-'
  else '_'

/-- The six bits of a character of the alphabet. -/
def sextetValue (c : Char) : ℕ :=
  let n := c.toNat
  if 65 ≤ n ∧ n ≤ 90 then n - 65
  else if 97 ≤ n ∧ n ≤ 122 then n - 71
  else if 48 ≤ n ∧ n ≤ 57 then n + 4
  else if n = 45 then 62
  else if n = 95 then 63
  else 0

/-- `[A-Za-z0-9_-]` -/
def base64UrlChar (c : Char) : Bool :=
  let n := c.toNat
  (65 ≤ n && n ≤ 90) || (97 ≤ n && n ≤ 122) || (48 ≤ n && n ≤ 57) || n = 45 || n = 95

theorem sextetValue_sextet {n : ℕ} (h : n < 64) : sextetValue (sextet n) = n := by
  revert n
  decide

theorem base64UrlChar_sextet {n : ℕ} (h : n < 64) : base64UrlChar (sextet n) = true := by
  revert n
  decide

/-! ## base64url -/

/-- `toString("base64url")` -/
def encode : List UInt8 → List Char
  | a :: b :: c :: rest =>
    sextet (a.toNat / 4) :: sextet (a.toNat % 4 * 16 + b.toNat / 16) ::
      sextet (b.toNat % 16 * 4 + c.toNat / 64) :: sextet (c.toNat % 64) :: encode rest
  | [a, b] =>
    [sextet (a.toNat / 4), sextet (a.toNat % 4 * 16 + b.toNat / 16), sextet (b.toNat % 16 * 4)]
  | [a] => [sextet (a.toNat / 4), sextet (a.toNat % 4 * 16)]
  | [] => []

/-- `Buffer.from(…, "base64url")`, of characters of the alphabet. -/
def decode : List Char → List UInt8
  | w :: x :: y :: z :: rest =>
    UInt8.ofNat (sextetValue w * 4 + sextetValue x / 16) ::
      UInt8.ofNat (sextetValue x % 16 * 16 + sextetValue y / 4) ::
      UInt8.ofNat (sextetValue y % 4 * 64 + sextetValue z) :: decode rest
  | [w, x, y] =>
    [UInt8.ofNat (sextetValue w * 4 + sextetValue x / 16),
      UInt8.ofNat (sextetValue x % 16 * 16 + sextetValue y / 4)]
  | [w, x] => [UInt8.ofNat (sextetValue w * 4 + sextetValue x / 16)]
  | _ => []

theorem ofNat_eq {n : ℕ} {a : UInt8} (h : n = a.toNat) : UInt8.ofNat n = a := by
  rw [h, UInt8.ofNat_toNat]

/-- What the encoder has written is read back. -/
theorem decode_encode (bytes : List UInt8) : decode (encode bytes) = bytes := by
  induction bytes using encode.induct with
  | case1 a b c rest ih =>
    have ha := a.toNat_lt
    have hb := b.toNat_lt
    have hc := c.toNat_lt
    simp only [encode, decode, ih]
    rw [sextetValue_sextet (by omega), sextetValue_sextet (by omega),
      sextetValue_sextet (by omega), sextetValue_sextet (by omega), @ofNat_eq _ a (by omega),
      @ofNat_eq _ b (by omega), @ofNat_eq _ c (by omega)]
  | case2 a b =>
    have ha := a.toNat_lt
    have hb := b.toNat_lt
    simp only [encode, decode]
    rw [sextetValue_sextet (by omega), sextetValue_sextet (by omega),
      sextetValue_sextet (by omega), @ofNat_eq _ a (by omega), @ofNat_eq _ b (by omega)]
  | case3 a =>
    have ha := a.toNat_lt
    simp only [encode, decode]
    rw [sextetValue_sextet (by omega), sextetValue_sextet (by omega), @ofNat_eq _ a (by omega)]
  | case4 => rfl

theorem encode_injective : Function.Injective encode :=
  Function.LeftInverse.injective decode_encode

theorem length_encode (bytes : List UInt8) : (encode bytes).length = (4 * bytes.length + 2) / 3 := by
  induction bytes using encode.induct with
  | case1 a b c rest ih =>
    simp only [encode, List.length_cons, ih]
    omega
  | case2 a b => simp [encode]
  | case3 a => simp [encode]
  | case4 => simp [encode]

theorem base64UrlChar_of_mem_encode (bytes : List UInt8) :
    ∀ c ∈ encode bytes, base64UrlChar c = true := by
  induction bytes using encode.induct with
  | case1 a b c rest ih =>
    have ha := a.toNat_lt
    have hb := b.toNat_lt
    have hc := c.toNat_lt
    simp only [encode, List.forall_mem_cons]
    refine ⟨?_, ?_, ?_, ?_, ih⟩ <;> exact base64UrlChar_sextet (by omega)
  | case2 a b =>
    have ha := a.toNat_lt
    have hb := b.toNat_lt
    simp only [encode, List.forall_mem_cons, List.not_mem_nil, IsEmpty.forall_iff, implies_true,
      and_true]
    refine ⟨?_, ?_, ?_⟩ <;> exact base64UrlChar_sextet (by omega)
  | case3 a =>
    have ha := a.toNat_lt
    simp only [encode, List.forall_mem_cons, List.not_mem_nil, IsEmpty.forall_iff, implies_true,
      and_true]
    refine ⟨?_, ?_⟩ <;> exact base64UrlChar_sextet (by omega)
  | case4 => simp [encode]

/-- The text is the one the encoder yields for its bytes. -/
def Canonical (text : List Char) : Prop := encode (decode text) = text

theorem canonical_encode (bytes : List UInt8) : Canonical (encode bytes) := by
  rw [Canonical, decode_encode]

end Js

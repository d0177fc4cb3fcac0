import Mathlib.Data.Int.Log
import Mathlib.Data.Rat.Floor
import Mathlib.Tactic.Linarith
import Mathlib.Tactic.Positivity

/-!
# Rounding to double precision

Binary64 numbers that are not negative, as rationals with 53 significant bits; their exponents are
not bounded. `Double.nearest` rounds to the nearest one, and a tie to the one whose last bit is zero.
-/

namespace Double

/-! ## To the nearest integer -/

/-- The nearest integer, and of two the even one. -/
def roundEven (x : ℚ) : ℤ :=
  if x - ⌊x⌋ < 1 / 2 then ⌊x⌋
  else if 1 / 2 < x - ⌊x⌋ then ⌊x⌋ + 1
  else if Even ⌊x⌋ then ⌊x⌋
  else ⌊x⌋ + 1

/-- What is rounded to at most `n`. -/
theorem roundEven_le_iff {x : ℚ} {n : ℤ} :
    roundEven x ≤ n ↔ x < n + 1 / 2 ∨ (x = n + 1 / 2 ∧ Even n) := by
  have hfloor := Int.floor_le x
  have hlt := Int.lt_floor_add_one x
  rcases lt_trichotomy ⌊x⌋ n with h | h | h
  · -- the floor is smaller, so the number is at most `n`
    have hle : (⌊x⌋ : ℚ) + 1 ≤ n := by exact_mod_cast h
    have hnearest : roundEven x ≤ n := by
      unfold roundEven
      split_ifs <;> omega
    exact iff_of_true hnearest (.inl (by linarith))
  · subst h
    unfold roundEven
    split_ifs with hlow hhigh heven
    · exact iff_of_true le_rfl (.inl (by linarith))
    · refine iff_of_false (by omega) ?_
      rintro (h | ⟨h, -⟩) <;> linarith
    · exact iff_of_true le_rfl (.inr ⟨by linarith, heven⟩)
    · refine iff_of_false (by omega) ?_
      rintro (h | ⟨-, h⟩)
      · linarith
      · exact heven h
  · have hge : (n : ℚ) + 1 ≤ ⌊x⌋ := by exact_mod_cast h
    refine iff_of_false ?_ ?_
    · unfold roundEven
      split_ifs <;> omega
    · rintro (h | ⟨h, -⟩) <;> linarith

theorem roundEven_mono {x y : ℚ} (h : x ≤ y) : roundEven x ≤ roundEven y := by
  rw [roundEven_le_iff]
  rcases roundEven_le_iff.1 (le_refl (roundEven y)) with hy | ⟨hy, heven⟩
  · exact .inl (h.trans_lt hy)
  · rcases h.lt_or_eq with h | rfl
    · exact .inl (h.trans_eq hy)
    · exact .inr ⟨hy, heven⟩

@[simp] theorem roundEven_intCast (n : ℤ) : roundEven n = n := by simp [roundEven]

/-! ## To 53 bits -/

/-- The unit of the last place. -/
def ulp (x : ℚ) : ℚ := 2 ^ (Int.log 2 x - 52)

/-- The significant bits, as an integer. -/
def significand (x : ℚ) : ℤ := roundEven (x / ulp x)

/-- The nearest double. -/
def nearest (x : ℚ) : ℚ := significand x * ulp x

/-- The number is a double. -/
def IsDouble (x : ℚ) : Prop := nearest x = x

instance (x : ℚ) : Decidable (IsDouble x) := inferInstanceAs (Decidable (nearest x = x))

theorem ulp_pos (x : ℚ) : 0 < ulp x := zpow_pos (by decide) _

@[simp] theorem nearest_zero : nearest 0 = 0 := by simp [nearest, significand, roundEven]

theorem two_pow_log_le {x : ℚ} (h : 0 < x) : (2 : ℚ) ^ Int.log 2 x ≤ x := by
  exact_mod_cast Int.zpow_log_le_self (b := 2) one_lt_two h

theorem lt_two_pow_log (x : ℚ) : x < (2 : ℚ) ^ (Int.log 2 x + 1) := by
  exact_mod_cast Int.lt_zpow_succ_log_self (b := 2) one_lt_two x

theorem two_pow_log_eq (x : ℚ) : (2 : ℚ) ^ Int.log 2 x = 2 ^ 52 * ulp x := by
  rw [ulp, zpow_sub₀ (by decide)]
  field_simp

theorem two_pow_log_succ_eq (x : ℚ) : (2 : ℚ) ^ (Int.log 2 x + 1) = 2 ^ 53 * ulp x := by
  rw [zpow_add_one₀ (by decide), two_pow_log_eq]
  ring

theorem ulp_le_ulp {x y : ℚ} (hx : 0 < x) (h : x ≤ y) : ulp x ≤ ulp y :=
  zpow_le_zpow_right₀ (by norm_num) (by have := Int.log_mono_right (b := 2) hx h; omega)

/-- The significand has 53 bits, or is the next power of two. -/
theorem significand_mem {x : ℚ} (h : 0 < x) : 2 ^ 52 ≤ significand x ∧ significand x ≤ 2 ^ 53 := by
  have hlow := two_pow_log_le h
  have hhigh := lt_two_pow_log x
  rw [two_pow_log_eq] at hlow
  rw [two_pow_log_succ_eq] at hhigh
  have hu := ulp_pos x
  constructor
  · have := roundEven_mono (x := ((2 ^ 52 : ℤ) : ℚ)) (y := x / ulp x)
      (by rw [le_div_iff₀ hu]; exact_mod_cast hlow)
    rwa [roundEven_intCast] at this
  · have := roundEven_mono (x := x / ulp x) (y := ((2 ^ 53 : ℤ) : ℚ))
      (by rw [div_le_iff₀ hu]; exact_mod_cast hhigh.le)
    rwa [roundEven_intCast] at this

theorem two_pow_log_le_nearest {x : ℚ} (h : 0 < x) : (2 : ℚ) ^ Int.log 2 x ≤ nearest x := by
  rw [two_pow_log_eq, nearest]
  have hlow : (2 ^ 52 : ℚ) ≤ significand x := by exact_mod_cast (significand_mem h).1
  exact mul_le_mul_of_nonneg_right hlow (ulp_pos x).le

theorem nearest_le_two_pow_log {x : ℚ} (h : 0 < x) : nearest x ≤ (2 : ℚ) ^ (Int.log 2 x + 1) := by
  rw [two_pow_log_succ_eq, nearest]
  have hhigh : (significand x : ℚ) ≤ 2 ^ 53 := by exact_mod_cast (significand_mem h).2
  exact mul_le_mul_of_nonneg_right hhigh (ulp_pos x).le

theorem nearest_pos {x : ℚ} (h : 0 < x) : 0 < nearest x :=
  (zpow_pos (by decide) _).trans_le (two_pow_log_le_nearest h)

theorem nearest_nonneg {x : ℚ} (h : 0 ≤ x) : 0 ≤ nearest x := by
  rcases h.lt_or_eq with h | rfl
  · exact (nearest_pos h).le
  · exact nearest_zero.ge

theorem isDouble_of_eq_mul {x : ℚ} {n : ℤ} (h : x = n * ulp x) : IsDouble x := by
  have hdiv : x / ulp x = n := by rwa [div_eq_iff (ulp_pos x).ne']
  rw [IsDouble, nearest, significand, hdiv, roundEven_intCast]
  exact h.symm

/-- An integer of at most 53 bits times a power of two is a double. -/
theorem isDouble_mul_two_pow {m : ℤ} (hm : 0 ≤ m) (hle : m ≤ 2 ^ 53) (e : ℤ) :
    IsDouble (m * 2 ^ e) := by
  rcases hm.lt_or_eq with hpos | rfl
  swap
  · rw [Int.cast_zero, zero_mul]
    exact nearest_zero
  have htwo : (0 : ℚ) < 2 ^ e := zpow_pos (by decide) e
  have hx : (0 : ℚ) < m * 2 ^ e := mul_pos (Int.cast_pos.2 hpos) htwo
  -- the quotient by the last place is an integer, of which rounding leaves nothing away
  obtain ⟨n, hn⟩ : ∃ n : ℤ, (m : ℚ) * 2 ^ e = n * ulp (m * 2 ^ e) := by
    rcases hle.lt_or_eq with hlt | rfl
    · have hlog : Int.log 2 ((m : ℚ) * 2 ^ e) < 53 + e := by
        rw [← Int.lt_zpow_iff_log_lt (b := 2) one_lt_two hx, Nat.cast_ofNat, zpow_add₀ (by decide)]
        have hlt : (m : ℚ) < 2 ^ (53 : ℤ) := by exact_mod_cast hlt
        exact mul_lt_mul_of_pos_right hlt htwo
      obtain ⟨k, hk⟩ := Int.eq_ofNat_of_zero_le (a := e - (Int.log 2 ((m : ℚ) * 2 ^ e) - 52))
        (by omega)
      refine ⟨m * 2 ^ k, ?_⟩
      rw [ulp, Int.cast_mul, Int.cast_pow, Int.cast_ofNat, mul_assoc, ← zpow_natCast,
        ← zpow_add₀ (by decide), ← hk]
      congr 2
      ring
    · have hpow : ((2 ^ 53 : ℤ) : ℚ) * 2 ^ e = 2 ^ (53 + e) := by
        rw [zpow_add₀ (by decide)]
        norm_num
      have hlog : Int.log 2 ((2 : ℚ) ^ (53 + e)) = 53 + e := by
        exact_mod_cast Int.log_zpow (R := ℚ) (b := 2) one_lt_two (53 + e)
      refine ⟨2 ^ 52, ?_⟩
      rw [hpow, ulp, hlog, show 53 + e = 52 + (53 + e - 52) by ring, zpow_add₀ (by decide)]
      norm_num
  exact isDouble_of_eq_mul hn

@[simp] theorem isDouble_zero : IsDouble 0 := nearest_zero

theorem isDouble_natCast {n : ℕ} (h : n ≤ 2 ^ 53) : IsDouble n := by
  have := isDouble_mul_two_pow (m := n) (Int.natCast_nonneg n) (by exact_mod_cast h) 0
  simpa using this

theorem isDouble_nearest {x : ℚ} (h : 0 ≤ x) : IsDouble (nearest x) := by
  rcases h.lt_or_eq with h | rfl
  · obtain ⟨hlow, hhigh⟩ := significand_mem h
    exact isDouble_mul_two_pow (by omega) hhigh _
  · rw [nearest_zero]
    exact isDouble_zero

/-! ## Order -/

/-- **What is rounded to at most `y`**: what lies below the middle between `y` and the next double,
and the middle itself if the last bit of `y` is zero. -/
theorem nearest_le_iff {x y : ℚ} (hx : 0 ≤ x) (hy : 0 < y) (hdouble : IsDouble y) :
    nearest x ≤ y ↔ x < y + ulp y / 2 ∨ (x = y + ulp y / 2 ∧ Even (significand y)) := by
  have huy := ulp_pos y
  have hyeq : (significand y : ℚ) * ulp y = y := hdouble
  rcases hx.lt_or_eq with hx | rfl
  swap
  · rw [nearest_zero]
    exact iff_of_true hy.le (.inl (by linarith))
  rcases lt_trichotomy (Int.log 2 x) (Int.log 2 y) with h | h | h
  · -- a smaller power of two
    have hpow : (2 : ℚ) ^ (Int.log 2 x + 1) ≤ 2 ^ Int.log 2 y :=
      zpow_le_zpow_right₀ (by norm_num) (by omega)
    have hle := hpow.trans (two_pow_log_le hy)
    refine iff_of_true ((nearest_le_two_pow_log hx).trans hle) (.inl ?_)
    have := lt_two_pow_log x
    linarith
  · -- the same power of two: compare significands
    have hulp : ulp x = ulp y := by rw [ulp, ulp, h]
    have hnearest : nearest x ≤ y ↔ significand x ≤ significand y := by
      conv_lhs => rw [nearest, ← hyeq, hulp, mul_le_mul_iff_of_pos_right huy, Int.cast_le]
    have hlt : x / ulp y < significand y + 1 / 2 ↔ x < y + ulp y / 2 := by
      rw [div_lt_iff₀ huy, add_mul, hyeq]
      ring_nf
    have heq : x / ulp y = significand y + 1 / 2 ↔ x = y + ulp y / 2 := by
      rw [div_eq_iff huy.ne', add_mul, hyeq]
      ring_nf
    rw [hnearest, significand, roundEven_le_iff, hulp, hlt, heq]
  · -- a greater power of two
    have hpow : (2 : ℚ) ^ (Int.log 2 y + 1) ≤ 2 ^ Int.log 2 x :=
      zpow_le_zpow_right₀ (by norm_num) (by omega)
    have hgap : y + ulp y ≤ 2 ^ (Int.log 2 y + 1) := by
      rw [two_pow_log_succ_eq]
      have hlt : (significand y : ℚ) * ulp y < 2 ^ 53 * ulp y := by
        rw [hyeq, ← two_pow_log_succ_eq]
        exact lt_two_pow_log y
      have hsig : significand y < 2 ^ 53 := by
        have := lt_of_mul_lt_mul_right hlt huy.le
        exact_mod_cast this
      have hsig : (significand y : ℚ) + 1 ≤ 2 ^ 53 := by exact_mod_cast hsig
      have := mul_le_mul_of_nonneg_right hsig huy.le
      linarith
    have hxge := hgap.trans (hpow.trans (two_pow_log_le hx))
    have hrge := hgap.trans (hpow.trans (two_pow_log_le_nearest hx))
    refine iff_of_false (by linarith) ?_
    rintro (h | ⟨h, -⟩) <;> linarith

/-- A double is not passed by rounding. -/
theorem nearest_le_of_le {x y : ℚ} (hx : 0 ≤ x) (h : x ≤ y) (hdouble : IsDouble y) : nearest x ≤ y := by
  rcases (hx.trans h).lt_or_eq with hy | rfl
  · rw [nearest_le_iff hx hy hdouble]
    exact .inl (h.trans_lt (by have := ulp_pos y; linarith))
  · rw [le_antisymm h hx, nearest_zero]

theorem nearest_mono {x y : ℚ} (hx : 0 ≤ x) (h : x ≤ y) : nearest x ≤ nearest y := by
  rcases (hx.trans h).lt_or_eq with hy | rfl
  · have hdouble := isDouble_nearest hy.le
    rw [nearest_le_iff hx (nearest_pos hy) hdouble]
    rcases (nearest_le_iff hy.le (nearest_pos hy) hdouble).1 le_rfl with hlt | ⟨heq, heven⟩
    · exact .inl (h.trans_lt hlt)
    · rcases h.lt_or_eq with h | rfl
      · exact .inl (h.trans_eq heq)
      · exact .inr ⟨heq, heven⟩
  · rw [le_antisymm h hx]

theorem le_nearest_of_le {x y : ℚ} (hx : 0 ≤ x) (h : x ≤ y) (hdouble : IsDouble x) : x ≤ nearest y := by
  have := nearest_mono hx h
  rwa [hdouble] at this

end Double

import Mathlib.Algebra.GroupWithZero.Nat
import Mathlib.Data.Int.Order.Basic
import Mathlib.Algebra.BigOperators.Group.List.Basic

/-!
# Strings of JavaScript

A string that comes out of the database has no lone surrogates, so it is a list of code points of
which those above the basic plane count twice in `length`.
-/

namespace Js

/-- The number of UTF-16 units of a code point. -/
def utf16Units (c : Char) : ℕ := if c.toNat < 65536 then 1 else 2

/-- `s.length` -/
def length (s : String) : ℕ := (s.toList.map utf16Units).sum

/-- A string has as many units as code points, or up to twice as many. -/
theorem length_bounds (s : String) : s.length ≤ length s ∧ length s ≤ 2 * s.length := by
  rw [← String.length_toList, length]
  induction s.toList with
  | nil => simp
  | cons c l ih =>
    have hc : 1 ≤ utf16Units c ∧ utf16Units c ≤ 2 := by
      unfold utf16Units
      split <;> omega
    rw [List.map_cons, List.sum_cons, List.length_cons]
    omega

/-- The white space and the line ends that `trim` removes. -/
def isSpace (c : Char) : Bool :=
  let n := c.toNat
  (9 ≤ n && n ≤ 13) || n = 32 || n = 160 || n = 5760 || (8192 ≤ n && n ≤ 8202) || n = 8232 ||
    n = 8233 || n = 8239 || n = 8287 || n = 12288 || n = 65279

/-- `s.trim()` is empty. -/
def isBlank (s : String) : Bool := s.toList.all isSpace

/-- `Date.parse` of the text of a timestamp: digits below the millisecond are dropped. -/
def dateParse (microseconds : ℤ) : ℤ := microseconds / 1000

end Js

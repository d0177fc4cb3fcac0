import IvrmDashboard.Foundations.Js.Text

/-!
# Numbers written in a string

`Number(text)` reads a decimal literal, or a hexadecimal, octal or binary one without a sign, between
white space; the empty string is zero and what is no literal is `NaN`. Here it is only asked whether
the number is zero: a decimal literal is when its value is at most half of the smallest positive
double, which is `2 ^ -1074`.
-/

namespace Js.Number

/-- The value of a run of decimal digits. -/
def value (digits : List Char) : ℕ := digits.foldl (fun n c => 10 * n + (c.toNat - '0'.toNat)) 0

/-- A sign, and what follows it. -/
def signed : List Char → Bool × List Char
  | '-' :: l => (true, l)
  | '+' :: l => (false, l)
  | l => (false, l)

/-- `e`, a sign and digits, or nothing. -/
def exponent : List Char → Option ℤ
  | [] => some 0
  | c :: l =>
    let (negative, digits) := signed l
    if (c = 'e' || c = 'E') && digits ≠ [] && digits.all Char.isDigit then
      some (if negative then -(value digits : ℤ) else value digits)
    else none

/-- The digits of a decimal literal and the power of ten they are multiplied by. -/
def decimal (l : List Char) : Option (ℕ × ℤ) :=
  let whole := l.takeWhile Char.isDigit
  let (fraction, tail) :=
    match l.dropWhile Char.isDigit with
    | '.' :: r => (r.takeWhile Char.isDigit, r.dropWhile Char.isDigit)
    | r => ([], r)
  if whole = [] && fraction = [] then none
  else (exponent tail).map fun e => (value (whole ++ fraction), e - fraction.length)

/-- A literal in another base is zero when its digits are. -/
def zeroDigits (l : List Char) : Bool := l ≠ [] && l.all (· = '0')

/-- `Number(text) === 0` -/
def isZero (text : String) : Bool :=
  let l := ((text.toList.dropWhile isSpace).reverse.dropWhile isSpace).reverse
  match l with
  | [] => true
  | '0' :: 'x' :: r | '0' :: 'X' :: r | '0' :: 'o' :: r | '0' :: 'O' :: r
  | '0' :: 'b' :: r | '0' :: 'B' :: r => zeroDigits r
  | _ =>
    match decimal (signed l).2 with
    | none => false
    | some (digits, e) => digits = 0 || (e < 0 && digits * 2 ^ 1075 ≤ 10 ^ e.natAbs)

example : ["0", "-0", " 0.0e7 ", "", "0x0"].all isZero = true := by decide

example : ["137", "-1", "zero", "-", "0x", "-0x0"].any isZero = false := by decide

end Js.Number

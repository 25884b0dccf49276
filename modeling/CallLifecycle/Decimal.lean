/-
Numbers in decimal digits.
-/

namespace CallLifecycle.Decimal

/-- The digits of a number, without leading zeros. -/
def chars (n : Nat) : List Char :=
  Nat.toDigits 10 n

/-- The text of a number, without leading zeros. -/
def text (n : Nat) : String :=
  String.ofList (chars n)

/-- The digits of a number, with leading zeros up to a width. -/
def padded (width n : Nat) : String :=
  String.ofList (List.replicate (width - (chars n).length) '0' ++ chars n)

/-- Whether a character is a decimal digit. -/
def isDigit (c : Char) : Bool :=
  '0' ≤ c && c ≤ '9'

/-- The number that a digit stands for. -/
def digit (c : Char) : Nat :=
  c.toNat - '0'.toNat

/-- The number that a run of digits stands for. -/
def value (cs : List Char) : Nat :=
  cs.foldl (fun n c => 10 * n + digit c) 0

end CallLifecycle.Decimal

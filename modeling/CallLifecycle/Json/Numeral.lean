/-
Numbers as they are written, and the whole numbers of one machine word.

A number is read as its parts: sign, whole digits, digits after the point, and
exponent.  Only a plain run of digits is a word, and only up to the largest one.
Any other number is the wrong data, except that one beyond the range of a
double-precision number is no number at all.

The range is decided as double-precision arithmetic decides it.  As many leading
digits as fit in a word are gathered into a significand, the others count as
powers of ten, and the significand and the power of ten, each rounded to 53 bits,
are multiplied.
-/
import CallLifecycle.Decimal
import CallLifecycle.Json.Token

namespace CallLifecycle.Json

/-- The parts of a number. -/
structure Numeral where
  negative : Bool
  whole : List Char
  /-- The digits after the point; there are none without a point. -/
  fraction : List Char
  /-- The digits of the exponent, after whether it is negative. -/
  exponent : Option (Bool × List Char)
  deriving DecidableEq

/-! ### Reading

A text may end inside a number in two ways: where a value is read its end is
missing, and where a value is passed over the number is malformed.  So each reader
is told which fault an early end is. -/

/-- Reads one digit or more. -/
def readDigits (atEnd : Fault) (s : List Char) : Except Fault (List Char × List Char) :=
  match s with
  | [] => .error atEnd
  | c :: _ =>
    if Decimal.isDigit c then .ok (s.takeWhile Decimal.isDigit, s.dropWhile Decimal.isDigit)
    else .error .malformed

/-- Reads the digits before the point, of which the first is zero only if it is alone. -/
def readWhole (atEnd : Fault) (s : List Char) : Except Fault (List Char × List Char) :=
  match s with
  | '0' :: r =>
    match r with
    | [] => .ok (['0'], r)
    | c :: _ => if Decimal.isDigit c then .error .malformed else .ok (['0'], r)
  | s => readDigits atEnd s

/-- Reads a point and the digits after it, if there is a point. -/
def readFraction (atEnd : Fault) (s : List Char) : Except Fault (List Char × List Char) :=
  match s with
  | '.' :: r => readDigits atEnd r
  | s => .ok ([], s)

/-- Reads a sign, and whether it is minus. -/
def readSign : List Char → Bool × List Char
  | '+' :: r => (false, r)
  | '-' :: r => (true, r)
  | s => (false, s)

/-- Reads an exponent, if there is one. -/
def readExponent (atEnd : Fault) (s : List Char) :
    Except Fault (Option (Bool × List Char) × List Char) :=
  match s with
  | [] => .ok (none, [])
  | c :: r =>
    if c = 'e' ∨ c = 'E' then do
      let (digits, r') ← readDigits atEnd (readSign r).2
      return (some ((readSign r).1, digits), r')
    else .ok (none, c :: r)

/-- Reads a minus, if there is one. -/
def readMinus : List Char → Bool × List Char
  | '-' :: r => (true, r)
  | s => (false, s)

/-- Reads a number. -/
def readNumeral (atEnd : Fault) (s : List Char) : Except Fault (Numeral × List Char) := do
  let (whole, r) ← readWhole atEnd (readMinus s).2
  let (fraction, r) ← readFraction atEnd r
  let (exponent, r) ← readExponent atEnd r
  return (⟨(readMinus s).1, whole, fraction, exponent⟩, r)

/-! ### The range of a double -/

/-- The largest whole number of a machine word. -/
def largestWord : Nat := 18446744073709551615

/-- Takes digits while the number they make fits in a word, and says which are left. -/
def gather (n : Nat) : List Char → Nat × List Char
  | [] => (n, [])
  | c :: r =>
    let next := 10 * n + Decimal.digit c
    if next ≤ largestWord then gather next r else (n, c :: r)

/-- Rounds to 53 significant bits, and of two equally near to the even one. -/
def roundTo53Bits (n : Nat) : Nat :=
  let unit := Nat.pow 2 (n.log2 - 52)
  let whole := n / unit
  let rest := n % unit
  let up := 2 * rest > unit || (2 * rest == unit && whole % 2 == 1)
  (if up then whole + 1 else whole) * unit

/-- The first number that rounds beyond the largest double. -/
def doubleLimit : Nat :=
  (Nat.pow 2 54 - 1) * Nat.pow 2 970

/-- Whether a significand times a power of ten is in the range of a double. -/
def isInDoubleRange (significand : Nat) (power : Int) : Bool :=
  significand == 0 || power < 0 ||
    (power ≤ 308 &&
      roundTo53Bits significand * roundTo53Bits (Nat.pow 10 power.toNat) < doubleLimit)

namespace Numeral

/-- Whether the number is a run of digits and nothing else. -/
def isPlain (n : Numeral) : Bool :=
  !n.negative && n.fraction.isEmpty && n.exponent.isNone

/-- The power of ten that the written exponent stands for. -/
def power (n : Numeral) : Int :=
  match n.exponent with
  | none => 0
  | some (false, digits) => Decimal.value digits
  | some (true, digits) => -Decimal.value digits

/-- Whether the number is in the range of a double. -/
def isInRange (n : Numeral) : Bool :=
  let (upToPoint, wholeLeft) := gather 0 n.whole
  let (significand, fractionLeft) := gather upToPoint n.fraction
  let shift : Int := wholeLeft.length - (n.fraction.length - fractionLeft.length : Nat)
  isInDoubleRange significand (shift + n.power)

/-- What is wrong with the number where no number is wanted. -/
def fault (n : Numeral) : Fault :=
  if n.isInRange then .wrongData else .malformed

/-- The word that the number is. -/
def toWord (n : Numeral) : Except Fault UInt64 :=
  if n.isPlain ∧ Decimal.value n.whole ≤ largestWord then
    .ok (UInt64.ofNat (Decimal.value n.whole))
  else .error n.fault

end Numeral

/-! ### Every number takes at least one character -/

theorem length_lt_of_readDigits {atEnd : Fault} {s ds r : List Char}
    (h : readDigits atEnd s = .ok (ds, r)) : r.length < s.length := by
  unfold readDigits at h
  split at h
  · cases h
  · next c t =>
    split at h
    · next hc =>
      cases h
      rw [List.dropWhile_cons_of_pos hc]
      exact Nat.lt_succ_of_le (List.dropWhile_suffix _).length_le
    · cases h

theorem length_lt_of_readWhole {atEnd : Fault} {s ds r : List Char}
    (h : readWhole atEnd s = .ok (ds, r)) : r.length < s.length := by
  unfold readWhole at h
  split at h
  · split at h
    · cases h; simp
    · split at h
      · cases h
      · cases h; simp
  · exact length_lt_of_readDigits h

theorem length_le_of_readFraction {atEnd : Fault} {s ds r : List Char}
    (h : readFraction atEnd s = .ok (ds, r)) : r.length ≤ s.length := by
  unfold readFraction at h
  split at h
  · have := length_lt_of_readDigits h
    simp only [List.length_cons]
    omega
  · cases h; exact Nat.le_refl _

theorem length_readSign_le (s : List Char) : (readSign s).2.length ≤ s.length := by
  unfold readSign
  split <;> simp

theorem length_readMinus_le (s : List Char) : (readMinus s).2.length ≤ s.length := by
  unfold readMinus
  split <;> simp

theorem length_le_of_readExponent {atEnd : Fault} {s r : List Char}
    {e : Option (Bool × List Char)} (h : readExponent atEnd s = .ok (e, r)) :
    r.length ≤ s.length := by
  unfold readExponent at h
  split at h
  · cases h; exact Nat.le_refl _
  · next c t =>
    split at h
    · obtain ⟨⟨ds, u⟩, h₁, h⟩ := bind_eq_ok.1 h
      cases h
      have hlt := length_lt_of_readDigits h₁
      have hle := length_readSign_le t
      simp only [List.length_cons]
      omega
    · cases h; exact Nat.le_refl _

theorem length_lt_of_readNumeral {atEnd : Fault} {s r : List Char} {n : Numeral}
    (h : readNumeral atEnd s = .ok (n, r)) : r.length < s.length := by
  obtain ⟨⟨whole, t⟩, h₁, h⟩ := bind_eq_ok.1 h
  obtain ⟨⟨fraction, u⟩, h₂, h⟩ := bind_eq_ok.1 h
  obtain ⟨⟨exponent, v⟩, h₃, h⟩ := bind_eq_ok.1 h
  cases h
  have hlt₁ := length_lt_of_readWhole h₁
  have hle₂ := length_le_of_readFraction h₂
  have hle₃ := length_le_of_readExponent h₃
  have hle := length_readMinus_le s
  omega

end CallLifecycle.Json

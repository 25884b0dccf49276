/-
Identifiers of calls and services: 128 bits, kept as thirty-two hexadecimal
digits.

There is one way to write an identifier, lower case in groups of 8, 4, 4, 4 and
12, and there are four to read it: those groups, the bare digits, and the groups
either in braces or after `urn:uuid:`.  Every letter may be in either case, those of
the marker too.  Reading checks the hyphens by writing the digits again and
comparing, so a hyphen stands exactly where writing puts one.
-/

namespace CallLifecycle

/-- Thirty-two hexadecimal digits. -/
structure Identifier where
  digits : List (Fin 16)
  length_digits : digits.length = 32
  deriving DecidableEq

/-- The digit that a character stands for, in either case. -/
def hexDigit? (c : Char) : Option (Fin 16) :=
  (List.finRange 16).find? fun d => Nat.digitChar d == c.toLower

/-- Each digit is read back from the character it is written as. -/
@[simp] theorem hexDigit?_digitChar (d : Fin 16) : hexDigit? (Nat.digitChar d) = some d := by
  revert d
  decide

namespace Identifier

/-- Breaks a run of digits into groups of 8, 4, 4, 4 and the rest, with a hyphen between two. -/
def hyphenate (cs : List Char) : List Char :=
  cs.take 8 ++ '-' :: (cs.drop 8).take 4 ++ '-' :: (cs.drop 12).take 4 ++
    '-' :: (cs.drop 16).take 4 ++ '-' :: cs.drop 20

/-- The characters of an identifier as it is written. -/
def chars (i : Identifier) : List Char :=
  hyphenate (i.digits.map fun d => Nat.digitChar d.val)

/-- An identifier as it is written. -/
def text (i : Identifier) : String :=
  String.ofList i.chars

/-- Reads thirty-two digits and nothing else. -/
def ofDigits? (cs : List Char) : Option Identifier := do
  let digits ← cs.mapM hexDigit?
  if h : digits.length = 32 then some ⟨digits, h⟩ else none

/-- Reads digits with hyphens where writing puts them. -/
def ofGroups? (cs : List Char) : Option Identifier :=
  let bare := cs.filter (· != '-')
  if hyphenate bare = cs then ofDigits? bare else none

/-- What stands in a pair of braces. -/
def inBraces? (cs : List Char) : Option (List Char) :=
  if cs.head? = some '{' ∧ cs.getLast? = some '}' then some cs.tail.dropLast else none

/-- What stands after the name-space marker, whose letters may be in either case. -/
def afterMarker? (cs : List Char) : Option (List Char) :=
  let marker := "urn:uuid:".toList
  if marker.isPrefixOf (cs.map Char.toLower) then some (cs.drop marker.length) else none

/-- Reads an identifier in any of its four forms. -/
def ofChars? (cs : List Char) : Option Identifier :=
  ofGroups? cs <|> ofDigits? cs <|> (inBraces? cs).bind ofGroups? <|>
    (afterMarker? cs).bind ofGroups?

/-- Reads an identifier in any of its four forms. -/
def ofText? (s : String) : Option Identifier :=
  ofChars? s.toList

/-- The identifier of which every digit is zero. -/
def blank : Identifier :=
  ⟨List.replicate 32 0, List.length_replicate⟩

/-- The digit that says how the identifier came about. -/
def version (i : Identifier) : Nat :=
  (i.digits.getD 12 0).val

/-- Marks an identifier as drawn at random: version 4, and `10` as the top bits of the variant. -/
def asRandom (draw : Identifier) : Identifier where
  digits := (draw.digits.set 12 4).set 16 (8 + draw.digits.getD 16 0 % 4)
  length_digits := by simp [draw.length_digits]

theorem version_asRandom (draw : Identifier) : draw.asRandom.version = 4 := by
  have h : 12 < draw.digits.length := by rw [draw.length_digits]; decide
  simp only [version, asRandom, List.getD_eq_getElem?_getD]
  rw [List.getElem?_set_ne (by decide), List.getElem?_set_self h]
  rfl

end Identifier

end CallLifecycle

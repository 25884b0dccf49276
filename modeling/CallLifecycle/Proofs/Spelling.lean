/-
Values, and the many ways to spell each.

A value is what a text means.  Blanks are not part of it, nor is how a character of a string or a
name is escaped; the order of the members of an object is, and so is a name that is repeated.  The
grammar relates a value to each of its spellings.  Neither reading nor passing over enters into it,
so that both can be held to it.

A string is a list of letters.  An escape may stand for half of a character, and two such halves in
a row are one character.  A half that is left alone means nothing, but it is well formed.

A text may be well formed and yet spell no value here, because the names of a value's members have
no such halves.  `WellFormed` is the grammar by itself, for what is passed over.  So the members of
an object may also be given with the texts of their values, whatever these mean.
-/
import CallLifecycle.Json.Format

namespace CallLifecycle.Json

/-! ### Values -/

/-- A letter of a string. -/
inductive Letter
  | char (c : Char)
  /-- Half of a character, by its code unit, without the other half. -/
  | half (n : Nat)
  deriving DecidableEq

/-- What a text means. -/
inductive Value
  | null
  | flag (b : Bool)
  | number (n : Numeral)
  | string (letters : List Letter)
  | list (items : List Value)
  | object (members : List (String × Value))

/-- The character that a letter is, if it is a whole one. -/
def Letter.char? : Letter → Option Char
  | char c => some c
  | half _ => none

/-- The characters that some letters are, if all of them are whole. -/
def chars? (letters : List Letter) : Option (List Char) :=
  letters.mapM Letter.char?

@[simp] theorem chars?_nil : chars? [] = some [] := rfl

@[simp] theorem chars?_char (c : Char) (letters : List Letter) :
    chars? (.char c :: letters) = (chars? letters).map (c :: ·) := by
  cases h : chars? letters <;> simp_all [chars?, Letter.char?, List.mapM_cons]

@[simp] theorem chars?_half (n : Nat) (letters : List Letter) :
    chars? (.half n :: letters) = none := by
  simp [chars?, Letter.char?, List.mapM_cons]

@[simp] theorem chars?_map_char (cs : List Char) : chars? (cs.map .char) = some cs := by
  induction cs with
  | nil => rfl
  | cons c cs ih => simp [ih]

/-! ### Strings -/

/-- A code unit is spelled with four hexadecimal digits, in either case. -/
def SpellsUnit (n : Nat) (s : List Char) : Prop :=
  s.length = 4 ∧ ∃ digits, s.mapM hexDigit? = some digits ∧
    n = digits.foldl (fun n d => 16 * n + d.val) 0

/-- The character that two halves make. -/
def pairedCode (leading trailing : Nat) : Nat :=
  0x10000 + 0x400 * (leading - 0xD800) + (trailing - 0xDC00)

/-- Some letters, as they may stand between quotes. -/
inductive SpellsLetters : List Letter → List Char → Prop
  | nil : SpellsLetters [] []
  | plain {c : Char} {letters : List Letter} {s : List Char} (hcontrol : 0x20 ≤ c.toNat)
      (hquote : c ≠ '"') (hslash : c ≠ '\\') (hlater : SpellsLetters letters s) :
      SpellsLetters (.char c :: letters) (c :: s)
  | escape {e c : Char} {letters : List Letter} {s : List Char} (he : simpleEscape? e = some c)
      (hlater : SpellsLetters letters s) : SpellsLetters (.char c :: letters) ('\\' :: e :: s)
  | unit {c : Char} {letters : List Letter} {u s : List Char} (hu : SpellsUnit c.toNat u)
      (hlater : SpellsLetters letters s) :
      SpellsLetters (.char c :: letters) ('\\' :: 'u' :: (u ++ s))
  | pair {c : Char} {leading trailing : Nat} {letters : List Letter} {u v s : List Char}
      (hu : SpellsUnit leading u) (hv : SpellsUnit trailing v)
      (hleading : isLeading leading = true) (htrailing : isTrailing trailing = true)
      (hc : c.toNat = pairedCode leading trailing) (hlater : SpellsLetters letters s) :
      SpellsLetters (.char c :: letters) ('\\' :: 'u' :: (u ++ '\\' :: 'u' :: (v ++ s)))
  | half {n : Nat} {letters : List Letter} {u s : List Char} (hu : SpellsUnit n u)
      (hn : isTrailing n = true ∨ isLeading n = true ∧
        ∀ m, letters.head? = some (.half m) → isTrailing m = false)
      (hlater : SpellsLetters letters s) :
      SpellsLetters (.half n :: letters) ('\\' :: 'u' :: (u ++ s))

/-- A name between quotes. -/
def SpellsName (name : String) (s : List Char) : Prop :=
  ∃ t, SpellsLetters (name.toList.map .char) t ∧ s = '"' :: (t ++ ['"'])

/-! ### Numbers -/

/-- One digit or more. -/
def IsDigits (ds : List Char) : Prop :=
  ds ≠ [] ∧ ds.all Decimal.isDigit = true

/-- The digits after a point, with the point. -/
inductive SpellsFraction : List Char → List Char → Prop
  | none : SpellsFraction [] []
  | digits {ds : List Char} (hds : IsDigits ds) : SpellsFraction ds ('.' :: ds)

/-- An exponent, which may have a plus. -/
inductive SpellsExponent : Option (Bool × List Char) → List Char → Prop
  | none : SpellsExponent none []
  | plain {e : Char} {ds : List Char} (he : e = 'e' ∨ e = 'E') (hds : IsDigits ds) :
      SpellsExponent (some (false, ds)) (e :: ds)
  | plus {e : Char} {ds : List Char} (he : e = 'e' ∨ e = 'E') (hds : IsDigits ds) :
      SpellsExponent (some (false, ds)) (e :: '+' :: ds)
  | minus {e : Char} {ds : List Char} (he : e = 'e' ∨ e = 'E') (hds : IsDigits ds) :
      SpellsExponent (some (true, ds)) (e :: '-' :: ds)

/-- A number, of which the first digit is zero only if no other precedes the point. -/
def SpellsNumeral (n : Numeral) (s : List Char) : Prop :=
  IsDigits n.whole ∧ (n.whole.head? = some '0' → n.whole = ['0']) ∧
    ∃ fraction exponent, SpellsFraction n.fraction fraction ∧
      SpellsExponent n.exponent exponent ∧
      s = (if n.negative then ['-'] else []) ++ (n.whole ++ (fraction ++ exponent))

/-! ### The grammar -/

/-- What may precede an item: blanks, and a comma among them if it is not the first. -/
def Separates (first : Bool) (s : List Char) : Prop :=
  ∃ before after, before.all isBlank = true ∧ after.all isBlank = true ∧
    s = before ++ ((if first then [] else [',']) ++ after)

mutual

/-- A spelling of a value, without blanks before it or after it. -/
inductive Value.Spells : Value → List Char → Prop
  | null : Value.Spells .null ['n', 'u', 'l', 'l']
  | flag (b : Bool) : Value.Spells (.flag b) (flagWord b).toList
  | number {n : Numeral} {s : List Char} (hn : SpellsNumeral n s) : Value.Spells (.number n) s
  | string {letters : List Letter} {s : List Char} (hletters : SpellsLetters letters s) :
      Value.Spells (.string letters) ('"' :: (s ++ ['"']))
  | list {items : List Value} {s : List Char} (hitems : SpellsItems true items s) :
      Value.Spells (.list items) ('[' :: s)
  | object {members : List (String × Value)} {s : List Char}
      (hmembers : SpellsMembers true members s) : Value.Spells (.object members) ('{' :: s)

/-- The items of a list from some item on, and the closing bracket. -/
inductive SpellsItems : Bool → List Value → List Char → Prop
  | close {first : Bool} {gap : List Char} (hgap : gap.all isBlank = true) :
      SpellsItems first [] (gap ++ [']'])
  | item {first : Bool} {v : Value} {items : List Value} {lead s later : List Char}
      (hlead : Separates first lead) (hv : v.Spells s) (hlater : SpellsItems false items later) :
      SpellsItems first (v :: items) (lead ++ (s ++ later))

/-- The members of an object from some member on, and the closing brace. -/
inductive SpellsMembers : Bool → List (String × Value) → List Char → Prop
  | close {first : Bool} {gap : List Char} (hgap : gap.all isBlank = true) :
      SpellsMembers first [] (gap ++ ['}'])
  | member {first : Bool} {name : String} {v : Value} {members : List (String × Value)}
      {lead n before after s later : List Char} (hlead : Separates first lead)
      (hname : SpellsName name n) (hbefore : before.all isBlank = true)
      (hafter : after.all isBlank = true) (hv : v.Spells s)
      (hlater : SpellsMembers false members later) :
      SpellsMembers first ((name, v) :: members)
        (lead ++ (n ++ (before ++ ':' :: (after ++ (s ++ later)))))

end

/-- A text that holds a value, and blanks around it. -/
def Value.IsText (v : Value) (text : String) : Prop :=
  ∃ before s after, v.Spells s ∧ before.all isBlank = true ∧ after.all isBlank = true ∧
    text.toList = before ++ (s ++ after)

/-! ### What is well formed -/

/-- Some letters between quotes. -/
def SpellsQuoted (letters : List Letter) (s : List Char) : Prop :=
  ∃ t, SpellsLetters letters t ∧ s = '"' :: (t ++ ['"'])

mutual

/-- A well-formed value of any kind, without blanks before it or after it. -/
inductive WellFormed : List Char → Prop
  | null : WellFormed ['n', 'u', 'l', 'l']
  | flag (b : Bool) : WellFormed (flagWord b).toList
  | number {n : Numeral} {s : List Char} (hn : SpellsNumeral n s) : WellFormed s
  | string {letters : List Letter} {s : List Char} (hletters : SpellsQuoted letters s) :
      WellFormed s
  | list {s : List Char} (hitems : WellFormedItems true s) : WellFormed ('[' :: s)
  | object {s : List Char} (hmembers : WellFormedMembers true s) : WellFormed ('{' :: s)

/-- The items of a list from some item on, and the closing bracket. -/
inductive WellFormedItems : Bool → List Char → Prop
  | close {first : Bool} {gap : List Char} (hgap : gap.all isBlank = true) :
      WellFormedItems first (gap ++ [']'])
  | item {first : Bool} {lead s later : List Char} (hlead : Separates first lead)
      (hs : WellFormed s) (hlater : WellFormedItems false later) :
      WellFormedItems first (lead ++ (s ++ later))

/-- The members of an object from some member on, and the closing brace. -/
inductive WellFormedMembers : Bool → List Char → Prop
  | close {first : Bool} {gap : List Char} (hgap : gap.all isBlank = true) :
      WellFormedMembers first (gap ++ ['}'])
  | member {first : Bool} {letters : List Letter} {lead n before after s later : List Char}
      (hlead : Separates first lead) (hname : SpellsQuoted letters n)
      (hbefore : before.all isBlank = true) (hafter : after.all isBlank = true)
      (hs : WellFormed s) (hlater : WellFormedMembers false later) :
      WellFormedMembers first (lead ++ (n ++ (before ++ ':' :: (after ++ (s ++ later)))))

end

mutual

/-- Every spelling of a value is well formed. -/
theorem Value.Spells.wellFormed : ∀ {v : Value} {s : List Char}, v.Spells s → WellFormed s
  | _, _, .null => .null
  | _, _, .flag b => .flag b
  | _, _, .number hn => .number hn
  | _, _, .string hletters => .string ⟨_, hletters, rfl⟩
  | _, _, .list hitems => .list hitems.wellFormed
  | _, _, .object hmembers => .object hmembers.wellFormed

theorem SpellsItems.wellFormed : ∀ {first : Bool} {items : List Value} {s : List Char},
    SpellsItems first items s → WellFormedItems first s
  | _, _, _, .close hgap => .close hgap
  | _, _, _, .item hlead hv hlater => .item hlead hv.wellFormed hlater.wellFormed

theorem SpellsMembers.wellFormed : ∀ {first : Bool} {members : List (String × Value)}
    {s : List Char}, SpellsMembers first members s → WellFormedMembers first s
  | _, _, _, .close hgap => .close hgap
  | _, _, _, .member hlead hname hbefore hafter hv hlater =>
      .member hlead hname hbefore hafter hv.wellFormed hlater.wellFormed

end

/-! ### Members with values of any kind -/

/-- The members of an object from some member on, and the closing brace, where values are spelled as
`spells` says. -/
inductive LaysOut {ν : Type} (spells : ν → List Char → Prop) :
    Bool → List (String × ν) → List Char → Prop
  | close {first : Bool} {gap : List Char} (hgap : gap.all isBlank = true) :
      LaysOut spells first [] (gap ++ ['}'])
  | member {first : Bool} {name : String} {v : ν} {members : List (String × ν)}
      {lead n before after s later : List Char} (hlead : Separates first lead)
      (hname : SpellsName name n) (hbefore : before.all isBlank = true)
      (hafter : after.all isBlank = true) (hv : spells v s)
      (hlater : LaysOut spells false members later) :
      LaysOut spells first ((name, v) :: members)
        (lead ++ (n ++ (before ++ ':' :: (after ++ (s ++ later)))))

theorem SpellsMembers.laysOut {first : Bool} {members : List (String × Value)} {s : List Char}
    (h : SpellsMembers first members s) : LaysOut Value.Spells first members s := by
  induction members generalizing first s with
  | nil => cases h with | close hgap => exact .close hgap
  | cons member members ih =>
      cases h with
      | member hlead hname hbefore hafter hv hlater =>
          exact .member hlead hname hbefore hafter hv (ih hlater)

/-- A well-formed text, taken as it stands. -/
def Verbatim (text s : List Char) : Prop :=
  WellFormed s ∧ s = text

/-- A text that holds an object, and blanks around it; the members are given with the texts of their
values. -/
def IsObjectText (members : List (String × List Char)) (text : String) : Prop :=
  ∃ before s after, LaysOut Verbatim true members s ∧ before.all isBlank = true ∧
    after.all isBlank = true ∧ text.toList = before ++ '{' :: (s ++ after)

end CallLifecycle.Json

/-
Formats: how the values of a type are written as JSON and read back.

A format writes a value in one way and reads it in every way that means the same.
Reading takes a value off the front of a text, after blanks; that it takes at
least one character is part of what a reader is, so reading a record member by
member comes to an end.

A value of the wrong kind is the wrong data only if its first token is well
formed: an unfinished string or number is at fault for being unfinished.
-/
import CallLifecycle.Json.Numeral
import CallLifecycle.Json.Quoted
import CallLifecycle.Vocabulary

namespace CallLifecycle.Json

/-- Takes a value off the front of a text, or says what is wrong with the text. -/
structure Reader (α : Type) where
  run : List Char → Except Fault (α × List Char)
  shortens : ∀ {s r : List Char} {a : α}, run s = .ok (a, r) → r.length < s.length

/-- How the values of a type are written and read. -/
structure Format (α : Type) where
  write : α → List Char
  reader : Reader α

/-- Reads a value and makes something of it. -/
def Reader.map {α β : Type} (f : α → β) (reader : Reader α) : Reader β where
  run s := do
    let (a, r) ← reader.run s
    return (f a, r)
  shortens h := by
    obtain ⟨⟨a, t⟩, h₁, h⟩ := bind_eq_ok.1 h
    cases h
    exact reader.shortens h₁

namespace Format

variable {α : Type}

/-- The text of a value. -/
def encode (format : Format α) (a : α) : String :=
  String.ofList (format.write a)

/-- Reads a text that holds one value and, after it, only blanks. -/
def decode (format : Format α) (text : String) : Except Fault α := do
  let (a, r) ← format.reader.run text.toList
  if dropBlank r = [] then return a else throw .malformed

end Format

/-! ### Values of the wrong kind -/

/-- The fault of a text that goes on with a word. -/
def wordFault (word r : List Char) : Fault :=
  match expectWord word r with
  | .ok _ => .wrongData
  | .error f => f

/-- What is wrong with a value that is not of the kind asked for, from its first character on. -/
def mismatch (s : List Char) : Fault :=
  match s with
  | [] => .endOfText
  | c :: r =>
    if c = '"' then
      match readString r with
      | .ok _ => .wrongData
      | .error f => f
    else if c = '[' ∨ c = '{' then .wrongData
    else
      match wordAfter? c with
      | some word => wordFault word r
      | none =>
        if c = '-' ∨ Decimal.isDigit c then
          match readNumeral .endOfText (c :: r) with
          | .ok (n, _) => n.fault
          | .error f => f
        else .malformed

/-! ### Flags, words and strings -/

/-- Reads a yes or a no. -/
def readFlag (s : List Char) : Except Fault (Bool × List Char) :=
  match dropBlank s with
  | 't' :: r => do
    let r ← expectWord ['r', 'u', 'e'] r
    return (true, r)
  | 'f' :: r => do
    let r ← expectWord ['a', 'l', 's', 'e'] r
    return (false, r)
  | s => .error (mismatch s)

/-- Reads a number of one machine word. -/
def readMachineWord (s : List Char) : Except Fault (UInt64 × List Char) :=
  match dropBlank s with
  | [] => .error .endOfText
  | c :: r =>
    if c = '-' ∨ Decimal.isDigit c then do
      let (n, r) ← readNumeral .endOfText (c :: r)
      let word ← n.toWord
      return (word, r)
    else .error (mismatch (c :: r))

/-- Reads a string, quotes and all. -/
def readQuoted (s : List Char) : Except Fault (List Char × List Char) :=
  match dropBlank s with
  | '"' :: r => readString r
  | s => .error (mismatch s)

/-- Reads a string that stands for something, and is the wrong data if it stands for nothing. -/
def readMeaning {α : Type} (meaning? : List Char → Option α) (s : List Char) :
    Except Fault (α × List Char) := do
  let (cs, r) ← readQuoted s
  match meaning? cs with
  | some a => return (a, r)
  | none => throw .wrongData

/-- Reads a null. -/
def readNull (s : List Char) : Except Fault (List Char) :=
  match dropBlank s with
  | 'n' :: r => expectWord ['u', 'l', 'l'] r
  | s => .error (mismatch s)

theorem length_lt_of_readFlag {s r : List Char} {b : Bool} (h : readFlag s = .ok (b, r)) :
    r.length < s.length := by
  unfold readFlag at h
  split at h
  · next t hs =>
    obtain ⟨u, h₁, h⟩ := bind_eq_ok.1 h
    cases h
    have hlt := length_lt_of_dropBlank_eq_cons hs
    have := length_of_expectWord h₁
    omega
  · next t hs =>
    obtain ⟨u, h₁, h⟩ := bind_eq_ok.1 h
    cases h
    have hlt := length_lt_of_dropBlank_eq_cons hs
    have := length_of_expectWord h₁
    omega
  · cases h

theorem length_lt_of_readMachineWord {s r : List Char} {w : UInt64}
    (h : readMachineWord s = .ok (w, r)) : r.length < s.length := by
  unfold readMachineWord at h
  split at h
  · cases h
  · next c t hs =>
    split at h
    · obtain ⟨⟨n, u⟩, h₁, h⟩ := bind_eq_ok.1 h
      obtain ⟨v, h₂, h⟩ := bind_eq_ok.1 h
      cases h
      have hlt := length_lt_of_readNumeral h₁
      have hle := length_dropBlank_le s
      rw [hs] at hle
      omega
    · cases h

theorem length_lt_of_readQuoted {s cs r : List Char} (h : readQuoted s = .ok (cs, r)) :
    r.length < s.length := by
  unfold readQuoted at h
  split at h
  · next t hs =>
    exact Nat.lt_trans (length_lt_of_readString h) (length_lt_of_dropBlank_eq_cons hs)
  · cases h

theorem length_lt_of_readMeaning {α : Type} {meaning? : List Char → Option α} {s r : List Char}
    {a : α} (h : readMeaning meaning? s = .ok (a, r)) : r.length < s.length := by
  obtain ⟨⟨cs, t⟩, h₁, h⟩ := bind_eq_ok.1 h
  simp only at h
  split at h
  · cases h; exact length_lt_of_readQuoted h₁
  · cases h

theorem length_lt_of_readNull {s r : List Char} (h : readNull s = .ok r) :
    r.length < s.length := by
  unfold readNull at h
  split at h
  · next t hs =>
    have hlt := length_lt_of_dropBlank_eq_cons hs
    have := length_of_expectWord h
    omega
  · cases h

namespace Format

variable {α : Type}

/-- A yes or a no. -/
def flag : Format Bool where
  write b := (flagWord b).toList
  reader := ⟨readFlag, length_lt_of_readFlag⟩

/-- A number of one machine word. -/
def word : Format UInt64 where
  write n := Decimal.chars n.toNat
  reader := ⟨readMachineWord, length_lt_of_readMachineWord⟩

/-- Any string. -/
def string : Format String where
  write s := quoted s.toList
  reader := ⟨readMeaning fun cs => some (String.ofList cs), length_lt_of_readMeaning⟩

/-- An identifier, which may be read in any of its forms. -/
def identifier : Format Identifier where
  write i := quoted i.chars
  reader := ⟨readMeaning Identifier.ofChars?, length_lt_of_readMeaning⟩

/-! ### Values that may be missing -/

/-- Reads a null as nothing, and anything else as a value. -/
def readOptional (inner : Format α) (s : List Char) : Except Fault (Option α × List Char) :=
  match dropBlank s with
  | 'n' :: r => do
    let r ← expectWord ['u', 'l', 'l'] r
    return (none, r)
  | _ => do
    let (a, r) ← inner.reader.run s
    return (some a, r)

theorem length_lt_of_readOptional {inner : Format α} {s r : List Char} {a : Option α}
    (h : readOptional inner s = .ok (a, r)) : r.length < s.length := by
  unfold readOptional at h
  split at h
  · next t hs =>
    obtain ⟨u, h₁, h⟩ := bind_eq_ok.1 h
    cases h
    have hlt := length_lt_of_dropBlank_eq_cons hs
    have := length_of_expectWord h₁
    omega
  · obtain ⟨⟨a, u⟩, h₁, h⟩ := bind_eq_ok.1 h
    cases h
    exact inner.reader.shortens h₁

/-- A value that may be missing, which is written as null. -/
def optional (inner : Format α) : Format (Option α) where
  write
    | none => "null".toList
    | some a => inner.write a
  reader := ⟨readOptional inner, length_lt_of_readOptional⟩

/-! ### Words of a vocabulary -/

variable [Vocabulary α]

/-- Reads a word of a vocabulary where only a string may stand.  Anything else is malformed there, a
value of another kind too. -/
def readWord (s : List Char) : Except Fault (α × List Char) :=
  match dropBlank s with
  | [] => .error .endOfText
  | '"' :: r => readMeaning (fun cs => Vocabulary.ofName? (String.ofList cs)) ('"' :: r)
  | _ => .error .malformed

/-- Reads a word of a vocabulary: as a string, or as the only name of an object that holds null. -/
def readChoice (s : List Char) : Except Fault (α × List Char) :=
  match dropBlank s with
  | '{' :: r => do
    let (a, r) ← readWord r
    let r ← expectMark ':' r
    let r ← readNull r
    let r ← expectMark '}' r
    return (a, r)
  | s => readWord s

theorem length_lt_of_readWord {s r : List Char} {a : α} (h : readWord s = .ok (a, r)) :
    r.length < s.length := by
  unfold readWord at h
  split at h
  · cases h
  · next t hs =>
    have hle := length_dropBlank_le s
    rw [hs] at hle
    exact Nat.lt_of_lt_of_le (length_lt_of_readMeaning h) hle
  · cases h

theorem length_lt_of_readChoice {s r : List Char} {a : α} (h : readChoice s = .ok (a, r)) :
    r.length < s.length := by
  unfold readChoice at h
  split at h
  · next t hs =>
    obtain ⟨⟨b, u⟩, h₁, h⟩ := bind_eq_ok.1 h
    obtain ⟨v, h₂, h⟩ := bind_eq_ok.1 h
    obtain ⟨w, h₃, h⟩ := bind_eq_ok.1 h
    obtain ⟨x, h₄, h⟩ := bind_eq_ok.1 h
    cases h
    have hlt := length_lt_of_dropBlank_eq_cons hs
    have hlt₁ : u.length < t.length := length_lt_of_readWord h₁
    have hlt₂ : v.length < u.length := length_lt_of_expectMark h₂
    have hlt₃ := length_lt_of_readNull h₃
    have hlt₄ := length_lt_of_expectMark h₄
    omega
  · exact Nat.lt_of_lt_of_le (length_lt_of_readWord h) (length_dropBlank_le s)

/-- A word of a vocabulary. -/
def choice : Format α where
  write a := quoted (Vocabulary.name a).toList
  reader := ⟨readChoice, length_lt_of_readChoice⟩

end Format

end CallLifecycle.Json

/-
Formats of records, field by field.

A record is written as an object with its fields in order.  It is read from an
object, whose members may come in any order among others that nobody asked for, or
from a list of the values alone, in order.  No field may be given twice.

A field's reader does not give a value of the record; it gives what to change in
one.  Reading starts from a blank record and makes the changes as they come, so
every field has the type it likes and all of them stand in one list.
-/
import CallLifecycle.Json.Format
import CallLifecycle.Json.Ignored

namespace CallLifecycle.Json

/-- Where a field may be left out, and keeps its blank value. -/
inductive Absence
  /-- Nowhere. -/
  | required
  /-- In an object. -/
  | optional
  /-- In an object, and at the end of a list. -/
  | defaulted
  deriving DecidableEq

/-- One field of a record. -/
structure Field (ρ : Type) where
  name : String
  absence : Absence
  write : ρ → List Char
  reader : Reader (ρ → ρ)

/-- A field of a record, from the format of its values. -/
def Field.of {ρ α : Type} (name : String) (format : Format α) (get : ρ → α)
    (set : α → ρ → ρ) (absence : Absence := .required) : Field ρ where
  name := name
  absence := absence
  write a := format.write (get a)
  reader := format.reader.map set

/-- The fields of a record in order, and a record to start from. -/
structure RecordFormat (ρ : Type) where
  blank : ρ
  fields : List (Field ρ)

namespace RecordFormat

variable {ρ : Type}

/-! ### Writing -/

/-- Writes a record as an object on one line. -/
def write (format : RecordFormat ρ) (a : ρ) : List Char :=
  let members := format.fields.map fun f => quoted f.name.toList ++ ':' :: f.write a
  '{' :: [','].intercalate members ++ ['}']

/-- Writes a record with a line for each field, indented by two blanks. -/
def writeLines (format : RecordFormat ρ) (a : ρ) : List Char :=
  let members := format.fields.map fun f =>
    ' ' :: ' ' :: quoted f.name.toList ++ ':' :: ' ' :: f.write a
  '{' :: '\n' :: [',', '\n'].intercalate members ++ ['\n', '}']

/-! ### Reading an object -/

/-- What stands where a member may. -/
inductive Next (s : List Char)
  /-- The closing brace. -/
  | close (rest : Rest s)
  /-- A member, by its name. -/
  | name (name : String) (rest : Rest s)

/-- Reads the name of a member that follows `s` after some blanks or a comma. -/
def readName (s r : List Char) (h : r.length ≤ s.length) : Except Fault (Next s) :=
  match h₁ : r with
  | [] => .error .endOfText
  | c :: t =>
    if c = '"' then
      match h₂ : readString t with
      | .error f => .error f
      | .ok (name, u) => .ok (.name (String.ofList name) ⟨u, by
          have hlt := length_lt_of_readString h₂
          simp only [List.length_cons] at h
          omega⟩)
    else .error .malformed

/-- Reads on to the next member, and requires a comma before every member but the first. -/
def readNext (first : Bool) (s : List Char) : Except Fault (Next s) :=
  match h : dropBlank s with
  | [] => .error .endOfText
  | '}' :: r => .ok (.close ⟨r, length_lt_of_dropBlank_eq_cons h⟩)
  | c :: r =>
    have hle : (c :: r).length ≤ s.length := h ▸ length_dropBlank_le s
    if first then readName s (c :: r) hle
    else if c = ',' then
      readName s (dropBlank r) (by
        have := length_dropBlank_le r
        simp only [List.length_cons] at hle
        omega)
    else .error .malformed

/-- Whether every field that an object must have is among those given. -/
def isComplete (format : RecordFormat ρ) (given : List String) : Bool :=
  format.fields.all fun f => f.absence != .required || given.contains f.name

/-- Reads members up to the closing brace.

A field given twice is at fault as soon as its name is read, before its value. -/
def readMembers (format : RecordFormat ρ) (first : Bool) (given : List String) (record : ρ)
    (s : List Char) : Except Fault (ρ × Rest s) := do
  match ← readNext first s with
  | .close rest =>
    if format.isComplete given then return (record, rest) else throw .wrongData
  | .name name rest =>
    match format.fields.find? (·.name == name) with
    | none =>
      let value ← match h : expectMark ':' rest.val with
        | .error f => throw f
        | .ok r =>
          let r : Rest rest.val := ⟨r, length_lt_of_expectMark h⟩
          pure ((rest.within r).within (← skipValue r.val))
      have := value.property
      let (record, r) ← format.readMembers false given record value.val
      return (record, value.within r)
    | some field =>
      if given.contains name then throw .wrongData
      match h : expectMark ':' rest.val with
      | .error f => throw f
      | .ok r =>
        match h₁ : field.reader.run r with
        | .error f => throw f
        | .ok (change, t) =>
          let t : Rest s := rest.within ⟨t, Nat.lt_trans (field.reader.shortens h₁)
            (length_lt_of_expectMark h)⟩
          have := t.property
          let (record, u) ← format.readMembers false (name :: given) (change record) t.val
          return (record, t.within u)
termination_by s.length

/-! ### Reading a list -/

/-- Reads the values of the fields in order.  The list may end before fields that have defaults. -/
def readValues (record : ρ) (first : Bool) :
    List (Field ρ) → List Char → Except Fault (ρ × List Char)
  | [], s => .ok (record, s)
  | field :: fields, s =>
    match dropBlank s with
    | [] => .error .endOfText
    | c :: r =>
      if c = ']' then
        if (field :: fields).all (·.absence == .defaulted) then .ok (record, s)
        else .error .wrongData
      else if first then do
        let (change, r) ← field.reader.run (c :: r)
        readValues (change record) false fields r
      else if c = ',' then
        match dropBlank r with
        | ']' :: _ => .error .malformed
        | r => do
          let (change, r) ← field.reader.run r
          readValues (change record) false fields r
      else .error .malformed

/-- Reads the bracket that closes a list; a comma in its place is malformed, whatever follows. -/
def readListEnd (s : List Char) : Except Fault (List Char) :=
  match dropBlank s with
  | [] => .error .endOfText
  | ']' :: r => .ok r
  | _ => .error .malformed

/-- Reads a record from an object or a list. -/
def read (format : RecordFormat ρ) (s : List Char) : Except Fault (ρ × List Char) :=
  match dropBlank s with
  | '{' :: r => do
    let (record, r) ← format.readMembers true [] format.blank r
    return (record, r.val)
  | '[' :: r => do
    let (record, r) ← readValues format.blank true format.fields r
    let r ← readListEnd r
    return (record, r)
  | s => .error (mismatch s)

theorem length_le_of_readValues {fields : List (Field ρ)} {record b : ρ} {first : Bool}
    {s r : List Char} (h : readValues record first fields s = .ok (b, r)) :
    r.length ≤ s.length := by
  induction fields generalizing record first s with
  | nil => cases h; exact Nat.le_refl _
  | cons field fields ih =>
    unfold readValues at h
    split at h
    · cases h
    · next c t hs =>
      have hle := length_dropBlank_le s
      rw [hs] at hle
      split at h
      · split at h
        · cases h; exact Nat.le_refl _
        · cases h
      · split at h
        · obtain ⟨⟨change, u⟩, h₁, h⟩ := bind_eq_ok.1 h
          have := field.reader.shortens h₁
          have := ih h
          omega
        · split at h
          · split at h
            · cases h
            · obtain ⟨⟨change, u⟩, h₁, h⟩ := bind_eq_ok.1 h
              have := field.reader.shortens h₁
              have := length_dropBlank_le t
              have := ih h
              simp only [List.length_cons] at hle
              omega
          · cases h

theorem length_lt_of_readListEnd {s r : List Char} (h : readListEnd s = .ok r) :
    r.length < s.length := by
  unfold readListEnd at h
  split at h
  · cases h
  · next hs => cases h; exact length_lt_of_dropBlank_eq_cons hs
  · cases h

theorem length_lt_of_read {format : RecordFormat ρ} {s r : List Char} {a : ρ}
    (h : format.read s = .ok (a, r)) : r.length < s.length := by
  unfold read at h
  split at h
  · next t hs =>
    obtain ⟨⟨b, u⟩, h₁, h⟩ := bind_eq_ok.1 h
    cases h
    exact Nat.lt_trans u.property (length_lt_of_dropBlank_eq_cons hs)
  · next t hs =>
    obtain ⟨⟨b, u⟩, h₁, h⟩ := bind_eq_ok.1 h
    obtain ⟨v, h₂, h⟩ := bind_eq_ok.1 h
    cases h
    have hlt := length_lt_of_dropBlank_eq_cons hs
    have hle : u.length ≤ t.length := length_le_of_readValues h₁
    have hlt₂ : r.length < u.length := length_lt_of_readListEnd h₂
    omega
  · cases h

/-- The format of a record. -/
def toFormat (format : RecordFormat ρ) : Format ρ where
  write := format.write
  reader := ⟨format.read, length_lt_of_read⟩

end RecordFormat

end CallLifecycle.Json

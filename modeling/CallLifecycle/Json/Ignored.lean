/-
Values that are passed over.

A member that nobody asked for need only be well formed: it may nest to any depth,
hold numbers of any size and repeat names.  Passing over such a value follows the
grammar and keeps nothing.
-/
import CallLifecycle.Json.Numeral
import CallLifecycle.Json.Quoted

namespace CallLifecycle.Json

/-- What is left of a text once something was taken off its front. -/
abbrev Rest (s : List Char) := { r : List Char // r.length < s.length }

/-- What is left of a text is shorter than any text it is shorter than the rest of. -/
def Rest.within {s : List Char} (t : Rest s) (r : Rest t.val) : Rest s :=
  ⟨r.val, Nat.lt_trans r.property t.property⟩

/-- Passes over the name of a member and its colon. -/
def skipName (s : List Char) : Except Fault (Rest s) :=
  match h : dropBlank s with
  | '"' :: r =>
    match h₁ : skipString r with
    | .error f => .error f
    | .ok t =>
      match h₂ : expectMark ':' t with
      | .error f => .error f
      | .ok u => .ok ⟨u, by
          have hlt := length_lt_of_dropBlank_eq_cons h
          have hlt₁ := length_lt_of_skipString h₁
          have hlt₂ := length_lt_of_expectMark h₂
          omega⟩
  | [] => .error .endOfText
  | _ => .error .malformed

mutual

/-- Passes over one value. -/
def skipValue (s : List Char) : Except Fault (Rest s) :=
  match h : dropBlank s with
  | [] => .error .endOfText
  | c :: r =>
    have hlt : r.length < s.length := length_lt_of_dropBlank_eq_cons h
    if c = '"' then
      match h₁ : skipString r with
      | .error f => .error f
      | .ok t => .ok ⟨t, Nat.lt_trans (length_lt_of_skipString h₁) hlt⟩
    else if c = '[' then
      match h₁ : dropBlank r with
      | ']' :: t => .ok ⟨t, Nat.lt_trans (length_lt_of_dropBlank_eq_cons h₁) hlt⟩
      | _ => do return Rest.within ⟨r, hlt⟩ (← skipItems r)
    else if c = '{' then
      match h₁ : dropBlank r with
      | '}' :: t => .ok ⟨t, Nat.lt_trans (length_lt_of_dropBlank_eq_cons h₁) hlt⟩
      | _ => do return Rest.within ⟨r, hlt⟩ (← skipMembers r)
    else
      match wordAfter? c with
      | some word =>
        match h₁ : expectWord word r with
        | .error f => .error f
        | .ok t => .ok ⟨t, by have := length_of_expectWord h₁; omega⟩
      | none =>
        if c = '-' ∨ Decimal.isDigit c then
          match h₁ : readNumeral .malformed (c :: r) with
          | .error f => .error f
          | .ok (_, t) => .ok ⟨t, by
              have hlt₁ := length_lt_of_readNumeral h₁
              simp only [List.length_cons] at hlt₁
              omega⟩
        else .error .malformed
termination_by (s.length, 0)

/-- Passes over the values of a list, from the first of them to the closing bracket. -/
def skipItems (s : List Char) : Except Fault (Rest s) := do
  let ⟨r, hr⟩ ← skipValue s
  match h : dropBlank r with
  | ']' :: t => return Rest.within ⟨r, hr⟩ ⟨t, length_lt_of_dropBlank_eq_cons h⟩
  | ',' :: t =>
    let t : Rest r := ⟨t, length_lt_of_dropBlank_eq_cons h⟩
    have : t.val.length < s.length := Nat.lt_trans t.property hr
    return Rest.within ⟨r, hr⟩ (t.within (← skipItems t.val))
  | [] => throw .endOfText
  | _ => throw .malformed
termination_by (s.length, 1)

/-- Passes over the members of an object, from the first of them to the closing brace. -/
def skipMembers (s : List Char) : Except Fault (Rest s) := do
  let name ← skipName s
  have := name.property
  let value ← skipValue name.val
  let rest := name.within value
  match h : dropBlank rest.val with
  | '}' :: t => return rest.within ⟨t, length_lt_of_dropBlank_eq_cons h⟩
  | ',' :: t =>
    let t : Rest rest.val := ⟨t, length_lt_of_dropBlank_eq_cons h⟩
    have : t.val.length < s.length := (rest.within t).property
    return rest.within (t.within (← skipMembers t.val))
  | [] => throw .endOfText
  | _ => throw .malformed
termination_by (s.length, 1)

end

end CallLifecycle.Json

/-
What a reader makes of a text depends on the value alone.

A reader understands values if a function from values says, for every spelling, what is read:
either something, and then all of the value is read and no more, or nothing.  The readers of flags,
words, strings and choices understand values.  So does a reader that takes a null as nothing, if
what it takes otherwise does.
-/
import CallLifecycle.Proofs.Skipping

namespace CallLifecycle.Json

/-- What a reader makes of a text is what `meaning` makes of the value that it spells. -/
def Reader.Reads {α ν : Type} (reader : Reader α) (spells : ν → List Char → Prop)
    (meaning : ν → Option α) : Prop :=
  ∀ ⦃v : ν⦄ ⦃s t r : List Char⦄, spells v s → dropBlank t = s ++ r → endsValue r = true →
    (reader.run t).toOption = (meaning v).map (·, r)

/-- What a reader makes of a text is what `meaning` makes of its value. -/
def Reader.Understands {α : Type} (reader : Reader α) (meaning : Value → Option α) : Prop :=
  ∀ ⦃v : Value⦄ ⦃s t r : List Char⦄, v.Spells s → dropBlank t = s ++ r → endsValue r = true →
    (reader.run t).toOption = (meaning v).map (·, r)

theorem toOption_bind {ε α β : Type} (x : Except ε α) (f : α → Except ε β) :
    (x >>= f).toOption = x.toOption.bind fun a => (f a).toOption := by
  cases x <;> rfl

theorem eq_ok_of_toOption {ε α : Type} {x : Except ε α} {a : α} (h : x.toOption = some a) :
    x = .ok a := by
  cases x with
  | ok b => cases h; rfl
  | error e => cases h

theorem Reader.Reads.map {α β ν : Type} {reader : Reader α} {spells : ν → List Char → Prop}
    {meaning : ν → Option α} (h : reader.Reads spells meaning) (f : α → β) :
    (reader.map f).Reads spells fun v => (meaning v).map f := by
  intro v s t r hv ht hr
  show (reader.run t >>= fun x => pure (f x.1, x.2)).toOption = _
  rw [toOption_bind, h hv ht hr]
  show _ = ((meaning v).map f).map (·, r)
  cases meaning v <;> rfl

theorem Reader.Understands.map {α β : Type} {reader : Reader α} {meaning : Value → Option α}
    (h : reader.Understands meaning) (f : α → β) :
    (reader.map f).Understands fun v => (meaning v).map f :=
  Reader.Reads.map h f

/-- The first character of a number is no other token. -/
theorem SpellsNumeral.begins {n : Numeral} {s : List Char} (h : SpellsNumeral n s) :
    ∃ c t, s = c :: t ∧ (c = '-' ∨ Decimal.isDigit c = true) :=
  (Value.Spells.number h).begins

/-! ### Flags and words -/

/-- The yes or no that a value is. -/
def Value.flag? : Value → Option Bool
  | flag b => some b
  | _ => none

theorem toOption_readFlag_refused {t u : List Char} {c : Char} (ht : dropBlank t = c :: u)
    (hyes : c ≠ 't') (hno : c ≠ 'f') : (readFlag t).toOption = none := by
  rw [readFlag, ht]
  split
  · next hs => cases hs; exact (hyes rfl).elim
  · next hs => cases hs; exact (hno rfl).elim
  · rfl

theorem understands_flag : Format.flag.reader.Understands Value.flag? := by
  intro v s t r hv ht _
  show (readFlag t).toOption = _
  cases hv with
  | flag b =>
      rw [readFlag, ht]
      cases b <;> rfl
  | number hn =>
      obtain ⟨c, u, rfl, hc⟩ := hn.begins
      refine toOption_readFlag_refused ht ?_ ?_ <;> (rintro rfl; exact absurd hc (by decide))
  | null | string | list | object => exact toOption_readFlag_refused ht (by decide) (by decide)

/-- The machine word that a value is. -/
def Value.word? : Value → Option UInt64
  | number n => n.toWord.toOption
  | _ => none

theorem understands_word : Format.word.reader.Understands Value.word? := by
  intro v s t r hv ht hr
  show (readMachineWord t).toOption = _
  rw [readMachineWord, ht]
  cases hv with
  | @number n s hn =>
      obtain ⟨c, u, rfl, hc⟩ := hn.begins
      have hread := readNumeral_spelled hn hr .endOfText
      rw [List.cons_append] at hread ⊢
      simp only [hc, if_true, hread]
      show (n.toWord >>= fun word => pure (word, r)).toOption = _
      rw [toOption_bind]
      show _ = n.toWord.toOption.map (·, r)
      cases n.toWord <;> rfl
  | flag b => cases b <;> rfl
  | null | string | list | object => rfl

/-! ### Strings -/

/-- The characters that a value is. -/
def Value.characters? : Value → Option (List Char)
  | string letters => chars? letters
  | _ => none

theorem toOption_readQuoted_string {letters : List Letter} {s t r : List Char}
    (h : SpellsLetters letters s) (ht : dropBlank t = '"' :: (s ++ '"' :: r)) :
    (readQuoted t).toOption = (chars? letters).map (·, r) := by
  rw [readQuoted, ht]
  exact readString_spelled h r

theorem toOption_readQuoted {v : Value} {s t r : List Char} (hv : v.Spells s)
    (ht : dropBlank t = s ++ r) : (readQuoted t).toOption = v.characters?.map (·, r) := by
  cases hv with
  | string hletters => exact toOption_readQuoted_string hletters (by simpa using ht)
  | number hn =>
      rw [readQuoted, ht]
      obtain ⟨c, u, rfl, hc⟩ := hn.begins
      split
      · next hs => cases hs; exact absurd hc (by decide)
      · rfl
  | flag b =>
      rw [readQuoted, ht]
      cases b <;> rfl
  | null | list | object =>
      rw [readQuoted, ht]
      rfl

theorem toOption_readMeaning {α : Type} {meaning? : List Char → Option α} {t r : List Char}
    {cs? : Option (List Char)} (h : (readQuoted t).toOption = cs?.map (·, r)) :
    (readMeaning meaning? t).toOption = (cs?.bind meaning?).map (·, r) := by
  rw [readMeaning, toOption_bind, h]
  cases cs? with
  | none => rfl
  | some cs =>
      simp only [Option.map_some, Option.bind_some]
      cases meaning? cs <;> rfl

theorem understands_string :
    Format.string.reader.Understands fun v => v.characters?.map String.ofList := by
  intro v s t r hv ht _
  show (readMeaning (fun cs => some (String.ofList cs)) t).toOption = _
  rw [toOption_readMeaning (toOption_readQuoted hv ht), ← Function.comp_def,
    ← Option.map_eq_bind]

theorem understands_identifier :
    Format.identifier.reader.Understands fun v => v.characters?.bind Identifier.ofChars? :=
  fun _ _ _ _ hv ht _ => toOption_readMeaning (toOption_readQuoted hv ht)

/-! ### Values that may be missing -/

/-- What a value is that may be null. -/
def Value.optional? {α : Type} (meaning : Value → Option α) : Value → Option (Option α)
  | null => some none
  | v => (meaning v).map some

theorem understands_optional {α : Type} {inner : Format α} {meaning : Value → Option α}
    (h : inner.reader.Understands meaning) :
    (Format.optional inner).reader.Understands (Value.optional? meaning) := by
  intro v s t r hv ht hr
  have hinner : (inner.reader.run t >>= fun x => pure (some x.1, x.2)).toOption =
      ((meaning v).map some).map (·, r) := by
    rw [toOption_bind, h hv ht hr]
    cases meaning v <;> rfl
  show (Format.readOptional inner t).toOption = _
  unfold Format.readOptional
  split
  · next hs =>
      cases hv with
      | null =>
          cases ht.symm.trans hs
          rfl
      | flag b => cases b <;> cases ht.symm.trans hs
      | number hn =>
          obtain ⟨c, u, rfl, hc⟩ := hn.begins
          cases ht.symm.trans hs
          exact absurd hc (by decide)
      | string | list | object => cases ht.symm.trans hs
  · next hnot =>
      cases hv with
      | null => exact (hnot _ ht).elim
      | flag | number | string | list | object => exact hinner

/-! ### Words of a vocabulary -/

section Words

variable {α : Type} [Vocabulary α]

/-- The word that a value is: a string, or the only name of an object that holds null. -/
def Value.choice? : Value → Option α
  | string letters => (chars? letters).bind fun cs => Vocabulary.ofName? (String.ofList cs)
  | object [(name, null)] => Vocabulary.ofName? name
  | _ => none

theorem toOption_readWord_string {letters : List Letter} {s t r : List Char}
    (h : SpellsLetters letters s) (ht : dropBlank t = '"' :: (s ++ '"' :: r)) :
    (Format.readWord (α := α) t).toOption =
      ((chars? letters).bind fun cs => Vocabulary.ofName? (String.ofList cs)).map (·, r) := by
  rw [Format.readWord, ht]
  exact toOption_readMeaning (toOption_readQuoted_string h (dropBlank_of_not rfl _))

theorem toOption_readNull {v : Value} {s t r : List Char} (hv : v.Spells s)
    (ht : dropBlank t = s ++ r) :
    (readNull t).toOption = match v with | .null => some r | _ => none := by
  rw [readNull, ht]
  cases hv with
  | number hn =>
      obtain ⟨c, u, rfl, hc⟩ := hn.begins
      split
      · next hs => cases hs; exact absurd hc (by decide)
      · rfl
  | flag b => cases b <;> rfl
  | null | string | list | object => rfl

theorem toOption_readWord_refused {t u : List Char} {c : Char} (ht : dropBlank t = c :: u)
    (hc : c ≠ '"') : (Format.readWord (α := α) t).toOption = none := by
  rw [Format.readWord, ht]
  split
  · rfl
  · next hs => cases hs; exact (hc rfl).elim
  · rfl

/-- What may stand behind the only name of an object. -/
def isNullAlone : Value → List (String × Value) → Bool
  | .null, [] => true
  | _, _ => false

theorem choice?_object (name : String) (v : Value) (members : List (String × Value)) :
    (Value.choice? (.object ((name, v) :: members)) : Option α) =
      if isNullAlone v members then Vocabulary.ofName? name else none := by
  cases v <;> cases members <;> rfl

/-- Behind the word of an object there must be a null, and nothing else. -/
theorem toOption_readNull_close {v : Value} {members : List (String × Value)}
    {s later after r : List Char} (hv : v.Spells s) (hafter : after.all isBlank = true)
    (hlater : SpellsMembers false members later) :
    (readNull (after ++ (s ++ (later ++ r))) >>= expectMark '}').toOption =
      if isNullAlone v members then some r else none := by
  rw [toOption_bind, toOption_readNull hv (dropBlank_gap_spells hv hafter _)]
  cases hv with
  | null =>
      show (expectMark '}' (later ++ r)).toOption = _
      rw [expectMark]
      cases hlater with
      | close hgap =>
          rw [List.append_assoc, dropBlank_blanks hgap]
          rfl
      | member hlead _ _ _ _ _ =>
          obtain ⟨u, hcomma, -⟩ := hlead.later _
          rw [List.append_assoc, hcomma]
          rfl
  | flag | number | string | list | object => rfl

/-- What stands behind the brace of an object is a word only if it is the only name, of a null. -/
theorem toOption_readChoice_object {members : List (String × Value)} {s r : List Char}
    (h : SpellsMembers true members s) :
    (do
      let (a, u) ← Format.readWord (α := α) (s ++ r)
      let u ← expectMark ':' u
      let u ← readNull u
      let u ← expectMark '}' u
      return (a, u)).toOption = (Value.choice? (.object members)).map (·, r) := by
  rw [toOption_bind]
  cases h with
  | close hgap =>
      have hclose := (dropBlank_blanks hgap ('}' :: r)).trans (dropBlank_of_not rfl r)
      rw [List.append_assoc]
      exact congrArg (Option.bind · _) (toOption_readWord_refused hclose (by decide))
  | @member _ name v members lead n before after s later hlead hname hbefore hafter hv hlater =>
      obtain ⟨letters, hletters, rfl⟩ := hname
      let value := after ++ (s ++ (later ++ r))
      have hquote : dropBlank (lead ++ ('"' :: (letters ++ '"' :: (before ++ ':' :: value)))) =
          '"' :: (letters ++ '"' :: (before ++ ':' :: value)) :=
        (hlead.first _).trans (dropBlank_of_not rfl _)
      have hword := toOption_readWord_string (α := α) hletters hquote
      rw [chars?_map_char, Option.bind_some, String.ofList_toList] at hword
      have hmark : expectMark ':' (before ++ ':' :: value) = .ok value := by
        rw [expectMark, dropBlank_blanks hbefore]
        rfl
      have hnull := toOption_readNull_close hv hafter hlater (r := r)
      simp only [List.append_assoc, List.cons_append, List.nil_append]
      rw [hword, choice?_object]
      cases Vocabulary.ofName? (α := α) name with
      | none => simp
      | some a =>
          show (expectMark ':' (before ++ ':' :: value) >>= fun u => _).toOption = _
          rw [hmark]
          show (readNull value >>= fun u => expectMark '}' u >>= fun u => pure (a, u)).toOption = _
          rw [← bind_assoc, toOption_bind, hnull]
          cases isNullAlone v members <;> rfl

theorem understands_choice :
    (Format.choice : Format α).reader.Understands (Value.choice? (α := α)) := by
  intro v s t r hv ht _
  show (Format.readChoice t).toOption = _
  unfold Format.readChoice
  split
  · next u hs =>
      cases hv with
      | object hmembers =>
          cases ht.symm.trans hs
          exact toOption_readChoice_object hmembers
      | flag b => cases b <;> cases ht.symm.trans hs
      | number hn =>
          obtain ⟨c, u, rfl, hc⟩ := hn.begins
          cases ht.symm.trans hs
          exact absurd hc (by decide)
      | null | string | list => cases ht.symm.trans hs
  · next hnot =>
      have htext : dropBlank (dropBlank t) = s ++ r := by
        rw [ht]
        exact dropBlank_spells hv r
      cases hv with
      | object _ => exact (hnot _ ht).elim
      | string hletters => exact toOption_readWord_string hletters (by simpa using htext)
      | flag b => cases b <;> exact toOption_readWord_refused htext (by decide)
      | number hn =>
          obtain ⟨c, u, rfl, hc⟩ := hn.begins
          refine toOption_readWord_refused htext ?_
          rintro rfl
          exact absurd hc (by decide)
      | null | list => exact toOption_readWord_refused htext (by decide)

end Words

end CallLifecycle.Json

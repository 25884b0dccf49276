/-
Strings and numbers are read from any of their spellings.

A string is read as the characters that its letters are, and not at all if one of its letters is
half of a character; where it is passed over, any letter will do.  A number is read as its parts.
It goes on for as long as there are digits, so what follows it must be able to end a value.

Writing chooses one spelling of each.
-/
import Mathlib.Data.List.TakeWhile
import CallLifecycle.Proofs.Spelling

namespace CallLifecycle.Json

/-! ### Blanks -/

theorem dropBlank_blanks {gap : List Char} (hgap : gap.all isBlank = true) (s : List Char) :
    dropBlank (gap ++ s) = dropBlank s :=
  List.dropWhile_append_of_pos (List.all_eq_true.mp hgap)

theorem dropBlank_of_not {c : Char} (hc : isBlank c = false) (s : List Char) :
    dropBlank (c :: s) = c :: s :=
  List.dropWhile_cons_of_neg (by simp [hc])

theorem dropBlank_eq_nil_iff {s : List Char} : dropBlank s = [] ↔ s.all isBlank = true :=
  List.dropWhile_eq_nil_iff.trans List.all_eq_true.symm

/-- Whether a value can be over where a text goes on so. -/
def endsValue : List Char → Bool
  | [] => true
  | c :: _ => c == ',' || c == ']' || c == '}' || isBlank c

/-! ### Code units and pieces -/

/-- A code unit is read from any of its spellings. -/
theorem readUnit_spelled {n : Nat} {u : List Char} (h : SpellsUnit n u) (r : List Char) :
    readUnit (u ++ r) = .ok (n, r) := by
  obtain ⟨hlength, digits, hdigits, hn⟩ := h
  have htake : (u ++ r).take 4 = u := List.take_left' hlength
  have hdrop : (u ++ r).drop 4 = r := List.drop_left' hlength
  have hsize : ¬ u.foldl (fun size c => size + c.utf8Size) 0 < 4 := by
    match u, hlength with
    | [a, b, c, d], _ =>
        have := a.utf8Size_pos
        have := b.utf8Size_pos
        have := c.utf8Size_pos
        have := d.utf8Size_pos
        simp only [List.foldl_cons, List.foldl_nil]
        omega
  simp only [readUnit, htake, hdrop, hsize, if_false, hdigits, hn]

theorem readPiece_plain {c : Char} (hcontrol : 0x20 ≤ c.toNat) (hquote : c ≠ '"')
    (hslash : c ≠ '\\') (r : List Char) : readPiece (c :: r) = .ok (.char c, r) := by
  have hplain : ¬ c.toNat < 0x20 := Nat.not_lt.mpr hcontrol
  unfold readPiece
  split <;> simp_all

theorem readPiece_escape {e c : Char} (he : simpleEscape? e = some c) (r : List Char) :
    readPiece ('\\' :: e :: r) = .ok (.char c, r) := by
  have hu : e ≠ 'u' := by
    rintro rfl
    cases he
  unfold readPiece
  split
  · next h => cases h
  · next h => cases h
  · next h => cases h
  · next h =>
      cases h
      exact (hu rfl).elim
  · next h =>
      cases h
      simp only [he]
  · next hnot h =>
      cases h
      exact (hnot e r rfl rfl).elim

theorem readPiece_unit {n : Nat} {u : List Char} (hu : SpellsUnit n u) (r : List Char) :
    readPiece ('\\' :: 'u' :: (u ++ r)) = .ok (.unit n, r) := by
  show readUnit _ >>= _ = _
  rw [readUnit_spelled hu]
  rfl

/-- The code of a character is no half of one. -/
theorem not_half (c : Char) : isTrailing c.toNat = false ∧ isLeading c.toNat = false := by
  have hvalid : c.toNat < 0xD800 ∨ 0xDFFF < c.toNat ∧ c.toNat < 0x110000 := c.valid
  simp only [isTrailing, isLeading, Bool.and_eq_false_iff, decide_eq_false_iff_not]
  omega

theorem not_trailing_of_leading {n : Nat} (h : isLeading n = true) : isTrailing n = false := by
  simp only [isLeading, isTrailing, Bool.and_eq_true, decide_eq_true_eq, Bool.and_eq_false_iff,
    decide_eq_false_iff_not] at h ⊢
  omega

/-! ### Letters -/

theorem readChar?_of_piece {s r : List Char} {c : Char} (h : readPiece s = .ok (.char c, r)) :
    readChar? s = .ok (some c, r) := by
  rw [readChar?, h]
  rfl

theorem readChar?_unit {c : Char} {u : List Char} (hu : SpellsUnit c.toNat u) (r : List Char) :
    readChar? ('\\' :: 'u' :: (u ++ r)) = .ok (some c, r) := by
  simp only [readChar?, readPiece_unit hu, bind, Except.bind, not_half c, Bool.false_eq_true,
    if_false, Char.ofNat_toNat]
  rfl

theorem readChar?_pair {c : Char} {leading trailing : Nat} {u v : List Char}
    (hu : SpellsUnit leading u) (hv : SpellsUnit trailing v) (hleading : isLeading leading = true)
    (htrailing : isTrailing trailing = true) (hc : c.toNat = pairedCode leading trailing)
    (r : List Char) :
    readChar? ('\\' :: 'u' :: (u ++ '\\' :: 'u' :: (v ++ r))) = .ok (some c, r) := by
  have hsecond : readTrailing leading ('\\' :: 'u' :: (v ++ r)) = .ok (c, r) := by
    show readUnit (v ++ r) >>= _ = _
    rw [readUnit_spelled hv]
    show (if isTrailing trailing = true then Except.ok (Char.ofNat (pairedCode leading trailing), r)
      else _) = _
    rw [if_pos htrailing, ← hc, Char.ofNat_toNat]
  simp only [readChar?, readPiece_unit hu, bind, Except.bind, not_trailing_of_leading hleading,
    hleading, hsecond, Bool.false_eq_true, if_false, if_true]
  rfl

/-- What follows the first half of a character is not read as the second, unless it is one. -/
theorem readTrailing_refused {leading : Nat} {letters : List Letter} {s : List Char}
    (h : SpellsLetters letters s)
    (halone : ∀ m, letters.head? = some (.half m) → isTrailing m = false) (r : List Char) :
    ∃ f, readTrailing leading (s ++ '"' :: r) = .error f := by
  have hunit : ∀ {n : Nat} {u t : List Char}, SpellsUnit n u → isTrailing n = false →
      ∃ f, readTrailing leading ('\\' :: 'u' :: (u ++ t)) = .error f := by
    intro n u t hu hn
    refine ⟨.malformed, ?_⟩
    show readUnit (u ++ t) >>= _ = _
    rw [readUnit_spelled hu]
    exact if_neg (by simp [hn])
  cases h with
  | nil => exact ⟨_, rfl⟩
  | plain _ _ hslash _ =>
      refine ⟨.malformed, ?_⟩
      simp [readTrailing, expectWord, hslash, bind, Except.bind]
  | @escape e _ _ _ he _ =>
      have hu : e ≠ 'u' := by
        rintro rfl
        cases he
      refine ⟨.malformed, ?_⟩
      simp [readTrailing, expectWord, hu, bind, Except.bind]
  | unit hu _ => simpa using hunit hu (not_half _).1
  | pair hu _ hleading _ _ _ => simpa using hunit hu (not_trailing_of_leading hleading)
  | half hu _ _ => simpa using hunit hu (halone _ rfl)

theorem readChar?_half {n : Nat} {letters : List Letter} {u s : List Char} (hu : SpellsUnit n u)
    (hn : isTrailing n = true ∨ isLeading n = true ∧
      ∀ m, letters.head? = some (.half m) → isTrailing m = false)
    (h : SpellsLetters letters s) (r : List Char) :
    ∃ f, readChar? ('\\' :: 'u' :: (u ++ (s ++ '"' :: r))) = .error f := by
  simp only [readChar?, readPiece_unit hu, bind, Except.bind]
  rcases hn with htrailing | ⟨hleading, halone⟩
  · exact ⟨.malformed, if_pos htrailing⟩
  · obtain ⟨f, hf⟩ := readTrailing_refused h halone r
    refine ⟨f, ?_⟩
    simp only [not_trailing_of_leading hleading, hleading, Bool.false_eq_true, if_false, if_true]
    rw [hf]

/-! ### Strings -/

theorem readString_of_error {s : List Char} {f : Fault} (h : readChar? s = .error f) :
    readString s = .error f := by
  unfold readString
  split
  · next hread => cases h.symm.trans hread; rfl
  · next hread => cases h.symm.trans hread
  · next hread => cases h.symm.trans hread

theorem readString_of_close {s r : List Char} (h : readChar? s = .ok (none, r)) :
    readString s = .ok ([], r) := by
  unfold readString
  split
  · next hread => cases h.symm.trans hread
  · next hread =>
      cases h.symm.trans hread
      rfl
  · next hread => cases h.symm.trans hread

theorem readString_of_char {s t : List Char} {c : Char} (h : readChar? s = .ok (some c, t)) :
    readString s = (readString t).map fun x => (c :: x.1, x.2) := by
  conv => lhs; unfold readString
  split
  · next hread => cases h.symm.trans hread
  · next hread => cases h.symm.trans hread
  · next hread =>
      cases h.symm.trans hread
      cases readString t <;> rfl

theorem toOption_readString {s t : List Char} {c : Char} (h : readChar? s = .ok (some c, t)) :
    (readString s).toOption = (readString t).toOption.map fun x => (c :: x.1, x.2) := by
  rw [readString_of_char h]
  cases readString t <;> rfl

/-- **A string is read as its letters**, if all of them are whole, and not at all if one is not. -/
theorem readString_spelled {letters : List Letter} {s : List Char}
    (h : SpellsLetters letters s) (r : List Char) :
    (readString (s ++ '"' :: r)).toOption = (chars? letters).map (·, r) := by
  have hchar : ∀ {c : Char} {letters : List Letter} {t u : List Char},
      readChar? t = .ok (some c, u) →
      (readString u).toOption = (chars? letters).map (·, r) →
      (readString t).toOption = (chars? (.char c :: letters)).map (·, r) := by
    intro c letters t u hread hlater
    rw [toOption_readString hread, hlater, chars?_char, Option.map_map, Option.map_map]
    rfl
  induction h with
  | nil => rw [List.nil_append, readString_of_close rfl]; rfl
  | plain hcontrol hquote hslash _ ih =>
      exact hchar (readChar?_of_piece (readPiece_plain hcontrol hquote hslash _)) ih
  | escape he _ ih => exact hchar (readChar?_of_piece (readPiece_escape he _)) ih
  | unit hu _ ih =>
      simp only [List.cons_append, List.append_assoc]
      exact hchar (readChar?_unit hu _) ih
  | pair hu hv hleading htrailing hc _ ih =>
      simp only [List.cons_append, List.append_assoc]
      exact hchar (readChar?_pair hu hv hleading htrailing hc _) ih
  | half hu hn hlater _ =>
      simp only [List.cons_append, List.append_assoc]
      obtain ⟨f, hf⟩ := readChar?_half hu hn hlater r
      rw [readString_of_error hf, chars?_half]
      rfl

theorem skipString_of_close {s r : List Char} (h : readPiece s = .ok (.close, r)) :
    skipString s = .ok r := by
  unfold skipString
  split
  · next hread => cases h.symm.trans hread
  · next hread => cases h.symm.trans hread; rfl
  · next hnot hread =>
      cases h.symm.trans hread
      exact (hnot rfl).elim

theorem skipString_of_piece {s t : List Char} {p : Piece} (h : readPiece s = .ok (p, t))
    (hp : p ≠ .close) : skipString s = skipString t := by
  conv => lhs; unfold skipString
  split
  · next hread => cases h.symm.trans hread
  · next hread =>
      cases h.symm.trans hread
      exact (hp rfl).elim
  · next hread => cases h.symm.trans hread; rfl

/-- A string is passed over up to its closing quote, halves of characters and all. -/
theorem skipString_spelled {letters : List Letter} {s : List Char}
    (h : SpellsLetters letters s) (r : List Char) : skipString (s ++ '"' :: r) = .ok r := by
  induction h with
  | nil => exact skipString_of_close rfl
  | plain hcontrol hquote hslash _ ih =>
      exact (skipString_of_piece (readPiece_plain hcontrol hquote hslash _) nofun).trans ih
  | escape he _ ih => exact (skipString_of_piece (readPiece_escape he _) nofun).trans ih
  | unit hu _ ih | half hu _ _ ih =>
      simp only [List.cons_append, List.append_assoc]
      exact (skipString_of_piece (readPiece_unit hu _) nofun).trans ih
  | pair hu hv _ _ _ _ ih =>
      simp only [List.cons_append, List.append_assoc]
      rw [skipString_of_piece (readPiece_unit hu _) nofun,
        skipString_of_piece (readPiece_unit hv _) nofun]
      exact ih

/-! ### Numbers -/

/-- Whether digits can be over where a text goes on so. -/
def EndsDigits (s : List Char) : Prop :=
  ∀ c, s.head? = some c → Decimal.isDigit c = false

theorem endsDigits_of_endsValue {r : List Char} (h : endsValue r = true) : EndsDigits r := by
  intro c hc
  cases r with
  | nil => cases hc
  | cons d r =>
      cases hc
      simp only [endsValue, isBlank, Bool.or_eq_true, beq_iff_eq] at h
      obtain ((rfl | rfl) | rfl) | ((rfl | rfl) | rfl) | rfl := h <;> rfl

theorem IsDigits.exists_cons {ds : List Char} (h : IsDigits ds) :
    ∃ d rest, ds = d :: rest ∧ Decimal.isDigit d = true := by
  obtain ⟨d, rest, rfl⟩ := List.exists_cons_of_ne_nil h.1
  exact ⟨d, rest, rfl, List.all_eq_true.mp h.2 d List.mem_cons_self⟩

theorem readDigits_spelled {ds r : List Char} (hds : IsDigits ds) (hr : EndsDigits r)
    (atEnd : Fault) : readDigits atEnd (ds ++ r) = .ok (ds, r) := by
  have hdigits := List.all_eq_true.mp hds.2
  have hhead : r.takeWhile Decimal.isDigit = [] ∧ r.dropWhile Decimal.isDigit = r := by
    cases r with
    | nil => exact ⟨rfl, rfl⟩
    | cons c r => simp [hr c rfl]
  have htake : (ds ++ r).takeWhile Decimal.isDigit = ds := by
    rw [List.takeWhile_append_of_pos hdigits, hhead.1, List.append_nil]
  have hdrop : (ds ++ r).dropWhile Decimal.isDigit = r := by
    rw [List.dropWhile_append_of_pos hdigits, hhead.2]
  obtain ⟨d, rest, rfl, hd⟩ := hds.exists_cons
  rw [List.cons_append] at htake hdrop ⊢
  simp only [readDigits, hd, if_true, htake, hdrop]

theorem readWhole_spelled {ds r : List Char} (hds : IsDigits ds)
    (hzero : ds.head? = some '0' → ds = ['0']) (hr : EndsDigits r) (atEnd : Fault) :
    readWhole atEnd (ds ++ r) = .ok (ds, r) := by
  unfold readWhole
  split
  · next t hs =>
      have hhead : ds.head? = some '0' := by
        obtain ⟨d, rest, rfl, -⟩ := hds.exists_cons
        cases hs
        rfl
      obtain rfl := hzero hhead
      obtain rfl : r = t := by simpa using hs
      cases r with
      | nil => rfl
      | cons c r => exact if_neg (by simp [hr c rfl])
  · exact readDigits_spelled hds hr atEnd

theorem readFraction_spelled {ds s r : List Char} (h : SpellsFraction ds s) (hr : EndsDigits r)
    (hpoint : r.head? ≠ some '.') (atEnd : Fault) :
    readFraction atEnd (s ++ r) = .ok (ds, r) := by
  cases h with
  | none =>
      unfold readFraction
      split
      · next t hs =>
          obtain rfl : r = '.' :: t := hs
          exact (hpoint rfl).elim
      · rfl
  | digits hds => exact readDigits_spelled hds hr atEnd

theorem readSign_of_digits {ds : List Char} (hds : IsDigits ds) (r : List Char) :
    readSign (ds ++ r) = (false, ds ++ r) := by
  obtain ⟨d, rest, rfl, hd⟩ := hds.exists_cons
  unfold readSign
  split
  · next hs => cases hs; cases hd
  · next hs => cases hs; cases hd
  · rfl

theorem readMinus_of_digits {ds : List Char} (hds : IsDigits ds) (negative : Bool)
    (r : List Char) :
    readMinus ((if negative then ['-'] else []) ++ (ds ++ r)) = (negative, ds ++ r) := by
  cases negative with
  | true => rfl
  | false =>
      obtain ⟨d, rest, rfl, hd⟩ := hds.exists_cons
      show readMinus (d :: (rest ++ r)) = _
      unfold readMinus
      split
      · next hs => cases hs; cases hd
      · rfl

theorem endsDigits_fraction {ds s r : List Char} (h : SpellsFraction ds s)
    (hr : EndsDigits r) : EndsDigits (s ++ r) := by
  cases h with
  | none => exact hr
  | digits _ => rintro c ⟨⟩; rfl

theorem readExponent_spelled {e : Option (Bool × List Char)} {s r : List Char}
    (h : SpellsExponent e s) (hr : endsValue r = true) (atEnd : Fault) :
    readExponent atEnd (s ++ r) = .ok (e, r) := by
  have hend := endsDigits_of_endsValue hr
  cases h with
  | none =>
      cases r with
      | nil => rfl
      | cons c r =>
          refine if_neg ?_
          rintro (rfl | rfl) <;> cases hr
  | plain he hds =>
      simp only [readExponent, List.cons_append, he, if_true, readSign_of_digits hds,
        readDigits_spelled hds hend]
      rfl
  | plus he hds | minus he hds =>
      simp only [readExponent, List.cons_append, he, if_true, readSign,
        readDigits_spelled hds hend]
      rfl

theorem endsDigits_exponent {e : Option (Bool × List Char)} {s r : List Char}
    (h : SpellsExponent e s) (hr : endsValue r = true) :
    EndsDigits (s ++ r) ∧ (s ++ r).head? ≠ some '.' := by
  cases h with
  | none =>
      refine ⟨endsDigits_of_endsValue hr, fun hpoint => ?_⟩
      cases r with
      | nil => cases hpoint
      | cons c r => cases hpoint; cases hr
  | plain he _ | plus he _ | minus he _ =>
      refine ⟨?_, ?_⟩
      · rintro c ⟨⟩
        rcases he with rfl | rfl <;> rfl
      · rcases he with rfl | rfl <;> simp

/-- **A number is read as its parts.** -/
theorem readNumeral_spelled {n : Numeral} {s r : List Char} (h : SpellsNumeral n s)
    (hr : endsValue r = true) (atEnd : Fault) : readNumeral atEnd (s ++ r) = .ok (n, r) := by
  obtain ⟨hwhole, hzero, fraction, exponent, hfraction, hexponent, rfl⟩ := h
  obtain ⟨hdigits, hpoint⟩ := endsDigits_exponent hexponent hr
  have hafter := endsDigits_fraction hfraction hdigits
  simp only [readNumeral, List.append_assoc, readMinus_of_digits hwhole,
    readWhole_spelled hwhole hzero hafter, readFraction_spelled hfraction hdigits hpoint,
    readExponent_spelled hexponent hr, bind, Except.bind]
  rfl

/-! ### Strings as they are written -/

theorem spellsUnit_control {c : Char} (hc : c.toNat < 0x20) :
    SpellsUnit c.toNat ['0', '0', Nat.digitChar (c.toNat / 16), Nat.digitChar (c.toNat % 16)] := by
  have hhigh : hexDigit? (Nat.digitChar (c.toNat / 16)) = some ⟨c.toNat / 16, by omega⟩ :=
    hexDigit?_digitChar ⟨c.toNat / 16, by omega⟩
  have hlow : hexDigit? (Nat.digitChar (c.toNat % 16)) = some ⟨c.toNat % 16, by omega⟩ :=
    hexDigit?_digitChar ⟨c.toNat % 16, by omega⟩
  have hzero : hexDigit? '0' = some 0 := hexDigit?_digitChar 0
  refine ⟨rfl, [0, 0, ⟨c.toNat / 16, by omega⟩, ⟨c.toNat % 16, by omega⟩], ?_, ?_⟩
  · simp [hzero, hhigh, hlow]
  · simp only [List.foldl_cons, List.foldl_nil, Fin.val_zero]
    omega

/-- A string is spelled by what is written between its quotes. -/
theorem spellsLetters_escaped (cs : List Char) :
    SpellsLetters (cs.map .char) (cs.flatMap escaped) := by
  induction cs with
  | nil => exact .nil
  | cons c cs ih =>
      rw [List.flatMap_cons, List.map_cons]
      unfold escaped
      split
      iterate 7 exact .escape rfl ih
      next hquote hslash _ _ _ _ _ =>
        split
        next hcontrol => exact .unit (spellsUnit_control hcontrol) ih
        next hplain =>
          exact .plain (Nat.not_lt.mp hplain) (fun h => hquote h) (fun h => hslash h) ih

theorem spellsName_quoted (name : String) : SpellsName name (quoted name.toList) :=
  ⟨_, spellsLetters_escaped name.toList, rfl⟩

theorem spells_quoted (cs : List Char) : (Value.string (cs.map .char)).Spells (quoted cs) :=
  .string (spellsLetters_escaped cs)

/-! ### Numbers as they are written -/

theorem value_chars (n : Nat) : Decimal.value (Decimal.chars n) = n :=
  Nat.ofDigitChars_toDigits (by decide) (by decide)

theorem isDigits_chars (n : Nat) : IsDigits (Decimal.chars n) := by
  refine ⟨Nat.toDigits_ne_nil, List.all_eq_true.mpr fun c hc => ?_⟩
  exact Nat.isDigit_of_mem_toDigits (by decide) (by decide) hc

/-- No number but zero is written with a zero first. -/
theorem chars_of_head_zero {n : Nat} (h : (Decimal.chars n).head? = some '0') :
    Decimal.chars n = ['0'] := by
  induction n using Nat.strongRecOn with
  | ind n ih =>
      by_cases hsmall : n < 10
      · rw [Decimal.chars, Nat.toDigits_of_lt_base hsmall] at h ⊢
        rw [Option.some.inj h]
      · have hsplit : Decimal.chars n = Decimal.chars (n / 10) ++ [Nat.digitChar (n % 10)] :=
          Nat.toDigits_of_base_le (by decide) (Nat.not_lt.mp hsmall)
        obtain ⟨d, rest, hd, -⟩ := (isDigits_chars (n / 10)).exists_cons
        have hzero : Decimal.chars (n / 10) = ['0'] := by
          refine ih (n / 10) (by omega) ?_
          rw [hsplit, hd] at h
          rw [hd]
          exact h
        have hvalue := value_chars (n / 10)
        rw [hzero, show Decimal.value ['0'] = 0 from rfl] at hvalue
        omega

/-- The number that a run of digits is. -/
def plainNumeral (n : Nat) : Numeral :=
  ⟨false, Decimal.chars n, [], none⟩

theorem spells_chars (n : Nat) : (Value.number (plainNumeral n)).Spells (Decimal.chars n) :=
  .number ⟨isDigits_chars n, chars_of_head_zero, [], [], .none, .none,
    by simp [plainNumeral]⟩

theorem toWord_plainNumeral (w : UInt64) : (plainNumeral w.toNat).toWord = .ok w := by
  have hlt : w.toNat ≤ largestWord := Nat.le_of_lt_succ w.toNat_lt
  have hplain : (plainNumeral w.toNat).isPlain = true ∧
      Decimal.value (plainNumeral w.toNat).whole ≤ largestWord :=
    ⟨rfl, (value_chars w.toNat).symm ▸ hlt⟩
  rw [Numeral.toWord, if_pos hplain]
  show Except.ok (UInt64.ofNat (Decimal.value (Decimal.chars w.toNat))) = _
  rw [value_chars, UInt64.ofNat_toNat]

/-! ### Objects with given members -/

/-- Members can stand in an object if their values can be spelled. -/
theorem exists_spellsMembers {members : List (String × Value)}
    (h : ∀ member ∈ members, ∃ s, member.2.Spells s) (first : Bool) :
    ∃ s, SpellsMembers first members s := by
  have hblank : ([] : List Char).all isBlank = true := rfl
  induction members generalizing first with
  | nil => exact ⟨_, .close hblank⟩
  | cons member members ih =>
      obtain ⟨s, hs⟩ := h member List.mem_cons_self
      obtain ⟨later, hlater⟩ := ih (fun m hm => h m (List.mem_cons_of_mem _ hm)) false
      exact ⟨_, .member ⟨[], [], hblank, hblank, rfl⟩ (spellsName_quoted member.1) hblank hblank hs
        hlater⟩

theorem exists_spells_object {members : List (String × Value)}
    (h : ∀ member ∈ members, ∃ s, member.2.Spells s) : ∃ s, (Value.object members).Spells s := by
  obtain ⟨s, hs⟩ := exists_spellsMembers h true
  exact ⟨_, .object hs⟩

theorem exists_isText {v : Value} (h : ∃ s, v.Spells s) : ∃ text, v.IsText text := by
  obtain ⟨s, hs⟩ := h
  exact ⟨String.ofList s, [], s, [], hs, rfl, rfl, by simp⟩

end CallLifecycle.Json

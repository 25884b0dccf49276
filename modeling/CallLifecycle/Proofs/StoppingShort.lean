/-
A text that stops short is at fault for its end.

What is written of a record may be broken off anywhere: in a name, in an escape, in the middle of a
word.  Reading then comes to the end of the text before it can find anything else wrong, because all
that is there begins something right.  A number alone may be read where it is broken off, since the
beginning of a number is a smaller number.  So the law of readers is that they miss the end or leave
nothing; and where a member has left nothing, the record misses the rest of itself.

Behind a record it is the other way round.  A record is over with its brace, so what is put behind
it is not read at all, and unless it is blank it is what is wrong.
-/
import CallLifecycle.Proofs.Encoding
import CallLifecycle.Proofs.Recognizing

namespace CallLifecycle

open Json

namespace Json

variable {p s t : List Char}

/-! ### Texts that stop short -/

/-- A text stops short of another if it is the beginning of it, and not all of it. -/
def StopsShort (p s : List Char) : Prop :=
  ∃ rest, rest ≠ [] ∧ s = p ++ rest

namespace StopsShort

theorem nil (h : s ≠ []) : StopsShort [] s :=
  ⟨s, h, rfl⟩

theorem not_nil : ¬ StopsShort p [] := by
  rintro ⟨rest, hrest, h⟩
  exact hrest (List.append_eq_nil_iff.mp h.symm).2

theorem cons_cases {c : Char} (h : StopsShort p (c :: s)) :
    p = [] ∨ ∃ q, p = c :: q ∧ StopsShort q s := by
  obtain ⟨rest, hrest, h⟩ := h
  cases p with
  | nil => exact .inl rfl
  | cons d q =>
      obtain ⟨rfl, hs⟩ := List.cons.inj h
      exact .inr ⟨q, rfl, rest, hrest, hs⟩

theorem cons_cons_cases {c d : Char} (h : StopsShort p (c :: d :: s)) :
    p = [] ∨ p = [c] ∨ ∃ q, p = c :: d :: q ∧ StopsShort q s := by
  obtain rfl | ⟨q, rfl, hq⟩ := h.cons_cases
  · exact .inl rfl
  · obtain rfl | ⟨w, rfl, hw⟩ := hq.cons_cases
    · exact .inr (.inl rfl)
    · exact .inr (.inr ⟨w, rfl, hw⟩)

theorem singleton {c : Char} (h : StopsShort p [c]) : p = [] := by
  obtain rfl | ⟨q, -, hq⟩ := h.cons_cases
  · rfl
  · exact (not_nil hq).elim

/-- A text stops short in the first of two parts, or in the second. -/
theorem append_cases (h : StopsShort p (s ++ t)) :
    StopsShort p s ∨ ∃ q, p = s ++ q ∧ StopsShort q t := by
  obtain ⟨rest, hrest, h⟩ := h
  obtain ⟨q, hp, ht⟩ | ⟨q, hs, hq⟩ := List.append_eq_append_iff.mp h
  · exact .inr ⟨q, hp, rest, hrest, ht⟩
  · -- Where it ends with the first part, it stops short in the second, before any of it.
    cases q with
    | nil => exact .inr ⟨[], by simpa using hs.symm, rest, hrest, hq.symm⟩
    | cons c q => exact .inl ⟨c :: q, List.cons_ne_nil c q, hs⟩

/-- What stops short of a text without blanks in front has none there either. -/
theorem dropBlank (h : StopsShort p s) (hs : Json.dropBlank s = s) : Json.dropBlank p = p := by
  obtain ⟨rest, -, rfl⟩ := h
  cases p with
  | nil => rfl
  | cons c q =>
      have hc : isBlank c = false := by
        by_contra hblank
        have hlt := length_dropBlank_le (q ++ rest)
        rw [List.cons_append, Json.dropBlank, List.dropWhile_cons_of_pos (by simpa using hblank)]
          at hs
        rw [Json.dropBlank, hs, List.length_cons] at hlt
        omega
      exact dropBlank_of_not hc q

/-- Blanks in front do not count. -/
theorem dropBlank_gap {gap : List Char} (h : StopsShort p (gap ++ s))
    (hgap : gap.all isBlank = true) (hs : Json.dropBlank s = s) (hsome : s ≠ []) :
    StopsShort (Json.dropBlank p) s := by
  obtain ⟨rest, -, rfl⟩ | ⟨q, rfl, hq⟩ := h.append_cases
  · rw [List.all_append, Bool.and_eq_true] at hgap
    exact dropBlank_eq_nil_iff.mpr hgap.1 ▸ nil hsome
  · rw [dropBlank_blanks hgap, hq.dropBlank hs]
    exact hq

theorem endsValue (h : StopsShort p s) (hs : Json.endsValue s = true) :
    Json.endsValue p = true := by
  obtain ⟨rest, -, rfl⟩ := h
  cases p with
  | nil => rfl
  | cons c q => exact hs

end StopsShort

/-! ### Words, code units and strings -/

theorem expectWord_short {word : List Char} (h : StopsShort p word) :
    expectWord word p = .error .endOfText := by
  induction word generalizing p with
  | nil => exact (StopsShort.not_nil h).elim
  | cons c word ih =>
      obtain rfl | ⟨q, rfl, hq⟩ := h.cons_cases
      · rfl
      · rw [expectWord, if_pos rfl]
        exact ih hq

/-- Fewer digits than four are fewer bytes than four. -/
theorem readUnit_short {n : Nat} {u : List Char} (hu : SpellsUnit n u) (h : StopsShort p u) :
    readUnit p = .error .endOfText := by
  obtain ⟨hlength, digits, hdigits, -⟩ := hu
  obtain ⟨rest, hrest, rfl⟩ := h
  have hlt : p.length < 4 := by
    have := List.length_pos_of_ne_nil hrest
    rw [List.length_append] at hlength
    omega
  rw [List.mapM_append] at hdigits
  obtain ⟨front, hfront, -⟩ := Option.bind_eq_some_iff.mp hdigits
  have hsize := (length_of_hexDigits hfront).2 0
  rw [readUnit, List.take_of_length_le (Nat.le_of_lt hlt), if_pos (by omega)]

theorem readTrailing_short {leading trailing : Nat} {v : List Char} (hv : SpellsUnit trailing v)
    (h : StopsShort p ('\\' :: 'u' :: v)) : readTrailing leading p = .error .endOfText := by
  obtain rfl | rfl | ⟨q, rfl, hq⟩ := h.cons_cons_cases
  · rfl
  · rfl
  · show readUnit q >>= _ = _
    rw [readUnit_short hv hq]
    rfl

theorem readChar?_short {n : Nat} {u : List Char} (hu : SpellsUnit n u) (h : StopsShort p u) :
    readChar? ('\\' :: 'u' :: p) = .error .endOfText := by
  show (readUnit p >>= _) >>= _ = _
  rw [readUnit_short hu h]
  rfl

/-- A character that is spelled as a pair stops short in the second half. -/
theorem readChar?_pair_short {leading trailing : Nat} {u v : List Char}
    (hu : SpellsUnit leading u) (hleading : isLeading leading = true)
    (hv : SpellsUnit trailing v) (h : StopsShort p ('\\' :: 'u' :: v)) :
    readChar? ('\\' :: 'u' :: (u ++ p)) = .error .endOfText := by
  simp only [readChar?, readPiece_unit hu, bind, Except.bind, not_trailing_of_leading hleading,
    hleading, readTrailing_short hv h, Bool.false_eq_true, if_false, if_true]

/-- **A string that stops short is at fault for its end**, however its characters are spelled. -/
theorem readString_short {letters : List Letter} {cs : List Char} (h : SpellsLetters letters s)
    (hwhole : chars? letters = some cs) (hp : StopsShort p (s ++ ['"'])) :
    readString p = .error .endOfText := by
  have hlater : ∀ {c : Char} {t q : List Char}, readChar? t = .ok (some c, q) →
      readString q = .error .endOfText → readString t = .error .endOfText := by
    intro c t q hread hq
    rw [readString_of_char hread, hq]
    rfl
  have hrest : ∀ {c : Char} {letters : List Letter} {cs : List Char},
      chars? (.char c :: letters) = some cs → ∃ cs, chars? letters = some cs := by
    intro c letters cs hchars
    rw [chars?_char] at hchars
    exact (Option.map_eq_some_iff.mp hchars).imp fun _ => And.left
  induction h generalizing p cs with
  | nil =>
      obtain rfl := StopsShort.singleton hp
      exact readString_of_error rfl
  | plain hcontrol hquote hslash _ ih =>
      obtain ⟨_, hwhole⟩ := hrest hwhole
      rw [List.cons_append] at hp
      obtain rfl | ⟨q, rfl, hq⟩ := hp.cons_cases
      · exact readString_of_error rfl
      · exact hlater (readChar?_of_piece (readPiece_plain hcontrol hquote hslash q)) (ih hwhole hq)
  | escape he _ ih =>
      obtain ⟨_, hwhole⟩ := hrest hwhole
      rw [List.cons_append, List.cons_append] at hp
      obtain rfl | rfl | ⟨q, rfl, hq⟩ := hp.cons_cons_cases
      · exact readString_of_error rfl
      · exact readString_of_error rfl
      · exact hlater (readChar?_of_piece (readPiece_escape he q)) (ih hwhole hq)
  | unit hu _ ih =>
      obtain ⟨_, hwhole⟩ := hrest hwhole
      simp only [List.cons_append, List.append_assoc] at hp
      obtain rfl | rfl | ⟨q, rfl, hq⟩ := hp.cons_cons_cases
      · exact readString_of_error rfl
      · exact readString_of_error rfl
      · obtain hq | ⟨w, rfl, hw⟩ := hq.append_cases
        · exact readString_of_error (readChar?_short hu hq)
        · exact hlater (readChar?_unit hu w) (ih hwhole hw)
  | pair hu hv hleading htrailing hc _ ih =>
      obtain ⟨_, hwhole⟩ := hrest hwhole
      simp only [List.cons_append, List.append_assoc] at hp
      obtain rfl | rfl | ⟨q, rfl, hq⟩ := hp.cons_cons_cases
      · exact readString_of_error rfl
      · exact readString_of_error rfl
      · obtain hq | ⟨w, rfl, hw⟩ := hq.append_cases
        · exact readString_of_error (readChar?_short hu hq)
        -- The first half is all there, so what is missed is the second or part of it.
        · obtain hw | ⟨x, rfl, hx⟩ := StopsShort.append_cases (s := '\\' :: 'u' :: _) hw
          · exact readString_of_error (readChar?_pair_short hu hleading hv hw)
          · simp only [List.cons_append]
            exact hlater (readChar?_pair hu hv hleading htrailing hc x) (ih hwhole hx)
  | half => simp at hwhole

/-! ### Readers -/

/-- Reading has come to the end of a text: it misses something there, or it leaves nothing. -/
def ReachesEnd {α : Type} (x : Except Fault (α × List Char)) : Prop :=
  x = .error .endOfText ∨ ∃ a, x = .ok (a, [])

theorem ReachesEnd.map {α β : Type} {x : Except Fault (α × List Char)} (h : ReachesEnd x)
    (f : α → β) : ReachesEnd (x >>= fun y => pure (f y.1, y.2)) := by
  obtain rfl | ⟨a, rfl⟩ := h
  · exact .inl rfl
  · exact .inr ⟨f a, rfl⟩

/-- Wherever one of some texts stops short, a reader reaches the end, and blanks in front do not
count. -/
def Reader.RunsOut {α ι : Type} (reader : Reader α) (text : ι → List Char) : Prop :=
  ∀ ⦃i : ι⦄ ⦃p t : List Char⦄, StopsShort p (text i) → dropBlank t = p →
    ReachesEnd (reader.run t)

theorem Reader.RunsOut.map {α β ι : Type} {reader : Reader α} {text : ι → List Char}
    (h : reader.RunsOut text) (f : α → β) : (reader.map f).RunsOut text :=
  fun _ _ _ hp ht => (h hp ht).map f

theorem Field.runsOut_of {ρ α : Type} {format : Format α}
    (h : format.reader.RunsOut format.write) (name : String) (get : ρ → α) (set : α → ρ → ρ)
    (absence : Absence) :
    (Field.of name format get set absence).reader.RunsOut
      (Field.of name format get set absence).write :=
  fun _ _ _ hp ht => h.map set hp ht

theorem runsOut_flag : Format.flag.reader.RunsOut Format.flag.write := by
  intro b p t hp ht
  refine .inl ?_
  show readFlag t = _
  rw [readFlag, ht]
  cases b with
  | true =>
      obtain rfl | ⟨q, rfl, hq⟩ := StopsShort.cons_cases (c := 't') (s := ['r', 'u', 'e']) hp
      · rfl
      · show expectWord _ q >>= _ = _
        rw [expectWord_short hq]
        rfl
  | false =>
      obtain rfl | ⟨q, rfl, hq⟩ := StopsShort.cons_cases (c := 'f') (s := ['a', 'l', 's', 'e']) hp
      · rfl
      · show expectWord _ q >>= _ = _
        rw [expectWord_short hq]
        rfl

/-! ### Numbers -/

/-- The beginning of a number is no larger. -/
theorem value_le_of_append (cs ds : List Char) : Decimal.value cs ≤ Decimal.value (cs ++ ds) := by
  show Nat.ofDigitChars 10 cs 0 ≤ Nat.ofDigitChars 10 (cs ++ ds) 0
  rw [Nat.ofDigitChars_append, Nat.ofDigitChars_eq_ofDigitChars_zero (l := ds)]
  exact Nat.le_add_right_of_le (Nat.le_mul_of_pos_left _ (Nat.pow_pos (by decide)))

/-- A number that stops short is a number of its own, unless nothing is left of it. -/
theorem spellsNumeral_short {n : Nat} (h : StopsShort p (Decimal.chars n)) (hp : p ≠ []) :
    SpellsNumeral ⟨false, p, [], none⟩ p := by
  obtain ⟨rest, hrest, hchars⟩ := h
  have hdigits := (isDigits_chars n).2
  rw [hchars, List.all_append, Bool.and_eq_true] at hdigits
  refine ⟨⟨hp, hdigits.1⟩, fun hzero => ?_, [], [], .none, .none, by simp⟩
  -- A zero in front is all of the number, and so it cannot stop short.
  have hhead : (Decimal.chars n).head? = some '0' := by
    rw [hchars, List.head?_append, hzero]
    rfl
  have hlength := congrArg List.length (chars_of_head_zero hhead)
  rw [hchars, List.length_append, List.length_singleton] at hlength
  have := List.length_pos_of_ne_nil hrest
  have := List.length_pos_of_ne_nil hp
  omega

theorem toWord_short {w : UInt64} (h : StopsShort p (Decimal.chars w.toNat)) :
    ∃ w', (⟨false, p, [], none⟩ : Numeral).toWord = .ok w' := by
  obtain ⟨rest, -, hchars⟩ := h
  have hle := value_le_of_append p rest
  rw [← hchars, value_chars] at hle
  have hlt : Decimal.value p ≤ largestWord := Nat.le_trans hle (Nat.le_of_lt_succ w.toNat_lt)
  exact ⟨_, if_pos ⟨rfl, hlt⟩⟩

theorem runsOut_word : Format.word.reader.RunsOut Format.word.write := by
  intro w p t hp ht
  by_cases hnil : p = []
  · refine .inl ?_
    show readMachineWord t = _
    rw [readMachineWord, ht, hnil]
  · obtain ⟨w', hword⟩ := toWord_short hp
    have hread := understands_word (.number (spellsNumeral_short hp hnil))
      (ht.trans (List.append_nil p).symm) rfl
    exact .inr ⟨w', eq_ok_of_toOption (hread.trans (by simp [Value.word?, hword, Except.toOption]))⟩

/-! ### Strings -/

/-- What is written between quotes stops short before the closing one. -/
theorem readQuoted_short {cs : List Char} (hp : StopsShort p (quoted cs)) (ht : dropBlank t = p) :
    readQuoted t = .error .endOfText := by
  rw [readQuoted, ht]
  obtain rfl | ⟨q, rfl, hq⟩ := hp.cons_cases
  · rfl
  · exact readString_short (spellsLetters_escaped cs) (chars?_map_char cs) hq

theorem readMeaning_short {α : Type} {meaning? : List Char → Option α} {cs : List Char}
    (hp : StopsShort p (quoted cs)) (ht : dropBlank t = p) :
    readMeaning meaning? t = .error .endOfText := by
  rw [readMeaning, readQuoted_short hp ht]
  rfl

theorem runsOut_string : Format.string.reader.RunsOut Format.string.write := by
  intro a p t hp ht
  refine .inl ?_
  show readMeaning (fun cs => some (String.ofList cs)) t = _
  exact readMeaning_short hp ht

theorem runsOut_identifier : Format.identifier.reader.RunsOut Format.identifier.write :=
  fun _ _ _ hp ht => .inl (readMeaning_short hp ht)

theorem runsOut_choice {α : Type} [Vocabulary α] :
    (Format.choice : Format α).reader.RunsOut (Format.choice : Format α).write := by
  intro a p t hp ht
  have hself : dropBlank p = p := hp.dropBlank (dropBlank_of_not rfl _)
  refine .inl ?_
  show Format.readChoice t = _
  rw [Format.readChoice, ht]
  obtain rfl | ⟨q, rfl, hq⟩ := hp.cons_cases
  · rfl
  · show Format.readWord ('"' :: q) = _
    rw [Format.readWord, hself]
    exact readMeaning_short hp hself

/-! ### Values that may be missing -/

theorem Value.eq_null_of_begins {v : Value} (h : v.Begins 'n') : v = .null := by
  cases v with
  | null => rfl
  | flag b => cases b <;> cases h
  | number n => exact absurd h (by decide : ¬ ('n' = '-' ∨ Decimal.isDigit 'n' = true))
  | string | list | object => cases h

/-- What is not null does not begin like null, so it is read for itself however short it stops. -/
theorem Reader.RunsOut.optional {α : Type} [Nonempty α] {format : Format α}
    {meaning : Value → Option α} (h : format.reader.RunsOut format.write)
    (hwrite : format.WritesMeaning meaning) :
    (Format.optional format).reader.RunsOut (Format.optional format).write := by
  have hblank : ∀ {t}, dropBlank t = [] → ReachesEnd (format.reader.run t) := by
    intro t ht
    obtain ⟨a⟩ := ‹Nonempty α›
    obtain ⟨v, hv, -, -⟩ := hwrite a
    obtain ⟨c, s, hs, -⟩ := hv.begins
    exact h (StopsShort.nil (hs ▸ List.cons_ne_nil c s)) ht
  intro a? p t hp ht
  show ReachesEnd (Format.readOptional format t)
  unfold Format.readOptional
  split
  · next r hs =>
      obtain rfl : 'n' :: r = p := hs.symm.trans ht
      cases a? with
      | none =>
          obtain hnil | ⟨q, hq, hshort⟩ :=
            StopsShort.cons_cases (c := 'n') (s := ['u', 'l', 'l']) hp
          · cases hnil
          · cases hq
            rw [expectWord_short hshort]
            exact .inl rfl
      | some a =>
          obtain ⟨v, hv, -, hnull⟩ := hwrite a
          obtain ⟨c, s, hs, hc⟩ := hv.begins
          obtain ⟨rest, -, hwritten⟩ := hp
          cases hs.symm.trans hwritten
          exact (hnull (Value.eq_null_of_begins hc)).elim
  · next hnot =>
      refine ReachesEnd.map ?_ some
      cases a? with
      | none =>
          obtain rfl | ⟨q, rfl, -⟩ := StopsShort.cons_cases (c := 'n') (s := ['u', 'l', 'l']) hp
          · exact hblank ht
          · exact (hnot q ht).elim
      | some a => exact h hp ht

/-! ### Fields and texts -/

/-- Where a text stops short in the value of a field, the reader of the field reaches the end; where
it stops short behind the value, this is read back. -/
theorem Field.Rereads.short {ρ : Type} {a : ρ} {field : Field ρ} {change : ρ → ρ}
    (h : field.Rereads a change) (hruns : field.reader.RunsOut field.write)
    {gap after : List Char} (hgap : gap.all isBlank = true) (hend : endsValue after = true)
    (hsome : after ≠ []) (hp : StopsShort p (gap ++ (field.write a ++ after))) :
    ReachesEnd (field.reader.run p) ∨
      ∃ later, field.reader.run p = .ok (change, later) ∧ StopsShort later after := by
  have hvalue := hp.dropBlank_gap hgap (h.starts after)
    (List.append_ne_nil_of_right_ne_nil _ hsome)
  obtain hshort | ⟨later, hlater, hshort⟩ := hvalue.append_cases
  · exact .inl (hruns hshort rfl)
  · exact .inr ⟨later, h.reads hlater (hshort.endsValue hend), hshort⟩

theorem Format.decode_of_error {α : Type} {format : Format α} {text : String} {f : Fault}
    (h : format.reader.run text.toList = .error f) : format.decode text = .error f := by
  rw [Format.decode, h]
  rfl

theorem Format.decode_of_ok {α : Type} {format : Format α} {text : String} {a : α}
    {r : List Char} (h : format.reader.run text.toList = .ok (a, r)) :
    format.decode text = if dropBlank r = [] then .ok a else .error .malformed := by
  rw [Format.decode, h]
  rfl

/-! ### Records -/

namespace RecordFormat

/-- Where the value of a field stops short, its reader runs out of text. -/
def RunsOut {ρ : Type} (format : RecordFormat ρ) : Prop :=
  ∀ field ∈ format.fields, field.reader.RunsOut field.write

variable {ρ : Type} {format : RecordFormat ρ} {first : Bool}

theorem readName_short {name : String} {n : List Char} (hname : SpellsName name n)
    (ht : StopsShort t n) (hle : t.length ≤ s.length) : readName s t hle = .error .endOfText := by
  obtain ⟨letters, hletters, rfl⟩ := hname
  obtain rfl | ⟨q, rfl, hq⟩ := ht.cons_cases
  · rfl
  · have hstring := readString_short hletters (chars?_map_char name.toList) hq
    simp only [readName, if_true]
    split
    · next hfault =>
        cases hstring.symm.trans hfault
        rfl
    · next hread => cases hstring.symm.trans hread

/-- Before the end of its name no member is found. -/
theorem readNext_short (layout : Layout) {name : String} {n : List Char}
    (hname : SpellsName name n)
    (hp : StopsShort p ((if first then [] else [',']) ++ layout.lead ++ n)) :
    readNext first p = .error .endOfText := by
  have hgap : ∀ {q}, StopsShort q (layout.lead ++ n) → StopsShort (dropBlank q) n := by
    intro q hq
    obtain ⟨letters, -, rfl⟩ := hname
    exact hq.dropBlank_gap layout.blank_lead (dropBlank_of_not rfl _) (List.cons_ne_nil _ _)
  cases first with
  | true =>
      have hshort := hgap hp
      unfold readNext
      split
      · rfl
      · next r hs =>
          obtain ⟨letters, -, rfl⟩ := hname
          rw [hs] at hshort
          obtain h | ⟨q, h, -⟩ := hshort.cons_cases <;> cases h
      · next hs =>
          rw [if_pos rfl]
          exact readName_short hname (hs ▸ hshort) (hs ▸ length_dropBlank_le p)
  | false =>
      obtain rfl | ⟨q, rfl, hq⟩ := StopsShort.cons_cases (c := ',') (s := layout.lead ++ n) hp
      · rfl
      · have hcomma : dropBlank (',' :: q) = ',' :: q := dropBlank_of_not rfl q
        unfold readNext
        split
        · rfl
        · next hs => cases hs.symm.trans hcomma
        · next hs =>
            cases hs.symm.trans hcomma
            exact readName_short hname (hgap hq) _

theorem readMembers_of_next {given : List String} {record : ρ} {f : Fault}
    (h : readNext first p = .error f) :
    bare (format.readMembers first given record p) = .error f := by
  unfold readMembers
  rw [h]
  rfl

/-- Where nothing but blanks is left, neither a member nor the closing brace is. -/
theorem readNext_blank (h : dropBlank p = []) : readNext first p = .error .endOfText := by
  unfold readNext
  split
  · rfl
  · next hs => cases h.symm.trans hs
  · next hs => cases h.symm.trans hs

theorem spelled_ne_nil (a : ρ) (layout : Layout) (first : Bool) (fields : List (Field ρ)) :
    spelled a layout first fields ≠ [] := by
  cases fields <;> simp [spelled]

/-- **Members that stop short are at fault for their end**, wherever that is.

The induction is on the fields that are left.  If the text stops short behind the value of the first
of them, this value is read back; if it stops short in it, the reader of the field runs out of text,
and so does the record, at once or at its next member. -/
theorem readMembers_short (layout : Layout) (hnames : (format.fields.map (·.name)).Nodup)
    (hfields : format.RunsOut) {a : ρ} {fields : List (Field ρ)} {changes : List (ρ → ρ)}
    (hchanges : List.Forall₂ (Field.Rereads a) fields changes) :
    ∀ (done : List (Field ρ)) (first : Bool) (record : ρ) (p : List Char),
      format.fields = done ++ fields → StopsShort p (spelled a layout first fields) →
      bare (format.readMembers first (done.map (·.name)).reverse record p) =
        .error .endOfText := by
  induction hchanges with
  | nil =>
      intro done first record p hfields hp
      have hblank := hp.dropBlank_gap layout.blank_tail (dropBlank_of_not rfl _)
        (List.cons_ne_nil _ _)
      exact readMembers_of_next (readNext_blank hblank.singleton)
  | @cons field change fields changes hfield _ ih =>
      intro done first record p hdone hp
      obtain ⟨hfind, hnew⟩ := find?_of_nodup hnames hdone
      let after := spelled a layout false fields
      have htext : spelled a layout first (field :: fields) =
          (if first then [] else [',']) ++ layout.lead ++ quoted field.name.toList ++
            ':' :: (layout.gap ++ (field.write a ++ after)) := by
        simp [spelled, after]
      rw [htext] at hp
      obtain hp | ⟨u, rfl, hu⟩ := hp.append_cases
      · exact readMembers_of_next (readNext_short layout (spellsName_quoted field.name) hp)
      have hnext := readNext_member (layout.separates first) (spellsName_quoted field.name) u
      rw [← List.append_assoc] at hnext
      rw [bare_readMembers_known hnext hfind, hnew]
      obtain rfl | ⟨v, rfl, hv⟩ := hu.cons_cases
      · rfl
      show (field.reader.run v >>= fun x => bare _) = _
      have hend := endsValue_spelled (a := a) layout fields []
      rw [List.append_nil] at hend
      have hmem : field ∈ format.fields := hdone ▸ List.mem_append_right done List.mem_cons_self
      obtain (hread | ⟨other, hread⟩) | ⟨later, hread, hlater⟩ := hfield.short (hfields field hmem)
        layout.blank_gap hend (spelled_ne_nil a layout false fields) hv
      · rw [hread]
        rfl
      · -- A number, cut off: it is some change to the record, but no member comes after it.
        rw [hread]
        exact readMembers_of_next rfl
      · rw [hread]
        have hrest := ih (done ++ [field]) false (change record) later
          (by rw [hdone, List.append_assoc]; rfl) hlater
        rw [List.map_append, List.reverse_append] at hrest
        exact hrest

/-- A record that stops short is at fault for its end. -/
theorem Faithful.read_short (h : format.Faithful) (hsome : format.fields ≠ [])
    (hfields : format.RunsOut) {a : ρ} (hp : StopsShort p (format.write a))
    (ht : dropBlank t = p) : format.read t = .error .endOfText := by
  obtain ⟨changes, hchanges, -⟩ := h.rereads a
  rw [write_eq_spelled hsome] at hp
  rw [read, ht]
  obtain rfl | ⟨q, rfl, hq⟩ := hp.cons_cases
  · rfl
  · have hmembers := readMembers_short .compact h.nodup_names hfields hchanges [] true
      format.blank q rfl hq
    exact hmembers

theorem Faithful.runsOut (h : format.Faithful) (hsome : format.fields ≠ [])
    (hfields : format.RunsOut) : format.toFormat.reader.RunsOut format.toFormat.write :=
  fun _ _ _ hp ht => .inl (h.read_short hsome hfields hp ht)

/-- What is encoded of a record is not decoded from the beginning of it. -/
theorem Faithful.decode_short (h : format.Faithful) (hsome : format.fields ≠ [])
    (hfields : format.RunsOut) {a : ρ} {front rest : String}
    (htext : format.toFormat.encode a = front ++ rest) (hrest : rest ≠ "") :
    format.toFormat.decode front = .error .endOfText := by
  have hwrite : format.write a = front.toList ++ rest.toList := by
    rw [← String.toList_append, ← htext]
    exact String.toList_ofList.symm
  have hshort : StopsShort front.toList (format.write a) :=
    ⟨rest.toList, fun hnil => hrest (String.toList_eq_nil_iff.mp hnil), hwrite⟩
  have hself : dropBlank (format.write a) = format.write a := by
    rw [write_eq_spelled hsome]
    exact dropBlank_of_not rfl _
  exact Format.decode_of_error (h.read_short hsome hfields hshort (hshort.dropBlank hself))

/-- **Only blanks may follow what is encoded of a record.** -/
theorem Faithful.decode_append (h : format.Faithful) (hsome : format.fields ≠ []) (a : ρ)
    (later : String) :
    format.toFormat.decode (format.toFormat.encode a ++ later) =
      if later.toList.all isBlank then .ok a else .error .malformed := by
  have htext : (format.toFormat.encode a ++ later).toList = format.write a ++ later.toList := by
    rw [String.toList_append]
    exact congrArg (· ++ later.toList) String.toList_ofList
  have hbrace : dropBlank (format.toFormat.encode a ++ later).toList =
      '{' :: (spelled a .compact true format.fields ++ later.toList) := by
    rw [htext, write_eq_spelled hsome]
    exact dropBlank_of_not rfl _
  have hread : format.toFormat.reader.run (format.toFormat.encode a ++ later).toList =
      .ok (a, later.toList) := read_spelled a h .compact hbrace
  rw [Format.decode_of_ok hread]
  simp only [dropBlank_eq_nil_iff]

end RecordFormat

end Json

/-! ### Snapshots -/

namespace Written

theorem runsOut_address : addressRecord.RunsOut := by
  have : Nonempty Identifier := ⟨.blank⟩
  simp only [RecordFormat.RunsOut, addressRecord, List.forall_mem_cons]
  exact ⟨Field.runsOut_of (runsOut_identifier.optional writesMeaning_identifier) ..,
    Field.runsOut_of (runsOut_string.optional writesMeaning_string) .., List.forall_mem_nil _⟩

theorem runsOut_route : routeRecord.RunsOut := by
  simp only [RecordFormat.RunsOut, routeRecord, List.forall_mem_singleton]
  exact Field.runsOut_of runsOut_choice ..

theorem runsOut_snapshot : snapshotRecord.RunsOut := by
  have haddress := faithful_address.runsOut nofun runsOut_address
  have hroute := faithful_route.runsOut nofun runsOut_route
  have hword? := runsOut_word.optional writesMeaning_word
  simp only [RecordFormat.RunsOut, snapshotRecord, List.forall_mem_cons]
  exact ⟨Field.runsOut_of runsOut_identifier .., Field.runsOut_of runsOut_choice ..,
    Field.runsOut_of runsOut_string .., Field.runsOut_of haddress ..,
    Field.runsOut_of runsOut_word .., Field.runsOut_of runsOut_choice ..,
    Field.runsOut_of runsOut_choice .., Field.runsOut_of runsOut_choice ..,
    Field.runsOut_of runsOut_flag .., Field.runsOut_of hword? ..,
    Field.runsOut_of runsOut_flag .., Field.runsOut_of runsOut_flag ..,
    Field.runsOut_of runsOut_flag .., Field.runsOut_of runsOut_flag ..,
    Field.runsOut_of runsOut_flag .., Field.runsOut_of hroute ..,
    Field.runsOut_of runsOut_flag .., Field.runsOut_of runsOut_flag ..,
    Field.runsOut_of runsOut_flag .., Field.runsOut_of runsOut_flag .., List.forall_mem_nil _⟩

/-- **A snapshot is decoded from all of its text and from nothing else that has its beginning.**
Wherever the text is broken off, the fault is that it ends.  Behind all of it blanks make no
difference, and anything else is malformed. -/
theorem snapshot_is_decoded_whole (s : Snapshot) :
    (∀ front rest, snapshot.encode s = front ++ rest → rest ≠ "" →
      snapshot.decode front = .error .endOfText) ∧
    ∀ later : String, snapshot.decode (snapshot.encode s ++ later) =
      if later.toList.all isBlank then .ok s else .error .malformed :=
  ⟨fun _ _ => faithful_snapshot.decode_short nofun runsOut_snapshot,
    faithful_snapshot.decode_append nofun s⟩

/-- A snapshot that is broken off inside a number is missed, though what is there of the number is a
number too.  A line break behind a snapshot makes no difference, and a bracket does. -/
theorem snapshot_is_missed_inside_a_number :
    let s := { blankSnapshot with sentAt := 10 }
    let front :=
      "\x7b\"local_id\":\"00000000-0000-0000-0000-000000000000\",\"direction\":\"outgoing\"," ++
      "\"thread_id\":\"\",\"remote_address\":\x7b\"service_id\":null,\"phone_number\":null\x7d," ++
      "\"sent_at_timestamp\":1"
    (∃ later, snapshot.encode s = front ++ ("0" ++ later) ∧ "0" ++ later ≠ "") ∧
      snapshot.decode front = .error .endOfText ∧
      snapshot.decode (snapshot.encode s ++ "\n") = .ok s ∧
      snapshot.decode (snapshot.encode s ++ "]") = .error .malformed := by
  intro s front
  have hbegins : front.toList ++ ['0'] <+: snapshotRecord.write s := by
    simp only [front, String.toList_append, String.reduceToList]
    decide +kernel
  obtain ⟨later, hlater⟩ := hbegins
  have htext : snapshot.encode s = front ++ ("0" ++ String.ofList later) := by
    show String.ofList (snapshotRecord.write s) = _
    rw [← hlater]
    refine String.ext ?_
    simp only [String.toList_append, String.toList_ofList, String.reduceToList, List.append_assoc]
  have hsome : "0" ++ String.ofList later ≠ "" := by
    simp
  obtain ⟨hfront, hbehind⟩ := snapshot_is_decoded_whole s
  exact ⟨⟨_, htext, hsome⟩, hfront _ _ htext hsome, hbehind "\n", hbehind "]"⟩

end Written

end CallLifecycle

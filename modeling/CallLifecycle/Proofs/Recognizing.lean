/-
What is taken off a text is well formed.

Readers and what passes over values follow the grammar, and here they are held to it the other way
round: where one of them succeeds, what it took was a token or a value of the grammar, and the text
goes on with what it left.  There is one lemma for each token.  A value, the items of a list and the
members of an object are then one induction on how much of the text is left.

A code unit is a letter only together with what follows it: the first half of a character and a
second one behind it are one letter.  So the letters of a string that is passed over are found from
its end.
-/
import CallLifecycle.Proofs.Skipping

namespace CallLifecycle.Json

variable {s t r : List Char}

/-! ### Blanks and words -/

/-- A text is some blanks and what is left without them. -/
theorem gap_of_dropBlank {u : List Char} (h : dropBlank s = u) :
    ∃ gap, gap.all isBlank = true ∧ s = gap ++ u := by
  subst h
  exact ⟨s.takeWhile isBlank, List.all_takeWhile, List.takeWhile_append_dropWhile.symm⟩

/-- What stands behind blanks may be an item, behind a comma if it is not the first. -/
theorem separates_of_dropBlank {first : Bool} {u : List Char}
    (hs : if first then t = s else dropBlank s = ',' :: t) (ht : dropBlank t = u) :
    ∃ lead, Separates first lead ∧ s = lead ++ u := by
  obtain ⟨after, hafter, rfl⟩ := gap_of_dropBlank ht
  cases first with
  | true => exact ⟨_, ⟨[], after, rfl, hafter, rfl⟩, hs.symm⟩
  | false =>
      obtain ⟨before, hbefore, rfl⟩ := gap_of_dropBlank hs
      exact ⟨_, ⟨before, after, hbefore, hafter, rfl⟩, by simp⟩

theorem eq_of_expectWord {word : List Char} (h : expectWord word s = .ok r) : s = word ++ r := by
  fun_induction expectWord word s with
  | case1 s => cases h; rfl
  | case2 => cases h
  | case3 word c t ih => rw [ih h]; rfl
  | case4 => cases h

theorem gap_of_expectMark {mark : Char} (h : expectMark mark s = .ok r) :
    ∃ gap, gap.all isBlank = true ∧ s = gap ++ mark :: r := by
  exact gap_of_dropBlank (eq_of_expectWord h)

/-! ### Code units and pieces -/

/-- A hexadecimal digit takes one byte. -/
theorem utf8Size_of_hexDigit? {c : Char} {d : Fin 16} (h : hexDigit? c = some d) :
    c.utf8Size = 1 := by
  have hdigit : Nat.digitChar d = c.toLower := by simpa using List.find?_some h
  have hsmall : ∀ d : Fin 16, (Nat.digitChar d).val ≤ 0x7F := by decide
  have hle : c.val ≤ 0x7F := by
    have hlower := hdigit ▸ hsmall d
    unfold Char.toLower at hlower
    split at hlower
    · next hupper => exact UInt32.le_trans hupper.2 (by decide)
    · exact hlower
  exact if_pos hle

/-- There are as many digits as characters, and each takes one byte. -/
theorem length_of_hexDigits {digits : List (Fin 16)} (h : s.mapM hexDigit? = some digits) :
    digits.length = s.length ∧
      ∀ n, s.foldl (fun size c => size + c.utf8Size) n = n + s.length := by
  induction s generalizing digits with
  | nil => cases h; exact ⟨rfl, fun _ => rfl⟩
  | cons c s ih =>
      rw [List.mapM_cons] at h
      obtain ⟨d, hd, h⟩ := Option.bind_eq_some_iff.mp h
      obtain ⟨digits, hdigits, h⟩ := Option.bind_eq_some_iff.mp h
      cases h
      obtain ⟨hlength, hsize⟩ := ih hdigits
      refine ⟨congrArg (· + 1) hlength, fun n => ?_⟩
      rw [List.foldl_cons, hsize, utf8Size_of_hexDigit? hd, List.length_cons]
      omega

/-- What is read as a code unit spells one. -/
theorem spellsUnit_of_readUnit {n : Nat} (h : readUnit s = .ok (n, r)) :
    ∃ u, SpellsUnit n u ∧ s = u ++ r := by
  unfold readUnit at h
  split at h
  · cases h
  · next hsize =>
      split at h
      · next digits hdigits =>
          cases h
          -- Four bytes of digits are four digits.
          rw [(length_of_hexDigits hdigits).2, Nat.zero_add, Nat.not_lt] at hsize
          have hlength : (s.take 4).length = 4 := Nat.le_antisymm (List.length_take_le 4 s) hsize
          exact ⟨s.take 4, ⟨hlength, digits, hdigits, rfl⟩, (List.take_append_drop 4 s).symm⟩
      · cases h

theorem SpellsUnit.lt {n : Nat} {u : List Char} (h : SpellsUnit n u) : n < 0x10000 := by
  obtain ⟨hlength, digits, hdigits, rfl⟩ := h
  have hfour : digits.length = 4 := (length_of_hexDigits hdigits).1.trans hlength
  match digits, hfour with
  | [a, b, c, d], _ =>
      simp only [List.foldl_cons, List.foldl_nil]
      omega

/-- What stands in a text for a piece of a string. -/
inductive SpellsPiece : Piece → List Char → Prop
  | close : SpellsPiece .close ['"']
  | plain {c : Char} (hcontrol : 0x20 ≤ c.toNat) (hquote : c ≠ '"') (hslash : c ≠ '\\') :
      SpellsPiece (.char c) [c]
  | escape {e c : Char} (he : simpleEscape? e = some c) : SpellsPiece (.char c) ['\\', e]
  | unit {n : Nat} {u : List Char} (hu : SpellsUnit n u) : SpellsPiece (.unit n) ('\\' :: 'u' :: u)

theorem spellsPiece_of_readPiece {p : Piece} (h : readPiece s = .ok (p, r)) :
    ∃ u, SpellsPiece p u ∧ s = u ++ r := by
  unfold readPiece at h
  split at h
  · cases h
  · cases h
    exact ⟨_, .close, rfl⟩
  · cases h
  · obtain ⟨⟨n, t⟩, hunit, h⟩ := bind_eq_ok.1 h
    cases h
    obtain ⟨u, hu, rfl⟩ := spellsUnit_of_readUnit hunit
    exact ⟨_, .unit hu, rfl⟩
  · split at h
    · next he => cases h; exact ⟨_, .escape he, rfl⟩
    · cases h
  · next c t hquote hlone _ hslash =>
    split at h
    · cases h
    · next hcontrol =>
        cases h
        have hnot : c ≠ '\\' := by
          rintro rfl
          cases r with
          | nil => exact hlone rfl rfl
          | cons d r => exact hslash d r rfl rfl
        exact ⟨_, .plain (Nat.not_lt.mp hcontrol) hquote hnot, rfl⟩

/-! ### Strings -/

/-- What is read as one letter may stand before any others. -/
def Leads (letter : Letter) (u : List Char) : Prop :=
  ∀ ⦃letters : List Letter⦄ ⦃t : List Char⦄, SpellsLetters letters t →
    SpellsLetters (letter :: letters) (u ++ t)

theorem SpellsPiece.leads {c : Char} {u : List Char} (h : SpellsPiece (.char c) u) :
    Leads (.char c) u := by
  cases h with
  | plain hcontrol hquote hslash => exact fun _ _ hlater => .plain hcontrol hquote hslash hlater
  | escape he => exact fun _ _ hlater => .escape he hlater

theorem toNat_ofNat {n : Nat} (h : n.isValidChar) : (Char.ofNat n).toNat = n := by
  rw [Char.ofNat, dif_pos h]
  rfl

/-- A code unit that is no half of a character is one. -/
theorem toNat_ofNat_of_unit {n : Nat} {u : List Char} (hu : SpellsUnit n u)
    (hleading : isLeading n = false) (htrailing : isTrailing n = false) :
    (Char.ofNat n).toNat = n := by
  have hlt := hu.lt
  simp only [isLeading, isTrailing, Bool.and_eq_false_iff, decide_eq_false_iff_not] at *
  refine toNat_ofNat ?_
  rw [Nat.isValidChar]
  omega

theorem toNat_ofNat_pairedCode {leading trailing : Nat} (hleading : isLeading leading = true)
    (htrailing : isTrailing trailing = true) :
    (Char.ofNat (pairedCode leading trailing)).toNat = pairedCode leading trailing := by
  have hcode : pairedCode leading trailing =
      0x10000 + 0x400 * (leading - 0xD800) + (trailing - 0xDC00) := rfl
  simp only [isLeading, isTrailing, Bool.and_eq_true, decide_eq_true_eq] at hleading htrailing
  refine toNat_ofNat (.inr ⟨?_, ?_⟩) <;> (rw [hcode]; omega)

theorem spells_of_readTrailing {leading : Nat} {c : Char} (hleading : isLeading leading = true)
    (h : readTrailing leading s = .ok (c, r)) :
    ∃ trailing v, SpellsUnit trailing v ∧ isTrailing trailing = true ∧
      c.toNat = pairedCode leading trailing ∧ s = '\\' :: 'u' :: (v ++ r) := by
  obtain ⟨t, hescape, h⟩ := bind_eq_ok.1 h
  obtain ⟨⟨n, w⟩, hunit, h⟩ := bind_eq_ok.1 h
  simp only at h
  split at h
  · next htrailing =>
      obtain ⟨hc, rfl⟩ := Prod.mk.inj (Except.ok.inj h)
      obtain ⟨v, hv, rfl⟩ := spellsUnit_of_readUnit hunit
      have hcode := hc ▸ toNat_ofNat_pairedCode hleading htrailing
      exact ⟨n, v, hv, htrailing, hcode, eq_of_expectWord hescape⟩
  · cases h

theorem leads_of_readChar? {c? : Option Char} (h : readChar? s = .ok (c?, r)) :
    match c? with
    | none => s = '"' :: r
    | some c => ∃ u, Leads (.char c) u ∧ s = u ++ r := by
  obtain ⟨⟨p, t⟩, hpiece, hletter⟩ := bind_eq_ok.1 h
  obtain ⟨u, hu, rfl⟩ := spellsPiece_of_readPiece hpiece
  cases p with
  | close => cases hletter; cases hu; rfl
  | char c => cases hletter; exact ⟨u, hu.leads, rfl⟩
  | unit n =>
      cases hu with
      | @unit _ u hu =>
      simp only at hletter
      split at hletter
      · cases hletter
      · next htrailing =>
        rw [Bool.not_eq_true] at htrailing
        split at hletter
        · next hleading =>
            obtain ⟨⟨c, w⟩, hsecond, hletter⟩ := bind_eq_ok.1 hletter
            cases hletter
            obtain ⟨trailing, v, hv, htrailing, hcode, rfl⟩ :=
              spells_of_readTrailing hleading hsecond
            refine ⟨'\\' :: 'u' :: (u ++ '\\' :: 'u' :: v), fun letters t hlater => ?_, by simp⟩
            simpa using SpellsLetters.pair hu hv hleading htrailing hcode hlater
        · next hleading =>
            cases hletter
            rw [Bool.not_eq_true] at hleading
            have hcode := toNat_ofNat_of_unit hu hleading htrailing
            exact ⟨_, fun _ _ hlater => .unit (hcode.symm ▸ hu) hlater, rfl⟩

/-- What is read as a string spells its characters. -/
theorem spellsLetters_of_readString {cs : List Char} (h : readString s = .ok (cs, r)) :
    ∃ t, SpellsLetters (cs.map .char) t ∧ s = t ++ '"' :: r := by
  fun_induction readString s generalizing cs with
  | case1 => cases h
  | case2 s t hclose =>
      cases h
      exact ⟨[], .nil, leads_of_readChar? hclose⟩
  | case3 => cases h
  | case4 s c t hchar _ cs' r' hlater ih =>
      cases h
      obtain ⟨u, hu, rfl⟩ := leads_of_readChar? hchar
      obtain ⟨w, hw, rfl⟩ := ih hlater
      exact ⟨u ++ w, hu hw, by simp⟩

/-- A code unit may stand before any letters, and may be one character with the first of them. -/
theorem SpellsLetters.unit_cons {n : Nat} {u : List Char} (hu : SpellsUnit n u)
    {letters : List Letter} {t : List Char} (h : SpellsLetters letters t) :
    ∃ letters, SpellsLetters letters ('\\' :: 'u' :: (u ++ t)) := by
  by_cases htrailing : isTrailing n = true
  · exact ⟨_, .half hu (.inl htrailing) h⟩
  · rw [Bool.not_eq_true] at htrailing
    by_cases hleading : isLeading n = true
    · by_cases hpair : ∃ m, letters.head? = some (.half m) ∧ isTrailing m = true
      · obtain ⟨m, hhead, hm⟩ := hpair
        cases h with
        | half hv _ hlater =>
            cases hhead
            exact ⟨_, .pair hu hv hleading hm (toNat_ofNat_pairedCode hleading hm) hlater⟩
        | nil | plain | escape | unit | pair => cases hhead
      · have halone : ∀ m, letters.head? = some (.half m) → isTrailing m = false :=
          fun m hhead => Bool.eq_false_iff.mpr fun hm => hpair ⟨m, hhead, hm⟩
        exact ⟨_, .half hu (.inr ⟨hleading, halone⟩) h⟩
    · rw [Bool.not_eq_true] at hleading
      exact ⟨_, .unit ((toNat_ofNat_of_unit hu hleading htrailing).symm ▸ hu) h⟩

/-- What is passed over as a string spells some letters. -/
theorem spellsLetters_of_skipString (h : skipString s = .ok r) :
    ∃ letters t, SpellsLetters letters t ∧ s = t ++ '"' :: r := by
  fun_induction skipString s with
  | case1 => cases h
  | case2 s t hclose =>
      cases h
      obtain ⟨u, hu, rfl⟩ := spellsPiece_of_readPiece hclose
      cases hu
      exact ⟨[], [], .nil, rfl⟩
  | case3 s p t hopen hpiece _ ih =>
      obtain ⟨u, hu, rfl⟩ := spellsPiece_of_readPiece hpiece
      obtain ⟨letters, w, hw, rfl⟩ := ih h
      cases p with
      | close => exact (hopen rfl).elim
      | char c => exact ⟨_, u ++ w, hu.leads hw, by simp⟩
      | unit n =>
          cases hu with
          | @unit _ u hu =>
          obtain ⟨letters, hletters⟩ := hw.unit_cons hu
          exact ⟨letters, _, hletters, by simp⟩

/-! ### Numbers -/

theorem isDigits_of_readDigits {atEnd : Fault} {ds : List Char}
    (h : readDigits atEnd s = .ok (ds, r)) : IsDigits ds ∧ s = ds ++ r := by
  unfold readDigits at h
  split at h
  · cases h
  · next c t =>
      split at h
      · next hc =>
          cases h
          have hsome : (c :: t).takeWhile Decimal.isDigit ≠ [] := by
            rw [List.takeWhile_cons_of_pos hc]
            exact List.cons_ne_nil _ _
          exact ⟨⟨hsome, List.all_takeWhile⟩, List.takeWhile_append_dropWhile.symm⟩
      · cases h

theorem isDigits_of_readWhole {atEnd : Fault} {ds : List Char}
    (h : readWhole atEnd s = .ok (ds, r)) :
    IsDigits ds ∧ (ds.head? = some '0' → ds = ['0']) ∧ s = ds ++ r := by
  have hzero : IsDigits ['0'] := ⟨List.cons_ne_nil _ _, rfl⟩
  unfold readWhole at h
  split at h
  · split at h
    · cases h
      exact ⟨hzero, fun _ => rfl, rfl⟩
    · split at h
      · cases h
      · cases h
        exact ⟨hzero, fun _ => rfl, rfl⟩
  · next hnot =>
      obtain ⟨hds, rfl⟩ := isDigits_of_readDigits h
      obtain ⟨d, rest, rfl, -⟩ := hds.exists_cons
      refine ⟨hds, fun hhead => ?_, rfl⟩
      cases hhead
      exact (hnot _ rfl).elim

theorem spellsFraction_of_readFraction {atEnd : Fault} {ds : List Char}
    (h : readFraction atEnd s = .ok (ds, r)) : ∃ u, SpellsFraction ds u ∧ s = u ++ r := by
  unfold readFraction at h
  split at h
  · obtain ⟨hds, rfl⟩ := isDigits_of_readDigits h
    exact ⟨_, .digits hds, rfl⟩
  · cases h
    exact ⟨[], .none, rfl⟩

theorem readSign_eq (s : List Char) :
    (∃ r, s = '+' :: r ∧ readSign s = (false, r)) ∨ (∃ r, s = '-' :: r ∧ readSign s = (true, r)) ∨
      readSign s = (false, s) := by
  unfold readSign
  split
  · exact .inl ⟨_, rfl, rfl⟩
  · exact .inr (.inl ⟨_, rfl, rfl⟩)
  · exact .inr (.inr rfl)

theorem spellsExponent_of_readExponent {atEnd : Fault} {e : Option (Bool × List Char)}
    (h : readExponent atEnd s = .ok (e, r)) : ∃ u, SpellsExponent e u ∧ s = u ++ r := by
  unfold readExponent at h
  split at h
  · cases h
    exact ⟨[], .none, rfl⟩
  · next c t =>
    split at h
    · next he =>
        obtain ⟨⟨ds, u⟩, hdigits, h⟩ := bind_eq_ok.1 h
        cases h
        obtain ⟨hds, hu⟩ := isDigits_of_readDigits hdigits
        rcases readSign_eq t with ⟨v, rfl, hsign⟩ | ⟨v, rfl, hsign⟩ | hsign
        · rw [hsign] at hu ⊢
          obtain rfl : v = ds ++ r := hu
          exact ⟨_, .plus he hds, rfl⟩
        · rw [hsign] at hu ⊢
          obtain rfl : v = ds ++ r := hu
          exact ⟨_, .minus he hds, rfl⟩
        · rw [hsign] at hu ⊢
          obtain rfl : t = ds ++ r := hu
          exact ⟨_, .plain he hds, rfl⟩
    · cases h
      exact ⟨[], .none, rfl⟩

theorem readMinus_eq (s : List Char) :
    s = (if (readMinus s).1 then ['-'] else []) ++ (readMinus s).2 := by
  unfold readMinus
  split <;> rfl

/-- What is read as a number spells it. -/
theorem spellsNumeral_of_readNumeral {atEnd : Fault} {n : Numeral}
    (h : readNumeral atEnd s = .ok (n, r)) : ∃ u, SpellsNumeral n u ∧ s = u ++ r := by
  obtain ⟨⟨whole, t⟩, hwhole, h⟩ := bind_eq_ok.1 h
  obtain ⟨⟨fraction, u⟩, hfraction, h⟩ := bind_eq_ok.1 h
  obtain ⟨⟨exponent, v⟩, hexponent, h⟩ := bind_eq_ok.1 h
  cases h
  obtain ⟨hdigits, hzero, hs⟩ := isDigits_of_readWhole hwhole
  obtain ⟨f, hf, rfl⟩ := spellsFraction_of_readFraction hfraction
  obtain ⟨e, he, rfl⟩ := spellsExponent_of_readExponent hexponent
  refine ⟨_, ⟨hdigits, hzero, f, e, hf, he, rfl⟩, ?_⟩
  conv => lhs; rw [readMinus_eq s, hs]
  simp

/-! ### Values that are passed over -/

theorem length_lt_of_leaves {x : Except Fault (Rest s)} (h : Leaves x r) : r.length < s.length := by
  obtain ⟨rest, -, rfl⟩ := h
  exact rest.property

theorem spellsQuoted_of_skipString (h : skipString t = .ok r) :
    ∃ letters n, SpellsQuoted letters n ∧ '"' :: t = n ++ r := by
  obtain ⟨letters, u, hu, rfl⟩ := spellsLetters_of_skipString h
  exact ⟨letters, _, ⟨u, hu, rfl⟩, by simp⟩

theorem spellsQuoted_of_skipName (h : Leaves (skipName s) r) :
    ∃ letters n before, SpellsQuoted letters n ∧ before.all isBlank = true ∧
      dropBlank s = n ++ (before ++ ':' :: r) := by
  obtain ⟨rest, h, rfl⟩ := h
  unfold skipName at h
  split at h
  · next hs =>
      split at h
      · cases h
      · next hstring =>
          split at h
          · cases h
          · next hmark =>
              cases h
              obtain ⟨letters, n, hn, ht⟩ := spellsQuoted_of_skipString hstring
              obtain ⟨before, hbefore, rfl⟩ := gap_of_expectMark hmark
              exact ⟨letters, n, before, hn, hbefore, hs.trans ht⟩
  · cases h
  · cases h

theorem wellFormed_word {c : Char} {word : List Char} (h : wordAfter? c = some word) :
    WellFormed (c :: word) := by
  unfold wordAfter? at h
  split at h <;> cases h
  · exact .null
  · exact .flag true
  · exact .flag false

/-- A value is passed over at once, or item by item, or member by member. -/
theorem skipValue_cases (h : Leaves (skipValue s) r) :
    (∃ w, WellFormed w ∧ dropBlank s = w ++ r) ∨
      (∃ t, dropBlank s = '[' :: t ∧ Leaves (skipItems t) r) ∨
      ∃ t, dropBlank s = '{' :: t ∧ Leaves (skipMembers t) r := by
  obtain ⟨rest, h, rfl⟩ := h
  rw [skipValue] at h
  split at h
  · cases h
  · next c t hs =>
    simp only at h
    split at h
    · next hc =>
      subst hc
      split at h
      · cases h
      · next hstring =>
          cases h
          obtain ⟨letters, n, hn, ht⟩ := spellsQuoted_of_skipString hstring
          exact .inl ⟨n, .string hn, hs.trans ht⟩
    split at h
    · next hc =>
      subst hc
      split at h
      · next hclose =>
          cases h
          obtain ⟨gap, hgap, rfl⟩ := gap_of_dropBlank hclose
          exact .inl ⟨_, .list (.close hgap), hs.trans (by simp)⟩
      · obtain ⟨items, hitems, h⟩ := bind_eq_ok.1 h
        cases h
        exact .inr (.inl ⟨t, hs, items, hitems, rfl⟩)
    split at h
    · next hc =>
      subst hc
      split at h
      · next hclose =>
          cases h
          obtain ⟨gap, hgap, rfl⟩ := gap_of_dropBlank hclose
          exact .inl ⟨_, .object (.close hgap), hs.trans (by simp)⟩
      · obtain ⟨members, hmembers, h⟩ := bind_eq_ok.1 h
        cases h
        exact .inr (.inr ⟨t, hs, members, hmembers, rfl⟩)
    split at h
    · next hword =>
      split at h
      · cases h
      · next hread =>
          cases h
          exact .inl ⟨_, wellFormed_word hword, hs.trans (congrArg _ (eq_of_expectWord hread))⟩
    split at h
    · split at h
      · cases h
      · next hread =>
          cases h
          obtain ⟨w, hw, ht⟩ := spellsNumeral_of_readNumeral hread
          exact .inl ⟨w, .number hw, hs.trans ht⟩
    · cases h

theorem skipItems_cases (h : Leaves (skipItems s) r) :
    ∃ t, Leaves (skipValue s) t ∧
      (dropBlank t = ']' :: r ∨ ∃ u, dropBlank t = ',' :: u ∧ Leaves (skipItems u) r) := by
  obtain ⟨rest, h, rfl⟩ := h
  rw [skipItems] at h
  obtain ⟨⟨t, ht⟩, hvalue, h⟩ := bind_eq_ok.1 h
  simp only at h
  refine ⟨t, ⟨_, hvalue, rfl⟩, ?_⟩
  split at h
  · next hclose => cases h; exact .inl hclose
  · next u hcomma =>
      obtain ⟨items, hitems, h⟩ := bind_eq_ok.1 h
      cases h
      exact .inr ⟨u, hcomma, items, hitems, rfl⟩
  · cases h
  · cases h

theorem skipMembers_cases (h : Leaves (skipMembers s) r) :
    ∃ n t, Leaves (skipName s) n ∧ Leaves (skipValue n) t ∧
      (dropBlank t = '}' :: r ∨ ∃ u, dropBlank t = ',' :: u ∧ Leaves (skipMembers u) r) := by
  obtain ⟨rest, h, rfl⟩ := h
  rw [skipMembers] at h
  obtain ⟨name, hname, h⟩ := bind_eq_ok.1 h
  obtain ⟨value, hvalue, h⟩ := bind_eq_ok.1 h
  simp only at h
  refine ⟨name.val, value.val, ⟨_, hname, rfl⟩, ⟨_, hvalue, rfl⟩, ?_⟩
  split at h
  · next hclose => cases h; exact .inl hclose
  · next u hcomma =>
      obtain ⟨members, hmembers, h⟩ := bind_eq_ok.1 h
      cases h
      exact .inr ⟨u, hcomma, members, hmembers, rfl⟩
  · cases h
  · cases h

mutual

/-- **What is passed over is a well-formed value.** -/
theorem wellFormed_of_skipValue {s r : List Char} (h : Leaves (skipValue s) r) :
    ∃ w, WellFormed w ∧ dropBlank s = w ++ r := by
  rcases skipValue_cases h with hw | ⟨t, hs, hitems⟩ | ⟨t, hs, hmembers⟩
  · exact hw
  · have hlt := length_lt_of_dropBlank_eq_cons hs
    obtain ⟨w, hw, rfl⟩ := wellFormedItems_of_skipItems true rfl hitems
    exact ⟨_, .list hw, hs⟩
  · have hlt := length_lt_of_dropBlank_eq_cons hs
    obtain ⟨w, hw, rfl⟩ := wellFormedMembers_of_skipMembers true rfl hmembers
    exact ⟨_, .object hw, hs⟩
termination_by (s.length, 0)

theorem wellFormedItems_of_skipItems (first : Bool) {s t r : List Char}
    (hs : if first then t = s else dropBlank s = ',' :: t) (h : Leaves (skipItems t) r) :
    ∃ w, WellFormedItems first w ∧ s = w ++ r := by
  obtain ⟨u, hvalue, hnext⟩ := skipItems_cases h
  have hltu := length_lt_of_leaves hvalue
  have hlater : ∃ later, WellFormedItems false later ∧ u = later ++ r := by
    rcases hnext with hclose | ⟨v, hcomma, hitems⟩
    · obtain ⟨gap, hgap, rfl⟩ := gap_of_dropBlank hclose
      exact ⟨_, .close hgap, by simp⟩
    · have hltv := length_lt_of_dropBlank_eq_cons hcomma
      exact wellFormedItems_of_skipItems false hcomma hitems
  obtain ⟨w, hw, ht⟩ := wellFormed_of_skipValue hvalue
  obtain ⟨lead, hlead, rfl⟩ := separates_of_dropBlank hs ht
  obtain ⟨later, hlater, rfl⟩ := hlater
  exact ⟨_, .item hlead hw hlater, by simp⟩
termination_by (t.length, 1)

theorem wellFormedMembers_of_skipMembers (first : Bool) {s t r : List Char}
    (hs : if first then t = s else dropBlank s = ',' :: t) (h : Leaves (skipMembers t) r) :
    ∃ w, WellFormedMembers first w ∧ s = w ++ r := by
  obtain ⟨u, v, hname, hvalue, hnext⟩ := skipMembers_cases h
  have hltu := length_lt_of_leaves hname
  have hltv := length_lt_of_leaves hvalue
  have hlater : ∃ later, WellFormedMembers false later ∧ v = later ++ r := by
    rcases hnext with hclose | ⟨x, hcomma, hmembers⟩
    · obtain ⟨gap, hgap, rfl⟩ := gap_of_dropBlank hclose
      exact ⟨_, .close hgap, by simp⟩
    · have hltx := length_lt_of_dropBlank_eq_cons hcomma
      exact wellFormedMembers_of_skipMembers false hcomma hmembers
  obtain ⟨w, hw, hu⟩ := wellFormed_of_skipValue hvalue
  obtain ⟨after, hafter, rfl⟩ := gap_of_dropBlank hu
  obtain ⟨letters, n, before, hn, hbefore, ht⟩ := spellsQuoted_of_skipName hname
  obtain ⟨lead, hlead, rfl⟩ := separates_of_dropBlank hs ht
  obtain ⟨later, hlater, rfl⟩ := hlater
  exact ⟨_, .member hlead hn hbefore hafter hw hlater, by simp⟩
termination_by (t.length, 1)

end

end CallLifecycle.Json

/-
A value is passed over from its first character to its last, however it is spelled.

The proof follows the grammar of what is well formed: one lemma for each kind of value says how
passing over goes on behind its first character, and values, items and members are then one
induction on the text.  Where items or members are passed over, the text goes on in one of two ways:
the list is over, or there is an item, behind a comma if it is not the first.
-/
import CallLifecycle.Json.Ignored
import CallLifecycle.Proofs.Tokens

namespace CallLifecycle.Json

/-! ### Where a value begins and ends -/

/-- The first character of any spelling of a value. -/
def Value.Begins : Value → Char → Prop
  | null, c => c = 'n'
  | flag b, c => c = if b then 't' else 'f'
  | number _, c => c = '-' ∨ Decimal.isDigit c = true
  | string _, c => c = '"'
  | list _, c => c = '['
  | object _, c => c = '{'

theorem Value.Spells.begins {v : Value} {s : List Char} (h : v.Spells s) :
    ∃ c t, s = c :: t ∧ v.Begins c := by
  cases h with
  | null => exact ⟨_, _, rfl, rfl⟩
  | flag b => cases b <;> exact ⟨_, _, rfl, rfl⟩
  | @number n s hn =>
      obtain ⟨hwhole, -, fraction, exponent, -, -, rfl⟩ := hn
      cases n.negative with
      | true => exact ⟨'-', _, rfl, .inl rfl⟩
      | false =>
          obtain ⟨d, rest, hds, hd⟩ := hwhole.exists_cons
          exact ⟨d, rest ++ (fraction ++ exponent), by simp [hds], .inr hd⟩
  | string _ => exact ⟨_, _, rfl, rfl⟩
  | list _ => exact ⟨_, _, rfl, rfl⟩
  | object _ => exact ⟨_, _, rfl, rfl⟩

theorem Value.Begins.not_blank {v : Value} {c : Char} (h : v.Begins c) : isBlank c = false := by
  cases v with
  | flag b => cases b <;> (cases h; rfl)
  | number n =>
      rcases h with rfl | hdigit
      · rfl
      · simp only [isBlank, Bool.or_eq_false_iff, beq_eq_false_iff_ne]
        refine ⟨⟨⟨?_, ?_⟩, ?_⟩, ?_⟩ <;> (rintro rfl; cases hdigit)
  | null | string | list | object => cases h; rfl

/-- A well-formed value begins with no blank and no closing bracket. -/
theorem WellFormed.begins {s : List Char} (h : WellFormed s) :
    ∃ c t, s = c :: t ∧ isBlank c = false ∧ c ≠ ']' := by
  cases h with
  | null => exact ⟨_, _, rfl, rfl, by decide⟩
  | flag b => cases b <;> exact ⟨_, _, rfl, rfl, by decide⟩
  | number hn =>
      obtain ⟨c, t, hs, hc⟩ := (Value.Spells.number hn).begins
      exact ⟨c, t, hs, hc.not_blank, by rintro rfl; rcases hc with h | h <;> cases h⟩
  | string hletters =>
      obtain ⟨t, -, rfl⟩ := hletters
      exact ⟨_, _, rfl, rfl, by decide⟩
  | list _ => exact ⟨_, _, rfl, rfl, by decide⟩
  | object _ => exact ⟨_, _, rfl, rfl, by decide⟩

/-- No blank comes first in a well-formed value. -/
theorem WellFormed.dropBlank {s : List Char} (h : WellFormed s) (r : List Char) :
    Json.dropBlank (s ++ r) = s ++ r := by
  obtain ⟨c, t, rfl, hc, -⟩ := h.begins
  exact dropBlank_of_not hc _

/-- Blanks before a value are dropped, and nothing of the value. -/
theorem WellFormed.dropBlank_gap {s gap : List Char} (h : WellFormed s)
    (hgap : gap.all isBlank = true) (r : List Char) :
    Json.dropBlank (gap ++ (s ++ r)) = s ++ r :=
  (dropBlank_blanks hgap _).trans (h.dropBlank r)

theorem dropBlank_spells {v : Value} {s : List Char} (h : v.Spells s) (r : List Char) :
    dropBlank (s ++ r) = s ++ r :=
  h.wellFormed.dropBlank r

theorem dropBlank_gap_spells {v : Value} {s gap : List Char} (h : v.Spells s)
    (hgap : gap.all isBlank = true) (r : List Char) :
    dropBlank (gap ++ (s ++ r)) = s ++ r :=
  h.wellFormed.dropBlank_gap hgap r

theorem endsValue_blanks {gap s : List Char} (hgap : gap.all isBlank = true)
    (hs : endsValue s = true) : endsValue (gap ++ s) = true := by
  cases gap with
  | nil => exact hs
  | cons c gap =>
      rw [List.all_cons, Bool.and_eq_true] at hgap
      simp [endsValue, hgap.1]

theorem Separates.first {lead : List Char} (h : Separates true lead) (s : List Char) :
    dropBlank (lead ++ s) = dropBlank s := by
  obtain ⟨before, after, hbefore, hafter, rfl⟩ := h
  rw [List.append_assoc, dropBlank_blanks hbefore]
  exact dropBlank_blanks hafter s

theorem Separates.later {lead : List Char} (h : Separates false lead) (s : List Char) :
    ∃ t, dropBlank (lead ++ s) = ',' :: t ∧ dropBlank t = dropBlank s := by
  obtain ⟨before, after, hbefore, hafter, rfl⟩ := h
  refine ⟨after ++ s, ?_, dropBlank_blanks hafter s⟩
  rw [List.append_assoc, dropBlank_blanks hbefore]
  exact dropBlank_of_not rfl _

theorem Separates.endsValue {lead : List Char} (h : Separates false lead) (s : List Char) :
    endsValue (lead ++ s) = true := by
  obtain ⟨before, after, hbefore, -, rfl⟩ := h
  rw [List.append_assoc]
  exact endsValue_blanks hbefore rfl

theorem WellFormedItems.endsValue {s : List Char} (h : WellFormedItems false s)
    (r : List Char) : endsValue (s ++ r) = true := by
  cases h with
  | close hgap =>
      rw [List.append_assoc]
      exact endsValue_blanks hgap rfl
  | item hlead _ _ =>
      rw [List.append_assoc]
      exact hlead.endsValue _

theorem WellFormedMembers.endsValue {s : List Char} (h : WellFormedMembers false s)
    (r : List Char) : endsValue (s ++ r) = true := by
  cases h with
  | close hgap =>
      rw [List.append_assoc]
      exact endsValue_blanks hgap rfl
  | member hlead _ _ _ _ _ =>
      rw [List.append_assoc]
      exact hlead.endsValue _

theorem LaysOut.endsValue {ν : Type} {spells : ν → List Char → Prop}
    {members : List (String × ν)} {s : List Char} (h : LaysOut spells false members s)
    (r : List Char) : endsValue (s ++ r) = true := by
  cases h with
  | close hgap =>
      rw [List.append_assoc]
      exact endsValue_blanks hgap rfl
  | member hlead _ _ _ _ _ =>
      rw [List.append_assoc]
      exact hlead.endsValue _

/-! ### Values of each kind -/

section Kinds

variable {s t r : List Char}

/-- Something was passed over, and this is left. -/
def Leaves (x : Except Fault (Rest s)) (r : List Char) : Prop :=
  ∃ rest : Rest s, x = .ok rest ∧ rest.val = r

theorem skipValue_word {c : Char} {word : List Char} (h : dropBlank s = c :: t)
    (hc : wordAfter? c = some word) (hword : expectWord word t = .ok r) :
    Leaves (skipValue s) r := by
  have hmark : c ≠ '"' ∧ c ≠ '[' ∧ c ≠ '{' := by
    refine ⟨?_, ?_, ?_⟩ <;> (rintro rfl; cases hc)
  rw [skipValue]
  split
  · next hs => cases h.symm.trans hs
  · next hs =>
      cases h.symm.trans hs
      simp only [hmark.1, hmark.2.1, hmark.2.2, if_false]
      split
      · next hw =>
          cases hc.symm.trans hw
          split
          · next hread => cases hword.symm.trans hread
          · next hread => cases hword.symm.trans hread; exact ⟨_, rfl, rfl⟩
      · next hw => cases hc.symm.trans hw

theorem skipValue_number {c : Char} {n : Numeral} (h : dropBlank s = c :: t)
    (hc : c = '-' ∨ Decimal.isDigit c = true)
    (hn : readNumeral .malformed (c :: t) = .ok (n, r)) : Leaves (skipValue s) r := by
  have hmark : c ≠ '"' ∧ c ≠ '[' ∧ c ≠ '{' := by
    refine ⟨?_, ?_, ?_⟩ <;> (rintro rfl; revert hc; decide)
  have hword : wordAfter? c = none := by
    unfold wordAfter?
    split <;> first | rfl | (revert hc; decide)
  rw [skipValue]
  split
  · next hs => cases h.symm.trans hs
  · next hs =>
      cases h.symm.trans hs
      simp only [hmark.1, hmark.2.1, hmark.2.2, if_false, hc, if_true]
      split
      · next hw => cases hword.symm.trans hw
      · split
        · next hread => cases hn.symm.trans hread
        · next hread => cases hn.symm.trans hread; exact ⟨_, rfl, rfl⟩

theorem skipValue_string (h : dropBlank s = '"' :: t) (ht : skipString t = .ok r) :
    Leaves (skipValue s) r := by
  rw [skipValue]
  split
  · next hs => cases h.symm.trans hs
  · next hs =>
      cases h.symm.trans hs
      simp only [if_true]
      split
      · next hread => cases ht.symm.trans hread
      · next hread => cases ht.symm.trans hread; exact ⟨_, rfl, rfl⟩

/-- What is passed over where the text goes on with items of a list.

Either the list is over, or there is an item, behind a comma if it is not the first. -/
def SkipsItems (first : Bool) (s r : List Char) : Prop :=
  dropBlank s = ']' :: r ∨
    ∃ t, (if first then t = s else dropBlank s = ',' :: t) ∧ (∀ u, dropBlank t ≠ ']' :: u) ∧
      Leaves (skipItems t) r

theorem skipValue_list (h : dropBlank s = '[' :: t) (ht : SkipsItems true t r) :
    Leaves (skipValue s) r := by
  rw [skipValue]
  split
  · next hs => cases h.symm.trans hs
  · next hs =>
      cases h.symm.trans hs
      simp only [show ('[' : Char) ≠ '"' by decide, if_false, if_true]
      rcases ht with hclose | ⟨_, rfl, hopen, rest, hitems, rfl⟩
      · split
        · next hread => cases hclose.symm.trans hread; exact ⟨_, rfl, rfl⟩
        · next hnot => exact (hnot _ hclose).elim
      · split
        · next hread => exact (hopen _ hread).elim
        · rw [hitems]
          exact ⟨_, rfl, rfl⟩

/-- An item is passed over, and then what follows it. -/
theorem skipItems_item (hvalue : Leaves (skipValue s) t)
    (hlater : SkipsItems false t r) : Leaves (skipItems s) r := by
  obtain ⟨value, hvalue, rfl⟩ := hvalue
  rw [skipItems]
  simp only [hvalue, bind, Except.bind]
  rcases hlater with hclose | ⟨u, hcomma, -, rest, hitems, rfl⟩
  · split
    · next hread => cases hclose.symm.trans hread; exact ⟨_, rfl, rfl⟩
    · next hread => cases hclose.symm.trans hread
    · next hread => cases hclose.symm.trans hread
    · next hnot _ _ => exact (hnot _ hclose).elim
  · have hcomma : dropBlank value.val = ',' :: u := hcomma
    split
    · next hread => cases hcomma.symm.trans hread
    · next hread =>
        cases hcomma.symm.trans hread
        simp only [hitems]
        exact ⟨_, rfl, rfl⟩
    · next hread => cases hcomma.symm.trans hread
    · next hnot _ => exact (hnot _ hcomma).elim

/-- The same with members of an object. -/
def SkipsMembers (first : Bool) (s r : List Char) : Prop :=
  dropBlank s = '}' :: r ∨
    ∃ t, (if first then t = s else dropBlank s = ',' :: t) ∧ (∀ u, dropBlank t ≠ '}' :: u) ∧
      Leaves (skipMembers t) r

theorem skipValue_object (h : dropBlank s = '{' :: t) (ht : SkipsMembers true t r) :
    Leaves (skipValue s) r := by
  rw [skipValue]
  split
  · next hs => cases h.symm.trans hs
  · next hs =>
      cases h.symm.trans hs
      simp only [show ('{' : Char) ≠ '"' by decide, show ('{' : Char) ≠ '[' by decide, if_false,
        if_true]
      rcases ht with hclose | ⟨_, rfl, hopen, rest, hmembers, rfl⟩
      · split
        · next hread => cases hclose.symm.trans hread; exact ⟨_, rfl, rfl⟩
        · next hnot => exact (hnot _ hclose).elim
      · split
        · next hread => exact (hopen _ hread).elim
        · rw [hmembers]
          exact ⟨_, rfl, rfl⟩

theorem skipName_spelled {letters : List Letter} {n before : List Char}
    (hname : SpellsQuoted letters n)
    (hbefore : before.all isBlank = true) (h : dropBlank s = n ++ (before ++ ':' :: r)) :
    Leaves (skipName s) r := by
  obtain ⟨t, hletters, rfl⟩ := hname
  have hstring := skipString_spelled hletters (before ++ ':' :: r)
  have hmark : expectMark ':' (before ++ ':' :: r) = .ok r := by
    rw [expectMark, dropBlank_blanks hbefore]
    rfl
  replace h : dropBlank s = '"' :: (t ++ '"' :: (before ++ ':' :: r)) := by simpa using h
  unfold skipName
  split
  · next hs =>
      cases h.symm.trans hs
      split
      · next hread => cases hstring.symm.trans hread
      · next hread =>
          cases hstring.symm.trans hread
          split
          · next hread => cases hmark.symm.trans hread
          · next hread => cases hmark.symm.trans hread; exact ⟨_, rfl, rfl⟩
  · next hs => cases h.symm.trans hs
  · next hnot _ => exact (hnot _ h).elim

/-- A member is passed over, and then what follows it. -/
theorem skipMembers_member {u : List Char} (hname : Leaves (skipName s) t)
    (hvalue : Leaves (skipValue t) u) (hlater : SkipsMembers false u r) :
    Leaves (skipMembers s) r := by
  obtain ⟨name, hname, rfl⟩ := hname
  obtain ⟨value, hvalue, rfl⟩ := hvalue
  rw [skipMembers]
  simp only [hname, hvalue, bind, Except.bind]
  rcases hlater with hclose | ⟨u, hcomma, -, rest, hmembers, rfl⟩
  · have hclose : dropBlank (name.within value).val = '}' :: r := hclose
    split
    · next hread => cases hclose.symm.trans hread; exact ⟨_, rfl, rfl⟩
    · next hread => cases hclose.symm.trans hread
    · next hread => cases hclose.symm.trans hread
    · next hnot _ _ => exact (hnot _ hclose).elim
  · have hcomma : dropBlank (name.within value).val = ',' :: u := hcomma
    split
    · next hread => cases hcomma.symm.trans hread
    · next hread =>
        cases hcomma.symm.trans hread
        simp only [hmembers]
        exact ⟨_, rfl, rfl⟩
    · next hread => cases hcomma.symm.trans hread
    · next hnot _ => exact (hnot _ hcomma).elim

end Kinds

/-! ### Every value -/

theorem Value.not_begins_bracket (v : Value) : ¬ v.Begins ']' := by
  cases v with
  | flag b => cases b <;> nofun
  | number n => rintro (h | h) <;> cases h
  | null | string | list | object => nofun

mutual

/-- **A well-formed value is passed over, and nothing else.** -/
theorem skipValue_wellFormed : ∀ {s t r : List Char}, WellFormed s →
    dropBlank t = s ++ r → endsValue r = true → Leaves (skipValue t) r
  | _, _, _, .null, ht, _ => skipValue_word ht rfl rfl
  | _, _, _, .flag true, ht, _ => skipValue_word ht rfl rfl
  | _, _, _, .flag false, ht, _ => skipValue_word ht rfl rfl
  | _, _, _, .number hn, ht, hr => by
      obtain ⟨c, u, rfl, hc⟩ := (Value.Spells.number hn).begins
      exact skipValue_number ht hc (readNumeral_spelled hn hr .malformed)
  | _, _, _, .string hletters, ht, _ => by
      obtain ⟨u, hletters, rfl⟩ := hletters
      exact skipValue_string ht (by simpa using skipString_spelled hletters _)
  | _, _, r, .list hitems, ht, _ => skipValue_list ht (skipItems_wellFormed hitems r)
  | _, _, r, .object hmembers, ht, _ => skipValue_object ht (skipMembers_wellFormed hmembers r)

theorem skipItems_wellFormed : ∀ {first : Bool} {s : List Char},
    WellFormedItems first s → ∀ r, SkipsItems first (s ++ r) r
  | _, _, .close hgap, r => by
      refine .inl ?_
      rw [List.append_assoc, dropBlank_blanks hgap]
      exact dropBlank_of_not rfl r
  | first, _, @WellFormedItems.item _ lead s later hlead hs hlater, r => by
      have hbehind : endsValue (later ++ r) = true := hlater.endsValue r
      have hself : dropBlank (s ++ (later ++ r)) = s ++ (later ++ r) := hs.dropBlank _
      have hitem : ∀ t, dropBlank t = s ++ (later ++ r) → Leaves (skipItems t) r := fun t ht =>
        skipItems_item (skipValue_wellFormed hs ht hbehind) (skipItems_wellFormed hlater r)
      have hopen : ∀ t, dropBlank t = s ++ (later ++ r) → ∀ u, dropBlank t ≠ ']' :: u := by
        intro t ht u hu
        obtain ⟨c, w, rfl, -, hc⟩ := hs.begins
        cases ht.symm.trans hu
        exact hc rfl
      simp only [List.append_assoc]
      cases first with
      | true =>
          have ht := (hlead.first (s ++ (later ++ r))).trans hself
          exact .inr ⟨_, rfl, hopen _ ht, hitem _ ht⟩
      | false =>
          obtain ⟨t, hcomma, ht⟩ := hlead.later (s ++ (later ++ r))
          exact .inr ⟨t, hcomma, hopen t (ht.trans hself), hitem t (ht.trans hself)⟩

theorem skipMembers_wellFormed : ∀ {first : Bool} {s : List Char},
    WellFormedMembers first s → ∀ r, SkipsMembers first (s ++ r) r
  | _, _, .close hgap, r => by
      refine .inl ?_
      rw [List.append_assoc, dropBlank_blanks hgap]
      exact dropBlank_of_not rfl r
  | first, _, @WellFormedMembers.member _ _ lead n before after s later hlead hname hbefore
      hafter hs hlater, r => by
      have hbehind : endsValue (later ++ r) = true := hlater.endsValue r
      let text := n ++ (before ++ ':' :: (after ++ (s ++ (later ++ r))))
      have hself : ∃ u, text = '"' :: u ∧ dropBlank text = text := by
        obtain ⟨t, -, rfl⟩ := hname
        exact ⟨_, rfl, dropBlank_of_not rfl _⟩
      obtain ⟨u, htext, hself⟩ := hself
      have hmember : ∀ t, dropBlank t = text → Leaves (skipMembers t) r := fun t ht =>
        skipMembers_member (skipName_spelled hname hbefore ht)
          (skipValue_wellFormed hs (hs.dropBlank_gap hafter _) hbehind)
          (skipMembers_wellFormed hlater r)
      have hopen : ∀ t, dropBlank t = text → ∀ u, dropBlank t ≠ '}' :: u := by
        intro t ht u hu
        cases htext.symm.trans (ht.symm.trans hu)
      simp only [List.append_assoc, List.cons_append]
      cases first with
      | true =>
          have ht := (hlead.first text).trans hself
          exact .inr ⟨_, rfl, hopen _ ht, hmember _ ht⟩
      | false =>
          obtain ⟨t, hcomma, ht⟩ := hlead.later text
          exact .inr ⟨t, hcomma, hopen t (ht.trans hself), hmember t (ht.trans hself)⟩

end

end CallLifecycle.Json

/-
A record is read as the members of its object say.

Reading members keeps three things: the names of the fields that were given, the record as it is so
far, and the text that is left.  `ofMembers` is the same without the text, and reading agrees with
it for every spelling of the members.  What the members come to is then a question about lists.

A list in place of an object has the values of the fields in order, and is read the same way.
-/
import CallLifecycle.Json.RecordFormat
import CallLifecycle.Proofs.Understanding

namespace CallLifecycle.Json

/-! ### The next member -/

/-- A text goes on with a name, and this is left behind it. -/
def GoesOn {s : List Char} (x : Except Fault (RecordFormat.Next s)) (name : String)
    (r : List Char) : Prop :=
  ∃ rest : Rest s, x = .ok (.name name rest) ∧ rest.val = r

namespace RecordFormat

variable {s t n u r : List Char} {name : String}

theorem readNext_close (first : Bool) (h : dropBlank s = '}' :: u) :
    ∃ hu, readNext first s = .ok (.close ⟨u, hu⟩) := by
  unfold readNext
  split
  · next hs => cases h.symm.trans hs
  · next hs =>
      cases h.symm.trans hs
      exact ⟨length_lt_of_dropBlank_eq_cons hs, rfl⟩
  · next hnot hs =>
      cases h.symm.trans hs
      exact absurd rfl hnot

theorem readName_spelled (hname : SpellsName name n) (ht : t = n ++ u)
    (hle : t.length ≤ s.length) : GoesOn (readName s t hle) name u := by
  obtain ⟨letters, hletters, rfl⟩ := hname
  have hread := readString_spelled hletters u
  rw [chars?_map_char] at hread
  have hstring := eq_ok_of_toOption hread
  replace ht : t = '"' :: (letters ++ '"' :: u) := by simpa using ht
  subst ht
  simp only [readName, if_true]
  split
  · next hfault => cases hstring.symm.trans hfault
  · next hread =>
      cases hstring.symm.trans hread
      exact ⟨_, by rw [String.ofList_toList], rfl⟩

/-- The name of a member is read, however it is spelled. -/
theorem readNext_member {first : Bool} {lead : List Char} (hlead : Separates first lead)
    (hname : SpellsName name n) (u : List Char) :
    GoesOn (readNext first (lead ++ (n ++ u))) name u := by
  have hquote : ∃ w, n ++ u = '"' :: w := by
    obtain ⟨letters, -, rfl⟩ := hname
    exact ⟨_, rfl⟩
  obtain ⟨w, hw⟩ := hquote
  have hself : dropBlank (n ++ u) = n ++ u := hw ▸ dropBlank_of_not rfl w
  unfold readNext
  cases first with
  | true =>
      have htext := (hlead.first (n ++ u)).trans hself
      split
      · next hs => cases hs.symm.trans (htext.trans hw)
      · next hs => cases hs.symm.trans (htext.trans hw)
      · next hs => exact readName_spelled hname (hs.symm.trans htext) (hs ▸ length_dropBlank_le _)
  | false =>
      obtain ⟨v, hcomma, hv⟩ := hlead.later (n ++ u)
      split
      · next hs => cases hs.symm.trans hcomma
      · next hs => cases hs.symm.trans hcomma
      · next hs =>
          cases hs.symm.trans hcomma
          exact readName_spelled hname (hv.trans hself) _

/-! ### One member -/

variable {ρ : Type} {format : RecordFormat ρ} {first : Bool} {given : List String} {record : ρ}

/-- What reading members came to, and what is left of the text. -/
def came (x : Except Fault (ρ × Rest s)) : Option (ρ × List Char) :=
  x.toOption.map fun y => (y.1, y.2.val)

/-- What reading members came to, without the promise that the text gets shorter. -/
def bare (x : Except Fault (ρ × Rest s)) : Except Fault (ρ × List Char) :=
  x.map fun y => (y.1, y.2.val)

theorem toOption_bare (x : Except Fault (ρ × Rest s)) : (bare x).toOption = came x := by
  cases x <;> rfl

theorem bare_within {t : Rest s} (x : Except Fault (ρ × Rest t.val)) :
    bare (x >>= fun y => pure (y.1, t.within y.2)) = bare x := by
  cases x <;> rfl

theorem came_within {t : Rest s} (x : Except Fault (ρ × Rest t.val)) :
    came (x >>= fun y => pure (y.1, t.within y.2)) = came x := by
  cases x <;> rfl

theorem came_readMembers_close {rest : Rest s} (hnext : readNext first s = .ok (.close rest)) :
    came (format.readMembers first given record s) =
      if format.isComplete given then some (record, rest.val) else none := by
  unfold readMembers
  rw [hnext]
  show came (if _ then _ else _) = _
  split <;> rfl

theorem came_readMembers_unknown (hnext : GoesOn (readNext first s) name t)
    (hfield : format.fields.find? (·.name == name) = none) (hmark : expectMark ':' t = .ok u)
    (hvalue : Leaves (skipValue u) r) :
    came (format.readMembers first given record s) =
      came (format.readMembers false given record r) := by
  obtain ⟨rest, hnext, rfl⟩ := hnext
  obtain ⟨value, hvalue, rfl⟩ := hvalue
  conv => lhs; unfold readMembers
  rw [hnext]
  simp only [bind, Except.bind, hfield]
  split
  · next hfault => cases hmark.symm.trans hfault
  · next hread =>
      cases hmark.symm.trans hread
      simp only [hvalue]
      exact came_within _

/-- A member that a field asks for is read as its value, unless the field was given before. -/
theorem bare_readMembers_known {field : Field ρ} (hnext : GoesOn (readNext first s) name t)
    (hfield : format.fields.find? (·.name == name) = some field) :
    bare (format.readMembers first given record s) =
      if given.contains name then .error .wrongData
      else expectMark ':' t >>= fun u => field.reader.run u >>= fun x =>
        bare (format.readMembers false (name :: given) (x.1 record) x.2) := by
  obtain ⟨rest, hnext, rfl⟩ := hnext
  conv => lhs; unfold readMembers
  rw [hnext]
  simp only [bind, Except.bind, hfield]
  by_cases hgiven : given.contains name = true
  · simp only [hgiven, if_true]
    rfl
  · simp only [hgiven, Bool.false_eq_true, if_false]
    split
    · next hfault => simp only [hfault]; rfl
    · next u hmark =>
        simp only [hmark]
        split
        · next hfault => simp only [hfault]; rfl
        · next change w hread =>
            simp only [hread]
            exact bare_within _

theorem came_readMembers_known {field : Field ρ} (hnext : GoesOn (readNext first s) name t)
    (hfield : format.fields.find? (·.name == name) = some field)
    (hmark : expectMark ':' t = .ok u) :
    came (format.readMembers first given record s) =
      if given.contains name then none
      else (field.reader.run u).toOption.bind fun x =>
        came (format.readMembers false (name :: given) (x.1 record) x.2) := by
  rw [← toOption_bare, bare_readMembers_known hnext hfield, hmark]
  split
  · rfl
  · show (field.reader.run u >>= fun x => bare _).toOption = _
    rw [toOption_bind]
    simp only [toOption_bare]

/-! ### All members -/

theorem find?_of_nodup (hnames : (format.fields.map (·.name)).Nodup) {done later : List (Field ρ)}
    {field : Field ρ} (hfields : format.fields = done ++ field :: later) :
    format.fields.find? (·.name == field.name) = some field ∧
      (done.map (·.name)).reverse.contains field.name = false := by
  rw [hfields, List.map_append, List.map_cons, List.nodup_append] at hnames
  have hnew : ∀ f ∈ done, f.name ≠ field.name := fun f hf =>
    hnames.2.2 f.name (List.mem_map_of_mem hf) field.name List.mem_cons_self
  refine ⟨?_, ?_⟩
  · rw [hfields, List.find?_append, List.find?_eq_none.mpr (by simpa using hnew)]
    simp
  · simpa using hnew

section Members

variable {ν : Type} {spells : ν → List Char → Prop} {meaning : Field ρ → ν → Option (ρ → ρ)}

/-- What members come to, after those that gave some fields, by what the fields make of values. -/
def ofMembers (format : RecordFormat ρ) (meaning : Field ρ → ν → Option (ρ → ρ)) :
    List String → ρ → List (String × ν) → Option ρ
  | given, record, [] => if format.isComplete given then some record else none
  | given, record, (name, v) :: members =>
    match format.fields.find? (·.name == name) with
    | none => ofMembers format meaning given record members
    | some field =>
      if given.contains name then none
      else (meaning field v).bind fun change =>
        ofMembers format meaning (name :: given) (change record) members

/-- **Members are read as they come**, however they are spelled. -/
theorem came_readMembers (hspells : ∀ v s, spells v s → WellFormed s)
    (hfields : ∀ field ∈ format.fields, field.reader.Reads spells (meaning field))
    {members : List (String × ν)} (h : LaysOut spells first members s) (r : List Char) :
    came (format.readMembers first given record (s ++ r)) =
      (format.ofMembers meaning given record members).map (·, r) := by
  induction h generalizing given record with
  | @close first gap hgap =>
      obtain ⟨hlt, hnext⟩ := readNext_close first
        ((dropBlank_blanks hgap ('}' :: r)).trans (dropBlank_of_not rfl r))
      rw [List.append_assoc]
      refine (came_readMembers_close hnext).trans ?_
      rw [ofMembers]
      split <;> rfl
  | @member first name v members lead n before after w later hlead hname hbefore hafter hv hlater
      ih =>
      let value := after ++ (w ++ (later ++ r))
      have htext : lead ++ (n ++ (before ++ ':' :: (after ++ (w ++ later)))) ++ r =
          lead ++ (n ++ (before ++ ':' :: value)) := by
        simp [value]
      have hnext := readNext_member hlead hname (before ++ ':' :: value)
      have hmark : expectMark ':' (before ++ ':' :: value) = .ok value := by
        rw [expectMark, dropBlank_blanks hbefore]
        rfl
      have hvalue := (hspells v w hv).dropBlank_gap hafter (later ++ r)
      have hend := hlater.endsValue r
      rw [htext, ofMembers]
      cases hfield : format.fields.find? (·.name == name) with
      | none =>
          rw [came_readMembers_unknown hnext hfield hmark
            (skipValue_wellFormed (hspells v w hv) hvalue hend)]
          exact ih
      | some field =>
          have hmem := List.mem_of_find?_eq_some hfield
          rw [came_readMembers_known hnext hfield hmark, hfields field hmem hv hvalue hend]
          by_cases hgiven : given.contains name = true
          · simp only [hgiven, if_true]
            rfl
          · simp only [hgiven, Bool.false_eq_true, if_false]
            cases meaning field v with
            | none => rfl
            | some change => exact ih

/-- **A record is read as its members say**, however they are spelled. -/
theorem toOption_read_object (hspells : ∀ v s, spells v s → WellFormed s)
    (hfields : ∀ field ∈ format.fields, field.reader.Reads spells (meaning field))
    {members : List (String × ν)} (h : LaysOut spells true members s)
    (ht : dropBlank t = '{' :: (s ++ r)) :
    (format.read t).toOption = (format.ofMembers meaning [] format.blank members).map (·, r) := by
  rw [read, ht, ← came_readMembers hspells hfields h r]
  show (format.readMembers true [] format.blank (s ++ r) >>= fun x =>
    pure (x.1, x.2.val)).toOption = _
  cases format.readMembers true [] format.blank (s ++ r) <;> rfl

end Members

/-! ### The values of a list -/

variable {meaning : Field ρ → Value → Option (ρ → ρ)}

/-- What the items of a list come to, by what the fields make of values. -/
def ofItems (meaning : Field ρ → Value → Option (ρ → ρ)) :
    ρ → List (Field ρ) → List Value → Option ρ
  | record, fields, [] => if fields.all (·.absence == .defaulted) then some record else none
  | _, [], _ :: _ => none
  | record, field :: fields, v :: items =>
    (meaning field v).bind fun change => ofItems meaning (change record) fields items

theorem toOption_readListEnd_refused {c : Char} (ht : dropBlank t = c :: u) (hc : c ≠ ']') :
    (readListEnd t).toOption = none := by
  rw [readListEnd, ht]
  split
  · rfl
  · next hs => cases hs; exact (hc rfl).elim
  · rfl

/-- A value where an item may stand is read by its field, behind a comma if it is not the first. -/
theorem readValues_item {v : Value} {w lead : List Char} (field : Field ρ)
    (fields : List (Field ρ)) (hlead : Separates first lead) (hv : v.Spells w) (r : List Char) :
    readValues record first (field :: fields) (lead ++ (w ++ r)) =
      (field.reader.run (w ++ r) >>= fun x => readValues (x.1 record) false fields x.2) := by
  obtain ⟨c, u, rfl, hc⟩ := hv.begins
  have hself : dropBlank (c :: u ++ r) = c :: u ++ r := dropBlank_spells hv r
  have hbracket : c ≠ ']' := by
    rintro rfl
    exact v.not_begins_bracket hc
  rw [readValues]
  cases first with
  | true =>
      rw [hlead.first, hself]
      simp only [List.cons_append, hbracket, if_false, if_true]
  | false =>
      obtain ⟨t, hcomma, ht⟩ := hlead.later (c :: u ++ r)
      rw [hcomma]
      simp only [show (',' : Char) ≠ ']' by decide, Bool.false_eq_true, if_false, if_true, ht,
        hself]
      split
      · next hs => cases hs; exact (hbracket rfl).elim
      · rfl

/-- The values of a list are read in the order of the fields. -/
theorem toOption_readValues {fields : List (Field ρ)}
    (hfields : ∀ field ∈ fields, field.reader.Understands (meaning field)) {items : List Value}
    (h : SpellsItems first items s) (r : List Char) :
    (readValues record first fields (s ++ r) >>= fun x =>
      readListEnd x.2 >>= fun r => pure (x.1, r)).toOption =
      (ofItems meaning record fields items).map (·, r) := by
  induction items generalizing fields first s record with
  | nil =>
      cases h with
      | close hgap =>
          rename_i gap
          have hclose : dropBlank (gap ++ [']'] ++ r) = ']' :: r := by
            rw [List.append_assoc, dropBlank_blanks hgap]
            exact dropBlank_of_not rfl r
          have hend : readListEnd (gap ++ [']'] ++ r) = .ok r := by
            rw [readListEnd, hclose]
            rfl
          have hread : readValues record first fields (gap ++ [']'] ++ r) =
              if fields.all (·.absence == .defaulted) then .ok (record, gap ++ [']'] ++ r)
              else .error .wrongData := by
            cases fields with
            | nil => rfl
            | cons field fields =>
                rw [readValues, hclose]
                rfl
          rw [hread, ofItems]
          split
          · show (readListEnd _ >>= fun r => pure (record, r)).toOption = _
            rw [hend]
            rfl
          · rfl
  | cons v items ih =>
      cases h with
      | @item _ _ _ lead w later hlead hv hlater =>
      rw [List.append_assoc, List.append_assoc]
      cases fields with
      | nil =>
          show (readListEnd _ >>= fun r => pure (record, r)).toOption = none
          obtain ⟨c, u, rfl, hc⟩ := hv.begins
          have hbracket : c ≠ ']' := by
            rintro rfl
            exact v.not_begins_bracket hc
          rw [toOption_bind]
          cases first with
          | true =>
              have htext := (hlead.first _).trans (dropBlank_spells hv (later ++ r))
              rw [toOption_readListEnd_refused htext hbracket]
              rfl
          | false =>
              obtain ⟨t, hcomma, -⟩ := hlead.later (c :: u ++ (later ++ r))
              rw [toOption_readListEnd_refused hcomma (by decide)]
              rfl
      | cons field fields =>
          have hread := hfields field List.mem_cons_self hv (dropBlank_spells hv (later ++ r))
            (hlater.wellFormed.endsValue r)
          rw [readValues_item field fields hlead hv, bind_assoc, toOption_bind, hread, ofItems]
          cases meaning field v with
          | none => rfl
          | some change =>
              exact ih (fun f hf => hfields f (List.mem_cons_of_mem _ hf)) hlater

/-! ### Records -/

/-- The record that a value is, by what the fields make of values. -/
def ofValue? (format : RecordFormat ρ) (meaning : Field ρ → Value → Option (ρ → ρ)) :
    Value → Option ρ
  | .object members => format.ofMembers meaning [] format.blank members
  | .list items => ofItems meaning format.blank format.fields items
  | _ => none

/-- **A record is read as its value says**, if every field is. -/
theorem understands_record
    (hfields : ∀ field ∈ format.fields, field.reader.Understands (meaning field)) :
    format.toFormat.reader.Understands (format.ofValue? meaning) := by
  intro v s t r hv ht _
  show (format.read t).toOption = _
  cases hv with
  | object hmembers =>
      exact toOption_read_object (fun _ _ hv => hv.wellFormed) hfields hmembers.laysOut ht
  | list hitems =>
      rw [read, ht]
      exact toOption_readValues hfields hitems r
  | flag b => rw [read, ht]; cases b <;> rfl
  | number hn =>
      rw [read, ht]
      obtain ⟨c, u, rfl, hc⟩ := hn.begins
      split
      · next hs => cases hs; exact absurd hc (by decide)
      · next hs => cases hs; exact absurd hc (by decide)
      · rfl
  | null | string => rw [read, ht]; rfl

end RecordFormat

end CallLifecycle.Json

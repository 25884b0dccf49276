/-
What is read as a record was laid out as one.

Reading keeps neither the members that no field asks for nor the way in which the others are
spelled.  But it does not succeed without them: from a record that was read the members of its
object come back, or the items of its list, with the text that they take and no more.  What a
field's reader takes must be of some kind of values for that.

Together with the other direction, that a record is read as its members say, this settles which
texts are read as which records.
-/
import Mathlib.Data.List.DropRight
import CallLifecycle.Proofs.Members
import CallLifecycle.Proofs.Recognizing

namespace CallLifecycle.Json

variable {s t r : List Char}

/-! ### Values that are read -/

/-- What a reader takes off a text spells a value of some kind. -/
def Reader.Recognizes {α : Type} (reader : Reader α) (kind : Value → Prop) : Prop :=
  ∀ ⦃s r : List Char⦄ ⦃a : α⦄, reader.run s = .ok (a, r) →
    ∃ v w, kind v ∧ v.Spells w ∧ dropBlank s = w ++ r

theorem Reader.Recognizes.map {α β : Type} {reader : Reader α} {kind : Value → Prop}
    (h : reader.Recognizes kind) (f : α → β) : (reader.map f).Recognizes kind := by
  intro s r b hrun
  obtain ⟨⟨a, t⟩, hread, hb⟩ := bind_eq_ok.1 hrun
  cases hb
  exact h hread

theorem recognizes_flag : Format.flag.reader.Recognizes fun v => ∃ on, .flag on = v := by
  intro s r b h
  replace h : readFlag s = .ok (b, r) := h
  unfold readFlag at h
  split at h
  · next hs =>
      obtain ⟨t, hword, h⟩ := bind_eq_ok.1 h
      cases h
      exact ⟨_, _, ⟨true, rfl⟩, .flag true, hs.trans (congrArg _ (eq_of_expectWord hword))⟩
  · next hs =>
      obtain ⟨t, hword, h⟩ := bind_eq_ok.1 h
      cases h
      exact ⟨_, _, ⟨false, rfl⟩, .flag false, hs.trans (congrArg _ (eq_of_expectWord hword))⟩
  · cases h

/-! ### Members -/

namespace RecordFormat

variable {ρ : Type} {format : RecordFormat ρ} {kind : Value → Prop}

theorem name_of_readName {next : Next s} {hle : t.length ≤ s.length}
    (h : readName s t hle = .ok next) :
    ∃ name rest n, next = .name name rest ∧ SpellsName name n ∧ t = n ++ rest.val := by
  unfold readName at h
  split at h
  · cases h
  · next c u =>
    split at h
    · next hc =>
      subst hc
      split at h
      · cases h
      · next cs v hread =>
          cases h
          obtain ⟨w, hw, rfl⟩ := spellsLetters_of_readString hread
          refine ⟨_, _, _, rfl, ⟨w, ?_, rfl⟩, by simp⟩
          rwa [String.toList_ofList]
    · cases h

/-- Reading on to the next member comes to the closing brace, or to a name where one may stand. -/
theorem next_of_readNext {first : Bool} {next : Next s} (h : readNext first s = .ok next) :
    (∃ rest, next = .close rest ∧ dropBlank s = '}' :: rest.val) ∨
      ∃ name rest t n, next = .name name rest ∧ (if first then t = s else dropBlank s = ',' :: t) ∧
        SpellsName name n ∧ dropBlank t = n ++ rest.val := by
  unfold readNext at h
  split at h
  · cases h
  · next hclose =>
      cases h
      exact .inl ⟨_, rfl, hclose⟩
  · next c u _ hs =>
    refine .inr ?_
    simp only at h
    split at h
    · next hfirst =>
        obtain ⟨name, rest, n, hnext, hn, ht⟩ := name_of_readName h
        exact ⟨name, rest, s, n, hnext, by rw [if_pos hfirst], hn, hs.trans ht⟩
    · next hlater =>
      split at h
      · next hcomma =>
          subst hcomma
          obtain ⟨name, rest, n, hnext, hn, ht⟩ := name_of_readName h
          exact ⟨name, rest, u, n, hnext, by rw [if_neg hlater, hs], hn, ht⟩
      · cases h

/-- A member stands where a text goes on, and `w` is left behind it. -/
def StandsBefore (first : Bool) (s w : List Char) : Prop :=
  ∃ name value lead n before after, Separates first lead ∧ SpellsName name n ∧
    before.all isBlank = true ∧ after.all isBlank = true ∧ WellFormed value ∧
    s = lead ++ (n ++ (before ++ ':' :: (after ++ (value ++ w))))

theorem StandsBefore.length_lt {first : Bool} {w : List Char} (h : StandsBefore first s w) :
    w.length < s.length := by
  obtain ⟨-, value, lead, n, before, after, -, -, -, -, -, rfl⟩ := h
  simp only [List.length_append, List.length_cons]
  omega

theorem StandsBefore.laysOut {first : Bool} {w u : List Char} {members : List (String × List Char)}
    (h : StandsBefore first s w) (hlater : LaysOut Verbatim false members u) (hw : w = u ++ r) :
    ∃ members u, LaysOut Verbatim first members u ∧ s = u ++ r := by
  obtain ⟨name, value, lead, n, before, after, hlead, hn, hbefore, hafter, hvalue, rfl⟩ := h
  exact ⟨_, _, .member hlead hn hbefore hafter ⟨hvalue, rfl⟩ hlater, by simp [hw]⟩

/-- A name was read, and a value was passed over or read. -/
theorem standsBefore_of_read (hfields : ∀ field ∈ format.fields, field.reader.Recognizes kind)
    {first : Bool} {name : String} {n u v w : List Char}
    (hs : if first then t = s else dropBlank s = ',' :: t) (hn : SpellsName name n)
    (ht : dropBlank t = n ++ u) (hmark : expectMark ':' u = .ok v)
    (htaken : Leaves (skipValue v) w ∨
      ∃ field ∈ format.fields, ∃ change, field.reader.run v = .ok (change, w)) :
    StandsBefore first s w := by
  have hstands : ∃ value, WellFormed value ∧ dropBlank v = value ++ w := by
    rcases htaken with hskip | ⟨field, hfield, change, hrun⟩
    · exact wellFormed_of_skipValue hskip
    · obtain ⟨_, value, -, hvalue, hv⟩ := hfields field hfield hrun
      exact ⟨value, hvalue.wellFormed, hv⟩
  obtain ⟨value, hvalue, hv⟩ := hstands
  obtain ⟨before, hbefore, rfl⟩ := gap_of_expectMark hmark
  obtain ⟨after, hafter, rfl⟩ := gap_of_dropBlank hv
  obtain ⟨lead, hlead, rfl⟩ := separates_of_dropBlank hs ht
  exact ⟨name, value, lead, n, before, after, hlead, hn, hbefore, hafter, hvalue, rfl⟩

/-- Reading members comes to the closing brace, or past a member to the others. -/
theorem readMembers_cases (hfields : ∀ field ∈ format.fields, field.reader.Recognizes kind)
    {first : Bool} {given : List String} {record a : ρ} {rest : Rest s}
    (h : format.readMembers first given record s = .ok (a, rest)) :
    dropBlank s = '}' :: rest.val ∨ ∃ w, StandsBefore first s w ∧
      ∃ given record later, format.readMembers false given record w = .ok (a, later) ∧
        later.val = rest.val := by
  unfold readMembers at h
  obtain ⟨next, hnext, h⟩ := bind_eq_ok.1 h
  rcases next_of_readNext hnext with ⟨u, rfl, hclose⟩ | ⟨name, u, t, n, rfl, hs, hn, ht⟩
  · simp only at h
    split at h
    · cases h
      exact .inl hclose
    · cases h
  · refine .inr ?_
    simp only at h
    split at h
    · split at h
      · cases h
      · next v hmark =>
          obtain ⟨w, hskip, h⟩ := bind_eq_ok.1 h
          rw [pure_bind] at h
          obtain ⟨⟨b, later⟩, hlater, h⟩ := bind_eq_ok.1 h
          cases h
          exact ⟨_, standsBefore_of_read hfields hs hn ht hmark (.inl ⟨w, hskip, rfl⟩), _, _, later,
            hlater, rfl⟩
    · next field hfind =>
      have hfield := List.mem_of_find?_eq_some hfind
      split at h
      · cases h
      · split at h
        · cases h
        · next v hmark =>
          split at h
          · cases h
          · next change w hrun =>
              obtain ⟨⟨b, later⟩, hlater, h⟩ := bind_eq_ok.1 h
              cases h
              exact ⟨w,
                standsBefore_of_read hfields hs hn ht hmark (.inr ⟨field, hfield, change, hrun⟩),
                _, _, later, hlater, rfl⟩

/-- **What is read as members is laid out as some**, and their values are well formed. -/
theorem laysOut_of_readMembers (hfields : ∀ field ∈ format.fields, field.reader.Recognizes kind)
    {first : Bool} {given : List String} {record a : ρ} {s : List Char} {rest : Rest s}
    (h : format.readMembers first given record s = .ok (a, rest)) :
    ∃ members w, LaysOut Verbatim first members w ∧ s = w ++ rest.val := by
  rcases readMembers_cases hfields h with
    hclose | ⟨w, hstands, given, record, later, hlater, hrest⟩
  · obtain ⟨gap, hgap, hs⟩ := gap_of_dropBlank hclose
    exact ⟨[], _, .close hgap, by simpa using hs⟩
  · have hlt := hstands.length_lt
    obtain ⟨members, u, hmembers, hw⟩ := laysOut_of_readMembers hfields hlater
    exact hstands.laysOut hmembers (hw.trans (congrArg _ hrest))
termination_by s.length

/-! ### Items -/

theorem dropBlank_dropBlank (s : List Char) : dropBlank (dropBlank s) = dropBlank s :=
  List.dropWhile_idempotent isBlank s

/-- Reading values stops where it is, or comes to an item and then to the others. -/
theorem readValues_cases {first : Bool} {record a : ρ} {field : Field ρ} {fields : List (Field ρ)}
    (h : readValues record first (field :: fields) s = .ok (a, t)) :
    s = t ∨ ∃ u change v, (if first then u = s else dropBlank s = ',' :: u) ∧
      field.reader.run (dropBlank u) = .ok (change, v) ∧
      readValues (change record) false fields v = .ok (a, t) := by
  unfold readValues at h
  split at h
  · cases h
  · next c u hs =>
    split at h
    · split at h
      · cases h
        exact .inl rfl
      · cases h
    split at h
    · next hfirst =>
        obtain ⟨⟨change, v⟩, hrun, h⟩ := bind_eq_ok.1 h
        exact .inr ⟨s, change, v, by rw [if_pos hfirst], hs ▸ hrun, h⟩
    · next hlater =>
      split at h
      · next hcomma =>
        subst hcomma
        split at h
        · cases h
        · obtain ⟨⟨change, v⟩, hrun, h⟩ := bind_eq_ok.1 h
          exact .inr ⟨u, change, v, by rw [if_neg hlater, hs], hrun, h⟩
      · cases h

/-- What is read as the values of a list is its items, up to the closing bracket. -/
theorem spellsItems_of_readValues {fields : List (Field ρ)}
    (hfields : ∀ field ∈ fields, field.reader.Recognizes kind) {first : Bool} {record a : ρ}
    (h : readValues record first fields s = .ok (a, t)) (hend : readListEnd t = .ok r) :
    ∃ items w, SpellsItems first items w ∧ items.length ≤ fields.length ∧ (∀ v ∈ items, kind v) ∧
      s = w ++ r := by
  have hclose : dropBlank t = ']' :: r := by
    unfold readListEnd at hend
    split at hend
    · cases hend
    · next hs => cases hend; exact hs
    · cases hend
  obtain ⟨gap, hgap, rfl⟩ := gap_of_dropBlank hclose
  induction fields generalizing first record s with
  | nil =>
      cases h
      exact ⟨[], _, .close hgap, Nat.le_refl _, List.forall_mem_nil _, by simp⟩
  | cons field fields ih =>
      rcases readValues_cases h with rfl | ⟨u, change, v, hs, hrun, hread⟩
      · exact ⟨[], _, .close hgap, Nat.zero_le _, List.forall_mem_nil _, by simp⟩
      · obtain ⟨value, w, hkind, hw, hu⟩ := hfields field List.mem_cons_self hrun
        obtain ⟨items, later, hlater, hlength, hkinds, rfl⟩ :=
          ih (fun f hf => hfields f (List.mem_cons_of_mem _ hf)) hread
        rw [dropBlank_dropBlank] at hu
        obtain ⟨lead, hlead, rfl⟩ := separates_of_dropBlank hs hu
        exact ⟨_, _, .item hlead hw hlater, Nat.succ_le_succ hlength,
          List.forall_mem_cons.mpr ⟨hkind, hkinds⟩, by simp⟩

end RecordFormat

end CallLifecycle.Json

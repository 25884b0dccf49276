/-
What is written is read back.

Reading is more liberal than writing, so the law goes one way: what a format writes of a value is
taken off the front of a text and gives that value again.  To hold of a value inside another, the
law says what may stand around it.  Blanks may precede, and so none comes first in what is written.
What follows must be able to end a value, since a number goes on for as long as there are digits.

For values that stand alone it is a matter of spelling: what is written spells a value, and a reader
goes by the value.  A field gives back no value but a change to the record.  So a record is read
back if each field gives the change that it should, and if these changes, one after the other, make
the record out of the blank one.  Blanks only lay the object out, and the proof is the same for
every layout.
-/
import Mathlib.Data.List.Forall2
import CallLifecycle.Proofs.Members

namespace CallLifecycle.Json

/-! ### Formats -/

/-- A format reads back what it writes: after blanks, and before whatever may follow a value. -/
structure Format.Faithful {α : Type} (format : Format α) : Prop where
  /-- No blank comes first. -/
  starts : ∀ a r, dropBlank (format.write a ++ r) = format.write a ++ r
  reads : ∀ {a s r}, dropBlank s = format.write a ++ r → endsValue r = true →
    format.reader.run s = .ok (a, r)

/-- What is written spells a value other than null that means what was written. -/
def Format.WritesMeaning {α : Type} (format : Format α) (meaning : Value → Option α) : Prop :=
  ∀ a, ∃ v : Value, v.Spells (format.write a) ∧ meaning v = some a ∧ v ≠ .null

section Faithful

variable {α : Type} {format : Format α} {meaning : Value → Option α}

theorem Format.faithful_of_spells (h : format.reader.Understands meaning)
    (hwrite : ∀ a, ∃ v : Value, v.Spells (format.write a) ∧ meaning v = some a) :
    format.Faithful where
  starts a r := by
    obtain ⟨v, hv, -⟩ := hwrite a
    exact dropBlank_spells hv r
  reads {a s r} hs hr := by
    obtain ⟨v, hv, hmeaning⟩ := hwrite a
    refine eq_ok_of_toOption ?_
    rw [h hv hs hr, hmeaning]
    rfl

theorem Format.WritesMeaning.faithful (hwrite : format.WritesMeaning meaning)
    (h : format.reader.Understands meaning) : format.Faithful :=
  Format.faithful_of_spells h fun a =>
    (hwrite a).imp fun _ hv => ⟨hv.1, hv.2.1⟩

/-- Since nothing is written as null but nothing, what may be missing is read back. -/
theorem Format.WritesMeaning.faithful_optional (hwrite : format.WritesMeaning meaning)
    (h : format.reader.Understands meaning) : (Format.optional format).Faithful := by
  refine Format.faithful_of_spells (understands_optional h) fun a? => ?_
  cases a? with
  | none => exact ⟨.null, .null, rfl⟩
  | some a =>
      obtain ⟨v, hv, hmeaning, hnull⟩ := hwrite a
      refine ⟨v, hv, ?_⟩
      cases v with
      | null => exact (hnull rfl).elim
      | flag | number | string | list | object =>
          rw [Value.optional?, hmeaning]
          · rfl
          · nofun

end Faithful

theorem writesMeaning_word : Format.word.WritesMeaning Value.word? := fun w =>
  ⟨_, spells_chars w.toNat, congrArg Except.toOption (toWord_plainNumeral w), nofun⟩

theorem writesMeaning_string :
    Format.string.WritesMeaning fun v => v.characters?.map String.ofList := fun s =>
  ⟨_, spells_quoted s.toList, by simp [Value.characters?], nofun⟩

theorem writesMeaning_choice {α : Type} [Vocabulary α] :
    (Format.choice : Format α).WritesMeaning Value.choice? := fun a =>
  ⟨_, spells_quoted (Vocabulary.name a).toList, by simp [Value.choice?], nofun⟩

theorem Format.faithful_flag : Format.flag.Faithful :=
  Format.faithful_of_spells understands_flag fun b => ⟨.flag b, .flag b, rfl⟩

/-! ### Objects that are written -/

/-- Reading what a field writes of `a` back gives the change `change`. -/
structure Field.Rereads {ρ : Type} (a : ρ) (field : Field ρ) (change : ρ → ρ) : Prop where
  starts : ∀ r, dropBlank (field.write a ++ r) = field.write a ++ r
  reads : ∀ {s r}, dropBlank s = field.write a ++ r → endsValue r = true →
    field.reader.run s = .ok (change, r)

theorem Field.rereads_of {ρ α : Type} {format : Format α} (h : format.Faithful) (name : String)
    (get : ρ → α) (set : α → ρ → ρ) (absence : Absence) (a : ρ) :
    (Field.of name format get set absence).Rereads a (set (get a)) where
  starts := h.starts (get a)
  reads {s r} hs hr := by
    show (format.reader.run s >>= fun x => _) = _
    rw [h.reads hs hr]
    rfl

/-- The blanks that an object is laid out with. -/
structure Layout where
  /-- What precedes each name. -/
  lead : List Char
  /-- What stands between a colon and its value. -/
  gap : List Char
  /-- What precedes the closing brace. -/
  tail : List Char
  blank_lead : lead.all isBlank = true
  blank_gap : gap.all isBlank = true
  blank_tail : tail.all isBlank = true

/-- A line for each member. -/
def Layout.lines : Layout where
  lead := ['\n', ' ', ' ']
  gap := [' ']
  tail := ['\n']
  blank_lead := rfl
  blank_gap := rfl
  blank_tail := rfl

theorem Layout.separates (layout : Layout) (first : Bool) :
    Separates first ((if first then [] else [',']) ++ layout.lead) :=
  ⟨[], layout.lead, rfl, layout.blank_lead, rfl⟩

namespace RecordFormat

variable {ρ : Type} (a : ρ)

/-- The members of an object that come from some fields, and the closing brace. -/
def spelled (layout : Layout) : Bool → List (Field ρ) → List Char
  | _, [] => layout.tail ++ ['}']
  | first, field :: fields =>
    (if first then [] else [',']) ++ layout.lead ++ quoted field.name.toList ++
      ':' :: layout.gap ++ field.write a ++ spelled layout false fields

/-- An object with a line for each field is spelled so. -/
theorem spelled_lines (field : Field ρ) (fields : List (Field ρ)) :
    '\n' :: [',', '\n'].intercalate ((field :: fields).map fun f =>
        ' ' :: ' ' :: quoted f.name.toList ++ ':' :: ' ' :: f.write a) ++ ['\n', '}'] =
      spelled a .lines true (field :: fields) := by
  induction fields generalizing field with
  | nil => simp [spelled, Layout.lines]
  | cons next fields ih =>
      simpa [spelled, Layout.lines] using ih next

variable {format : RecordFormat ρ} {s r : List Char}

/-! ### Objects that are read back -/

/-- A record's format reads back what it writes if each field gives the change that it should. -/
structure Faithful (format : RecordFormat ρ) : Prop where
  nodup_names : (format.fields.map (·.name)).Nodup
  rereads : ∀ a, ∃ changes, List.Forall₂ (Field.Rereads a) format.fields changes ∧
    changes.foldl (fun b change => change b) format.blank = a

theorem endsValue_spelled (layout : Layout) (fields : List (Field ρ)) (r : List Char) :
    endsValue (spelled a layout false fields ++ r) = true := by
  cases fields with
  | nil =>
      rw [spelled, List.append_assoc]
      cases htail : layout.tail with
      | nil => rfl
      | cons c cs =>
          have hblank := layout.blank_tail
          rw [htail, List.all_cons, Bool.and_eq_true] at hblank
          simp [endsValue, hblank.1]
  | cons field fields => rfl

/-- Members are read back one after the other, each with the change that its field gives.

The induction is on the fields that are left; the names given so far are those of the fields that
are `done`, last first. -/
theorem came_spelled (layout : Layout) (hnames : (format.fields.map (·.name)).Nodup)
    (r : List Char) {fields : List (Field ρ)} {changes : List (ρ → ρ)}
    (hchanges : List.Forall₂ (Field.Rereads a) fields changes) :
    ∀ (done : List (Field ρ)) (first : Bool) (record : ρ), format.fields = done ++ fields →
      came (format.readMembers first (done.map (·.name)).reverse record
          (spelled a layout first fields ++ r)) =
        some (changes.foldl (fun b change => change b) record, r) := by
  induction hchanges with
  | nil =>
      intro done first record hfields
      have hbrace : dropBlank (spelled a layout first [] ++ r) = '}' :: r := by
        rw [spelled, List.append_assoc, dropBlank_blanks layout.blank_tail]
        exact dropBlank_of_not rfl _
      obtain ⟨hlt, hnext⟩ := readNext_close first hbrace
      refine (came_readMembers_close hnext).trans (if_pos ?_)
      rw [isComplete, hfields, List.append_nil]
      simp only [List.all_eq_true, Bool.or_eq_true, List.contains_iff_mem, List.mem_reverse]
      exact fun f hf => .inr (List.mem_map_of_mem hf)
  | cons hfield hlater ih =>
      next field change fields changes =>
      intro done first record hfields
      obtain ⟨hfind, hnew⟩ := find?_of_nodup hnames hfields
      let after := spelled a layout false fields ++ r
      have hvalue : field.reader.run (layout.gap ++ (field.write a ++ after)) =
          .ok (change, after) := by
        refine hfield.reads ?_ (endsValue_spelled a layout fields r)
        rw [dropBlank_blanks layout.blank_gap, hfield.starts]
      have hrest := ih (done ++ [field]) false (change record)
        (by rw [hfields, List.append_assoc]; rfl)
      rw [List.map_append, List.reverse_append] at hrest
      have htext : spelled a layout first (field :: fields) ++ r =
          ((if first then [] else [',']) ++ layout.lead) ++ (quoted field.name.toList ++
            ':' :: (layout.gap ++ (field.write a ++ after))) := by
        simp [spelled, after]
      rw [htext]
      have hnext := readNext_member (layout.separates first) (spellsName_quoted field.name)
        (':' :: (layout.gap ++ (field.write a ++ after)))
      rw [came_readMembers_known hnext hfind rfl, hvalue, hnew]
      exact hrest

/-- **A record is read back from its object**, however the object is laid out. -/
theorem read_spelled (hformat : format.Faithful) (layout : Layout)
    (hs : dropBlank s = '{' :: (spelled a layout true format.fields ++ r)) :
    format.read s = .ok (a, r) := by
  obtain ⟨changes, hchanges, hlast⟩ := hformat.rereads a
  have hmembers := came_spelled a layout hformat.nodup_names r hchanges [] true format.blank rfl
  rw [hlast, List.map_nil, List.reverse_nil] at hmembers
  rw [read, hs]
  refine eq_ok_of_toOption (Eq.trans ?_ hmembers)
  show (format.readMembers true [] format.blank _ >>= fun x => pure (x.1, x.2.val)).toOption = _
  cases format.readMembers true [] format.blank _ <;> rfl

theorem decode_spelled (hformat : format.Faithful) (layout : Layout) :
    format.toFormat.decode (String.ofList ('{' :: spelled a layout true format.fields)) =
      .ok a := by
  have hread : format.toFormat.reader.run
      (String.ofList ('{' :: spelled a layout true format.fields)).toList = .ok (a, []) := by
    have hbrace : dropBlank ('{' :: spelled a layout true format.fields) =
        '{' :: (spelled a layout true format.fields ++ []) := by
      rw [List.append_nil]
      exact dropBlank_of_not rfl _
    rw [String.toList_ofList]
    exact read_spelled a hformat layout hbrace
  rw [Format.decode, hread]
  rfl

/-- **A record with a line for each field is read back.** -/
theorem decode_writeLines (hformat : format.Faithful) (hsome : format.fields ≠ []) :
    format.toFormat.decode (String.ofList (format.writeLines a)) = .ok a := by
  obtain ⟨field, fields, hfields⟩ := List.exists_cons_of_ne_nil hsome
  have htext : format.writeLines a = '{' :: spelled a .lines true format.fields := by
    rw [writeLines, hfields, ← spelled_lines]
    rfl
  rw [htext]
  exact decode_spelled a hformat .lines

end RecordFormat

end CallLifecycle.Json

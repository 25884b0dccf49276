/-
Which members a record is read from, and what they make of it.

The members of an object come to a record exactly if no field is given twice, if every field is
given that must be, and if the value of each is one that its field reads.  Nothing else counts:
neither the order of members, nor members that no field asks for.

For the order not to count, the changes that two fields make must be the same in either order; for a
record to say what its members say, a change that is made once more must change nothing.
-/
import Mathlib.Data.List.Nodup
import Mathlib.Data.List.Pairwise
import CallLifecycle.Proofs.Members

namespace CallLifecycle.Json

/-! ### What a reader makes of a value -/

namespace Reader

variable {α β : Type}

/-- Some text that is this value and no more is read as `a`. -/
def Takes (reader : Reader α) (v : Value) (a : α) : Prop :=
  ∃ s, v.Spells s ∧ reader.run s = .ok (a, [])

/-- Some text that is this value and no more is read. -/
def Accepts (reader : Reader α) (v : Value) : Prop :=
  ∃ a, reader.Takes v a

open scoped Classical in
/-- What a value is read as, in some text that is this value and no more. -/
noncomputable def meaning (reader : Reader α) (v : Value) : Option α :=
  if h : reader.Accepts v then some h.choose else none

variable {reader : Reader α} {v : Value} {a : α}

theorem takes_of_meaning (h : reader.meaning v = some a) : reader.Takes v a := by
  unfold meaning at h
  split at h
  · next hsome =>
      cases h
      exact hsome.choose_spec
  · cases h

theorem isSome_meaning : (reader.meaning v).isSome = true ↔ reader.Accepts v := by
  unfold meaning
  split <;> simp_all

/-- A reader that understands values takes a value as what it makes of it. -/
theorem Understands.takes_iff {meaning : Value → Option α} (h : reader.Understands meaning)
    {s : List Char} (hv : v.Spells s) : reader.Takes v a ↔ meaning v = some a := by
  have hself : ∀ {s : List Char}, v.Spells s → (reader.run s).toOption = (meaning v).map (·, []) :=
    fun {s} hs => h hs (by simpa using dropBlank_spells hs []) rfl
  constructor
  · rintro ⟨t, ht, hrun⟩
    have hread := hself ht
    rw [hrun] at hread
    cases hmeaning : meaning v with
    | none => rw [hmeaning] at hread; cases hread
    | some b => rw [hmeaning] at hread; cases hread; rfl
  · intro hmeaning
    refine ⟨s, hv, eq_ok_of_toOption ?_⟩
    rw [hself hv, hmeaning]
    rfl

theorem Understands.canonical {meaning : Value → Option α} (h : reader.Understands meaning) :
    reader.Understands reader.meaning := by
  intro v s t r hv ht hr
  have hsame : reader.meaning v = meaning v := by
    refine Option.ext fun a => ?_
    rw [← h.takes_iff hv]
    constructor
    · exact takes_of_meaning
    · intro htakes
      cases hmeaning : reader.meaning v with
      | none =>
          have haccepts := isSome_meaning.mpr ⟨a, htakes⟩
          rw [hmeaning] at haccepts
          cases haccepts
      | some b =>
          have hb := (h.takes_iff hv).mp (takes_of_meaning hmeaning)
          have ha := (h.takes_iff hv).mp htakes
          exact hb.symm.trans ha
  rw [hsame]
  exact h hv ht hr

/-- What a reader that is mapped takes a value as. -/
theorem takes_map (f : α → β) {b : β} :
    (reader.map f).Takes v b ↔ ∃ a, reader.Takes v a ∧ b = f a := by
  constructor
  · rintro ⟨s, hs, hrun⟩
    obtain ⟨⟨a, r⟩, hread, hb⟩ := bind_eq_ok.1 hrun
    cases hb
    exact ⟨a, ⟨s, hs, hread⟩, rfl⟩
  · rintro ⟨a, ⟨s, hs, hread⟩, rfl⟩
    exact ⟨s, hs, bind_eq_ok.2 ⟨(a, []), hread, rfl⟩⟩

end Reader

/-- A text is decoded as what its value is. -/
theorem toOption_decode {α : Type} {format : Format α} {meaning : Value → Option α}
    (h : format.reader.Understands meaning) {v : Value} {text : String} (ht : v.IsText text) :
    (format.decode text).toOption = meaning v := by
  obtain ⟨before, s, after, hs, hbefore, hafter, htext⟩ := ht
  have hend : endsValue after = true := by simpa using endsValue_blanks hafter (s := []) rfl
  have hblank : dropBlank after = [] :=
    dropBlank_eq_nil_iff.mpr hafter
  rw [Format.decode, toOption_bind, htext, h hs (dropBlank_gap_spells hs hbefore after) hend]
  cases meaning v with
  | none => rfl
  | some a =>
      show (if dropBlank after = [] then Except.ok a else _).toOption = some a
      rw [if_pos hblank]
      rfl

/-- Some text that is this value, with blanks around it, is decoded as `a`. -/
def Format.Decodes {α : Type} (format : Format α) (v : Value) (a : α) : Prop :=
  ∃ text, v.IsText text ∧ format.decode text = .ok a

/-- What a reader takes a value as is what texts of the value are decoded as. -/
theorem Reader.takes_iff_decodes {α : Type} {format : Format α} {meaning : Value → Option α}
    (h : format.reader.Understands meaning) {v : Value} {a : α} :
    format.reader.Takes v a ↔ format.Decodes v a := by
  constructor
  · rintro ⟨s, hs, hrun⟩
    have ht : v.IsText (String.ofList s) := ⟨[], s, [], hs, rfl, rfl, by simp⟩
    have hmeaning := (h.takes_iff hs).mp ⟨s, hs, hrun⟩
    exact ⟨_, ht, eq_ok_of_toOption ((toOption_decode h ht).trans hmeaning)⟩
  · rintro ⟨text, ht, hread⟩
    have hmeaning := toOption_decode h ht
    rw [hread] at hmeaning
    obtain ⟨-, s, -, hs, -⟩ := ht
    exact (h.takes_iff hs).mpr hmeaning.symm

/-! ### What members come to -/

namespace RecordFormat

variable {ρ ν : Type} {format : RecordFormat ρ} {meaning : Field ρ → ν → Option (ρ → ρ)}
  {given : List String} {record a : ρ} {members : List (String × ν)}

/-- No field is given twice, and none is left out that must be given; `given` were given before. -/
structure Fits (format : RecordFormat ρ) (meaning : Field ρ → ν → Option (ρ → ρ))
    (given : List String) (members : List (String × ν)) : Prop where
  once : ∀ field ∈ format.fields, (given ++ members.map (·.1)).count field.name ≤ 1
  complete : ∀ field ∈ format.fields, field.absence = .required →
    field.name ∈ given ++ members.map (·.1)
  valid : ∀ field ∈ format.fields, ∀ v, (field.name, v) ∈ members →
    (meaning field v).isSome = true

theorem fits_nil (hgiven : given.Nodup) :
    format.Fits meaning given [] ↔ format.isComplete given = true := by
  rw [isComplete, List.all_eq_true]
  constructor
  · intro h field hfield
    by_cases habsence : field.absence = .required
    · have hmem := h.complete field hfield habsence
      simp_all
    · simp [habsence]
  · intro h
    refine ⟨fun field _ => ?_, fun field hfield habsence => ?_, fun _ _ _ hmem => ?_⟩
    · simpa using List.nodup_iff_count_le_one.mp hgiven field.name
    · simpa [habsence] using h field hfield
    · cases hmem

/-- A member that no field asks for does not count. -/
theorem fits_unknown {name : String} (v : ν)
    (hfield : format.fields.find? (·.name == name) = none) :
    format.Fits meaning given ((name, v) :: members) ↔ format.Fits meaning given members := by
  have hother : ∀ field ∈ format.fields, field.name ≠ name := by simpa using hfield
  have hcount : ∀ field ∈ format.fields, (given ++ ((name, v) :: members).map (·.1)).count
      field.name = (given ++ members.map (·.1)).count field.name := by
    intro field hmem
    simp [List.count_append, (hother field hmem).symm]
  have hname : ∀ field ∈ format.fields, field.name ∈ given ++ ((name, v) :: members).map (·.1) ↔
      field.name ∈ given ++ members.map (·.1) := by
    intro field hmem
    simp [hother field hmem]
  have hvalue : ∀ field ∈ format.fields, ∀ w, (field.name, w) ∈ (name, v) :: members ↔
      (field.name, w) ∈ members := by
    intro field hmem w
    simp [hother field hmem]
  constructor
  · intro h
    exact ⟨fun f hf => hcount f hf ▸ h.once f hf,
      fun f hf habsence => (hname f hf).mp (h.complete f hf habsence),
      fun f hf w hw => h.valid f hf w ((hvalue f hf w).mpr hw)⟩
  · intro h
    exact ⟨fun f hf => hcount f hf ▸ h.once f hf,
      fun f hf habsence => (hname f hf).mpr (h.complete f hf habsence),
      fun f hf w hw => h.valid f hf w ((hvalue f hf w).mp hw)⟩

/-- A member that a field asks for counts as given from then on, and its value must be one. -/
theorem fits_known (hnames : (format.fields.map (·.name)).Nodup) {field : Field ρ}
    (hfield : field ∈ format.fields) (v : ν) (hnew : field.name ∉ given) :
    format.Fits meaning given ((field.name, v) :: members) ↔
      (meaning field v).isSome = true ∧ format.Fits meaning (field.name :: given) members := by
  have hperm : (given ++ ((field.name, v) :: members).map (·.1)).Perm
      (field.name :: given ++ members.map (·.1)) := List.perm_middle
  constructor
  · intro h
    exact ⟨h.valid field hfield v List.mem_cons_self,
      fun f hf => hperm.count_eq f.name ▸ h.once f hf,
      fun f hf habsence => hperm.mem_iff.mp (h.complete f hf habsence),
      fun f hf w hw => h.valid f hf w (List.mem_cons_of_mem _ hw)⟩
  · rintro ⟨hv, h⟩
    refine ⟨fun f hf => hperm.count_eq f.name ▸ h.once f hf,
      fun f hf habsence => hperm.mem_iff.mpr (h.complete f hf habsence), fun f hf w hw => ?_⟩
    rcases List.mem_cons.mp hw with hhead | hlater
    · obtain ⟨hname, rfl⟩ := Prod.mk.inj hhead
      obtain rfl : f = field := List.inj_on_of_nodup_map hnames hf hfield hname
      exact hv
    · exact h.valid f hf w hlater

/-- **Members come to a record exactly if they fit.** -/
theorem isSome_ofMembers (hnames : (format.fields.map (·.name)).Nodup) (hgiven : given.Nodup) :
    (format.ofMembers meaning given record members).isSome = true ↔
      format.Fits meaning given members := by
  induction members generalizing given record with
  | nil =>
      rw [fits_nil hgiven, ofMembers]
      split <;> simp_all
  | cons member members ih =>
      obtain ⟨name, v⟩ := member
      rw [ofMembers]
      cases hfield : format.fields.find? (·.name == name) with
      | none => exact (ih hgiven).trans (fits_unknown v hfield).symm
      | some field =>
          have hmem := List.mem_of_find?_eq_some hfield
          obtain rfl : field.name = name := by simpa using List.find?_some hfield
          by_cases hnew : field.name ∈ given
          -- Reading stops at the name that is given again, whatever members are behind it.
          · have htwice : ¬ format.Fits meaning given ((field.name, v) :: members) := by
              intro h
              have hcount := h.once field hmem
              have hone : 0 < given.count field.name := List.count_pos_iff.mpr hnew
              simp only [List.map_cons, List.count_append, List.count_cons_self] at hcount
              omega
            simp [hnew, htwice]
          · have hlater : ∀ record,
                (format.ofMembers meaning (field.name :: given) record members).isSome = true ↔
                  format.Fits meaning (field.name :: given) members := fun record =>
              ih (List.nodup_cons.mpr ⟨hnew, hgiven⟩)
            rw [fits_known hnames hmem v hnew]
            cases hv : meaning field v with
            | none => simp [hnew, hv]
            | some change => simpa [hnew, hv] using hlater (change record)

/-! ### The changes that members make -/

/-- The changes that the fields among some members make, in order. -/
def changes (format : RecordFormat ρ) (meaning : Field ρ → ν → Option (ρ → ρ))
    (members : List (String × ν)) : List (ρ → ρ) :=
  members.filterMap fun member =>
    (format.fields.find? (·.name == member.1)).bind (meaning · member.2)

/-- Whether a field asks for a member of this name. -/
def knows (format : RecordFormat ρ) (member : String × Value) : Bool :=
  format.fields.any (·.name == member.1)

theorem eq_foldl_of_ofMembers (h : format.ofMembers meaning given record members = some a) :
    a = (format.changes meaning members).foldl (fun b change => change b) record := by
  induction members generalizing given record with
  | nil =>
      rw [ofMembers] at h
      split at h
      · exact (Option.some.inj h).symm
      · cases h
  | cons member members ih =>
      obtain ⟨name, v⟩ := member
      rw [ofMembers] at h
      cases hfield : format.fields.find? (·.name == name) with
      | none =>
          rw [hfield] at h
          rw [changes, List.filterMap_cons_none (by rw [hfield]; rfl)]
          exact ih h
      | some field =>
          simp only [hfield] at h
          split at h
          · cases h
          · obtain ⟨change, hchange, hlater⟩ := Option.bind_eq_some_iff.mp h
            rw [changes, List.filterMap_cons_some (b := change) (by rw [hfield]; exact hchange)]
            exact ih hlater

/-- A change was made by a field, from the value that a member has for it. -/
theorem mem_changes {change : ρ → ρ} (h : change ∈ format.changes meaning members) :
    ∃ field ∈ format.fields, ∃ v, (field.name, v) ∈ members ∧ meaning field v = some change := by
  obtain ⟨⟨name, v⟩, hmember, hchange⟩ := List.mem_filterMap.mp h
  obtain ⟨field, hfield, hchange⟩ := Option.bind_eq_some_iff.mp hchange
  obtain rfl : field.name = name := by simpa using List.find?_some hfield
  exact ⟨field, List.mem_of_find?_eq_some hfield, v, hmember, hchange⟩

theorem mem_changes_of_mem (hnames : (format.fields.map (·.name)).Nodup) {field : Field ρ}
    (hfield : field ∈ format.fields) {v : ν} (hv : (field.name, v) ∈ members) {change : ρ → ρ}
    (hchange : meaning field v = some change) : change ∈ format.changes meaning members := by
  obtain ⟨done, later, hfields⟩ := List.append_of_mem hfield
  refine List.mem_filterMap.mpr ⟨(field.name, v), hv, ?_⟩
  rw [(find?_of_nodup hnames hfields).1]
  exact hchange

/-- Members that no field asks for change nothing. -/
theorem changes_filter_knows {meaning : Field ρ → Value → Option (ρ → ρ)}
    (members : List (String × Value)) :
    format.changes meaning (members.filter format.knows) = format.changes meaning members := by
  rw [changes, changes, List.filterMap_filter]
  refine List.filterMap_congr fun member _ => ?_
  split
  · rfl
  · next hunknown =>
      have hfield : format.fields.find? (·.name == member.1) = none := by
        simpa [knows] using hunknown
      rw [hfield]
      rfl

/-- A name that is given once has one value. -/
theorem eq_of_count_le_one {name : String} {v w : ν}
    (hcount : (members.map (·.1)).count name ≤ 1) (hv : (name, v) ∈ members)
    (hw : (name, w) ∈ members) : v = w := by
  obtain ⟨before, after, rfl⟩ := List.append_of_mem hv
  simp only [List.map_append, List.map_cons, List.count_append, List.count_cons_self] at hcount
  have hnone : ∀ {others : List (String × ν)}, (others.map (·.1)).count name = 0 →
      (name, w) ∉ others := fun hzero hmem =>
    List.count_eq_zero.mp hzero (List.mem_map_of_mem hmem)
  rcases List.mem_append.mp hw with hbefore | hw
  · exact (hnone (by omega) hbefore).elim
  · rcases List.mem_cons.mp hw with hself | hafter
    · exact (Prod.mk.inj hself).2.symm
    · exact (hnone (by omega) hafter).elim

/-- A change that can be made before or after others can be made before all or after all. -/
theorem change_foldl (change : ρ → ρ) {others : List (ρ → ρ)}
    (h : ∀ other ∈ others, ∀ a, change (other a) = other (change a)) (a : ρ) :
    change (others.foldl (fun b other => other b) a) =
      others.foldl (fun b other => other b) (change a) := by
  induction others generalizing a with
  | nil => rfl
  | cons other others ih =>
      rw [List.foldl_cons, List.foldl_cons, ih fun f hf => h f (List.mem_cons_of_mem _ hf)]
      rw [h other List.mem_cons_self]

end RecordFormat

/-! ### Records that go by their members -/

/-- Reading some text makes the field change a record so. -/
def Field.Makes {ρ : Type} (field : Field ρ) (change : ρ → ρ) : Prop :=
  ∃ s r, field.reader.run s = .ok (change, r)

theorem Field.makes_of_takes {ρ : Type} {field : Field ρ} {v : Value} {change : ρ → ρ}
    (h : field.reader.Takes v change) : field.Makes change := by
  obtain ⟨s, -, hrun⟩ := h
  exact ⟨s, [], hrun⟩

/-- Two fields whose changes can be made in either order. -/
def Field.Apart {ρ : Type} (f g : Field ρ) : Prop :=
  ∀ change change' : ρ → ρ, f.Makes change → g.Makes change' →
    ∀ a, change (change' a) = change' (change a)

instance {ρ : Type} : Std.Symm (Field.Apart (ρ := ρ)) where
  symm _ _ h change change' hchange hchange' a := (h change' change hchange' hchange a).symm

/-- A field whose changes are made once and for all. -/
def Field.Settles {ρ : Type} (field : Field ρ) : Prop :=
  ∀ change : ρ → ρ, field.Makes change → ∀ a, change (change a) = change a

namespace RecordFormat

variable {ρ : Type} {format : RecordFormat ρ} {members : List (String × Value)} {a : ρ}

/-- What is asked of the fields of a record, so that its members say all. -/
structure Orderly (format : RecordFormat ρ) : Prop where
  nodup_names : (format.fields.map (·.name)).Nodup
  understands : ∀ field ∈ format.fields, ∃ meaning, field.reader.Understands meaning
  apart : format.fields.Pairwise Field.Apart
  settles : ∀ field ∈ format.fields, field.Settles

theorem Orderly.apart_of_ne (h : format.Orderly) {f g : Field ρ} (hf : f ∈ format.fields)
    (hg : g ∈ format.fields) (hne : f.name ≠ g.name) : f.Apart g :=
  h.apart.forall hf hg fun heq => hne (congrArg _ heq)

section Changes

variable {ν : Type} {meaning : Field ρ → ν → Option (ρ → ρ)} {members : List (String × ν)}

/-- What the fields make of values are changes that they make by reading. -/
def MakesChanges (format : RecordFormat ρ) (meaning : Field ρ → ν → Option (ρ → ρ)) : Prop :=
  ∀ field ∈ format.fields, ∀ ⦃v : ν⦄ ⦃change : ρ → ρ⦄, meaning field v = some change →
    field.Makes change

/-- The changes that members make can be made in any order, if no field is given twice. -/
theorem Orderly.changes_commute (h : format.Orderly) (hmakes : format.MakesChanges meaning)
    (honce : ∀ field ∈ format.fields, (members.map (·.1)).count field.name ≤ 1)
    {change change' : ρ → ρ} (hc : change ∈ format.changes meaning members)
    (hc' : change' ∈ format.changes meaning members) (a : ρ) :
    change (change' a) = change' (change a) := by
  obtain ⟨f, hf, v, hv, hchange⟩ := mem_changes hc
  obtain ⟨g, hg, w, hw, hchange'⟩ := mem_changes hc'
  by_cases hname : f.name = g.name
  · obtain rfl : f = g := List.inj_on_of_nodup_map h.nodup_names hf hg hname
    obtain rfl : v = w := eq_of_count_le_one (honce f hf) hv hw
    obtain rfl : change = change' := Option.some.inj (hchange.symm.trans hchange')
    rfl
  · exact h.apart_of_ne hf hg hname _ _ (hmakes f hf hchange) (hmakes g hg hchange') a

/-- The change that a member makes is made already, whatever the others change after it. -/
theorem Orderly.change_of_member (h : format.Orderly) (hmakes : format.MakesChanges meaning)
    (hread : format.ofMembers meaning [] format.blank members = some a) {field : Field ρ}
    (hfield : field ∈ format.fields) {v : ν} (hv : (field.name, v) ∈ members) :
    ∃ change, meaning field v = some change ∧ change a = a := by
  have hfits := (isSome_ofMembers h.nodup_names List.nodup_nil).mp (Option.isSome_of_eq_some hread)
  obtain ⟨change, hchange⟩ := Option.isSome_iff_exists.mp (hfits.valid field hfield v hv)
  refine ⟨change, hchange, ?_⟩
  have hmem : change ∈ format.changes meaning members :=
    mem_changes_of_mem h.nodup_names hfield hv hchange
  have hcommute := fun other (hother : other ∈ _) =>
    h.changes_commute hmakes hfits.once hmem hother
  have ha := eq_foldl_of_ofMembers hread
  -- Made once more, the change passes all that came after it and meets itself.
  obtain ⟨before, after, hsplit⟩ := List.append_of_mem hmem
  rw [hsplit] at ha hcommute
  rw [ha, List.foldl_append, List.foldl_cons, change_foldl change fun other hother => hcommute other
    (List.mem_append_right _ (List.mem_cons_of_mem _ hother))]
  rw [h.settles field hfield change (hmakes field hfield hchange)]

/-- A change that no member makes was made in the blank record, if it was made at all. -/
theorem Orderly.change_of_no_member (h : format.Orderly) (hmakes : format.MakesChanges meaning)
    (hread : format.ofMembers meaning [] format.blank members = some a) {field : Field ρ}
    (hfield : field ∈ format.fields) (hnone : field.name ∉ members.map (·.1)) {change : ρ → ρ}
    (hchange : field.Makes change) (hblank : change format.blank = format.blank) :
    change a = a := by
  rw [eq_foldl_of_ofMembers hread, change_foldl change, hblank]
  intro other hother b
  obtain ⟨g, hg, w, hw, hother⟩ := mem_changes hother
  have hne : field.name ≠ g.name := fun hname =>
    hnone (hname ▸ List.mem_map_of_mem (f := (·.1)) hw)
  exact h.apart_of_ne hfield hg hne _ _ hchange (hmakes g hg hother) b

end Changes

/-! ### Records that are read from texts -/

theorem makesChanges_meaning :
    format.MakesChanges fun field v => field.reader.meaning v :=
  fun _ _ _ _ hchange => Field.makes_of_takes (Reader.takes_of_meaning hchange)

theorem Orderly.understands_toFormat (h : format.Orderly) :
    format.toFormat.reader.Understands (format.ofValue? (·.reader.meaning)) := by
  refine understands_record fun field hfield => ?_
  obtain ⟨meaning, hmeaning⟩ := h.understands field hfield
  exact hmeaning.canonical

theorem Orderly.toOption_decode (h : format.Orderly) {text : String}
    (ht : (Value.object members).IsText text) : (format.toFormat.decode text).toOption =
      format.ofMembers (·.reader.meaning) [] format.blank members :=
  Json.toOption_decode h.understands_toFormat ht

theorem Orderly.accepts (h : format.Orderly) {text : String}
    (ht : (Value.object members).IsText text) : (∃ a, format.toFormat.decode text = .ok a) ↔
      format.Fits (·.reader.meaning) [] members := by
  rw [← isSome_ofMembers h.nodup_names List.nodup_nil, ← h.toOption_decode ht]
  cases format.toFormat.decode text with
  | ok a => exact iff_of_true ⟨a, rfl⟩ rfl
  | error f => exact iff_of_false nofun nofun

theorem Orderly.ofMembers_of_decode (h : format.Orderly) {text : String}
    (ht : (Value.object members).IsText text) (hread : format.toFormat.decode text = .ok a) :
    format.ofMembers (·.reader.meaning) [] format.blank members = some a := by
  rw [← h.toOption_decode ht, hread]
  rfl

/-- Fitting is a matter of the members that fields ask for, in any order. -/
theorem Fits.of_perm {meaning : Field ρ → Value → Option (ρ → ρ)}
    {members' : List (String × Value)}
    (hknown : (members'.filter format.knows).Perm (members.filter format.knows))
    (h : format.Fits meaning [] members) : format.Fits meaning [] members' := by
  have hmem : ∀ field ∈ format.fields, ∀ v,
      (field.name, v) ∈ members' ↔ (field.name, v) ∈ members := by
    intro field hfield v
    have hknows : format.knows (field.name, v) = true :=
      List.any_eq_true.mpr ⟨field, hfield, beq_self_eq_true _⟩
    simpa [hknows] using hknown.mem_iff (a := (field.name, v))
  have hcount : ∀ field ∈ format.fields, (members'.map (·.1)).count field.name =
      (members.map (·.1)).count field.name := by
    intro field hfield
    have hall : ∀ members : List (String × Value), (members.map (·.1)).count field.name =
        (members.filter format.knows).countP (·.1 == field.name) := by
      intro members
      rw [List.count, List.countP_map, List.countP_filter]
      refine List.countP_congr fun member _ => ?_
      have hknows : member.1 = field.name → format.knows member = true := fun hname =>
        List.any_eq_true.mpr ⟨field, hfield, by simp [hname]⟩
      simpa using hknows
    rw [hall, hall, hknown.countP_eq]
  refine ⟨fun f hf => ?_, fun f hf habsence => ?_, fun f hf v hv => ?_⟩
  · exact (hcount f hf).trans_le (h.once f hf)
  · obtain ⟨⟨_, v⟩, hv, rfl⟩ := List.mem_map.mp (h.complete f hf habsence)
    exact List.mem_map_of_mem ((hmem f hf v).mpr hv)
  · exact h.valid f hf v ((hmem f hf v).mp hv)

theorem Orderly.decode_of_perm (h : format.Orderly) {members' : List (String × Value)}
    {text text' : String} (ht : (Value.object members).IsText text)
    (ht' : (Value.object members').IsText text')
    (hknown : (members'.filter format.knows).Perm (members.filter format.knows))
    (hread : format.toFormat.decode text = .ok a) : format.toFormat.decode text' = .ok a := by
  have hfits := (h.accepts ht).mp ⟨a, hread⟩
  obtain ⟨b, hb⟩ := (h.accepts ht').mpr (hfits.of_perm hknown)
  have hchanges : (format.changes (·.reader.meaning) members).Perm
      (format.changes (·.reader.meaning) members') := by
    rw [← changes_filter_knows members, ← changes_filter_knows members']
    exact (hknown.filterMap _).symm
  rw [hb, eq_foldl_of_ofMembers (h.ofMembers_of_decode ht hread),
    eq_foldl_of_ofMembers (h.ofMembers_of_decode ht' hb)]
  refine congrArg _ (hchanges.foldl_eq' (fun change hc change' hc' a => ?_) format.blank).symm
  exact h.changes_commute makesChanges_meaning hfits.once hc' hc a

theorem Orderly.change_of_mem (h : format.Orderly) {text : String}
    (ht : (Value.object members).IsText text) (hread : format.toFormat.decode text = .ok a)
    {field : Field ρ} (hfield : field ∈ format.fields) {v : Value}
    (hv : (field.name, v) ∈ members) :
    ∃ change, field.reader.Takes v change ∧ change a = a := by
  obtain ⟨change, hchange, hsame⟩ :=
    h.change_of_member makesChanges_meaning (h.ofMembers_of_decode ht hread) hfield hv
  exact ⟨change, Reader.takes_of_meaning hchange, hsame⟩

theorem Orderly.change_of_not_mem (h : format.Orderly) {text : String}
    (ht : (Value.object members).IsText text) (hread : format.toFormat.decode text = .ok a)
    {field : Field ρ} (hfield : field ∈ format.fields) (hnone : field.name ∉ members.map (·.1))
    {change : ρ → ρ} (hmakes : field.Makes change) (hblank : change format.blank = format.blank) :
    change a = a :=
  h.change_of_no_member makesChanges_meaning (h.ofMembers_of_decode ht hread) hfield hnone hmakes
    hblank

end RecordFormat

/-! ### What is to be written for a record -/

/-- What is to be written for one field: its name, which values may stand there, and what such a
value tells of a record. -/
structure Entry (ρ : Type) where
  name : String
  Takes : Value → Prop
  Tells : Value → ρ → Prop

namespace Entry

variable {ρ : Type}

/-- The entry for a part of a record: a value that is decoded by itself, as this part. -/
def of {α : Type} (name : String) (format : Format α) (part : ρ → α) : Entry ρ where
  name := name
  Takes v := ∃ a, format.Decodes v a
  Tells v r := format.Decodes v (part r)

/-- A value may stand where a format understands it. -/
theorem takes_of {α : Type} {name : String} {format : Format α} {part : ρ → α}
    {meaning : Value → Option α} (h : format.reader.Understands meaning) {v : Value}
    (hv : ∃ s, v.Spells s) (hsome : (meaning v).isSome = true) :
    (of name format part).Takes v := by
  obtain ⟨s, hs⟩ := hv
  obtain ⟨a, ha⟩ := Option.isSome_iff_exists.mp hsome
  exact ⟨a, (Reader.takes_iff_decodes h).mp ((h.takes_iff hs).mpr ha)⟩

/-- The members of an object give a record: no entry is there twice, none but the optional ones is
missing, and the value of each is one that may stand there. -/
structure AreGivenBy (entries : List (Entry ρ)) (optional : List String)
    (members : List (String × Value)) : Prop where
  once : ∀ entry ∈ entries, (members.map (·.1)).count entry.name ≤ 1
  complete : ∀ entry ∈ entries, entry.name ∉ optional → entry.name ∈ members.map (·.1)
  valid : ∀ entry ∈ entries, ∀ v, (entry.name, v) ∈ members → entry.Takes v

/-- Where a name is given once, one value speaks for all. -/
theorem forall_takes {entry : Entry ρ} {members : List (String × Value)} {v : Value}
    (honce : (members.map (·.1)).count entry.name ≤ 1) (hv : (entry.name, v) ∈ members)
    (h : entry.Takes v) : ∀ w, (entry.name, w) ∈ members → entry.Takes w := by
  intro w hw
  rwa [← RecordFormat.eq_of_count_le_one honce hv hw]

/-- The members that have the name of an entry. -/
def among (entries : List (Entry ρ)) (members : List (String × Value)) : List (String × Value) :=
  members.filter fun member => entries.any (·.name == member.1)

end Entry

/-- Lists that go together item by item have a partner for each of their members. -/
theorem exists_partner {α β : Type} {R : α → β → Prop} {xs : List α} {ys : List β}
    (h : List.Forall₂ R xs ys) : (∀ x ∈ xs, ∃ y ∈ ys, R x y) ∧ ∀ y ∈ ys, ∃ x ∈ xs, R x y := by
  induction h with
  | nil => exact ⟨nofun, nofun⟩
  | cons hxy _ ih =>
      simp only [List.forall_mem_cons, List.exists_mem_cons_iff]
      exact ⟨⟨Or.inl hxy, fun x hx => Or.inr (ih.1 x hx)⟩, Or.inl hxy,
        fun y hy => Or.inr (ih.2 y hy)⟩

/-- A field that is read as its entry is to be written. -/
structure Field.Follows {ρ : Type} (field : Field ρ) (entry : Entry ρ) : Prop where
  name : field.name = entry.name
  takes : ∀ v, field.reader.Accepts v ↔ entry.Takes v
  tells : ∀ ⦃v change a⦄, field.reader.Takes v change → change a = a → entry.Tells v a

namespace RecordFormat

variable {ρ : Type} {format : RecordFormat ρ} {entries : List (Entry ρ)} {optional : List String}
  {members members' : List (String × Value)} {text text' : String} {a : ρ}

/-- A record that is read as it is to be written, field by field. -/
structure Follows (format : RecordFormat ρ) (entries : List (Entry ρ))
    (optional : List String) : Prop where
  fields : List.Forall₂ Field.Follows format.fields entries
  optional : ∀ field ∈ format.fields, field.absence = .required ↔ field.name ∉ optional

/-- **An object is decoded as a record exactly if its members give one.** -/
theorem Orderly.decodes_iff (h : format.Orderly) (hfollows : format.Follows entries optional)
    (ht : (Value.object members).IsText text) :
    (∃ a, format.toFormat.decode text = .ok a) ↔ Entry.AreGivenBy entries optional members := by
  obtain ⟨hentry, hfield⟩ := exists_partner hfollows.fields
  rw [h.accepts ht]
  constructor
  · intro hfits
    refine ⟨fun entry he => ?_, fun entry he hrequired => ?_, fun entry he v hv => ?_⟩
    · obtain ⟨field, hf, hsame⟩ := hfield entry he
      exact hsame.name ▸ hfits.once field hf
    · obtain ⟨field, hf, hsame⟩ := hfield entry he
      rw [← hsame.name] at hrequired ⊢
      exact hfits.complete field hf ((hfollows.optional field hf).mpr hrequired)
    · obtain ⟨field, hf, hsame⟩ := hfield entry he
      rw [← hsame.name] at hv
      exact (hsame.takes v).mp (Reader.isSome_meaning.mp (hfits.valid field hf v hv))
  · intro hgiven
    refine ⟨fun field hf => ?_, fun field hf hrequired => ?_, fun field hf v hv => ?_⟩
    · obtain ⟨entry, he, hsame⟩ := hentry field hf
      exact hsame.name ▸ hgiven.once entry he
    · obtain ⟨entry, he, hsame⟩ := hentry field hf
      have hname := (hfollows.optional field hf).mp hrequired
      rw [hsame.name] at hname ⊢
      exact hgiven.complete entry he hname
    · obtain ⟨entry, he, hsame⟩ := hentry field hf
      rw [hsame.name] at hv
      exact Reader.isSome_meaning.mpr ((hsame.takes v).mpr (hgiven.valid entry he v hv))

/-- **A record that was decoded is what its members tell.** -/
theorem Orderly.tells_of_decode (h : format.Orderly) (hfollows : format.Follows entries optional)
    (ht : (Value.object members).IsText text) (hread : format.toFormat.decode text = .ok a) :
    ∀ entry ∈ entries, ∀ v, (entry.name, v) ∈ members → entry.Tells v a := by
  intro entry he v hv
  obtain ⟨field, hf, hsame⟩ := (exists_partner hfollows.fields).2 entry he
  rw [← hsame.name] at hv
  obtain ⟨change, hchange, hkept⟩ := h.change_of_mem ht hread hf hv
  exact hsame.tells hchange hkept

/-- A field knows the members that its entry names, and no others. -/
theorem Follows.filter_knows (hfollows : format.Follows entries optional)
    (members : List (String × Value)) :
    members.filter format.knows = Entry.among entries members := by
  have hnames : format.fields.map (·.name) = entries.map (·.name) := by
    rw [← List.forall₂_eq_eq_eq, List.forall₂_map_left_iff, List.forall₂_map_right_iff]
    exact hfollows.fields.imp fun _ _ hsame => hsame.name
  refine List.filter_congr fun member _ => ?_
  have hany : (format.fields.map (·.name)).any (· == member.1) =
      (entries.map (·.name)).any (· == member.1) := by rw [hnames]
  rwa [List.any_map, List.any_map] at hany

/-- **Nothing else counts** than the members that entries name: neither their order, nor how they
are spelled, nor what other members there are. -/
theorem Orderly.decode_of_among (h : format.Orderly) (hfollows : format.Follows entries optional)
    (ht : (Value.object members).IsText text) (ht' : (Value.object members').IsText text')
    (hsame : (Entry.among entries members').Perm (Entry.among entries members)) :
    (format.toFormat.decode text').toOption = (format.toFormat.decode text).toOption := by
  rw [← hfollows.filter_knows, ← hfollows.filter_knows] at hsame
  refine Option.ext fun a => ?_
  constructor
  · intro hread
    rw [h.decode_of_perm ht' ht hsame.symm (eq_ok_of_toOption hread)]
    rfl
  · intro hread
    rw [h.decode_of_perm ht ht' hsame (eq_ok_of_toOption hread)]
    rfl

end RecordFormat

end CallLifecycle.Json

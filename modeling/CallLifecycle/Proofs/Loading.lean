/-
Settings are loaded whole or not at all.

There are two texts of settings.  One is an object that gives each setting at most once, and as a
yes or no, among whatever other members there are; the other is a list of no more than the two.
Such a text is read as the settings that it gives, as every record is read as its members say.  And
nothing else is: what was read was laid out as an object or a list, and then the first direction
says what stood in it.  So a text is decoded as settings exactly if it is a text of them, and a text of
settings ends where its brace or bracket closes.

A file is bytes.  If they are not the bytes of such a text, the settings are those without a file,
whichever setting it may be that is wrong, and wherever the rest was right.
-/
import Mathlib.Data.Set.List
import CallLifecycle.SettingsStore
import CallLifecycle.Proofs.Decoding
import CallLifecycle.Proofs.Recovering

namespace CallLifecycle

open Json

namespace Json

/-! ### Yes or no -/

/-- The yes or no that a text is, if it is one. -/
def flagOf? (text : List Char) : Option Bool :=
  if text = (flagWord true).toList then some true
  else if text = (flagWord false).toList then some false
  else none

theorem flagOf?_eq_some {text : List Char} {on : Bool} :
    flagOf? text = some on ↔ text = (flagWord on).toList := by
  unfold flagOf?
  constructor
  · intro h
    split at h
    · next hyes => cases h; exact hyes
    · split at h
      · next hno => cases h; exact hno
      · cases h
  · rintro rfl
    cases on <;> rfl

theorem reads_flag : Format.flag.reader.Reads Verbatim flagOf? := by
  rintro text s t r ⟨hs, rfl⟩ ht -
  show (readFlag t).toOption = _
  have hother : ∀ {c u}, s = c :: u → c ≠ 't' → c ≠ 'f' →
      (readFlag t).toOption = (flagOf? s).map (·, r) := by
    rintro c u rfl hyes hno
    rw [toOption_readFlag_refused ht hyes hno, flagOf?, if_neg, if_neg]
    · rfl
    · rintro ⟨⟩
      exact hno rfl
    · rintro ⟨⟩
      exact hyes rfl
  cases hs with
  | flag on =>
      rw [readFlag, ht]
      cases on <;> rfl
  | number hn =>
      obtain ⟨c, u, rfl, hc⟩ := hn.begins
      refine hother rfl ?_ ?_ <;> (rintro rfl; exact absurd hc (by decide))
  | string hletters =>
      obtain ⟨u, -, rfl⟩ := hletters
      exact hother rfl (by decide) (by decide)
  | null | list | object => exact hother rfl (by decide) (by decide)

/-! ### Texts that hold one value -/

theorem decode_eq_ok {α : Type} {format : Format α} {text : String} {a : α} :
    format.decode text = .ok a ↔
      ∃ r, format.reader.run text.toList = .ok (a, r) ∧ r.all isBlank = true := by
  rw [Format.decode, bind_eq_ok]
  constructor
  · rintro ⟨⟨b, r⟩, hrun, h⟩
    simp only at h
    split at h
    · next hr => cases h; exact ⟨r, hrun, dropBlank_eq_nil_iff.mp hr⟩
    · cases h
  · rintro ⟨r, hrun, hr⟩
    refine ⟨(a, r), hrun, ?_⟩
    simp only [dropBlank_eq_nil_iff.mpr hr, if_true]
    rfl

end Json

/-! ### Texts of settings -/

namespace Settings

/-- Each setting is given at most once, and as a yes or no. -/
def AreGivenBy (members : List (String × List Char)) : Prop :=
  ∀ name ∈ ["enforce_transition_table", "panic_on_fatal_defect"],
    (members.map (·.1)).count name ≤ 1 ∧
      ∀ text, (name, text) ∈ members → ∃ on, text = (flagWord on).toList

/-- What the member of a setting says; without one, the setting is on. -/
def isOnIn (members : List (String × List Char)) (name : String) : Bool :=
  ((members.lookup name).bind flagOf?).getD true

/-- The settings that members give. -/
def ofMembers (members : List (String × List Char)) : Settings where
  enforceTable := isOnIn members "enforce_transition_table"
  abortOnFatal := isOnIn members "panic_on_fatal_defect"

/-- The text of some settings, without blanks before it or after it: an object that gives them, or a
list of no more than the two. -/
inductive Spells : Settings → List Char → Prop
  | object {members : List (String × List Char)} {s : List Char}
      (hmembers : LaysOut Verbatim true members s) (hgiven : AreGivenBy members) :
      Spells (ofMembers members) ('{' :: s)
  | list {flags : List Bool} {s : List Char} (hflags : SpellsItems true (flags.map .flag) s)
      (hlength : flags.length ≤ 2) :
      Spells ⟨flags[0]?.getD true, flags[1]?.getD true⟩ ('[' :: s)

/-- A text that holds settings, and blanks around it. -/
def IsText (settings : Settings) (text : String) : Prop :=
  ∃ before s after, settings.Spells s ∧ before.all isBlank = true ∧ after.all isBlank = true ∧
    text.toList = before ++ (s ++ after)

theorem isText_of_object {members : List (String × List Char)} {text : String}
    (h : IsObjectText members text) (hgiven : AreGivenBy members) :
    (ofMembers members).IsText text := by
  obtain ⟨before, w, after, hw, hbefore, hafter, htext⟩ := h
  exact ⟨before, _, after, .object hw hgiven, hbefore, hafter, htext⟩

end Settings

namespace Written

theorem orderly_settings : settingsRecord.Orderly where
  nodup_names := by decide
  understands := by
    simp only [settingsRecord, List.forall_mem_cons]
    exact ⟨Field.understands_of understands_flag, Field.understands_of understands_flag,
      List.forall_mem_nil _⟩
  apart := List.pairwise_pair.mpr (Field.apart_of fun _ _ _ => rfl)
  settles := by
    simp only [settingsRecord, List.forall_mem_cons]
    exact ⟨Field.settles_of fun _ _ => rfl, Field.settles_of fun _ _ => rfl, List.forall_mem_nil _⟩

/-- Settings with the one that is a field of them assigned. -/
def assignTo (field : Json.Field Settings) (on : Bool) (settings : Settings) : Settings :=
  if field.name = "enforce_transition_table" then { settings with enforceTable := on }
  else { settings with abortOnFatal := on }

/-- What a field makes of the text of a value. -/
def settingMeaning (field : Json.Field Settings) (text : List Char) :
    Option (Settings → Settings) :=
  (flagOf? text).map (assignTo field)

theorem reads_settings : ∀ field ∈ settingsRecord.fields,
    field.reader.Reads Verbatim (settingMeaning field) := by
  simp only [settingsRecord, List.forall_mem_cons, Field.of]
  exact ⟨reads_flag.map _, reads_flag.map _, List.forall_mem_nil _⟩

theorem makesChanges_settings : settingsRecord.MakesChanges settingMeaning := by
  intro field hfield text change hchange
  obtain ⟨on, hon, -⟩ := Option.map_eq_some_iff.mp hchange
  have htext : WellFormed text := flagOf?_eq_some.mp hon ▸ .flag on
  have hself : dropBlank text = text ++ [] := by simpa using htext.dropBlank []
  have hread := reads_settings field hfield ⟨htext, rfl⟩ hself rfl
  rw [hchange] at hread
  exact ⟨_, _, eq_ok_of_toOption hread⟩

theorem isSome_settingMeaning {field : Json.Field Settings} {text : List Char} :
    (settingMeaning field text).isSome = true ↔ ∃ on, text = (flagWord on).toList := by
  rw [settingMeaning, Option.isSome_map, Option.isSome_iff_exists]
  exact exists_congr fun _ => flagOf?_eq_some

theorem fits_settings {members : List (String × List Char)} :
    settingsRecord.Fits settingMeaning [] members ↔ Settings.AreGivenBy members := by
  constructor
  · rintro ⟨honce, -, hvalid⟩ name hname
    have hfield : ∃ field ∈ settingsRecord.fields, field.name = name := by
      simpa [settingsRecord, Field.of, eq_comm] using hname
    obtain ⟨field, hfield, rfl⟩ := hfield
    exact ⟨honce field hfield, fun text htext =>
      isSome_settingMeaning.mp (hvalid field hfield text htext)⟩
  · intro h
    have hname : ∀ field ∈ settingsRecord.fields,
        field.name ∈ ["enforce_transition_table", "panic_on_fatal_defect"] := by
      simp [settingsRecord, Field.of]
    refine ⟨fun field hfield => (h _ (hname field hfield)).1, fun field hfield habsence => ?_,
      fun field hfield text htext =>
        isSome_settingMeaning.mpr ((h _ (hname field hfield)).2 text htext)⟩
    have hdefaulted : ∀ field ∈ settingsRecord.fields, field.absence ≠ .required := by
      simp [settingsRecord, Field.of]
    exact (hdefaulted field hfield habsence).elim

/-- A field of settings that were read is what its member says. -/
theorem isOnIn_of_read {members : List (String × List Char)} {settings : Settings}
    (h : settingsRecord.ofMembers settingMeaning [] settingsRecord.blank members = some settings)
    {field : Json.Field Settings} (hfield : field ∈ settingsRecord.fields) (get : Settings → Bool)
    (hget : ∀ on s, get (assignTo field on s) = on)
    (hblank : assignTo field true settingsRecord.blank = settingsRecord.blank) :
    get settings = Settings.isOnIn members field.name := by
  cases hlookup : members.lookup field.name with
  | none =>
      have hnone : field.name ∉ members.map (·.1) := by
        intro hname
        obtain ⟨member, hmember, hname⟩ := List.mem_map.mp hname
        have hother := List.lookup_eq_none_iff.mp hlookup member hmember
        simp [hname] at hother
      have hsame := orderly_settings.change_of_no_member makesChanges_settings h hfield hnone
        (makesChanges_settings field hfield (v := (flagWord true).toList) rfl) hblank
      rw [← hsame, hget, Settings.isOnIn, hlookup]
      rfl
  | some text =>
      have hmem : (field.name, text) ∈ members := by
        obtain ⟨before, after, rfl, -⟩ := List.lookup_eq_some_iff.mp hlookup
        simp
      obtain ⟨change, hchange, hsame⟩ :=
        orderly_settings.change_of_member makesChanges_settings h hfield hmem
      obtain ⟨on, hon, rfl⟩ := Option.map_eq_some_iff.mp hchange
      rw [← hsame, hget, Settings.isOnIn, hlookup, Option.bind_some, hon]
      rfl

theorem ofMembers_settings {members : List (String × List Char)} {settings : Settings} :
    settingsRecord.ofMembers settingMeaning [] settingsRecord.blank members = some settings ↔
      Settings.AreGivenBy members ∧ settings = Settings.ofMembers members := by
  have hread : ∀ {s}, settingsRecord.ofMembers settingMeaning [] settingsRecord.blank members =
      some s → s = Settings.ofMembers members := by
    intro s h
    have htable := isOnIn_of_read h (List.mem_of_getElem? (i := 0) rfl) Settings.enforceTable
      (fun _ _ => rfl) rfl
    have hfatal := isOnIn_of_read h (List.mem_of_getElem? (i := 1) rfl) Settings.abortOnFatal
      (fun _ _ => rfl) rfl
    exact Settings.mk.injEq .. ▸ ⟨htable, hfatal⟩
  have hfits : (settingsRecord.ofMembers settingMeaning [] settingsRecord.blank members).isSome ↔
      Settings.AreGivenBy members :=
    (RecordFormat.isSome_ofMembers orderly_settings.nodup_names List.nodup_nil).trans fits_settings
  constructor
  · intro h
    exact ⟨hfits.mp (Option.isSome_of_eq_some h), hread h⟩
  · rintro ⟨hgiven, rfl⟩
    obtain ⟨s, hs⟩ := Option.isSome_iff_exists.mp (hfits.mpr hgiven)
    rw [hs, hread hs]

section Reading

variable {s : Settings} {t u w r : List Char}

/-- An object is read as settings if it gives them, and as those that it gives. -/
theorem run_object {members : List (String × List Char)} (h : LaysOut Verbatim true members w)
    (ht : dropBlank t = '{' :: (w ++ r)) : settings.reader.run t = .ok (s, u) ↔
      Settings.AreGivenBy members ∧ s = Settings.ofMembers members ∧ u = r := by
  have hread : (settings.reader.run t).toOption = _ :=
    RecordFormat.toOption_read_object (fun _ _ => And.left) reads_settings h ht
  have hok : settings.reader.run t = .ok (s, u) ↔
      (settings.reader.run t).toOption = some (s, u) :=
    ⟨congrArg Except.toOption, eq_ok_of_toOption⟩
  rw [hok, hread, Option.map_eq_some_iff, ← and_assoc, ← ofMembers_settings]
  constructor
  · rintro ⟨a, hmembers, ⟨⟩⟩
    exact ⟨hmembers, rfl⟩
  · rintro ⟨hmembers, rfl⟩
    exact ⟨s, hmembers, rfl⟩

/-- A list is read as the settings that it gives in order. -/
theorem run_list {flags : List Bool} (h : SpellsItems true (flags.map .flag) w)
    (hlength : flags.length ≤ 2) (ht : dropBlank t = '[' :: (w ++ r)) :
    settings.reader.run t = .ok (⟨flags[0]?.getD true, flags[1]?.getD true⟩, r) := by
  have hfields : ∀ field ∈ settingsRecord.fields,
      field.reader.Understands fun v => v.flag?.map (assignTo field) := by
    simp only [settingsRecord, List.forall_mem_cons, Field.of]
    exact ⟨understands_flag.map _, understands_flag.map _, List.forall_mem_nil _⟩
  refine eq_ok_of_toOption ?_
  show (settingsRecord.read t).toOption = _
  rw [RecordFormat.read, ht]
  refine (RecordFormat.toOption_readValues hfields h r).trans ?_
  rcases flags with _ | ⟨_, _ | ⟨_, _ | ⟨_, flags⟩⟩⟩
  iterate 3 rfl
  simp only [List.length_cons] at hlength
  omega

theorem run_of_spells (h : s.Spells w) (ht : dropBlank t = w ++ r) :
    settings.reader.run t = .ok (s, r) := by
  cases h with
  | object hmembers hgiven => exact (run_object hmembers ht).mpr ⟨hgiven, rfl, rfl⟩
  | list hflags hlength => exact run_list hflags hlength ht

/-- **What is read as settings is a text of them.** -/
theorem spells_of_run (h : settings.reader.run t = .ok (s, r)) :
    ∃ w, s.Spells w ∧ dropBlank t = w ++ r := by
  have hrecognizes : ∀ field ∈ settingsRecord.fields,
      field.reader.Recognizes fun v => ∃ on, .flag on = v := by
    simp only [settingsRecord, List.forall_mem_cons, Field.of]
    exact ⟨recognizes_flag.map _, recognizes_flag.map _, List.forall_mem_nil _⟩
  have hread : settingsRecord.read t = .ok (s, r) := h
  unfold RecordFormat.read at hread
  split at hread
  · next u hs =>
      obtain ⟨⟨a, rest⟩, hmembers, hread⟩ := bind_eq_ok.1 hread
      cases hread
      obtain ⟨members, w, hw, hu⟩ := RecordFormat.laysOut_of_readMembers hrecognizes hmembers
      rw [hu] at hs
      obtain ⟨hgiven, rfl, -⟩ := (run_object hw hs).mp h
      exact ⟨_, .object hw hgiven, hs⟩
  · next u hs =>
      obtain ⟨⟨a, v⟩, hvalues, hread⟩ := bind_eq_ok.1 hread
      obtain ⟨x, hend, hread⟩ := bind_eq_ok.1 hread
      cases hread
      obtain ⟨items, w, hw, hlength, hflags, rfl⟩ :=
        RecordFormat.spellsItems_of_readValues hrecognizes hvalues hend
      obtain ⟨flags, rfl⟩ : items ∈ Set.range (List.map Value.flag) := by
        rw [Set.range_list_map]
        exact hflags
      rw [List.length_map] at hlength
      have hlist := run_list hw hlength hs
      cases h.symm.trans hlist
      exact ⟨_, .list hw hlength, hs⟩
  · cases hread

/-- **A text is decoded as settings exactly if it is a text of them.** -/
theorem decode_settings {text : String} : settings.decode text = .ok s ↔ s.IsText text := by
  rw [decode_eq_ok]
  constructor
  · rintro ⟨r, hrun, hr⟩
    obtain ⟨w, hw, ht⟩ := spells_of_run hrun
    obtain ⟨gap, hgap, ht⟩ := gap_of_dropBlank ht
    exact ⟨gap, w, r, hw, hgap, hr, ht⟩
  · rintro ⟨before, w, after, hw, hbefore, hafter, htext⟩
    refine ⟨after, run_of_spells hw ?_, hafter⟩
    rw [htext, dropBlank_blanks hbefore]
    cases hw <;> exact dropBlank_of_not rfl _

/-- An object is decoded as settings if it gives them, and as those that it gives. -/
theorem decode_object {members : List (String × List Char)} {text : String}
    (h : IsObjectText members text) : settings.decode text = .ok s ↔
      Settings.AreGivenBy members ∧ s = Settings.ofMembers members := by
  constructor
  · intro hread
    obtain ⟨r, hrun, -⟩ := decode_eq_ok.mp hread
    obtain ⟨before, w, after, hw, hbefore, -, htext⟩ := h
    have ht : dropBlank text.toList = '{' :: (w ++ after) := by
      rw [htext, dropBlank_blanks hbefore]
      exact dropBlank_of_not rfl _
    obtain ⟨hgiven, hs, -⟩ := (run_object hw ht).mp hrun
    exact ⟨hgiven, hs⟩
  · rintro ⟨hgiven, rfl⟩
    exact decode_settings.mpr (Settings.isText_of_object h hgiven)

/-- Nothing but blanks can follow a text of settings in another one. -/
theorem blank_of_append {s' : Settings} {text later : String} (h : s.IsText text)
    (h' : s'.IsText (text ++ later)) : later.toList.all isBlank = true := by
  obtain ⟨before, w, after, hw, hbefore, hafter, htext⟩ := h
  obtain ⟨r, hrun, hr⟩ := decode_eq_ok.mp (decode_settings.mpr h')
  have ht : dropBlank (text ++ later).toList = w ++ (after ++ later.toList) := by
    rw [String.toList_append, htext, List.append_assoc, List.append_assoc,
      dropBlank_blanks hbefore]
    cases hw <;> exact dropBlank_of_not rfl _
  cases (run_of_spells hw ht).symm.trans hrun
  rw [List.all_append, Bool.and_eq_true] at hr
  exact hr.2

end Reading

end Written

/-! ### Files of settings -/

/-- Bytes behind a text that make a text with it are a text. -/
theorem text_of_append {whole text : String} {junk : ByteArray}
    (h : whole.toUTF8 = text.toUTF8 ++ junk) :
    ∃ later : String, junk = later.toUTF8 ∧ whole = text ++ later := by
  rw [String.toUTF8_eq_toByteArray, String.toUTF8_eq_toByteArray] at h
  have hsize : whole.utf8ByteSize = text.utf8ByteSize + junk.size := by
    rw [← String.size_toByteArray, h, ByteArray.size_append, String.size_toByteArray]
  have hcut : (⟨text.utf8ByteSize⟩ : String.Pos.Raw).IsValid whole := by
    refine String.Pos.Raw.isValid_iff_isValidUTF8_extract_zero.mpr ⟨?_, ?_⟩
    · show text.utf8ByteSize ≤ whole.utf8ByteSize
      omega
    · rw [h, ByteArray.extract_append_eq_left String.size_toByteArray.symm]
      exact text.isValidUTF8
  have hvalid : junk.IsValidUTF8 := by
    have hlater := (String.Pos.Raw.isValid_iff_isValidUTF8_extract_utf8ByteSize.mp hcut).2
    rwa [h, hsize, ByteArray.extract_append_eq_right String.size_toByteArray.symm (by simp)]
      at hlater
  refine ⟨.fromUTF8 junk hvalid, rfl, String.toByteArray_inj.mp ?_⟩
  rw [String.toByteArray_append, h]
  rfl

namespace SettingsStore

variable {file : String} {disk : DataDirectory} {settings : Settings}

theorem ofDisk_of_decode {text : String} (h : disk.read? = some text.toUTF8)
    (hread : Written.settings.decode text = .ok settings) :
    ofDisk file disk = (⟨file, settings⟩, []) := by
  rw [ofDisk, DataDirectory.readText?_eq_some.mpr h]
  simp only [hread]

theorem ofDisk_of_refused {text : String} (h : disk.read? = some text.toUTF8)
    (hread : ∀ settings, Written.settings.decode text ≠ .ok settings) :
    ofDisk file disk = (⟨file, default⟩, [.settingsIgnored file]) := by
  rw [ofDisk, DataDirectory.readText?_eq_some.mpr h]
  cases hdecode : Written.settings.decode text with
  | ok settings => exact (hread settings hdecode).elim
  | error f => simp only [hdecode]

/-- A file that holds no text of settings counts as none. -/
theorem ofDisk_of_not_text {bytes : ByteArray} (h : disk.read? = some bytes)
    (hnot : ∀ settings text, Settings.IsText settings text → bytes ≠ text.toUTF8) :
    (ofDisk file disk).1 = ⟨file, default⟩ := by
  cases htext : disk.readText? with
  | none => rw [ofDisk, htext]
  | some text =>
      have hread := DataDirectory.readText?_eq_some.mp htext
      obtain rfl : bytes = text.toUTF8 := Option.some.inj (h.symm.trans hread)
      rw [ofDisk_of_refused hread fun settings hdecode =>
        hnot settings text (Written.decode_settings.mp hdecode) rfl]

end SettingsStore

/-- **Settings are loaded whole or not at all.**  Take a file that holds an object.  If each setting
is given in it at most once and as a yes or no, then these are loaded, what is not given is on, and
nothing is said.  If one is given twice or as anything else, all settings are as without a file, the
other one too, and it is said once that the file was ignored.  Of all files, those that hold a text
of settings are loaded as these; any other file, and so one that goes on behind such a text with
anything but blanks, leaves the settings as without a file. -/
theorem settings_are_loaded_whole_or_not_at_all {file : String} {disk : DataDirectory}
    {bytes : ByteArray} (h : disk.read? = some bytes) :
    (∀ members text, IsObjectText members text → bytes = text.toUTF8 →
      (Settings.AreGivenBy members →
        SettingsStore.ofDisk file disk = (⟨file, Settings.ofMembers members⟩, [])) ∧
      (¬ Settings.AreGivenBy members →
        SettingsStore.ofDisk file disk = (⟨file, default⟩, [.settingsIgnored file]))) ∧
    (∀ settings text, Settings.IsText settings text → bytes = text.toUTF8 →
      SettingsStore.ofDisk file disk = (⟨file, settings⟩, [])) ∧
    ((∀ settings text, Settings.IsText settings text → bytes ≠ text.toUTF8) →
      (SettingsStore.ofDisk file disk).1 = ⟨file, default⟩) ∧
    ∀ settings text junk, Settings.IsText settings text → bytes = text.toUTF8 ++ junk →
      (∀ gap : String, gap.toList.all isBlank = true → junk ≠ gap.toUTF8) →
      (SettingsStore.ofDisk file disk).1 = ⟨file, default⟩ := by
  refine ⟨?_, ?_, SettingsStore.ofDisk_of_not_text h, ?_⟩
  · rintro members text ht rfl
    refine ⟨fun hgiven => ?_, fun hnot => ?_⟩
    · exact SettingsStore.ofDisk_of_decode h ((Written.decode_object ht).mpr ⟨hgiven, rfl⟩)
    · exact SettingsStore.ofDisk_of_refused h fun settings hread =>
        hnot ((Written.decode_object ht).mp hread).1
  · rintro settings text ht rfl
    exact SettingsStore.ofDisk_of_decode h (Written.decode_settings.mpr ht)
  · rintro settings text junk ht rfl hjunk
    refine SettingsStore.ofDisk_of_not_text h fun settings' whole hwhole hbytes => ?_
    obtain ⟨later, rfl, rfl⟩ := text_of_append hbytes.symm
    exact hjunk later (Written.blank_of_append ht hwhole) rfl

/-- A member that nobody asks for spoils nothing; a setting that is null spoils the other one, and a
bracket behind the object spoils both. -/
theorem null_setting_spoils_the_other :
    let extra := ("extra", "[\x7b\x7d]".toList)
    let fatal := ("panic_on_fatal_defect", "false".toList)
    let table := ("enforce_transition_table", "null".toList)
    let good := "\x7b\"extra\":[\x7b\x7d], \"panic_on_fatal_defect\":false\x7d"
    let bad := "\x7b\"panic_on_fatal_defect\":false, \"enforce_transition_table\":null\x7d"
    let load := fun bytes => SettingsStore.ofDisk "file" (.directory (.file bytes))
    (IsObjectText [extra, fatal] good ∧ load good.toUTF8 = (⟨"file", ⟨true, false⟩⟩, [])) ∧
      (IsObjectText [fatal, table] bad ∧
        load bad.toUTF8 = (⟨"file", default⟩, [.settingsIgnored "file"])) ∧
      (load (good.toUTF8 ++ "]".toUTF8)).1 = ⟨"file", default⟩ := by
  intro extra fatal table good bad load
  have hextra : WellFormed ('[' :: ([] ++ (('{' :: ([] ++ ['}'])) ++ ([] ++ [']'])))) :=
    .list (.item ⟨[], [], rfl, rfl, rfl⟩ (.object (.close rfl)) (.close rfl))
  have hfatal : LaysOut Verbatim false [fatal] ([',', ' '] ++
      (quoted fatal.1.toList ++ ([] ++ ':' :: ([] ++ (fatal.2 ++ ([] ++ ['}'])))))) :=
    .member ⟨[], [' '], rfl, rfl, rfl⟩ (spellsName_quoted _) rfl rfl ⟨.flag false, rfl⟩ (.close rfl)
  have htable : LaysOut Verbatim false [table] ([',', ' '] ++
      (quoted table.1.toList ++ ([] ++ ':' :: ([] ++ (table.2 ++ ([] ++ ['}'])))))) :=
    .member ⟨[], [' '], rfl, rfl, rfl⟩ (spellsName_quoted _) rfl rfl ⟨.null, rfl⟩ (.close rfl)
  have hfirst : ∀ {member : String × List Char} {members later}, WellFormed member.2 →
      LaysOut Verbatim false members later → LaysOut Verbatim true (member :: members)
        ([] ++ (quoted member.1.toList ++ ([] ++ ':' :: ([] ++ (member.2 ++ later))))) :=
    fun hvalue hlater =>
      .member ⟨[], [], rfl, rfl, rfl⟩ (spellsName_quoted _) rfl rfl ⟨hvalue, rfl⟩ hlater
  have hgood : IsObjectText [extra, fatal] good :=
    ⟨[], _, [], hfirst hextra hfatal, rfl, rfl, by simp [good, extra, fatal, quoted, escaped]⟩
  have hbad : IsObjectText [fatal, table] bad :=
    ⟨[], _, [], hfirst (.flag false) htable, rfl, rfl, by simp [bad, fatal, table, quoted, escaped]⟩
  have hgiven : Settings.AreGivenBy [extra, fatal] := by
    intro name hname
    simp only [List.mem_cons, List.not_mem_nil, or_false] at hname
    rcases hname with rfl | rfl
    · exact ⟨by simp [extra, fatal], by simp [extra, fatal]⟩
    · exact ⟨by simp [extra, fatal], by simp [extra, fatal, flagWord]⟩
  have hnot : ¬ Settings.AreGivenBy [fatal, table] := by
    intro h
    obtain ⟨on, hon⟩ := (h table.1 List.mem_cons_self).2 table.2 (by simp)
    cases on <;> cases hon
  have hloads : ∀ bytes, _ := fun bytes =>
    @settings_are_loaded_whole_or_not_at_all "file" (.directory (.file bytes)) bytes rfl
  obtain ⟨-, -, -, hbehind⟩ := hloads (good.toUTF8 ++ "]".toUTF8)
  refine ⟨⟨hgood, ((hloads _).1 _ _ hgood rfl).1 hgiven⟩,
    ⟨hbad, ((hloads _).1 _ _ hbad rfl).2 hnot⟩,
    hbehind _ _ _ (Settings.isText_of_object hgood hgiven) rfl fun gap hgap heq => ?_⟩
  obtain rfl : "]" = gap := String.toByteArray_inj.mp heq
  cases hgap

end CallLifecycle

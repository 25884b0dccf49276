/-
What a store of settings remembers.

A store reads its file once, when it is opened, and never again.  So what it holds is what was
loaded and, on top of it, the value that each setting was last given; whether saving worked and
what others did to the file does not matter.

The file holds what is in memory whenever saving works, which is unless something stands in the
way or goes wrong.  The file is written as a whole: where that fails, whatever the reason, it stays
as it was, and the next change that is saved, whichever setting it is of, saves all the changes that
were not.  And the file says what it should, because settings are read back from the text that they
are written as.
-/
import CallLifecycle.Proofs.Rereading
import CallLifecycle.SettingsStore

namespace CallLifecycle

/-! ### The file -/

theorem Written.faithful_settings : Written.settingsRecord.Faithful where
  nodup_names := by decide
  rereads _ :=
    ⟨_, .cons (Json.Field.rereads_of Json.Format.faithful_flag ..)
      (.cons (Json.Field.rereads_of Json.Format.faithful_flag ..) .nil), rfl⟩

namespace Settings

/-- The text of a settings file, line by line. -/
theorem fileText_eq (s : Settings) :
    s.fileText = "\x7b\n  \"enforce_transition_table\": " ++ flagWord s.enforceTable ++
      ",\n  \"panic_on_fatal_defect\": " ++ flagWord s.abortOnFatal ++ "\n\x7d" := by
  rcases s with ⟨_ | _, _ | _⟩ <;> rfl

/-- **Settings are read back from their file.** -/
theorem decode_fileText (s : Settings) : Written.settings.decode s.fileText = .ok s :=
  Json.RecordFormat.decode_writeLines s Written.faithful_settings (List.cons_ne_nil _ _)

end Settings

namespace DataDirectory

/-- Whether something stands in the way of the settings file. -/
def isBlocked : DataDirectory → Bool
  | plainFile | directory .directory | unreachable _ => true
  | absent | directory .absent | directory (.file _) => false

/-- What stands at the path of the settings file. -/
def place : DataDirectory → FilePlace
  | directory place => place
  | absent | plainFile | unreachable _ => .absent

theorem write_of_free {disk : DataDirectory} (h : disk.isBlocked = false) (bytes : ByteArray) :
    disk.write bytes = (directory (.file bytes), none) := by
  rcases disk with _ | _ | (_ | bytes | _) | fault <;> first | rfl | cases h

/-- What a write that fails leaves of a disk: all of it, but that there may be a directory where
there was nothing. -/
structure Spared (disk : DataDirectory) (mishap : Option Mishap) (left : DataDirectory) : Prop where
  place : left.place = disk.place
  same (h : mishap = none ∨ disk ≠ absent) : left = disk

/-- A write fails if something stands in its way or goes wrong, and then it spares the file. -/
theorem write_of_failing {disk : DataDirectory} {mishap : Option Mishap}
    (h : disk.isBlocked = true ∨ mishap ≠ none) (bytes : ByteArray) :
    ∃ e left, disk.write bytes mishap = (left, some e) ∧ disk.Spared mishap left := by
  have hself : disk.Spared mishap disk := ⟨rfl, fun _ => rfl⟩
  rcases mishap with _ | reason | reason
  · have hblocked : disk.isBlocked = true := h.resolve_right fun hne => hne rfl
    rcases disk with _ | _ | (_ | bytes | _) | fault
    · cases hblocked
    · exact ⟨_, _, rfl, hself⟩
    · cases hblocked
    · cases hblocked
    · exact ⟨_, _, rfl, hself⟩
    · exact ⟨_, _, rfl, hself⟩
  · exact ⟨.mishap reason, disk, rfl, hself⟩
  · rcases disk with _ | _ | place | fault
    -- The directory is created before the file fails.
    · exact ⟨_, _, rfl, rfl, fun hsame => absurd hsame (by simp)⟩
    · exact ⟨_, _, rfl, hself⟩
    · exact ⟨_, _, rfl, hself⟩
    · exact ⟨_, _, rfl, hself⟩

end DataDirectory

namespace SettingsStore

/-- The disk once a store has saved what it holds. -/
def saved (store : SettingsStore) : DataDirectory :=
  .directory (.file store.copy)

/-- A store is found again on the disk that it saved to, and nothing is amiss. -/
theorem ofDisk_saved (store : SettingsStore) : ofDisk store.file store.saved = (store, []) := by
  have htext : store.saved.readText? = some store.settings.fileText :=
    DataDirectory.readText?_eq_some.mpr rfl
  unfold ofDisk
  rw [htext]
  simp only [Settings.decode_fileText]

/-- A change is assigned in any case, and saved unless something is in the way or goes wrong. -/
theorem change_cases (store : SettingsStore) (disk : DataDirectory) (setting : Setting)
    (mishap : Option Mishap) :
    let new := store.assign setting
    ((disk.isBlocked = false ∧ mishap = none) ∧
      store.change disk setting mishap = ⟨new, new.saved, none, [.settingsSaved store.file]⟩) ∨
    (¬ (disk.isBlocked = false ∧ mishap = none) ∧
      ∃ e left, store.change disk setting mishap = ⟨new, left, some e, []⟩ ∧
        disk.Spared mishap left) := by
  intro new
  by_cases h : disk.isBlocked = false ∧ mishap = none
  · obtain ⟨hfree, rfl⟩ := h
    refine .inl ⟨⟨hfree, rfl⟩, ?_⟩
    rw [change, persist, DataDirectory.write_of_free hfree]
    rfl
  · have hfails : disk.isBlocked = true ∨ mishap ≠ none := by
      rw [not_and_or, Bool.not_eq_false] at h
      exact h
    obtain ⟨e, left, hwrite, hspared⟩ := DataDirectory.write_of_failing hfails new.copy
    refine .inr ⟨h, .settings e.message, left, ?_, hspared⟩
    rw [change, persist, hwrite]

end SettingsStore

/-! ### The settings in memory -/

/-- The value that the setting gives, if it is the one about the table. -/
def Setting.enforceTable? : Setting → Option Bool
  | enforceTable on => some on
  | abortOnFatal _ => none

/-- The value that the setting gives, if it is the one about fatal defects. -/
def Setting.abortOnFatal? : Setting → Option Bool
  | enforceTable _ => none
  | abortOnFatal on => some on

/-- The settings, but for those that were given since: of these the value given last. -/
def Settings.overlaid (loaded : Settings) (given : List Setting) : Settings where
  enforceTable := (given.filterMap Setting.enforceTable?).getLastD loaded.enforceTable
  abortOnFatal := (given.filterMap Setting.abortOnFatal?).getLastD loaded.abortOnFatal

theorem Settings.overlaid_concat (loaded : Settings) (given : List Setting) (setting : Setting) :
    loaded.overlaid (given ++ [setting]) = setting.assign (loaded.overlaid given) := by
  cases setting with
  | enforceTable on => simp [overlaid, Setting.assign, Setting.enforceTable?, Setting.abortOnFatal?]
  | abortOnFatal on => simp [overlaid, Setting.assign, Setting.enforceTable?, Setting.abortOnFatal?]

/-! ### Histories -/

/-- A store and the disk that it saves to. -/
structure StoreOnDisk where
  store : SettingsStore
  disk : DataDirectory
  deriving DecidableEq

/-- Something that happens to a store or its disk. -/
inductive StoreEvent
  /-- A setting is changed, and writing it may go wrong. -/
  | change (setting : Setting) (mishap : Option Mishap := none)
  /-- Others do something to the disk. -/
  | outside (step : DiskStep)
  deriving DecidableEq

/-- The setting that is changed, if one is. -/
def StoreEvent.setting? : StoreEvent → Option Setting
  | change setting _ => some setting
  | outside _ => none

namespace StoreOnDisk

/-- A store that was just opened. -/
def opened (file : String) (disk : DataDirectory) : StoreOnDisk :=
  ⟨(SettingsStore.ofDisk file disk).1, disk⟩

/-- A store and its disk after something happened. -/
def handle (now : StoreOnDisk) : StoreEvent → StoreOnDisk
  | .change setting mishap =>
    let saved := now.store.change now.disk setting mishap
    ⟨saved.store, saved.disk⟩
  | .outside step => { now with disk := now.disk.apply step }

/-- A store and its disk after some things happened, one after the other. -/
def after (now : StoreOnDisk) (events : List StoreEvent) : StoreOnDisk :=
  events.foldl handle now

theorem store_change (now : StoreOnDisk) (setting : Setting) (mishap : Option Mishap) :
    (now.handle (.change setting mishap)).store = now.store.assign setting := by
  rcases now.store.change_cases now.disk setting mishap with ⟨-, hsaved⟩ | ⟨-, e, left, hfailed, -⟩
  · exact congrArg Saved.store hsaved
  · exact congrArg Saved.store hfailed

theorem file_opened (file : String) (disk : DataDirectory) :
    (opened file disk).store.file = file := by
  unfold opened SettingsStore.ofDisk
  split
  · rfl
  · split <;> rfl

/-- A store keeps the name of its file. -/
theorem file_after (events : List StoreEvent) :
    ∀ now : StoreOnDisk, (now.after events).store.file = now.store.file := by
  induction events with
  | nil => intro now; rfl
  | cons event rest ih =>
      intro now
      refine (ih (now.handle event)).trans ?_
      cases event with
      | change setting mishap => rw [store_change]; rfl
      | outside step => rfl

/-- **A store holds what was loaded and what was given last**, saved or not. -/
theorem settings_after (loaded : Settings) (events : List StoreEvent) :
    ∀ (now : StoreOnDisk) (given : List Setting), now.store.settings = loaded.overlaid given →
      (now.after events).store.settings =
        loaded.overlaid (given ++ events.filterMap StoreEvent.setting?) := by
  induction events with
  | nil =>
      intro now given h
      rw [List.filterMap_nil, List.append_nil]
      exact h
  | cons event rest ih =>
      intro now given h
      cases event with
      | change setting mishap =>
          have hgiven : StoreEvent.setting? (.change setting mishap) = some setting := rfl
          have hstep : (now.handle (.change setting mishap)).store.settings =
              loaded.overlaid (given ++ [setting]) := by
            rw [store_change, Settings.overlaid_concat, ← h]
            rfl
          rw [List.filterMap_cons_some hgiven, List.append_cons]
          exact ih _ _ hstep
      | outside step =>
          have hgiven : StoreEvent.setting? (.outside step) = none := rfl
          rw [List.filterMap_cons_none hgiven]
          exact ih (now.handle (.outside step)) given h

end StoreOnDisk

/-- **Settings outlast their store.**  Open a store on any disk, and let settings be changed and
others do what they like to the disk, in any order.  The store holds what was loaded and, on top of
it, the value that each setting was last given, whether it was saved or not.  One more change is
saved if and only if nothing stands in the way of the file and nothing goes wrong; a directory that
is not there does not stand in the way.  If it is saved, the file holds all that the store holds,
line by line, and a store that is opened then is the same, with nothing amiss.  If it is not saved,
for whatever reason, what stands at the path of the file is what stood there; and so is the rest of
the disk, but that a directory may have been created where there was none before writing went
wrong. -/
theorem settings_outlast_their_store (file : String) (disk : DataDirectory)
    (events : List StoreEvent) :
    let loaded := (SettingsStore.ofDisk file disk).1.settings
    let given := events.filterMap StoreEvent.setting?
    let now := (StoreOnDisk.opened file disk).after events
    let lines (s : Settings) : String :=
      "\x7b\n  \"enforce_transition_table\": " ++ flagWord s.enforceTable ++
        ",\n  \"panic_on_fatal_defect\": " ++ flagWord s.abortOnFatal ++ "\n\x7d"
    now.store.settings = loaded.overlaid given ∧
    ∀ setting mishap,
      let saved := now.store.change now.disk setting mishap
      saved.store.settings = loaded.overlaid (given ++ [setting]) ∧
      (saved.failure = none ↔ now.disk.isBlocked = false ∧ mishap = none) ∧
      (saved.failure = none →
        saved.disk = .directory (.file (lines saved.store.settings).toUTF8) ∧
        SettingsStore.ofDisk file saved.disk = (saved.store, [])) ∧
      (saved.failure ≠ none →
        saved.disk.place = now.disk.place ∧
        (mishap = none ∨ now.disk ≠ .absent → saved.disk = now.disk)) := by
  intro loaded given now lines
  have hnow : now.store.settings = loaded.overlaid given :=
    StoreOnDisk.settings_after loaded events _ [] rfl
  have hfile : now.store.file = file :=
    (StoreOnDisk.file_after events _).trans (StoreOnDisk.file_opened file disk)
  refine ⟨hnow, fun setting mishap => ?_⟩
  have hnew : (now.store.assign setting).settings = loaded.overlaid (given ++ [setting]) := by
    rw [Settings.overlaid_concat, ← hnow]
    rfl
  rcases now.store.change_cases now.disk setting mishap with
    ⟨hfree, hsaved⟩ | ⟨hfails, e, left, hfailed, hspared⟩
  · rw [hsaved]
    have hagain := (now.store.assign setting).ofDisk_saved
    rw [show (now.store.assign setting).file = file from hfile] at hagain
    refine ⟨hnew, iff_of_true rfl hfree, fun _ => ⟨?_, hagain⟩, fun h => absurd rfl h⟩
    rw [SettingsStore.saved, SettingsStore.copy, Settings.fileText_eq]
  · rw [hfailed]
    exact ⟨hnew, iff_of_false nofun hfails, nofun, fun _ => ⟨hspared.place, hspared.same⟩⟩

/-- A change cannot be saved, since a plain file is in the way of the directory; once that is gone,
a change of the other setting saves both.  The next finds no room, and the file keeps its bytes. -/
theorem unsaved_change_is_saved_later :
    let events : List StoreEvent :=
      [.outside .makeDirectoryFile, .change (.enforceTable false), .outside .removeDirectory]
    let blocked := (StoreOnDisk.opened "call_config.json" .absent).after (events.take 1)
    let now := (StoreOnDisk.opened "call_config.json" .absent).after events
    let unsaved := blocked.store.change blocked.disk (.enforceTable false)
    let saved := now.store.change now.disk (.abortOnFatal false)
    let later := (StoreOnDisk.opened "call_config.json" .absent).after
      (events ++ [.change (.abortOnFatal false)])
    let noRoom := later.store.change later.disk (.enforceTable true)
      (some (.onFile "No space left on device (os error 28)"))
    (unsaved.failure ≠ none ∧ unsaved.disk = .plainFile) ∧
    now.store.settings = ⟨false, true⟩ ∧
    saved.failure = none ∧
    (SettingsStore.ofDisk "call_config.json" saved.disk).1.settings = ⟨false, false⟩ ∧
    noRoom.failure ≠ none ∧ noRoom.store.settings = ⟨true, false⟩ ∧
    noRoom.disk = later.disk ∧ later.disk.read? = some saved.store.copy := by
  intro events blocked now unsaved saved later noRoom
  obtain ⟨-, hblocked⟩ :=
    settings_outlast_their_store "call_config.json" .absent (events.take 1)
  obtain ⟨-, hfree, -, hasIs⟩ := hblocked (.enforceTable false) none
  have hunsaved : unsaved.failure ≠ none := fun h => Bool.noConfusion (hfree.mp h).1
  obtain ⟨hheld, hnow⟩ := settings_outlast_their_store "call_config.json" .absent events
  obtain ⟨hsettings, hwhen, hfound, -⟩ := hnow (.abortOnFatal false) none
  have hsaved : saved.failure = none := hwhen.mpr ⟨rfl, rfl⟩
  obtain ⟨-, hlater⟩ := settings_outlast_their_store "call_config.json" .absent
    (events ++ [.change (.abortOnFatal false)])
  obtain ⟨hmemory, hroom, -, hkept⟩ := hlater (.enforceTable true)
    (some (.onFile "No space left on device (os error 28)"))
  have hnoRoom : noRoom.failure ≠ none := fun h => Option.some_ne_none _ (hroom.mp h).2
  refine ⟨⟨hunsaved, (hasIs hunsaved).2 (.inl rfl)⟩, hheld, hsaved, ?_, hnoRoom, hmemory,
    (hkept hnoRoom).2 (.inr nofun), rfl⟩
  rw [(hfound hsaved).2]
  exact hsettings

end CallLifecycle

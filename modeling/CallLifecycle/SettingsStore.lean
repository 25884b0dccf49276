/-
A store of settings: in memory, and in a file that outlives it.

Opening a store reads the file.  A file that is missing or is no text counts as
none, and one that does not hold settings counts as none after a warning: there is
never a mixture of what it says and the defaults.

Changing a setting is three steps: the value in memory is assigned, the settings
are copied out of memory, and the copy is written to the file.  The value stays
assigned when writing fails.
-/
import CallLifecycle.CallFailure
import CallLifecycle.DataDirectory
import CallLifecycle.Note
import CallLifecycle.Written

namespace CallLifecycle

/-- One of the settings, with its new value. -/
inductive Setting
  | enforceTable (on : Bool)
  | abortOnFatal (on : Bool)
  deriving DecidableEq

/-- The settings with one of them assigned. -/
def Setting.assign (s : Settings) : Setting → Settings
  | enforceTable on => { s with enforceTable := on }
  | abortOnFatal on => { s with abortOnFatal := on }

/-- The text of a settings file. -/
def Settings.fileText (s : Settings) : String :=
  String.ofList (Written.settingsRecord.writeLines s)

/-- Settings held in memory, and the name of the file that they are saved to. -/
structure SettingsStore where
  file : String
  settings : Settings
  deriving DecidableEq

/-- What a change of a setting leaves behind. -/
structure Saved where
  store : SettingsStore
  disk : DataDirectory
  failure : Option CallFailure
  notes : List Note
  deriving DecidableEq

namespace SettingsStore

/-- Opens a store on what the disk holds now. -/
def ofDisk (file : String) (disk : DataDirectory) : SettingsStore × List Note :=
  match disk.readText? with
  | none => (⟨file, default⟩, [])
  | some text =>
    match Written.settings.decode text with
    | .ok settings => (⟨file, settings⟩, [])
    | .error _ => (⟨file, default⟩, [.settingsIgnored file])

/-- The store with one setting assigned in memory. -/
def assign (store : SettingsStore) (setting : Setting) : SettingsStore :=
  { store with settings := setting.assign store.settings }

/-- The copy of the settings in memory that goes into the file. -/
def copy (store : SettingsStore) : ByteArray :=
  store.settings.fileText.toUTF8

/-- Writes a copy of the settings in memory to the file. -/
def persist (store : SettingsStore) (disk : DataDirectory) (mishap : Option Mishap := none) :
    Saved :=
  match disk.write store.copy mishap with
  | (disk, none) => ⟨store, disk, none, [.settingsSaved store.file]⟩
  | (disk, some e) => ⟨store, disk, some (.settings e.message), []⟩

/-- Changes a setting in memory and in the file. -/
def change (store : SettingsStore) (disk : DataDirectory) (setting : Setting)
    (mishap : Option Mishap := none) : Saved :=
  (store.assign setting).persist disk mishap

end SettingsStore

end CallLifecycle

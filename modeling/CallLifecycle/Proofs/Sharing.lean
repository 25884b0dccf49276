/-
A store of settings that is changed from several sides at once.

A change is three steps: the setting is assigned in memory, memory is copied, the copy is written to
the file.  Memory is locked for each of the first two, and for nothing longer.  So where changes
overlap, their steps may come in any order that keeps the order of each, and a copy may be written
after a later copy was.

A `SharedStore` has the changes that are under way beside the store and its disk, and a schedule
says whose step comes next.  What the file holds in the end is whichever copy was written last: a
schedule is cut where some change copied memory and where it wrote, so that no write comes behind.
That copy is out of date if a setting was assigned after it was taken, and then a change that ended
well is missing from the file: `later_setting_is_missing_from_the_file` is the shortest such
schedule.  It is up to date if every setting was assigned when it was taken.
-/
import Mathlib.Data.List.Induction
import CallLifecycle.Proofs.Remembering

namespace CallLifecycle

/-! ### Changes under way -/

/-- How far a change of a setting has come. -/
inductive Stage
  | begun
  | assigned
  /-- Memory is copied, and the copy is not written yet. -/
  | copied (copy : ByteArray)
  | ended (failure : Option CallFailure)
  deriving DecidableEq

/-- Whether a change has come to its end. -/
def Stage.isEnded : Stage → Bool
  | ended _ => true
  | _ => false

/-- A change of a setting that is under way. -/
structure PendingChange where
  setting : Setting
  stage : Stage := .begun
  deriving DecidableEq

/-- A store and its disk, and the changes of it that are under way. -/
structure SharedStore where
  store : SettingsStore
  disk : DataDirectory
  changes : List PendingChange
  deriving DecidableEq

namespace SharedStore

/-- A store that some changes are about to be made of. -/
def about (store : SettingsStore) (disk : DataDirectory) (settings : List Setting) : SharedStore :=
  ⟨store, disk, settings.map fun setting => ⟨setting, .begun⟩⟩

/-- The store with a change come to another stage. -/
def put (now : SharedStore) (i : Nat) (setting : Setting) (stage : Stage) : SharedStore :=
  { now with changes := now.changes.set i ⟨setting, stage⟩ }

/-- Takes the next step of a change, if it has one. -/
def advance (now : SharedStore) (i : Nat) : SharedStore :=
  match now.changes[i]? with
  | none => now
  | some ⟨setting, stage⟩ =>
    match stage with
    | .begun => { now.put i setting .assigned with store := now.store.assign setting }
    | .assigned => now.put i setting (.copied now.store.copy)
    | .copied copy =>
      match now.disk.write copy with
      | (disk, none) => { now.put i setting (.ended none) with disk := disk }
      | (disk, some e) =>
        { now.put i setting (.ended (some (.settings e.message))) with disk := disk }
    | .ended _ => now

/-- Takes steps of the changes that a schedule names, one after the other. -/
def after (now : SharedStore) (schedule : List Nat) : SharedStore :=
  schedule.foldl advance now

theorem after_concat (now : SharedStore) (schedule : List Nat) (i : Nat) :
    now.after (schedule ++ [i]) = (now.after schedule).advance i :=
  List.foldl_concat ..

/-- A change whose steps come in a row is a change of a store that is not shared. -/
theorem after_of_change {now : SharedStore} {i : Nat} {setting : Setting}
    (h : now.changes[i]? = some ⟨setting, .begun⟩) :
    let saved := now.store.change now.disk setting
    now.after [i, i, i] =
      ⟨saved.store, saved.disk, now.changes.set i ⟨setting, .ended saved.failure⟩⟩ := by
  obtain ⟨hi, -⟩ := List.getElem?_eq_some_iff.mp h
  simp only [after, List.foldl_cons, List.foldl_nil, advance, h, put, List.getElem?_set_self,
    hi, List.set_set, SettingsStore.change, SettingsStore.persist]
  rcases now.disk.write (now.store.assign setting).copy with ⟨disk, _ | e⟩ <;> rfl

/-- The next step of a change copies memory. -/
def Copies (now : SharedStore) (i : Nat) : Prop :=
  ∃ setting, now.changes[i]? = some ⟨setting, .assigned⟩

/-- The next step of a change writes this copy of memory. -/
def Writes (now : SharedStore) (i : Nat) (copy : ByteArray) : Prop :=
  ∃ setting, now.changes[i]? = some ⟨setting, .copied copy⟩

/-! ### One step -/

/-- What a step of a change may be, where nothing is in the way of the file. -/
inductive Step (now : SharedStore) (i : Nat) : SharedStore → Prop
  /-- There is no such change, or none of its steps is left. -/
  | idle (rests : ∀ copy, ¬ now.Writes i copy) : Step now i now
  | assign {setting : Setting} (found : now.changes[i]? = some ⟨setting, .begun⟩) :
      Step now i { now.put i setting .assigned with store := now.store.assign setting }
  | copy {setting : Setting} (found : now.changes[i]? = some ⟨setting, .assigned⟩) :
      Step now i (now.put i setting (.copied now.store.copy))
  | write {setting : Setting} {copy : ByteArray}
      (found : now.changes[i]? = some ⟨setting, .copied copy⟩) :
      Step now i { now.put i setting (.ended none) with disk := .directory (.file copy) }

theorem step_advance {now : SharedStore} (hfree : now.disk.isBlocked = false) (i : Nat) :
    now.Step i (now.advance i) := by
  unfold advance
  split
  · next hnone => exact .idle fun copy ⟨_, hfound⟩ => by cases hnone.symm.trans hfound
  · next setting stage hfound =>
      cases stage with
      | begun => exact .assign hfound
      | assigned => exact .copy hfound
      | copied copy =>
          simp only [DataDirectory.write_of_free hfree]
          exact .write hfound
      | ended failure => exact .idle fun copy ⟨_, hother⟩ => by cases hfound.symm.trans hother

/-- A change that is found is the one that was put there, or was there before. -/
theorem found_of_put {now : SharedStore} {i j : Nat} {setting : Setting} {stage : Stage}
    {change : PendingChange} (h : (now.put i setting stage).changes[j]? = some change) :
    (j = i ∧ change = ⟨setting, stage⟩) ∨ now.changes[j]? = some change := by
  by_cases hj : i = j
  · subst hj
    have hlt : i < now.changes.length := by
      have hput := (List.getElem?_eq_some_iff.mp h).1
      simpa [put] using hput
    refine Or.inl ⟨rfl, ?_⟩
    simpa [put, hlt] using h.symm
  · exact Or.inr (by simpa [put, hj] using h)

/-! ### A schedule -/

section Past

variable (start : SharedStore) (past : List Nat)

/-- A change took a copy of memory, at a step of its own. -/
def Took (i : Nat) (copy : ByteArray) : Prop :=
  ∃ before between, past = before ++ i :: between ∧ (start.after before).Copies i ∧
    copy = (start.after before).store.copy

/-- The last write of a schedule, which is cut in two steps of one change: after `before` it copied
memory, after `between` it wrote the copy, and in `rest` there is no other write. -/
structure LastWrite (i : Nat) (before between rest : List Nat) : Prop where
  cut : past = before ++ i :: (between ++ i :: rest)
  copies : (start.after before).Copies i
  writes : (start.after (before ++ i :: between)).Writes i (start.after before).store.copy
  none_later (later : List Nat) (j : Nat) (h : later ++ [j] <+: rest) (copy : ByteArray) :
    ¬ (start.after (before ++ i :: (between ++ i :: later))).Writes j copy

/-- The disk is as the last write of a schedule left it. -/
def Wrote (disk : DataDirectory) : Prop :=
  ∃ i before between rest, LastWrite start past i before between rest ∧
    disk = (start.after before).store.saved

variable {start past}

theorem Took.later {i : Nat} {copy : ByteArray} (h : Took start past i copy) (j : Nat) :
    Took start (past ++ [j]) i copy := by
  obtain ⟨before, between, rfl, htaken⟩ := h
  exact ⟨before, between ++ [j], by simp, htaken⟩

/-- A step that does not write leaves the last write the last. -/
theorem Wrote.later {disk : DataDirectory} {j : Nat} (h : Wrote start past disk)
    (hrests : ∀ copy, ¬ (start.after past).Writes j copy) : Wrote start (past ++ [j]) disk := by
  obtain ⟨i, before, between, rest, hlast, hdisk⟩ := h
  refine ⟨i, before, between, rest ++ [j], ⟨by simp [hlast.cut], hlast.copies, hlast.writes, ?_⟩,
    hdisk⟩
  intro later k hprefix copy
  rcases List.prefix_concat_iff.mp hprefix with hall | hold
  · obtain ⟨rfl, hself⟩ := List.append_inj' hall rfl
    cases hself
    rw [← hlast.cut]
    exact hrests copy
  · exact hlast.none_later later k hold copy

/-- What a change took is what it writes. -/
theorem Took.wrote {i : Nat} {copy : ByteArray} (h : Took start past i copy)
    (hwrites : (start.after past).Writes i copy) :
    Wrote start (past ++ [i]) (.directory (.file copy)) := by
  obtain ⟨before, between, rfl, hcopies, rfl⟩ := h
  refine ⟨i, before, between, [], ⟨by simp, hcopies, hwrites, ?_⟩, rfl⟩
  intro later j hprefix
  simp at hprefix

end Past

/-- What the steps of a schedule have made of a shared store whose file is free. -/
structure Sound (start : SharedStore) (past : List Nat) (now : SharedStore) : Prop where
  free : now.disk.isBlocked = false
  file : now.store.file = start.store.file
  ended {i : Nat} {setting : Setting} {failure : Option CallFailure}
    (found : now.changes[i]? = some ⟨setting, .ended failure⟩) : failure = none
  took {i : Nat} {setting : Setting} {copy : ByteArray}
    (found : now.changes[i]? = some ⟨setting, .copied copy⟩) : Took start past i copy
  wrote {i : Nat} {setting : Setting} {failure : Option CallFailure}
    (found : now.changes[i]? = some ⟨setting, .ended failure⟩) : Wrote start past now.disk

namespace Sound

variable {start now : SharedStore} {past : List Nat}

theorem about {store : SettingsStore} {disk : DataDirectory} (hfree : disk.isBlocked = false)
    (settings : List Setting) :
    Sound (about store disk settings) [] (about store disk settings) where
  free := hfree
  file := rfl
  ended found := by simp [SharedStore.about] at found
  took found := by simp [SharedStore.about] at found
  wrote found := by simp [SharedStore.about] at found

/-- A step that neither writes nor ends a change leaves the disk, and all that has ended. -/
theorem put (h : Sound start past now) (hnow : now = start.after past) {i : Nat}
    {setting : Setting} {stage : Stage} {store : SettingsStore}
    (hfile : store.file = now.store.file) (hstage : stage.isEnded = false)
    (hrests : ∀ copy, ¬ now.Writes i copy)
    (htook : ∀ copy, stage = .copied copy → now.Copies i ∧ copy = now.store.copy) :
    Sound start (past ++ [i]) { now.put i setting stage with store := store } where
  free := h.free
  file := hfile.trans h.file
  ended found := by
    rcases found_of_put found with ⟨-, hnew⟩ | hold
    · cases hnew
      cases hstage
    · exact h.ended hold
  took found := by
    rcases found_of_put found with ⟨rfl, hnew⟩ | hold
    · cases hnew
      exact ⟨past, [], rfl, hnow ▸ htook _ rfl⟩
    · exact (h.took hold).later i
  wrote found := by
    rcases found_of_put found with ⟨-, hnew⟩ | hold
    · cases hnew
      cases hstage
    · exact (h.wrote hold).later (hnow ▸ hrests)

/-- A step that writes ends its change well, and from then on the file holds what it wrote. -/
theorem write (h : Sound start past now) (hnow : now = start.after past) {i : Nat}
    {setting : Setting} {copy : ByteArray}
    (found : now.changes[i]? = some ⟨setting, .copied copy⟩) :
    Sound start (past ++ [i])
      { now.put i setting (.ended none) with disk := .directory (.file copy) } where
  free := rfl
  file := h.file
  ended found := by
    rcases found_of_put found with ⟨-, hnew⟩ | hold
    · cases hnew
      rfl
    · exact h.ended hold
  took found := by
    rcases found_of_put found with ⟨-, hnew⟩ | hold
    · cases hnew
    · exact (h.took hold).later i
  wrote _ := (h.took found).wrote (hnow ▸ ⟨setting, found⟩)

theorem advance (h : Sound start past now) (hnow : now = start.after past) (i : Nat) :
    Sound start (past ++ [i]) (now.advance i) := by
  have hother : ∀ {setting stage}, now.changes[i]? = some ⟨setting, stage⟩ →
      (∀ copy, stage ≠ .copied copy) → ∀ copy, ¬ now.Writes i copy := by
    rintro setting stage hfound hstage copy ⟨_, hcopied⟩
    cases hfound.symm.trans hcopied
    exact hstage copy rfl
  have hstep := step_advance h.free i
  generalize now.advance i = next at hstep
  cases hstep with
  | idle hrests =>
      exact ⟨h.free, h.file, h.ended, fun found => (h.took found).later i,
        fun found => (h.wrote found).later (hnow ▸ hrests)⟩
  | assign found => exact h.put hnow rfl rfl (hother found nofun) nofun
  | copy found =>
      refine h.put hnow rfl rfl (hother found nofun) ?_
      rintro copy ⟨⟩
      exact ⟨⟨_, found⟩, rfl⟩
  | write found => exact h.write hnow found

/-- **What holds before the first step of a schedule holds after the last.** -/
theorem after (h : Sound start [] start) (schedule : List Nat) :
    Sound start schedule (start.after schedule) := by
  induction schedule using List.reverseRecOn with
  | nil => exact h
  | append_singleton past i ih =>
      rw [after_concat]
      exact ih.advance rfl i

end Sound

/-! ### Once every setting is assigned -/

/-- Every change has assigned its setting. -/
def AllAssigned (now : SharedStore) : Prop :=
  ∀ change ∈ now.changes, change.stage ≠ .begun

namespace AllAssigned

variable {now : SharedStore}

theorem put (h : now.AllAssigned) (i : Nat) (setting : Setting) (stage : Stage)
    (hstage : stage ≠ .begun) : (now.put i setting stage).AllAssigned := by
  intro change hmem
  rcases List.mem_or_eq_of_mem_set hmem with hold | rfl
  · exact h change hold
  · exact hstage

/-- Then every later step leaves memory as it is. -/
theorem advance (h : now.AllAssigned) (i : Nat) :
    (now.advance i).AllAssigned ∧ (now.advance i).store = now.store := by
  unfold SharedStore.advance
  split
  · exact ⟨h, rfl⟩
  · next setting stage hfound =>
      cases stage with
      | begun => exact absurd rfl (h _ (List.mem_of_getElem? hfound))
      | assigned => exact ⟨h.put i setting (.copied _) nofun, rfl⟩
      | copied copy =>
          dsimp only
          split <;> exact ⟨h.put i setting (.ended _) nofun, rfl⟩
      | ended failure => exact ⟨h, rfl⟩

theorem after (h : now.AllAssigned) (schedule : List Nat) :
    (now.after schedule).AllAssigned ∧ (now.after schedule).store = now.store := by
  induction schedule generalizing now with
  | nil => exact ⟨h, rfl⟩
  | cons i rest ih =>
      obtain ⟨hnext, hstore⟩ := h.advance i
      obtain ⟨hlater, hsame⟩ := ih hnext
      exact ⟨hlater, hsame.trans hstore⟩

end AllAssigned

theorem length_advance (now : SharedStore) (i : Nat) :
    (now.advance i).changes.length = now.changes.length := by
  unfold advance
  split
  · rfl
  · rename_i setting stage _
    cases stage with
    | begun => simp [put]
    | assigned => simp [put]
    | copied copy =>
        dsimp only
        split <;> simp [put]
    | ended failure => rfl

theorem length_after (now : SharedStore) (schedule : List Nat) :
    (now.after schedule).changes.length = now.changes.length := by
  induction schedule generalizing now with
  | nil => rfl
  | cons i rest ih => exact (ih (now.advance i)).trans (now.length_advance i)

end SharedStore

/-- **The file holds the copy that was written last.**  Let some changes be made of a store whose
file is free, and let their steps be taken in any order until all of them have ended.  Then all have
ended well.  One of them copied memory at a step of its own, wrote the copy at another, and no write
came after that one; this copy is what the file holds, and what a store that is opened then has,
with nothing amiss.  That is all that the store itself has, if every setting was assigned when
memory was copied. -/
theorem file_holds_the_copy_written_last (store : SettingsStore) (disk : DataDirectory)
    (settings : List Setting) (schedule : List Nat) (hfree : disk.isBlocked = false)
    (hsome : settings ≠ [])
    (hended : ∀ change ∈ ((SharedStore.about store disk settings).after schedule).changes,
      change.stage.isEnded = true) :
    let start := SharedStore.about store disk settings
    let last := start.after schedule
    (∀ change ∈ last.changes, change.stage = .ended none) ∧
    ∃ i before between rest, schedule = before ++ i :: (between ++ i :: rest) ∧
      let copied := start.after before
      copied.Copies i ∧ (start.after (before ++ i :: between)).Writes i copied.store.copy ∧
      (∀ later j, later ++ [j] <+: rest → ∀ copy,
        ¬ (start.after (before ++ i :: (between ++ i :: later))).Writes j copy) ∧
      last.disk = copied.store.saved ∧
      SettingsStore.ofDisk store.file last.disk = (copied.store, []) ∧
      (copied.AllAssigned → copied.store = last.store) := by
  intro start last
  have hstart : start.Sound [] start := .about hfree settings
  have hlast : start.Sound schedule last := hstart.after schedule
  have hstage : ∀ change ∈ last.changes, change.stage = .ended none := by
    rintro ⟨setting, stage⟩ hmem
    obtain ⟨i, hfound⟩ := List.mem_iff_getElem?.mp hmem
    cases stage with
    | ended failure => rw [hlast.ended hfound]
    | begun | assigned | copied => cases hended _ hmem
  refine ⟨hstage, ?_⟩
  -- Some change there was, so some change has ended, and the file is written.
  have hlength : last.changes.length = settings.length :=
    (start.length_after schedule).trans (by simp [start, SharedStore.about])
  obtain ⟨⟨setting, stage⟩, hmem⟩ : ∃ change, change ∈ last.changes :=
    List.exists_mem_of_length_pos (hlength ▸ List.length_pos_of_ne_nil hsome)
  obtain ⟨j, hfound⟩ := List.mem_iff_getElem?.mp hmem
  obtain rfl : stage = .ended none := hstage _ hmem
  obtain ⟨i, before, between, rest, hwrite, hdisk⟩ := hlast.wrote hfound
  have hcopied : start.Sound before (start.after before) := hstart.after before
  refine ⟨i, before, between, rest, hwrite.cut, hwrite.copies, hwrite.writes, hwrite.none_later,
    hdisk, ?_, fun hassigned => ?_⟩
  · have hfile : (start.after before).store.file = store.file := hcopied.file
    rw [hdisk, ← hfile, SettingsStore.ofDisk_saved]
  · have hsplit : last = (start.after before).after (i :: (between ++ i :: rest)) := by
      simp only [last, hwrite.cut, SharedStore.after, List.foldl_append]
    rw [hsplit]
    exact (SharedStore.AllAssigned.after hassigned _).2.symm

/-- Two changes overlap, and both settings are assigned before either is copied: nothing is lost. -/
theorem overlapping_changes_reach_the_file :
    let store : SettingsStore := ⟨"call_config.json", default⟩
    let start := SharedStore.about store .absent [.enforceTable false, .abortOnFatal false]
    let last := start.after [0, 1, 0, 1, 1, 0]
    (∀ change ∈ last.changes, change.stage = .ended none) ∧
    SettingsStore.ofDisk store.file last.disk = (last.store, []) := by
  intro store start last
  have hchanges : last.changes =
      [⟨.enforceTable false, .ended none⟩, ⟨.abortOnFatal false, .ended none⟩] := rfl
  have hended : ∀ change ∈ last.changes, change.stage.isEnded = true := by
    rw [hchanges]
    decide
  obtain ⟨hwell, i, before, between, rest, hcut, ⟨setting, hcopies⟩, -, -, -, hfound, hkept⟩ :=
    file_holds_the_copy_written_last store .absent [.enforceTable false, .abortOnFatal false]
      [0, 1, 0, 1, 1, 0] rfl nofun hended
  refine ⟨hwell, ?_⟩
  -- The first two steps assign, so memory was copied behind them.
  have hassigned : (start.after before).AllAssigned := by
    have hboth : (start.after [0, 1]).AllAssigned := by
      have hnow : (start.after [0, 1]).changes =
          [⟨.enforceTable false, .assigned⟩, ⟨.abortOnFatal false, .assigned⟩] := rfl
      unfold SharedStore.AllAssigned
      rw [hnow]
      decide
    rcases before with _ | ⟨_, _ | ⟨_, before⟩⟩
    · obtain ⟨rfl, -⟩ := List.cons.inj hcut
      cases hcopies
    · obtain ⟨rfl, htail⟩ := List.cons.inj hcut
      obtain ⟨rfl, -⟩ := List.cons.inj htail
      cases hcopies
    · obtain ⟨rfl, htail⟩ := List.cons.inj hcut
      obtain ⟨rfl, -⟩ := List.cons.inj htail
      exact (hboth.after before).1
  rw [hfound, hkept hassigned]

/-- **A later setting may be missing from the file.**  The first change copies memory before the
second assigns its setting, and writes its copy after the second has ended.  Both end well, the
store has both settings, and a store that is opened then has the first alone. -/
theorem later_setting_is_missing_from_the_file :
    let store : SettingsStore := ⟨"call_config.json", default⟩
    let last := (SharedStore.about store .absent
      [.enforceTable false, .abortOnFatal false]).after [0, 0, 1, 1, 1, 0]
    (∀ change ∈ last.changes, change.stage = .ended none) ∧
    last.store.settings = { enforceTable := false, abortOnFatal := false } ∧
    SettingsStore.ofDisk store.file last.disk =
      ({ store with settings := { enforceTable := false, abortOnFatal := true } }, []) := by
  intro store last
  have hdisk : last.disk = ({ store with
      settings := { enforceTable := false, abortOnFatal := true } } : SettingsStore).saved := rfl
  have hchanges : last.changes =
      [⟨.enforceTable false, .ended none⟩, ⟨.abortOnFatal false, .ended none⟩] := rfl
  refine ⟨?_, rfl, by rw [hdisk]; exact SettingsStore.ofDisk_saved _⟩
  rw [hchanges]
  decide

end CallLifecycle

/-
What the parts of an operation leave alone.

An operation is a chain of functions on `Progress`, and most of what is said about
operations is that some part of the scene, or some kind of happening, is not
touched by most of the chain.  Here each part is given its effect on the call and
on what the trace shows, so that nothing later opens the parts again.

Two of the parts decide anything.  `enter` writes the phase and keeps a queued
acceptance only in `accepting`, which is `enter_call`; `notify` is the one source
of notices, and what a notice shows is the scene it was sent from, which is
`mem_deliveries_notify`.
-/
import CallLifecycle.Operation

namespace CallLifecycle

/-! ### What a trace shows

A trace is read through five views, and each of them takes a longer trace apart.
Log lines and reports are seen by `notes` and `defects` only.
-/

namespace Trace

/-- The requests that were made to records, as the record and the kind it is to become. -/
def requests (trace : Trace) : List (Nat × RecordKind) :=
  trace.filterMap fun
    | .requested record kind => some (record, kind)
    | _ => none

section Append

variable (s t : Trace)

@[simp] theorem notes_append : notes (s ++ t) = notes s ++ notes t :=
  List.filterMap_append

@[simp] theorem defects_append : defects (s ++ t) = defects s ++ defects t :=
  List.filterMap_append

@[simp] theorem acceptances_append : acceptances (s ++ t) = acceptances s ++ acceptances t :=
  List.filterMap_append

@[simp] theorem deliveries_append : deliveries (s ++ t) = deliveries s ++ deliveries t :=
  List.filterMap_append

@[simp] theorem requests_append : requests (s ++ t) = requests s ++ requests t :=
  List.filterMap_append

end Append

@[simp] theorem defects_nil : defects [] = [] := rfl

@[simp] theorem acceptances_nil : acceptances [] = [] := rfl

@[simp] theorem deliveries_nil : deliveries [] = [] := rfl

@[simp] theorem requests_nil : requests [] = [] := rfl

section Noted

variable (n : Note) (t : Trace)

@[simp] theorem notes_noted : notes (.noted n :: t) = n :: notes t := rfl

@[simp] theorem defects_noted : defects (.noted n :: t) = defects t := rfl

@[simp] theorem acceptances_noted : acceptances (.noted n :: t) = acceptances t := rfl

@[simp] theorem deliveries_noted : deliveries (.noted n :: t) = deliveries t := rfl

@[simp] theorem requests_noted : requests (.noted n :: t) = requests t := rfl

end Noted

section Reported

variable (reporter : Reporter) (d : Defect)

/-- A defect is reported, and logged next if the reporter logs. -/
theorem happenings_cases :
    reporter.happenings d = [.reported d] ∨
      reporter.happenings d = [.reported d, .noted (.defect d)] := by
  unfold Reporter.happenings
  cases reporter.logs with
  | false => exact Or.inl rfl
  | true => exact Or.inr rfl

@[simp] theorem defects_happenings : defects (reporter.happenings d) = [d] := by
  rcases happenings_cases reporter d with h | h <;> rw [h] <;> rfl

@[simp] theorem acceptances_happenings : acceptances (reporter.happenings d) = [] := by
  rcases happenings_cases reporter d with h | h <;> rw [h] <;> rfl

@[simp] theorem deliveries_happenings : deliveries (reporter.happenings d) = [] := by
  rcases happenings_cases reporter d with h | h <;> rw [h] <;> rfl

@[simp] theorem requests_happenings : requests (reporter.happenings d) = [] := by
  rcases happenings_cases reporter d with h | h <;> rw [h] <;> rfl

end Reported

end Trace

open Trace

/-- The surroundings as the acceptances of a trace leave them. -/
def Surroundings.ran (around : Surroundings) (trace : Trace) : Surroundings :=
  around.applyAll ((acceptances trace).flatMap (·.effects))

namespace Progress

variable (p : Progress)

/-! ### Adding to the trace, and changing the call -/

@[simp] theorem add_scene (happenings : Trace) : (p.add happenings).scene = p.scene := rfl

@[simp] theorem add_trace (happenings : Trace) :
    (p.add happenings).trace = p.trace ++ happenings := rfl

@[simp] theorem mapCall_call (f : Call → Call) :
    (p.mapCall f).scene.call = f p.scene.call := rfl

@[simp] theorem mapCall_trace (f : Call → Call) : (p.mapCall f).trace = p.trace := rfl

@[simp] theorem mapAround_trace (f : Surroundings → Surroundings) :
    (p.mapAround f).trace = p.trace := rfl

/-! ### Telling the listener -/

@[simp] theorem notify_call (change : Change) : (p.notify change).scene.call = p.scene.call := by
  unfold notify
  split
  · rfl
  · split <;> rfl

@[simp] theorem defects_notify (change : Change) :
    defects (p.notify change).trace = defects p.trace := by
  unfold notify
  split
  · rfl
  · split <;> simp [defects]

@[simp] theorem acceptances_notify (change : Change) :
    acceptances (p.notify change).trace = acceptances p.trace := by
  unfold notify
  split
  · rfl
  · split <;> simp [acceptances]

@[simp] theorem requests_notify (change : Change) :
    requests (p.notify change).trace = requests p.trace := by
  unfold notify
  split
  · rfl
  · split <;> simp [requests]

/-- Nothing is lost from the log when a listener is told. -/
theorem notes_subset_notify (change : Change) :
    notes p.trace ⊆ notes (p.notify change).trace := by
  unfold notify
  split
  · exact List.Subset.refl _
  · split <;> simp [notes]

/-- A notice says what it was sent for and shows the scene it was sent from. -/
theorem mem_deliveries_notify {p : Progress} {change : Change} {d : Delivery}
    (h : d ∈ deliveries (p.notify change).trace) :
    d ∈ deliveries p.trace ∨ d.change = change ∧ d.seen = p.scene := by
  unfold notify at h
  split at h
  · exact Or.inl h
  · rename_i i listener _
    split at h
    · exact Or.inl (by simpa using h)
    · rw [mapAround_trace, add_trace, deliveries_append, List.mem_append] at h
      rcases h with hold | hnew
      · exact Or.inl hold
      · have heq : d = ⟨i, change, p.scene⟩ := by simpa [deliveries] using hnew
        exact Or.inr (by simp [heq])

/-! ### Promoting the record -/

@[simp] theorem promoteRecord_call : p.promoteRecord.scene.call = p.scene.call := by
  unfold promoteRecord
  split <;> rfl

@[simp] theorem defects_promoteRecord : defects p.promoteRecord.trace = defects p.trace := by
  unfold promoteRecord
  split <;> simp [defects]

@[simp] theorem acceptances_promoteRecord :
    acceptances p.promoteRecord.trace = acceptances p.trace := by
  unfold promoteRecord
  split <;> simp [acceptances]

@[simp] theorem deliveries_promoteRecord :
    deliveries p.promoteRecord.trace = deliveries p.trace := by
  unfold promoteRecord
  split <;> simp [deliveries]

theorem notes_subset_promoteRecord : notes p.trace ⊆ notes p.promoteRecord.trace := by
  unfold promoteRecord
  split
  · exact List.Subset.refl _
  · simp [notes]

/-- Only a connected call asks anything of its record. -/
theorem promoteRecord_of_phase_ne {p : Progress} (h : p.scene.call.phase ≠ .connected) :
    p.promoteRecord = p := by
  unfold promoteRecord Scene.promotion?
  rw [if_neg h]

/-! ### Discarding what is queued -/

@[simp] theorem discardDeferred_call :
    p.discardDeferred.scene.call = { p.scene.call with deferred := none } := by
  unfold discardDeferred
  split
  · rfl
  · rename_i h
    rw [Bool.not_eq_true, Option.isSome_eq_false_iff, Option.isNone_iff_eq_none] at h
    rw [← h]

@[simp] theorem defects_discardDeferred :
    defects p.discardDeferred.trace = defects p.trace := by
  unfold discardDeferred
  split <;> simp

@[simp] theorem acceptances_discardDeferred :
    acceptances p.discardDeferred.trace = acceptances p.trace := by
  unfold discardDeferred
  split <;> simp

@[simp] theorem deliveries_discardDeferred :
    deliveries p.discardDeferred.trace = deliveries p.trace := by
  unfold discardDeferred
  split <;> simp

/-- Throwing an acceptance away is logged. -/
theorem mem_notes_discardDeferred {p : Progress} (h : p.scene.call.deferred.isSome = true) :
    .deferredDiscarded p.scene.call.label ∈ notes p.discardDeferred.trace := by
  unfold discardDeferred
  rw [if_pos h]
  simp

/-! ### Entering a phase -/

/-- The call is in the phase, and an acceptance stays queued only in `accepting`. -/
@[simp] theorem enter_call (new : Phase) :
    (p.enter new).scene.call =
      { p.scene.call with
        phase := new
        deferred := if new = .accepting then p.scene.call.deferred else none } := by
  unfold enter
  split <;> simp [*]

@[simp] theorem acceptances_enter (new : Phase) :
    acceptances (p.enter new).trace = acceptances p.trace := by
  unfold enter
  split <;> simp

@[simp] theorem deliveries_enter (new : Phase) :
    deliveries (p.enter new).trace = deliveries p.trace := by
  unfold enter
  split <;> simp

/-- A call that leaves `accepting`, or was never in it, says so of what it had queued. -/
theorem mem_notes_enter {p : Progress} {new : Phase} (hnew : new ≠ .accepting)
    (h : p.scene.call.deferred.isSome = true) :
    ∃ label, .deferredDiscarded label ∈ notes (p.enter new).trace := by
  unfold enter
  rw [if_neg hnew]
  exact ⟨_, notes_subset_promoteRecord _ (mem_notes_discardDeferred h)⟩

/-! ### Running an acceptance -/

@[simp] theorem runAcceptance_call (a : Acceptance) :
    (p.runAcceptance a).scene.call = p.scene.call := rfl

@[simp] theorem acceptances_runAcceptance (a : Acceptance) :
    acceptances (p.runAcceptance a).trace = acceptances p.trace ++ [a] := by
  simp [runAcceptance, acceptances]

@[simp] theorem deliveries_runAcceptance (a : Acceptance) :
    deliveries (p.runAcceptance a).trace = deliveries p.trace := by
  simp [runAcceptance, deliveries]

end Progress

end CallLifecycle

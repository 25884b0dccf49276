/-
What an operation asks of records.

A call that is put into `connected`, or linked to a record while it is connected, looks
at the kind of its record and asks for the completed counterpart if there is one.  Both
go through `Progress.promoteRecord`, which knows neither why it is called nor whether it
was called before.

`Outcome.due?` says which record an operation is to promote, by what the operation was
called for and whether it was done.  `Scene.perform_asks` finds of each operation that it
asks just that of just this record, that it writes no other, and that a call gets
connected with a record by nothing else.  An acceptance may write records as it runs, and
what is asked then goes by what the acceptance has left.
-/
import CallLifecycle.Proofs.Episodes

namespace CallLifecycle

open Trace

/-! ### Promoting a record -/

namespace Record

/-- The record once it was promoted, if there is anything to promote. -/
def promote (rec : Record) : Record :=
  match rec.kind.completed? with
  | none => rec
  | some kind => rec.request kind

variable {rec : Record}

theorem promote_of_completed (h : rec.kind.completed? = none) : rec.promote = rec := by
  rw [promote, h]

theorem promote_of_incomplete {kind : RecordKind} (h : rec.kind.completed? = some kind) :
    rec.promote = rec.request kind := by
  rw [promote, h]

end Record

namespace Surroundings

/-- The surroundings once a record was promoted, if one was to be. -/
def promoted (around : Surroundings) : Option Nat → Surroundings
  | none => around
  | some r => around.modifyRecord r Record.promote

/-- What is asked when a record is to be promoted, if one is. -/
def asked (around : Surroundings) (due : Option Nat) : List (Nat × RecordKind) :=
  (due.bind fun r => (around.records[r]?.bind (·.kind.completed?)).map (r, ·)).toList

variable {around : Surroundings}

theorem modifyRecord_congr {i : Nat} {f g : Record → Record}
    (h : ∀ rec, around.records[i]? = some rec → f rec = g rec) :
    around.modifyRecord i f = around.modifyRecord i g := by
  have hlist : around.records.modify i f = around.records.modify i g := by
    refine List.ext_getElem? fun j => ?_
    rw [List.getElem?_modify, List.getElem?_modify]
    by_cases hij : i = j
    · subst hij
      cases hrec : around.records[i]? with
      | none => rfl
      | some rec => simp [h rec hrec]
    · simp [hij]
  unfold modifyRecord
  rw [hlist]

/-- Where a record is not to become anything, promoting it changes nothing. -/
theorem promoted_of_completed {r : Nat}
    (h : around.records[r]?.bind (·.kind.completed?) = none) :
    around.promoted (some r) = around := by
  show around.modifyRecord r Record.promote = around
  rw [modifyRecord_congr (g := id)]
  · unfold modifyRecord
    rw [List.modify_id]
  · intro rec hrec
    rw [hrec] at h
    exact Record.promote_of_completed h

theorem promoted_of_incomplete {r : Nat} {rec : Record} {kind : RecordKind}
    (hrec : around.records[r]? = some rec) (hkind : rec.kind.completed? = some kind) :
    around.promoted (some r) = around.modifyRecord r (Record.request kind) := by
  refine modifyRecord_congr fun found hfound => ?_
  obtain rfl : rec = found := Option.some.inj (hrec.symm.trans hfound)
  exact Record.promote_of_incomplete hkind

end Surroundings

/-- The record that is linked to a call, if the call is connected. -/
def Call.connectedRecord? (call : Call) : Option Nat :=
  if call.phase = .connected then call.record else none

@[simp] theorem Switch.set_connectedRecord? (on : Bool) (call : Call) (switch : Switch) :
    (switch.set on call).connectedRecord? = call.connectedRecord? := by
  cases switch <;> rfl

/-- What a record is to become is decided by the record that the call is connected with. -/
theorem Scene.promotion?_eq (scene : Scene) :
    scene.promotion? = scene.call.connectedRecord?.bind fun r =>
      scene.around.records[r]?.bind fun rec =>
        rec.kind.completed?.map fun kind => ⟨r, rec.kind, kind⟩ := by
  unfold promotion? Call.connectedRecord?
  by_cases hphase : scene.call.phase = .connected
  · rw [if_pos hphase, if_pos hphase]
    simp only [Option.bind_eq_bind, Option.pure_def, Option.map_eq_bind]
    rfl
  · rw [if_neg hphase, if_neg hphase]
    rfl

/-! ### What the parts of an operation ask -/

namespace Progress

variable (p : Progress)

@[simp] theorem requests_discardDeferred :
    requests p.discardDeferred.trace = requests p.trace := by
  unfold discardDeferred
  split <;> simp

@[simp] theorem discardDeferred_around :
    p.discardDeferred.scene.around = p.scene.around := by
  unfold discardDeferred
  split <;> rfl

@[simp] theorem requests_enqueue (a : Acceptance) :
    requests (p.enqueue a).trace = requests p.trace := by
  unfold enqueue
  split <;> simp

@[simp] theorem enqueue_around (a : Acceptance) :
    (p.enqueue a).scene.around = p.scene.around := by
  unfold enqueue
  split <;> rfl

@[simp] theorem requests_carryOut (a : Acceptance) :
    requests (p.carryOut a).trace = requests p.trace := by
  have hlament : requests (a.lament p.scene.call.label) = [] := by
    unfold Acceptance.lament
    cases a.failure <;> rfl
  unfold carryOut runAcceptance
  rw [add_trace, requests_append, hlament, mapAround_trace, add_trace, requests_append,
    List.append_nil]
  exact List.append_nil _

@[simp] theorem notify_records (change : Change) :
    (p.notify change).scene.around.records = p.scene.around.records := by
  unfold notify
  split
  · rfl
  · split <;> rfl

/-- The record of a connected call is asked to become what it is to become, and no other. -/
theorem promoteRecord_asks :
    requests p.promoteRecord.trace =
        requests p.trace ++ p.scene.around.asked p.scene.call.connectedRecord? ∧
      p.promoteRecord.scene.around =
        p.scene.around.promoted p.scene.call.connectedRecord? := by
  unfold promoteRecord
  rw [Scene.promotion?_eq]
  cases hdue : p.scene.call.connectedRecord? with
  | none => exact ⟨(List.append_nil _).symm, rfl⟩
  | some r =>
      cases hrec : p.scene.around.records[r]? with
      | none =>
          rw [Surroundings.promoted_of_completed (by rw [hrec]; rfl)]
          simp [Surroundings.asked, hrec]
      | some rec =>
          cases hkind : rec.kind.completed? with
          | none =>
              rw [Surroundings.promoted_of_completed (by rw [hrec]; exact hkind)]
              simp [Surroundings.asked, hrec, hkind]
          | some kind =>
              rw [Surroundings.promoted_of_incomplete hrec hkind]
              refine ⟨?_, by simp [hrec, hkind, mapAround]⟩
              simp [Surroundings.asked, hrec, hkind, requests]

/-- **Entering `connected` asks the linked record**, and entering any other phase asks nothing. -/
theorem enter_asks (new : Phase) :
    let due := if new = .connected then p.scene.call.record else none
    requests (p.enter new).trace = requests p.trace ++ p.scene.around.asked due ∧
      (p.enter new).scene.around = p.scene.around.promoted due := by
  intro due
  have hpromote : ∀ q : Progress, requests q.trace = requests p.trace →
      q.scene.around = p.scene.around → q.scene.call.connectedRecord? = due →
        requests q.promoteRecord.trace = requests p.trace ++ p.scene.around.asked due ∧
          q.promoteRecord.scene.around = p.scene.around.promoted due := by
    intro q hrequests haround hdue
    rw [← hrequests, ← haround, ← hdue]
    exact q.promoteRecord_asks
  unfold enter
  by_cases hnew : new = .accepting
  · rw [if_pos hnew]
    exact hpromote _ (by simp) rfl rfl
  · rw [if_neg hnew]
    exact hpromote _ (by simp) (by simp [mapCall]) (by simp [Call.connectedRecord?, due])

end Progress

/-! ### What an operation asks -/

/-- Whether an operation is to put a call into `connected`, and has done so once it is done. -/
def Operation.connects (found : Phase) : Operation → Bool
  | setPhase new => new = .connected
  | answer _ => found = .ringingReadyToAnswer
  | engineReady => found = .accepting
  | _ => false

/-- Whether an operation is to link a record. -/
def Operation.links : Operation → Bool
  | linkRecord _ => true
  | _ => false

/-- The record that an operation is to promote: it has put the call into `connected`, or it has
linked a record to a call that is. -/
def Outcome.due? (o : Outcome) (found : Phase) (op : Operation) : Option Nat :=
  if o.reply = .done ∧ (op.connects found = true ∨ op.links = true) then
    o.scene.call.connectedRecord?
  else none

/-- The record that is due is one that the call is now connected with. -/
theorem Outcome.connectedRecord?_of_due? {o : Outcome} {found : Phase} {op : Operation} {r : Nat}
    (h : o.due? found op = some r) : o.scene.call.connectedRecord? = some r := by
  unfold due? at h
  split at h
  · exact h
  · cases h

/-- An operation asks what is due and nothing else; it writes what comes of that and no other
record; and a call is connected with a record by nothing else. -/
structure Scene.Asks (scene : Scene) (op : Operation) (o : Outcome) : Prop where
  requests : requests o.trace =
    (scene.around.ran o.trace).asked (o.due? scene.call.phase op)
  records : o.scene.around.records =
    ((scene.around.ran o.trace).promoted (o.due? scene.call.phase op)).records
  newly : ∀ r, o.scene.call.connectedRecord? = some r →
    scene.call.connectedRecord? = some r ∨ o.due? scene.call.phase op = some r

namespace Scene

variable {scene : Scene} {op : Operation} {p : Progress} {reply : Reply}

/-- What asks nothing is not meant to ask anything, or has not been done. -/
theorem asks_of_unasked
    (hdue : reply = .done → op.connects scene.call.phase = false ∧ op.links = false)
    (hrequests : Trace.requests p.trace = [])
    (hrecords : p.scene.around.records = (scene.around.ran p.trace).records)
    (hnewly : ∀ r, p.scene.call.connectedRecord? = some r →
      scene.call.connectedRecord? = some r) : scene.Asks op (p.outcome reply) := by
  have hnone : (p.outcome reply).due? scene.call.phase op = none := by
    refine if_neg ?_
    rintro ⟨hdone, hop⟩
    obtain ⟨hconnects, hlinks⟩ := hdue hdone
    simp [hconnects, hlinks] at hop
  refine ⟨?_, ?_, fun r h => Or.inl (hnewly r h)⟩
  · rw [hnone]
    exact hrequests
  · rw [hnone]
    exact hrecords

theorem asks_of_silent
    (hdue : reply = .done → op.connects scene.call.phase = false ∧ op.links = false)
    (hrequests : Trace.requests p.trace = []) (hran : acceptances p.trace = [])
    (hrecords : p.scene.around.records = scene.around.records)
    (hnewly : ∀ r, p.scene.call.connectedRecord? = some r →
      scene.call.connectedRecord? = some r) : scene.Asks op (p.outcome reply) := by
  refine asks_of_unasked hdue hrequests ?_ hnewly
  rw [Surroundings.ran, hran]
  exact hrecords

theorem asks_giveUp (thread : Thread) (operation : String) :
    scene.Asks op (scene.giveUp thread operation) :=
  asks_of_silent (by simp) (by simp) (by simp) rfl (fun _ h => h)

theorem asks_refusal (thread : Thread) (operation : String) (d : Defect)
    (hdue : reply = .done → op.connects scene.call.phase = false ∧ op.links = false) :
    scene.Asks op (((scene.checked thread operation).add
      (scene.call.reporter.happenings d)).outcome reply) :=
  asks_of_silent hdue (by simp) (by simp) rfl (fun _ h => h)

/-- Queueing an acceptance takes the call to `accepting`, where nothing is asked. -/
theorem asks_queue (a : Acceptance) (hconnects : op.connects scene.call.phase = false)
    (hlinks : op.links = false) (hrequests : Trace.requests p.trace = [])
    (hran : acceptances p.trace = []) (haround : p.scene.around = scene.around) :
    scene.Asks op
      ((((p.enter .accepting).enqueue a).notify (.phase .accepting)).outcome reply) := by
  obtain ⟨hasked, hleft⟩ := p.enter_asks .accepting
  refine asks_of_silent (fun _ => ⟨hconnects, hlinks⟩) ?_ (by simpa using hran) ?_ ?_
  · rw [Progress.requests_notify, Progress.requests_enqueue, hasked, hrequests]
    rfl
  · rw [Progress.notify_records, Progress.enqueue_around, hleft, haround]
    rfl
  · intro r h
    simp [Call.connectedRecord?] at h

/-- Entering a phase asks the linked record if the phase is `connected`. -/
theorem asks_enter {new : Phase} (hlinks : op.links = false)
    (hdue : reply = .done ∧ op.connects scene.call.phase = true ↔ new = .connected)
    (hrequests : Trace.requests p.trace = [])
    (haround : p.scene.around = scene.around.ran p.trace) :
    scene.Asks op (((p.enter new).notify (.phase new)).outcome reply) := by
  obtain ⟨hasked, hleft⟩ := p.enter_asks new
  have hconnected : (((p.enter new).notify (.phase new)).outcome reply).scene.call.connectedRecord?
      = if new = .connected then p.scene.call.record else none := by
    simp [Call.connectedRecord?]
  have hrecord : (((p.enter new).notify (.phase new)).outcome reply).due? scene.call.phase op =
      if new = .connected then p.scene.call.record else none := by
    unfold Outcome.due?
    rw [hconnected, hlinks, Progress.outcome_reply]
    by_cases hnew : new = .connected
    · obtain ⟨hdone, hop⟩ := hdue.mpr hnew
      rw [if_pos ⟨hdone, Or.inl hop⟩]
    · have hnot : ¬ (reply = .done ∧ (op.connects scene.call.phase = true ∨ false = true)) := by
        rintro ⟨hdone, hop | hop⟩
        · exact hnew (hdue.mp ⟨hdone, hop⟩)
        · cases hop
      rw [if_neg hnot, if_neg hnew]
  have hran : scene.around.ran (((p.enter new).notify (.phase new)).outcome reply).trace =
      p.scene.around := by
    rw [haround, Progress.outcome_trace, Surroundings.ran, Progress.acceptances_notify,
      Progress.acceptances_enter]
    rfl
  refine ⟨?_, ?_, ?_⟩
  · rw [hrecord, hran, Progress.outcome_trace, Progress.requests_notify, hasked, hrequests]
    rfl
  · rw [hrecord, hran, Progress.outcome_scene, Progress.notify_records, hleft]
  · intro r h
    rw [hconnected] at h
    exact Or.inr (hrecord.trans h)

/-- Concluding with an acceptance connects the call just if the operation is done then. -/
theorem asks_conclude (thread : Thread) (a : Acceptance) (hlinks : op.links = false)
    (hop : op.connects scene.call.phase = true) (hrequests : Trace.requests p.trace = [])
    (hran : acceptances p.trace = []) (haround : p.scene.around = scene.around)
    (hcall : p.scene.call.connectedRecord? = scene.call.connectedRecord?) :
    scene.Asks op (p.conclude thread a) := by
  have hrequests : Trace.requests
      ((p.carryOut a).add (p.scene.call.strayed thread "set_state")).trace = [] := by
    simp [hrequests]
  have haround : ((p.carryOut a).add (p.scene.call.strayed thread "set_state")).scene.around =
      scene.around.ran ((p.carryOut a).add (p.scene.call.strayed thread "set_state")).trace := by
    rw [Progress.add_trace, Surroundings.ran, acceptances_append, Progress.acceptances_carryOut,
      hran, ← haround]
    simp [Progress.carryOut, Progress.runAcceptance, Progress.mapAround]
  unfold Progress.conclude
  by_cases hbars : p.scene.call.bars thread "set_state" = true
  · rw [if_pos hbars]
    refine asks_of_unasked (by simp) hrequests ?_ (fun r h => hcall ▸ h)
    rw [haround]
  · rw [if_neg hbars]
    refine asks_enter hlinks ?_ hrequests haround
    unfold Acceptance.verdict Acceptance.target
    cases a.failure with
    | none => simp [hop]
    | some e => simp

/-- A record that was linked is asked if the call is connected already. -/
theorem asks_link (hlinks : op.links = true) (hrequests : Trace.requests p.trace = [])
    (hran : acceptances p.trace = []) (haround : p.scene.around = scene.around) :
    scene.Asks op (p.promoteRecord.outcome .done) := by
  obtain ⟨hasked, hleft⟩ := p.promoteRecord_asks
  have hdue : (p.promoteRecord.outcome .done).due? scene.call.phase op =
      p.scene.call.connectedRecord? := by
    unfold Outcome.due?
    rw [if_pos ⟨rfl, Or.inr hlinks⟩, Progress.outcome_scene, Progress.promoteRecord_call]
  have hsame : scene.around.ran (p.promoteRecord.outcome .done).trace = p.scene.around := by
    rw [Progress.outcome_trace, Surroundings.ran, Progress.acceptances_promoteRecord, hran, haround]
    rfl
  refine ⟨?_, ?_, ?_⟩
  · rw [hdue, hsame, Progress.outcome_trace, hasked, hrequests]
    rfl
  · rw [hdue, hsame, Progress.outcome_scene, hleft]
  · intro r h
    rw [Progress.outcome_scene, Progress.promoteRecord_call] at h
    exact Or.inr (hdue.trans h)

variable (scene) (thread : Thread)

theorem perform_asks_setPhase (new : Phase) :
    scene.Asks (.setPhase new) (scene.perform thread (.setPhase new)) := by
  rw [perform_setPhase]
  split
  · exact asks_giveUp thread _
  · split
    · exact asks_enter rfl (by simp [Operation.connects]) (by simp)
        (by simp [Surroundings.ran, Surroundings.applyAll])
    · exact asks_refusal thread _ _ (by simp)

theorem perform_asks_answer (a : Acceptance) :
    scene.Asks (.answer a) (scene.perform thread (.answer a)) := by
  by_cases hready : scene.call.phase = .ringingReadyToAnswer
  · rw [perform_answer_of_ready hready]
    exact asks_conclude thread a rfl (by simp [Operation.connects, hready]) rfl rfl rfl rfl
  · have hdue : Operation.connects scene.call.phase (.answer a) = false := by
      simp [Operation.connects, hready]
    by_cases hanticipatory : scene.call.phase = .ringingAnticipatory
    · rw [perform_answer_of_anticipatory hanticipatory]
      split
      · exact asks_of_silent (by simp) (by simp) (by simp) rfl (fun _ h => h)
      · exact asks_queue a hdue rfl (by simp) (by simp) rfl
    · rw [perform_answer_of_not_ringing hready hanticipatory]
      exact asks_of_silent (by simp) rfl rfl rfl (fun _ h => h)

theorem perform_asks_engineReady :
    scene.Asks .engineReady (scene.perform thread .engineReady) := by
  by_cases hphase : scene.call.phase = .accepting
  · have hop : Operation.connects scene.call.phase .engineReady = true := by
      simp [Operation.connects, hphase]
    cases hdeferred : scene.call.deferred with
    | some a =>
        rw [perform_engineReady_of_queued hphase hdeferred]
        split
        · exact asks_giveUp thread _
        · exact asks_conclude thread a rfl hop (by simp) (by simp) rfl rfl
    | none =>
        rw [perform_engineReady_of_nothing_queued hphase hdeferred]
        split
        · exact asks_giveUp thread _
        · split
          · exact asks_of_silent (by simp) (by simp) (by simp) rfl (fun _ h => h)
          · exact asks_enter rfl (by simp) (by simp)
              (by simp [Surroundings.ran, Surroundings.applyAll])
  · have hdue : Operation.connects scene.call.phase .engineReady = false := by
      simp [Operation.connects, hphase]
    by_cases hunanswered : scene.call.phase = .answering ∨ scene.call.phase = .ringingAnticipatory
    · rw [perform_engineReady_of_unanswered hunanswered, perform_setPhase]
      split
      · exact asks_giveUp thread _
      · split
        · exact asks_enter rfl (by simp [hdue]) (by simp)
            (by simp [Surroundings.ran, Surroundings.applyAll])
        · exact asks_refusal thread _ _ (by simp)
    · rw [not_or] at hunanswered
      rw [perform_engineReady_of_else hunanswered.1 hunanswered.2 hphase]
      exact asks_of_silent (fun _ => ⟨hdue, rfl⟩) rfl rfl rfl (fun _ h => h)

theorem perform_asks_linkRecord (record : Nat) :
    scene.Asks (.linkRecord record) (scene.perform thread (.linkRecord record)) := by
  rw [perform_linkRecord]
  split
  · exact asks_giveUp thread _
  · split
    · exact asks_refusal thread _ _ (by simp)
    · exact asks_link rfl (by simp) (by simp) rfl

/-- **Every operation asks what is due.** -/
theorem perform_asks (op : Operation) : scene.Asks op (scene.perform thread op) := by
  cases op with
  | setPhase new => exact perform_asks_setPhase scene thread new
  | awaitMedia a =>
      rw [perform_awaitMedia]
      split
      · exact asks_giveUp thread _
      · split
        · exact asks_queue a rfl rfl (by simp) (by simp) rfl
        · exact asks_refusal thread _ _ (by simp)
  | deferAcceptance a =>
      rw [perform_deferAcceptance]
      split
      · exact asks_giveUp thread _
      · split
        · exact asks_of_silent (fun _ => ⟨rfl, rfl⟩) (by simp) (by simp) (by simp)
            (by simp [Call.connectedRecord?])
        · exact asks_refusal thread _ _ (by simp)
  | handOver =>
      rw [perform_handOver]
      split
      · exact asks_giveUp thread _
      · exact asks_of_silent (by simp) (by simp) (by simp) rfl (fun _ h => h)
  | answer a => exact perform_asks_answer scene thread a
  | engineReady => exact perform_asks_engineReady scene thread
  | linkRecord record => exact perform_asks_linkRecord scene thread record
  | assignSignalingId id =>
      rw [perform_assignSignalingId]
      split
      · exact asks_giveUp thread _
      · rcases scene.call.reassignment_eq id with h | ⟨n, h⟩
        · exact asks_of_silent (fun _ => ⟨rfl, rfl⟩) (by simp [h]) (by simp [h]) rfl
            (fun _ h => h)
        · exact asks_of_silent (fun _ => ⟨rfl, rfl⟩) (by simp [h]) (by simp [h]) rfl
            (fun _ h => h)
  | setSwitch switch on =>
      rw [perform_setSwitch]
      split
      · exact asks_giveUp thread _
      · exact asks_of_silent (fun _ => ⟨rfl, rfl⟩) (by simp) (by simp)
          (Progress.notify_records _ _) (by simp)
  | setRoute route =>
      rw [perform_setRoute]
      split
      · exact asks_giveUp thread _
      · exact asks_of_silent (fun _ => ⟨rfl, rfl⟩) (by simp) (by simp) rfl (fun _ h => h)
  | attach listener =>
      rw [perform_attach]
      split
      · exact asks_giveUp thread _
      · exact asks_of_silent (fun _ => ⟨rfl, rfl⟩) (by simp) (by simp) rfl (fun _ h => h)
  | detach =>
      rw [perform_detach]
      split
      · exact asks_giveUp thread _
      · exact asks_of_silent (fun _ => ⟨rfl, rfl⟩) (by simp) (by simp) rfl (fun _ h => h)
  | register =>
      rw [perform_register]
      split
      · exact asks_giveUp thread _
      · exact asks_of_silent (fun _ => ⟨rfl, rfl⟩) (by simp) (by simp) rfl (fun _ h => h)
  | deregister =>
      rw [perform_deregister]
      split
      · exact asks_giveUp thread _
      · split
        · exact asks_of_silent (fun _ => ⟨rfl, rfl⟩) (by simp) (by simp) rfl (fun _ h => h)
        · exact asks_refusal thread _ _ (fun _ => ⟨rfl, rfl⟩)

end Scene

/-- A record that is refused because there is one already leaves all as it was. -/
theorem Scene.perform_relink (scene : Scene) (h : scene.call.record.isSome = true)
    (thread : Thread) (record : Nat) :
    (scene.perform thread (.linkRecord record)).scene = scene ∧
      requests (scene.perform thread (.linkRecord record)).trace = [] := by
  rw [perform_linkRecord, if_pos h]
  split
  · exact ⟨rfl, by simp [giveUp]⟩
  · exact ⟨rfl, by simp⟩

/-- A record that an episode has linked is the one that the call then has. -/
theorem Episode.op_of_links (e : Episode) {r : Nat} (hdone : e.outcome.reply = .done)
    (hlinks : e.op.links = true) (hrecord : e.outcome.scene.call.record = some r) :
    e.op = .linkRecord r := by
  obtain ⟨scene, thread, op⟩ := e
  cases op with
  | linkRecord record =>
      unfold Episode.outcome at hdone hrecord
      rw [Scene.perform_linkRecord] at hdone hrecord
      split at hdone
      · cases hdone
      · split at hdone
        · cases hdone
        · rename_i hbars hlinked
          rw [if_neg hbars, if_neg hlinked] at hrecord
          rw [Progress.outcome_scene, Progress.promoteRecord_call] at hrecord
          rw [Option.some.inj hrecord]
  | _ => cases hlinks

end CallLifecycle

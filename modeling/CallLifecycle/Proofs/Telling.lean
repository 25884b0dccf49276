/-
A listener is told last.

Whoever is called back reads the call, and may act on what it reads.  So a notice
must not come before the operation it tells of is done: not between the writing of
a phase and the clearing of the queue, not before a record is promoted, not before
an acceptance has run.  And an operation that is made of others must not tell twice.

An operation that has told nobody yet is `Quiet`, and so is every part of one but
the telling.  `Scene.perform_tells` finds of each operation that it ends quiet, with
all that a listener is told of as it was, or that the last thing it does is to tell
of one change, and that the call has changed by just that.  What a notice shows is
then what the operation leaves behind, because the telling itself writes nothing but
the queue of a listener.
-/
import CallLifecycle.Proofs.Episodes
import CallLifecycle.Snapshot

namespace CallLifecycle

open Trace

/-! ### What a listener is told of -/

/-- What of a call its listener is told of. -/
structure Face where
  phase : Phase
  isOver : Bool
  audioMuted : Bool
  localVideo : Bool
  onHold : Bool
  remoteVideo : Bool
  remoteSharing : Bool
  deriving DecidableEq

namespace Face

/-- The face once a change has come; of video, a change tells that it is muted. -/
def revise (face : Face) : Change → Face
  | .phase new => { face with phase := new, isOver := new.isOver }
  | .localVideoMute muted => { face with localVideo := !muted }
  | .localAudioMute muted => { face with audioMuted := muted }
  | .hold held => { face with onHold := held }
  | .remoteVideoMute muted => { face with remoteVideo := !muted }
  | .remoteSharing sharing => { face with remoteSharing := sharing }

end Face

/-- What a snapshot shows of that which a listener is told of. -/
def Snapshot.face (s : Snapshot) : Face :=
  ⟨s.phase, s.isOver, s.audioMuted, s.localVideo, s.onHold, s.remoteVideo, s.remoteSharing⟩

/-- Whether a snapshot shows what a change says. -/
def Snapshot.Shows (s : Snapshot) : Change → Prop
  | .phase new => s.phase = new ∧ s.isOver = new.isOver
  | .localVideoMute muted => muted = !s.localVideo
  | .localAudioMute muted => s.audioMuted = muted
  | .hold held => s.onHold = held
  | .remoteVideoMute muted => muted = !s.remoteVideo
  | .remoteSharing sharing => s.remoteSharing = sharing

/-- A snapshot that was brought up to date by a change shows it. -/
theorem Snapshot.shows_of_face {s : Snapshot} {face : Face} {change : Change}
    (h : s.face = face.revise change) : s.Shows change := by
  have hphase := congrArg Face.phase h
  have hover := congrArg Face.isOver h
  have haudio := congrArg Face.audioMuted h
  have hvideo := congrArg Face.localVideo h
  have hhold := congrArg Face.onHold h
  have hremote := congrArg Face.remoteVideo h
  have hsharing := congrArg Face.remoteSharing h
  cases change with
  | phase new => exact ⟨hphase, hover⟩
  | localVideoMute muted =>
      show muted = !s.face.localVideo
      rw [hvideo]
      exact (Bool.not_not muted).symm
  | localAudioMute muted => exact haudio
  | hold held => exact hhold
  | remoteVideoMute muted =>
      show muted = !s.face.remoteVideo
      rw [hremote]
      exact (Bool.not_not muted).symm
  | remoteSharing sharing => exact hsharing

namespace Call

/-- What of a call its listener is told of, as it is now. -/
def face (call : Call) : Face :=
  ⟨call.phase, call.isOver, call.audioMuted, call.localVideo, call.onHold, call.remoteVideo,
    call.remoteSharing⟩

@[simp] theorem observe_face (call : Call) (around : Surroundings) :
    (call.observe around).face = call.face := rfl

end Call

/-- Setting a switch is what the listener is then told of. -/
theorem Switch.set_face (on : Bool) (call : Call) (switch : Switch) :
    (switch.set on call).face = call.face.revise (switch.change on) := by
  cases switch <;> simp [set, change, Call.face, Call.isOver, Face.revise]

namespace Progress

variable (p : Progress)

theorem enter_face (new : Phase) :
    (p.enter new).scene.call.face = p.scene.call.face.revise (.phase new) := by
  rw [enter_call]
  rfl

theorem enqueue_face (a : Acceptance) : (p.enqueue a).scene.call.face = p.scene.call.face := by
  rw [enqueue_call]
  rfl

end Progress

/-! ### Nobody is told yet -/

/-- Whether a happening is that a listener is told of something, be the notice read or not. -/
def Happening.isTelling : Happening → Bool
  | notified .. | noted .receiverGone => true
  | _ => false

namespace Trace

/-- What of a trace is that a listener is told of something. -/
def tellings (trace : Trace) : Trace :=
  trace.filter Happening.isTelling

@[simp] theorem tellings_append (s t : Trace) : tellings (s ++ t) = tellings s ++ tellings t :=
  List.filter_append s t

@[simp] theorem tellings_happenings (reporter : Reporter) (d : Defect) :
    tellings (reporter.happenings d) = [] := by
  rcases happenings_cases reporter d with h | h <;> rw [h] <;> rfl

theorem not_mem_of_tellings {t : Trace} (h : tellings t = []) (happening : Happening)
    (htelling : happening.isTelling = true) : happening ∉ t := by
  intro hmem
  have hin : happening ∈ tellings t := List.mem_filter.mpr ⟨hmem, htelling⟩
  rw [h] at hin
  cases hin

/-- A telling that comes after nobody was told of anything is the one that was added. -/
theorem eq_last_of_tellings {t before later : Trace} {added told : Happening}
    (h : tellings t = []) (htelling : told.isTelling = true)
    (heq : t ++ [added] = before ++ told :: later) : later = [] ∧ told = added := by
  rcases List.eq_nil_or_concat later with rfl | ⟨rest, last, rfl⟩
  · obtain ⟨-, hlast⟩ := List.append_inj' heq rfl
    exact ⟨rfl, (List.cons.inj hlast).1.symm⟩
  · -- Something would come after it, and so it would have come before what was added.
    rw [List.concat_eq_append, ← List.cons_append, ← List.append_assoc] at heq
    obtain ⟨hbefore, -⟩ := List.append_inj' heq rfl
    exact absurd (by rw [hbefore]; simp) (not_mem_of_tellings h told htelling)

end Trace

@[simp] theorem Call.tellings_strayed (call : Call) (thread : Thread) (operation : String) :
    tellings (call.strayed thread operation) = [] := by
  unfold strayed
  split
  · rfl
  · exact tellings_happenings _ _

theorem Call.tellings_reassignment (call : Call) (id : UInt64) :
    tellings (call.reassignment id) = [] := by
  unfold reassignment
  split
  · rfl
  · split <;> rfl

theorem Call.acceptances_reassignment (call : Call) (id : UInt64) :
    acceptances (call.reassignment id) = [] := by
  rcases call.reassignment_eq id with h | ⟨n, h⟩
  · rw [h, acceptances_nil]
  · rw [h, acceptances_noted, acceptances_nil]

theorem Switch.tellings_note (old new : Bool) (switch : Switch) :
    tellings [.noted (switch.note old new)] = [] := by
  cases switch <;> rfl

namespace Surroundings

/-- What steps from outside make of the listeners goes by the listeners alone. -/
theorem applyAll_listeners {a b : Surroundings} (h : a.listeners = b.listeners)
    (steps : List OutsideStep) : (a.applyAll steps).listeners = (b.applyAll steps).listeners := by
  induction steps generalizing a b with
  | nil => exact h
  | cons step rest ih =>
      refine ih ?_
      cases step with
      | contactChange i new => exact h
      | recordChange i kind => exact h
      | listenerDrop i => exact congrArg (·.modify i Listener.drop) h
      | receiverDrop i => exact congrArg (·.modify i Listener.close) h
      | receiverDrain i => exact congrArg (·.modify i Listener.drain) h

theorem applyAll_append (around : Surroundings) (s t : List OutsideStep) :
    around.applyAll (s ++ t) = (around.applyAll s).applyAll t :=
  List.foldl_append

end Surroundings

/-- An operation that began in a scene has told nobody of anything, and the listeners are as the
acceptances that ran have left them. -/
structure Progress.Quiet (scene : Scene) (p : Progress) : Prop where
  hushed : tellings p.trace = []
  listeners : p.scene.around.listeners =
    (scene.around.applyAll ((acceptances p.trace).flatMap (·.effects))).listeners

namespace Progress.Quiet

variable {scene : Scene} {p : Progress}

/-- A scene in which something was noted at most. -/
theorem of_trace {trace : Trace} (hushed : tellings trace = []) (hran : acceptances trace = []) :
    Quiet scene ⟨scene, trace⟩ := by
  refine ⟨hushed, ?_⟩
  rw [hran]
  rfl

theorem checked (scene : Scene) (thread : Thread) (operation : String) :
    Quiet scene (scene.checked thread operation) :=
  of_trace (by simp) (by simp)

theorem add (h : p.Quiet scene) (trace : Trace) (hushed : tellings trace = [])
    (hran : acceptances trace = []) : (p.add trace).Quiet scene := by
  refine ⟨?_, ?_⟩
  · rw [add_trace, tellings_append, h.hushed, hushed, List.append_nil]
  · rw [add_trace, acceptances_append, hran, List.append_nil]
    exact h.listeners

theorem report (h : p.Quiet scene) (reporter : Reporter) (d : Defect) :
    (p.add (reporter.happenings d)).Quiet scene :=
  h.add _ (by simp) (by simp)

theorem mapCall (h : p.Quiet scene) (f : Call → Call) : (p.mapCall f).Quiet scene :=
  ⟨h.hushed, h.listeners⟩

theorem discardDeferred (h : p.Quiet scene) : p.discardDeferred.Quiet scene := by
  unfold Progress.discardDeferred
  split
  · exact (h.mapCall _).add _ rfl rfl
  · exact h

/-- A record that is promoted is no listener's business. -/
theorem promoteRecord (h : p.Quiet scene) : p.promoteRecord.Quiet scene := by
  unfold Progress.promoteRecord
  split
  · exact h
  · rename_i due _
    have hasked := h.add [.noted (.recordPromoted due.old due.new p.scene.call.label),
      .requested due.record due.new] rfl rfl
    exact ⟨hasked.hushed, hasked.listeners⟩

theorem enter (h : p.Quiet scene) (new : Phase) : (p.enter new).Quiet scene := by
  unfold Progress.enter
  have hmoved := (h.mapCall ({ · with phase := new })).add
    [.noted (.phaseChanged p.scene.call.phase new p.scene.call.label)] rfl rfl
  by_cases hnew : new = .accepting
  · rw [if_pos hnew]
    exact hmoved.promoteRecord
  · rw [if_neg hnew]
    exact hmoved.discardDeferred.promoteRecord

theorem enqueue (h : p.Quiet scene) (a : Acceptance) : (p.enqueue a).Quiet scene := by
  unfold Progress.enqueue
  split
  · exact (h.mapCall _).report _ _
  · exact h.mapCall _

/-- What an acceptance does to the listeners, it does when it runs. -/
theorem carryOut (h : p.Quiet scene) (a : Acceptance) : (p.carryOut a).Quiet scene := by
  have hlament : tellings (a.lament p.scene.call.label) = [] := by
    unfold Acceptance.lament
    cases a.failure <;> rfl
  refine ⟨?_, ?_⟩
  · unfold Progress.carryOut runAcceptance
    rw [add_trace, mapAround_trace, add_trace, tellings_append, tellings_append, h.hushed, hlament]
    rfl
  · rw [acceptances_carryOut, List.flatMap_append, Surroundings.applyAll_append,
      List.flatMap_singleton]
    exact Surroundings.applyAll_listeners h.listeners a.effects

end Progress.Quiet

/-! ### How an operation tells -/

/-- How an operation that began in a scene may end, as far as listeners go. -/
inductive Scene.Tells (scene : Scene) : Outcome → Prop
  /-- Nobody is told of anything, and nothing has changed that a listener is told of. -/
  | nobody {p : Progress} {reply : Reply} (quiet : p.Quiet scene)
      (same : p.scene.call.face = scene.call.face) : scene.Tells (p.outcome reply)
  /-- Last of all the listener is told of one change, and the call has changed by that. -/
  | last {p : Progress} {change : Change} {reply : Reply} (quiet : p.Quiet scene)
      (news : p.scene.call.face = scene.call.face.revise change) :
      scene.Tells ((p.notify change).outcome reply)

namespace Scene

variable (scene : Scene) (thread : Thread)

theorem tells_giveUp (operation : String) : scene.Tells (scene.giveUp thread operation) :=
  .nobody (.checked scene thread operation) rfl

theorem tells_refusal (operation : String) (d : Defect) (reply : Reply) :
    scene.Tells (((scene.checked thread operation).add
      (scene.call.reporter.happenings d)).outcome reply) :=
  .nobody ((Progress.Quiet.checked scene thread operation).report _ d) rfl

/-- Entering a phase is told of when all that comes with it is done. -/
theorem tells_enter {scene : Scene} {p : Progress} (quiet : p.Quiet scene)
    (same : p.scene.call.face = scene.call.face) (new : Phase) (reply : Reply) :
    scene.Tells (((p.enter new).notify (.phase new)).outcome reply) :=
  .last (quiet.enter new) (by rw [Progress.enter_face, same])

theorem tells_conclude {scene : Scene} {p : Progress} (quiet : p.Quiet scene)
    (same : p.scene.call.face = scene.call.face) (thread : Thread) (a : Acceptance) :
    scene.Tells (p.conclude thread a) := by
  have hrun : ((p.carryOut a).add (p.scene.call.strayed thread "set_state")).Quiet scene :=
    (quiet.carryOut a).add _ (by simp) (by simp)
  unfold Progress.conclude
  by_cases hb : p.scene.call.bars thread "set_state" = true
  · rw [if_pos hb]
    exact .nobody hrun same
  · rw [if_neg hb]
    exact tells_enter hrun same _ _

theorem tells_queue {scene : Scene} {p : Progress} (quiet : p.Quiet scene)
    (same : p.scene.call.face = scene.call.face) (a : Acceptance) (reply : Reply) :
    scene.Tells ((((p.enter .accepting).enqueue a).notify (.phase .accepting)).outcome reply) :=
  .last ((quiet.enter _).enqueue a) (by rw [Progress.enqueue_face, Progress.enter_face, same])

theorem perform_tells_setPhase (new : Phase) :
    scene.Tells (scene.perform thread (.setPhase new)) := by
  rw [perform_setPhase]
  split
  · exact tells_giveUp scene thread _
  · split
    · exact tells_enter (.checked scene thread _) rfl _ _
    · exact tells_refusal scene thread _ _ _

theorem perform_tells_answer (a : Acceptance) :
    scene.Tells (scene.perform thread (.answer a)) := by
  by_cases hready : scene.call.phase = .ringingReadyToAnswer
  · rw [perform_answer_of_ready hready]
    exact tells_conclude (.of_trace rfl rfl) rfl thread a
  · by_cases hanticipatory : scene.call.phase = .ringingAnticipatory
    · have hnoted : Progress.Quiet scene ⟨scene, .noted (.acceptanceDeferred scene.call.label) ::
          scene.call.strayed thread "begin_accepting"⟩ :=
        .of_trace (scene.call.tellings_strayed thread _) (by simp)
      rw [perform_answer_of_anticipatory hanticipatory]
      split
      · exact .nobody hnoted rfl
      · exact tells_queue hnoted rfl a _
    · rw [perform_answer_of_not_ringing hready hanticipatory]
      exact .nobody (.of_trace rfl rfl) rfl

theorem perform_tells_engineReady : scene.Tells (scene.perform thread .engineReady) := by
  by_cases hunanswered : scene.call.phase = .answering ∨ scene.call.phase = .ringingAnticipatory
  · rw [perform_engineReady_of_unanswered hunanswered]
    exact perform_tells_setPhase scene thread _
  · by_cases hphase : scene.call.phase = .accepting
    · have hchecked := Progress.Quiet.checked scene thread "take_deferred_acceptance"
      cases hdeferred : scene.call.deferred with
      | some a =>
          rw [perform_engineReady_of_queued hphase hdeferred]
          split
          · exact tells_giveUp scene thread _
          · exact tells_conclude (hchecked.mapCall _) rfl thread a
      | none =>
          rw [perform_engineReady_of_nothing_queued hphase hdeferred]
          have hreported := (hchecked.report scene.call.reporter .acceptingWithoutDeferred).add
            (scene.call.strayed thread "set_state") (by simp) (by simp)
          split
          · exact tells_giveUp scene thread _
          · split
            · exact .nobody hreported rfl
            · exact tells_enter hreported rfl _ _
    · rw [not_or] at hunanswered
      rw [perform_engineReady_of_else hunanswered.1 hunanswered.2 hphase]
      exact .nobody (.of_trace rfl rfl) rfl

/-- **Every operation tells nobody, or it tells last.** -/
theorem perform_tells (op : Operation) : scene.Tells (scene.perform thread op) := by
  cases op with
  | setPhase new => exact perform_tells_setPhase scene thread new
  | awaitMedia a =>
      rw [perform_awaitMedia]
      split
      · exact tells_giveUp scene thread _
      · split
        · exact tells_queue (.checked scene thread _) rfl a _
        · exact tells_refusal scene thread _ _ _
  | deferAcceptance a =>
      rw [perform_deferAcceptance]
      split
      · exact tells_giveUp scene thread _
      · split
        · exact .nobody ((Progress.Quiet.checked scene thread _).enqueue a)
            (Progress.enqueue_face _ a)
        · exact tells_refusal scene thread _ _ _
  | handOver =>
      rw [perform_handOver]
      split
      · exact tells_giveUp scene thread _
      · exact .nobody ((Progress.Quiet.checked scene thread _).mapCall _) rfl
  | answer a => exact perform_tells_answer scene thread a
  | engineReady => exact perform_tells_engineReady scene thread
  | linkRecord record =>
      rw [perform_linkRecord]
      split
      · exact tells_giveUp scene thread _
      · split
        · exact tells_refusal scene thread _ _ _
        · refine .nobody ((Progress.Quiet.checked scene thread _).mapCall _).promoteRecord ?_
          rw [Progress.promoteRecord_call]
          rfl
  | assignSignalingId id =>
      rw [perform_assignSignalingId]
      split
      · exact tells_giveUp scene thread _
      · have hnoted := (Progress.Quiet.checked scene thread "set_signaling_id").add _
          (scene.call.tellings_reassignment id) (scene.call.acceptances_reassignment id)
        exact .nobody ((hnoted.mapCall _).add _ rfl rfl) rfl
  | setSwitch switch on =>
      rw [perform_setSwitch]
      split
      · exact tells_giveUp scene thread _
      · exact .last (((Progress.Quiet.checked scene thread _).mapCall _).add _
          (switch.tellings_note _ _) rfl) (switch.set_face on scene.call)
  | setRoute route =>
      rw [perform_setRoute]
      split
      · exact tells_giveUp scene thread _
      · exact .nobody (((Progress.Quiet.checked scene thread _).mapCall _).add _ rfl rfl) rfl
  | attach listener =>
      rw [perform_attach]
      split
      · exact tells_giveUp scene thread _
      · exact .nobody ((Progress.Quiet.checked scene thread _).mapCall _) rfl
  | detach =>
      rw [perform_detach]
      split
      · exact tells_giveUp scene thread _
      · exact .nobody ((Progress.Quiet.checked scene thread _).mapCall _) rfl
  | register =>
      rw [perform_register]
      split
      · exact tells_giveUp scene thread _
      · exact .nobody ((Progress.Quiet.checked scene thread _).mapCall _) rfl
  | deregister =>
      rw [perform_deregister]
      split
      · exact tells_giveUp scene thread _
      · split
        · exact .nobody ((Progress.Quiet.checked scene thread _).mapCall _) rfl
        · exact tells_refusal scene thread _ _ _

end Scene

/-! ### What a notice shows -/

/-- Telling the listener adds one happening at most, and writes no more than the queue of whoever
takes the notice. -/
theorem Progress.notify_cases (p : Progress) (change : Change) :
    p.notify change = p ∨ p.notify change = p.add [.noted .receiverGone] ∨
      ∃ i, p.notify change = (p.add [.notified i change p.scene]).mapAround
        (·.modifyListener i (Listener.enqueue ⟨p.scene.call.id, change⟩)) := by
  unfold notify
  split
  · exact Or.inl rfl
  · rename_i i listener _
    by_cases hclosed : listener.outlet = .closed
    · rw [if_pos hclosed]
      exact Or.inr (Or.inl rfl)
    · rw [if_neg hclosed]
      exact Or.inr (Or.inr ⟨i, rfl⟩)

namespace Scene.Tells

variable {scene : Scene} {o : Outcome}

/-- An operation tells of one change at most. -/
theorem length_tellings_le (h : scene.Tells o) : (tellings o.trace).length ≤ 1 := by
  cases h with
  | nobody quiet _ =>
      rw [Progress.outcome_trace, quiet.hushed]
      exact Nat.zero_le 1
  | @last p change reply quiet _ =>
      rcases p.notify_cases change with hsame | hgone | ⟨i, htold⟩
      · rw [hsame, Progress.outcome_trace, quiet.hushed]
        exact Nat.zero_le 1
      · rw [hgone, Progress.outcome_trace, Progress.add_trace, tellings_append, quiet.hushed]
        exact Nat.le_refl 1
      · rw [htold, Progress.outcome_trace, Progress.mapAround_trace, Progress.add_trace,
          tellings_append, quiet.hushed]
        exact Nat.le_refl 1

/-- Where a listener is told, the call had changed by what it is told, and nothing but the queue of
the listener is written afterwards. -/
theorem of_notified (h : scene.Tells o) {before later : Trace} {listener : Nat} {change : Change}
    {seen : Scene} (htrace : o.trace = before ++ .notified listener change seen :: later) :
    later = [] ∧ seen.call.face = scene.call.face.revise change ∧
      ∃ f, o.scene = ⟨seen.call, seen.around.modifyListener listener f⟩ := by
  have hnobody : ∀ {t : Trace}, tellings t = [] →
      t ≠ before ++ .notified listener change seen :: later := by
    intro t hushed heq
    exact absurd (by rw [heq]; simp)
      (not_mem_of_tellings hushed (.notified listener change seen) rfl)
  cases h with
  | nobody quiet _ => exact absurd htrace (hnobody quiet.hushed)
  | @last p told reply quiet news =>
      rcases p.notify_cases told with hsame | hgone | ⟨i, htold⟩
      · rw [hsame] at htrace
        exact absurd htrace (hnobody quiet.hushed)
      · rw [hgone] at htrace
        obtain ⟨-, heq⟩ := eq_last_of_tellings quiet.hushed rfl htrace
        cases heq
      · rw [htold] at htrace ⊢
        obtain ⟨rfl, heq⟩ := eq_last_of_tellings quiet.hushed rfl htrace
        cases heq
        exact ⟨rfl, news, _, rfl⟩

end Scene.Tells

/-- **Whoever is told of something sees the operation finished.**  An operation on any call, in any
surroundings and on any thread, tells of one change at most, and it tells last: nothing happens
after.  Meanwhile the call can be read as the operation leaves it, with what it has queued, and so
can the records; a snapshot taken then is the snapshot taken afterwards, and shows what the listener
is told. -/
theorem told_when_finished (scene : Scene) (thread : Thread) (op : Operation) :
    let o := scene.perform thread op
    (tellings o.trace).length ≤ 1 ∧
    ∀ before listener change seen later,
      o.trace = before ++ .notified listener change seen :: later →
        later = [] ∧ seen.observe = o.scene.observe ∧ seen.observe.Shows change ∧
        seen.recordKind? = o.scene.recordKind? ∧ seen.call = o.scene.call ∧
        seen.around.records = o.scene.around.records := by
  intro o
  have htells : scene.Tells o := scene.perform_tells thread op
  refine ⟨htells.length_tellings_le, ?_⟩
  intro before listener change seen later htrace
  obtain ⟨hlater, hnews, f, hleft⟩ := htells.of_notified htrace
  rw [hleft]
  exact ⟨hlater, rfl, Snapshot.shows_of_face hnews, rfl, rfl, rfl⟩

/-- Whoever is told that a call is connected finds its record promoted and the acceptance run. -/
theorem connected_call_seen_promoted :
    let ringing : Call := { Call.incoming with
      phase := .ringingReadyToAnswer, record := some 0, listener := some 0 }
    let around : Surroundings := ⟨[], [⟨.incomingIncomplete, false, 0⟩], [.observer]⟩
    let o := Scene.perform ⟨ringing, around⟩ 0 (.answer { name := "a" })
    ∃ before seen, o.trace = before ++ [.notified 0 (.phase .connected) seen] ∧
      seen.observe = o.scene.observe ∧ seen.observe.Shows (.phase .connected) ∧
      seen.recordKind? = some .incoming ∧ acceptances before = [{ name := "a" }] := by
  intro ringing around o
  have htrace : o.trace = o.trace.dropLast ++ [.notified 0 (.phase .connected) o.scene] := rfl
  obtain ⟨-, hobserve, hshows, hkind, -⟩ :=
    (told_when_finished ⟨ringing, around⟩ 0 (.answer { name := "a" })).2 _ 0 _ _ [] htrace
  exact ⟨_, _, htrace, hobserve, hshows, hkind, by decide⟩

end CallLifecycle

/-
What is announced is what was done.

A listener is told of a phase when one was assigned, and of a switch when one was set.  That
goes for an assignment which changes nothing, and for those that answering makes on its own
way, and not for one that is refused.  `Operation.assigned?` says which phase an operation has
assigned, by what it found and how it replied, and `Operation.news?` what its listener is told.

`Scene.perform_announces` finds that each operation tells of its news and nothing else, that
the call is in the phase that was assigned, that the log has just this assignment, and that
the rule of the call allows it.  Who follows the call changes with `attach` and `detach` alone.
-/
import CallLifecycle.Proofs.Answering
import CallLifecycle.Proofs.Telling

namespace CallLifecycle

open Trace

/-! ### The phase that is assigned -/

/-- The phase that an operation has assigned to the call that it found, by how it replied. -/
def Operation.assigned? (found : Call) (reply : Reply) : Operation → Option Phase
  | setPhase new => if reply = .done then some new else none
  | awaitMedia _ => if reply = .done then some .accepting else none
  | answer a =>
    if reply.isAborted then none
    else if found.phase = .ringingReadyToAnswer then some a.target
    else if found.phase = .ringingAnticipatory then some .accepting
    else none
  | engineReady =>
    if reply.isAborted then none
    else if found.phase = .answering ∨ found.phase = .ringingAnticipatory then
      some .ringingReadyToAnswer
    else if found.phase = .accepting then
      some ((found.deferred.map Acceptance.target).getD .localFailure)
    else none
  | _ => none

/-- What the listener is told of an operation, by how it replied. -/
def Operation.news? (found : Call) (reply : Reply) : Operation → Option Change
  | setSwitch switch on => if reply = .done then some (switch.change on) else none
  | op => (op.assigned? found reply).map .phase

/-- Whom an operation makes the listener of a call, if it does: nobody, maybe. -/
def Operation.follower? : Operation → Option (Option Nat)
  | attach listener => some (some listener)
  | detach => some none
  | _ => none

/-- Whoever has something to tell attaches nobody. -/
theorem Operation.follower?_of_news? {found : Call} {reply : Reply} {op : Operation}
    {change : Change} (h : op.news? found reply = some change) : op.follower? = none := by
  cases op with
  | attach listener | detach => cases h
  | _ => rfl

namespace Trace

/-- The phases that were assigned, each with the phase that it came after. -/
def moves (trace : Trace) : List (Phase × Phase) :=
  trace.filterMap fun
    | .noted (.phaseChanged old new _) => some (old, new)
    | _ => none

@[simp] theorem moves_nil : moves [] = [] := rfl

@[simp] theorem moves_append (s t : Trace) : moves (s ++ t) = moves s ++ moves t :=
  List.filterMap_append

@[simp] theorem moves_happenings (reporter : Reporter) (d : Defect) :
    moves (reporter.happenings d) = [] := by
  rcases happenings_cases reporter d with h | h <;> rw [h] <;> rfl

end Trace

@[simp] theorem Call.moves_strayed (call : Call) (thread : Thread) (operation : String) :
    moves (call.strayed thread operation) = [] := by
  unfold strayed
  split
  · rfl
  · exact moves_happenings _ _

theorem Call.moves_reassignment (call : Call) (id : UInt64) :
    moves (call.reassignment id) = [] := by
  unfold reassignment
  split
  · rfl
  · split <;> rfl

namespace Progress

variable (p : Progress)

@[simp] theorem moves_notify (change : Change) :
    moves (p.notify change).trace = moves p.trace := by
  rcases p.notify_cases change with hsame | hgone | ⟨i, htold⟩
  · rw [hsame]
  · rw [hgone]
    simp [moves]
  · rw [htold]
    simp [moves]

@[simp] theorem moves_promoteRecord : moves p.promoteRecord.trace = moves p.trace := by
  unfold promoteRecord
  split
  · rfl
  · simp [moves]

@[simp] theorem moves_discardDeferred : moves p.discardDeferred.trace = moves p.trace := by
  unfold discardDeferred
  split
  · simp [moves]
  · rfl

/-- Entering a phase is an assignment. -/
@[simp] theorem moves_enter (new : Phase) :
    moves (p.enter new).trace = moves p.trace ++ [(p.scene.call.phase, new)] := by
  unfold enter
  split
  · rw [moves_promoteRecord, add_trace, moves_append]
    rfl
  · rw [moves_promoteRecord, moves_discardDeferred, add_trace, moves_append]
    rfl

@[simp] theorem moves_enqueue (a : Acceptance) :
    moves (p.enqueue a).trace = moves p.trace := by
  unfold enqueue
  split
  · simp
  · rfl

@[simp] theorem moves_carryOut (a : Acceptance) :
    moves (p.carryOut a).trace = moves p.trace := by
  have hlament : moves (a.lament p.scene.call.label) = [] := by
    unfold Acceptance.lament
    cases a.failure <;> rfl
  unfold carryOut runAcceptance
  rw [add_trace, moves_append, hlament, List.append_nil, mapAround_trace, add_trace, moves_append]
  exact List.append_nil _

/-- Tells the listener of the news, if there are any. -/
def announce (news : Option Change) (p : Progress) : Progress :=
  match news with
  | none => p
  | some change => p.notify change

end Progress

/-! ### How an operation ends -/

/-- An operation tells of its news and nothing else; the call is in the phase that was assigned,
which is the one assignment in the log and is allowed; and its listener is whoever was attached. -/
structure Scene.Announces (scene : Scene) (op : Operation) (o : Outcome) : Prop where
  told : ∃ p : Progress, p.Quiet scene ∧
    o = (p.announce (op.news? scene.call o.reply)).outcome o.reply
  phase : o.scene.call.phase = (op.assigned? scene.call o.reply).getD scene.call.phase
  moves : Trace.moves o.trace =
    (op.assigned? scene.call o.reply).toList.map (scene.call.phase, ·)
  allowed : ∀ new, op.assigned? scene.call o.reply = some new →
    Phase.allows scene.call.enforced scene.call.phase new = true
  listener : o.scene.call.listener =
    if o.reply = .done then op.follower?.getD scene.call.listener else scene.call.listener

namespace Scene

variable {scene : Scene} {thread : Thread} {op : Operation} {p : Progress} {reply : Reply}

/-- What assigns nothing has no news, but for switches. -/
theorem announces_nothing (quiet : p.Quiet scene)
    (hassigned : op.assigned? scene.call reply = none) (hnews : op.news? scene.call reply = none)
    (hphase : p.scene.call.phase = scene.call.phase) (hmoves : Trace.moves p.trace = [])
    (hlistener : p.scene.call.listener =
      if reply = .done then op.follower?.getD scene.call.listener else scene.call.listener) :
    scene.Announces op (p.outcome reply) := by
  refine ⟨⟨p, quiet, ?_⟩, ?_, ?_, ?_, hlistener⟩
  · rw [Progress.outcome_reply, hnews]
    rfl
  · rw [Progress.outcome_reply, hassigned]
    exact hphase
  · rw [Progress.outcome_reply, hassigned]
    exact hmoves
  · rw [Progress.outcome_reply, hassigned]
    exact nofun

/-- What is given up, or refused, has assigned nothing. -/
theorem announces_failure (quiet : p.Quiet scene) (hreply : reply ≠ .done)
    (hassigned : op.assigned? scene.call reply = none)
    (hphase : p.scene.call.phase = scene.call.phase) (hmoves : Trace.moves p.trace = [])
    (hlistener : p.scene.call.listener = scene.call.listener) :
    scene.Announces op (p.outcome reply) := by
  refine announces_nothing quiet hassigned ?_ hphase hmoves (by rw [if_neg hreply, hlistener])
  cases op with
  | setSwitch switch on => exact if_neg hreply
  | _ => exact congrArg (Option.map Change.phase) hassigned

theorem assigned?_aborted (found : Call) (op : Operation) (d : Defect) :
    op.assigned? found (.aborted d) = none := by
  cases op <;> rfl

theorem announces_giveUp (operation : String) :
    scene.Announces op (scene.giveUp thread operation) :=
  announces_failure (.checked scene thread operation) (by simp) (assigned?_aborted _ _ _) rfl
    (by simp) rfl

/-- A phase that is assigned is told of. -/
theorem announces_phase {new : Phase} (quiet : p.Quiet scene)
    (hassigned : op.assigned? scene.call reply = some new)
    (hphase : p.scene.call.phase = new) (hmoves : Trace.moves p.trace = [(scene.call.phase, new)])
    (hallowed : Phase.allows scene.call.enforced scene.call.phase new = true)
    (hlistener : p.scene.call.listener = scene.call.listener) :
    scene.Announces op ((p.notify (.phase new)).outcome reply) := by
  have hnews : op.news? scene.call reply = some (.phase new) := by
    cases op with
    | setSwitch switch on => cases hassigned
    | _ => exact congrArg (Option.map Change.phase) hassigned
  refine ⟨⟨p, quiet, ?_⟩, ?_, ?_, ?_, ?_⟩
  · rw [Progress.outcome_reply, hnews]
    rfl
  · rw [Progress.outcome_reply, hassigned, Progress.outcome_scene, Progress.notify_call]
    exact hphase
  · rw [Progress.outcome_reply, hassigned, Progress.outcome_trace, Progress.moves_notify]
    exact hmoves
  · rintro asked hasked
    rw [Progress.outcome_reply, hassigned] at hasked
    obtain rfl := Option.some.inj hasked
    exact hallowed
  · rw [Operation.follower?_of_news? hnews, Option.getD_none, ite_self, Progress.outcome_scene,
      Progress.notify_call]
    exact hlistener

theorem announces_enter {new : Phase} (quiet : p.Quiet scene)
    (hassigned : op.assigned? scene.call reply = some new)
    (hphase : p.scene.call.phase = scene.call.phase) (hmoves : Trace.moves p.trace = [])
    (hallowed : Phase.allows scene.call.enforced scene.call.phase new = true)
    (hlistener : p.scene.call.listener = scene.call.listener) :
    scene.Announces op (((p.enter new).notify (.phase new)).outcome reply) :=
  announces_phase (quiet.enter new) hassigned (by simp) (by simp [hmoves, hphase]) hallowed
    (by simpa using hlistener)

theorem announces_queue (quiet : p.Quiet scene) (a : Acceptance)
    (hassigned : op.assigned? scene.call reply = some .accepting)
    (hphase : p.scene.call.phase = scene.call.phase) (hmoves : Trace.moves p.trace = [])
    (hallowed : Phase.allows scene.call.enforced scene.call.phase .accepting = true)
    (hlistener : p.scene.call.listener = scene.call.listener) :
    scene.Announces op
      ((((p.enter .accepting).enqueue a).notify (.phase .accepting)).outcome reply) :=
  announces_phase ((quiet.enter _).enqueue a) hassigned (by simp) (by simp [hmoves, hphase])
    hallowed (by simpa using hlistener)

/-- An operation that runs an acceptance assigns what comes of it, unless it is given up. -/
theorem announces_conclude (quiet : p.Quiet scene) (thread : Thread) (a : Acceptance)
    (hassigned : op.assigned? scene.call a.verdict = some a.target)
    (hphase : p.scene.call.phase = scene.call.phase) (hmoves : Trace.moves p.trace = [])
    (hallowed : Phase.allows scene.call.enforced scene.call.phase a.target = true)
    (hlistener : p.scene.call.listener = scene.call.listener) :
    scene.Announces op (p.conclude thread a) := by
  have hran : ((p.carryOut a).add (p.scene.call.strayed thread "set_state")).Quiet scene :=
    (quiet.carryOut a).add _ (by simp) (by simp)
  unfold Progress.conclude
  by_cases hb : p.scene.call.bars thread "set_state" = true
  · rw [if_pos hb]
    exact announces_failure hran (by simp) (assigned?_aborted _ _ _) hphase (by simp [hmoves])
      hlistener
  · rw [if_neg hb]
    exact announces_enter hran hassigned hphase (by simp [hmoves]) hallowed hlistener

theorem perform_announces_setPhase (new : Phase) :
    scene.Announces (.setPhase new) (scene.perform thread (.setPhase new)) := by
  rw [perform_setPhase]
  split
  · exact announces_giveUp _
  · by_cases ha : Phase.allows scene.call.enforced scene.call.phase new = true
    · rw [if_pos ha]
      exact announces_enter (.checked scene thread _) rfl rfl (by simp) ha rfl
    · rw [if_neg ha]
      exact announces_failure ((Progress.Quiet.checked scene thread _).report _ _) (by simp) rfl rfl
        (by simp) rfl

theorem perform_announces_answer (a : Acceptance) :
    scene.Announces (.answer a) (scene.perform thread (.answer a)) := by
  have hverdict : a.verdict.isAborted = false := by
    unfold Acceptance.verdict
    cases a.failure <;> rfl
  by_cases hready : scene.call.phase = .ringingReadyToAnswer
  · rw [perform_answer_of_ready hready]
    refine announces_conclude (.of_trace rfl rfl) thread a ?_ rfl rfl ?_ rfl
    · simp [Operation.assigned?, hverdict, hready]
    · exact allows_target (Or.inl hready) a
  · by_cases hanticipatory : scene.call.phase = .ringingAnticipatory
    · have hnoted : Progress.Quiet scene ⟨scene, .noted (.acceptanceDeferred scene.call.label) ::
          scene.call.strayed thread "begin_accepting"⟩ :=
        .of_trace (scene.call.tellings_strayed thread _) (by simp)
      have hmoves : Trace.moves (.noted (.acceptanceDeferred scene.call.label) ::
          scene.call.strayed thread "begin_accepting") = [] :=
        scene.call.moves_strayed thread _
      rw [perform_answer_of_anticipatory hanticipatory]
      split
      · exact announces_failure hnoted (by simp) (assigned?_aborted _ _ _) rfl hmoves rfl
      · refine announces_queue hnoted a ?_ rfl hmoves ?_ rfl
        · simp [Operation.assigned?, Reply.isAborted, hanticipatory]
        · rw [hanticipatory]
          cases scene.call.enforced <;> rfl
    · rw [perform_answer_of_not_ringing hready hanticipatory]
      refine announces_failure (.of_trace rfl rfl) (by simp) ?_ rfl rfl rfl
      simp [Operation.assigned?, hready, hanticipatory]

theorem perform_announces_engineReady :
    scene.Announces .engineReady (scene.perform thread .engineReady) := by
  by_cases hunanswered : scene.call.phase = .answering ∨ scene.call.phase = .ringingAnticipatory
  · have ha : Phase.allows scene.call.enforced scene.call.phase .ringingReadyToAnswer = true := by
      rcases hunanswered with h | h <;> rw [h] <;> cases scene.call.enforced <;> rfl
    rw [perform_engineReady_of_unanswered hunanswered, perform_setPhase, if_pos ha]
    split
    · exact announces_giveUp _
    · refine announces_enter (.checked scene thread _) ?_ rfl (by simp) ha rfl
      simp [Operation.assigned?, Reply.isAborted, hunanswered]
  · by_cases hphase : scene.call.phase = .accepting
    · have hchecked := Progress.Quiet.checked scene thread "take_deferred_acceptance"
      cases hdeferred : scene.call.deferred with
      | some a =>
          have hverdict : a.verdict.isAborted = false := by
            unfold Acceptance.verdict
            cases a.failure <;> rfl
          rw [perform_engineReady_of_queued hphase hdeferred]
          split
          · exact announces_giveUp _
          · refine announces_conclude (hchecked.mapCall _) thread a ?_ rfl (by simp) ?_ rfl
            · simp [Operation.assigned?, hverdict, hphase, hdeferred]
            · exact allows_target (Or.inr hphase) a
      | none =>
          have hreported := (hchecked.report scene.call.reporter .acceptingWithoutDeferred).add
            (scene.call.strayed thread "set_state") (by simp) (by simp)
          rw [perform_engineReady_of_nothing_queued hphase hdeferred]
          split
          · exact announces_giveUp _
          · split
            · exact announces_failure hreported (by simp) (assigned?_aborted _ _ _) rfl (by simp)
                rfl
            · refine announces_enter hreported ?_ rfl (by simp) ?_ rfl
              · simp [Operation.assigned?, Reply.isAborted, hphase, hdeferred]
              · rw [hphase]
                cases scene.call.enforced <;> rfl
    · rw [not_or] at hunanswered
      rw [perform_engineReady_of_else hunanswered.1 hunanswered.2 hphase]
      refine announces_nothing (.of_trace rfl rfl) ?_ ?_ rfl rfl rfl
      · simp [Operation.assigned?, hunanswered, hphase]
      · simp [Operation.news?, Operation.assigned?, hunanswered, hphase]

variable (scene) (thread) in
/-- **Every operation tells of what it has done and of nothing else.** -/
theorem perform_announces (op : Operation) : scene.Announces op (scene.perform thread op) := by
  cases op with
  | setPhase new => exact perform_announces_setPhase new
  | awaitMedia a =>
      rw [perform_awaitMedia]
      split
      · exact announces_giveUp _
      · by_cases ha : Phase.allows scene.call.enforced scene.call.phase .accepting = true
        · rw [if_pos ha]
          exact announces_queue (.checked scene thread _) a rfl rfl (by simp) ha rfl
        · rw [if_neg ha]
          exact announces_failure ((Progress.Quiet.checked scene thread _).report _ _) (by simp) rfl
            rfl (by simp) rfl
  | deferAcceptance a =>
      rw [perform_deferAcceptance]
      split
      · exact announces_giveUp _
      · split
        · exact announces_nothing ((Progress.Quiet.checked scene thread _).enqueue a) rfl rfl
            (by simp) (by simp) (by simp [Operation.follower?])
        · exact announces_failure ((Progress.Quiet.checked scene thread _).report _ _) (by simp) rfl
            rfl (by simp) rfl
  | handOver =>
      rw [perform_handOver]
      split
      · exact announces_giveUp _
      · exact announces_nothing ((Progress.Quiet.checked scene thread _).mapCall _) rfl rfl rfl
          (by simp) rfl
  | answer a => exact perform_announces_answer a
  | engineReady => exact perform_announces_engineReady
  | linkRecord record =>
      rw [perform_linkRecord]
      split
      · exact announces_giveUp _
      · split
        · exact announces_failure ((Progress.Quiet.checked scene thread _).report _ _) (by simp) rfl
            rfl (by simp) rfl
        · exact announces_nothing
            ((Progress.Quiet.checked scene thread _).mapCall _).promoteRecord rfl rfl (by simp)
            (by simp) (by simp [Operation.follower?])
  | assignSignalingId id =>
      rw [perform_assignSignalingId]
      split
      · exact announces_giveUp _
      · have hnoted := (Progress.Quiet.checked scene thread "set_signaling_id").add _
          (scene.call.tellings_reassignment id) (scene.call.acceptances_reassignment id)
        refine announces_nothing ((hnoted.mapCall _).add _ rfl rfl) rfl rfl rfl ?_ rfl
        rw [Progress.add_trace, moves_append, Progress.mapCall_trace, Progress.add_trace,
          moves_append, scene.call.moves_reassignment, checked_trace, scene.call.moves_strayed]
        rfl
  | setSwitch switch on =>
      have hset : (switch.set on scene.call).phase = scene.call.phase ∧
          (switch.set on scene.call).listener = scene.call.listener := by
        cases switch <;> exact ⟨rfl, rfl⟩
      have hnoted : Trace.moves [.noted (switch.note (switch.isOn scene.call) on)] = [] := by
        cases switch <;> rfl
      rw [perform_setSwitch]
      split
      · exact announces_giveUp _
      · refine ⟨⟨_, ((Progress.Quiet.checked scene thread _).mapCall _).add _
          (switch.tellings_note _ _) rfl, rfl⟩, ?_, ?_, nofun, ?_⟩
        · rw [Progress.outcome_scene, Progress.notify_call]
          exact hset.1
        · rw [Progress.outcome_trace, Progress.moves_notify, Progress.add_trace, moves_append,
            hnoted, Progress.mapCall_trace, checked_trace, scene.call.moves_strayed]
          rfl
        · rw [Progress.outcome_scene, Progress.notify_call]
          exact hset.2
  | setRoute route =>
      rw [perform_setRoute]
      split
      · exact announces_giveUp _
      · refine announces_nothing
          (((Progress.Quiet.checked scene thread _).mapCall _).add _ rfl rfl) rfl rfl rfl ?_ rfl
        rw [Progress.add_trace, moves_append, Progress.mapCall_trace, checked_trace,
          scene.call.moves_strayed]
        rfl
  | attach listener =>
      rw [perform_attach]
      split
      · exact announces_giveUp _
      · exact announces_nothing ((Progress.Quiet.checked scene thread _).mapCall _) rfl rfl rfl
          (by simp) rfl
  | detach =>
      rw [perform_detach]
      split
      · exact announces_giveUp _
      · exact announces_nothing ((Progress.Quiet.checked scene thread _).mapCall _) rfl rfl rfl
          (by simp) rfl
  | register =>
      rw [perform_register]
      split
      · exact announces_giveUp _
      · exact announces_nothing ((Progress.Quiet.checked scene thread _).mapCall _) rfl rfl rfl
          (by simp) rfl
  | deregister =>
      rw [perform_deregister]
      split
      · exact announces_giveUp _
      · split
        · exact announces_nothing ((Progress.Quiet.checked scene thread _).mapCall _) rfl rfl rfl
            (by simp) rfl
        · exact announces_nothing ((Progress.Quiet.checked scene thread _).report _ _) rfl rfl rfl
            (by simp) rfl

end Scene

end CallLifecycle

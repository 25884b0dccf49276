/-
What a rule rejects comes to nothing.

Four operations are held to a rule of the call: two to the transition table, one to the phase
that takes an acceptance, one to linking a record once.  What the rule rejects is refused and
reported, in two places of the program, and nothing else comes of it.  `Operation.rejection?`
says, of the call alone, why an operation is rejected, and `CallFailure.defect?` which defect is
reported for a refusal, so that the two places cannot drift apart: `Scene.perform_rejected`
finds the whole outcome, and `Scene.perform_taken` that nothing but these rules refuses.

All of this is on the call's own thread.  What happens on another one is said elsewhere.
-/
import CallLifecycle.Proofs.Announcing
import CallLifecycle.Proofs.Findings

namespace CallLifecycle

open Trace

/-! ### On the call's own thread -/

namespace Call

variable (call : Call)

@[simp] theorem bars_owner (operation : String) : call.bars call.owner operation = false :=
  bars_eq_false (Or.inl rfl) operation

@[simp] theorem reached_owner (findings : List Finding) :
    call.reached call.owner findings = findings :=
  call.reached_eq_self call.owner (List.any_eq_false.mpr fun _ _ => by simp)

@[simp] theorem strayed_owner (operation : String) : call.strayed call.owner operation = [] :=
  if_pos rfl

end Call

namespace Scene

variable (scene : Scene) (operation : String)

theorem checked_owner : scene.checked scene.call.owner operation = ⟨scene, []⟩ := by
  rw [checked, Call.strayed_owner]

/-- A defect that is reported right after the check is all that happens. -/
theorem reported_owner (d : Defect) (reply : Reply) :
    ((scene.checked scene.call.owner operation).add
      (scene.call.reporter.happenings d)).outcome reply =
        ⟨scene, scene.call.reporter.happenings d, reply⟩ := by
  rw [checked_owner]
  rfl

end Scene

/-! ### Rejections -/

/-- The defect that is reported for a refusal, if one is: the rule that was broken, and where. -/
def CallFailure.defect? : CallFailure → Option Defect
  | illegalTransition old new => some (.illegalTransition old new)
  | deferredOutsideAccepting phase => some (.deferredOutsideAccepting phase)
  | recordAlreadyLinked => some .recordRelinked
  | _ => none

namespace Operation

/-- Whether an operation is held to a rule of the call. -/
def isRuled : Operation → Bool
  | setPhase _ | awaitMedia _ | deferAcceptance _ | linkRecord _ => true
  | _ => false

/-- Why a rule of the call rejects an operation, if one does. -/
def rejection? (call : Call) : Operation → Option CallFailure
  | setPhase new =>
    if Phase.allows call.enforced call.phase new then none
    else some (.illegalTransition call.phase new)
  | awaitMedia _ =>
    if Phase.allows call.enforced call.phase .accepting then none
    else some (.illegalTransition call.phase .accepting)
  | deferAcceptance _ =>
    if call.phase = .accepting then none else some (.deferredOutsideAccepting call.phase)
  | linkRecord _ => if call.record.isSome then some .recordAlreadyLinked else none
  | _ => none

end Operation

namespace Scene

variable {scene : Scene} {op : Operation}

/-- **What is rejected is refused and reported**, and that is all. -/
theorem perform_rejected {e : CallFailure} (h : op.rejection? scene.call = some e) :
    ∃ d, e.defect? = some d ∧
      scene.perform scene.call.owner op =
        ⟨scene, scene.call.reporter.happenings d, .refused e⟩ := by
  cases op with
  | setPhase new =>
      obtain ⟨hnot, heq⟩ := Option.ite_none_left_eq_some.mp h
      obtain rfl := Option.some.inj heq
      refine ⟨_, rfl, ?_⟩
      rw [perform_setPhase, Call.bars_owner, if_neg Bool.false_ne_true, if_neg hnot, reported_owner]
  | awaitMedia a =>
      obtain ⟨hnot, heq⟩ := Option.ite_none_left_eq_some.mp h
      obtain rfl := Option.some.inj heq
      refine ⟨_, rfl, ?_⟩
      rw [perform_awaitMedia, Call.bars_owner, if_neg Bool.false_ne_true, if_neg hnot,
        reported_owner]
  | deferAcceptance a =>
      obtain ⟨hnot, heq⟩ := Option.ite_none_left_eq_some.mp h
      obtain rfl := Option.some.inj heq
      refine ⟨_, rfl, ?_⟩
      rw [perform_deferAcceptance, Call.bars_owner, if_neg Bool.false_ne_true, if_neg hnot,
        reported_owner]
  | linkRecord record =>
      obtain ⟨hlinked, heq⟩ := Option.ite_none_right_eq_some.mp h
      obtain rfl := Option.some.inj heq
      refine ⟨_, rfl, ?_⟩
      rw [perform_linkRecord, Call.bars_owner, if_neg Bool.false_ne_true, if_pos hlinked,
        reported_owner]
  | _ => cases h

/-- **What no rule rejects is done**, and is reported only if one acceptance replaces another. -/
theorem perform_taken (hruled : op.isRuled = true) (h : op.rejection? scene.call = none) :
    (scene.perform scene.call.owner op).reply = .done ∧
      defects (scene.perform scene.call.owner op).trace =
        if op.given?.isSome ∧ scene.call.deferred.isSome then [.deferredReplaced] else [] := by
  rw [scene.perform_defects scene.call.owner op, Call.reached_owner]
  cases op with
  | setPhase new =>
      have hallowed : Phase.allows scene.call.enforced scene.call.phase new = true := by
        simpa [Operation.rejection?] using h
      rw [perform_setPhase, Call.bars_owner]
      simp [hallowed, Operation.findings, Operation.given?]
  | awaitMedia a =>
      have hallowed : Phase.allows scene.call.enforced scene.call.phase .accepting = true := by
        simpa [Operation.rejection?] using h
      rw [perform_awaitMedia, Call.bars_owner]
      simp [hallowed, Operation.findings, Operation.given?]
  | deferAcceptance a =>
      have hphase : scene.call.phase = .accepting := by
        simpa [Operation.rejection?] using h
      rw [perform_deferAcceptance, Call.bars_owner]
      simp [hphase, Operation.findings, Operation.given?]
  | linkRecord record =>
      have hunlinked : scene.call.record = none := by
        simpa [Operation.rejection?] using h
      rw [perform_linkRecord, Call.bars_owner]
      simp [hunlinked, Operation.findings, Operation.given?]
  | _ => cases hruled

/-- **An operation that is held to a rule is refused just if the rule rejects it.** -/
theorem refused_iff_rejected (hruled : op.isRuled = true) (e : CallFailure) :
    (scene.perform scene.call.owner op).reply = .refused e ↔
      op.rejection? scene.call = some e := by
  cases hrejection : op.rejection? scene.call with
  | none => simp [(perform_taken hruled hrejection).1]
  | some found =>
      obtain ⟨d, -, ho⟩ := perform_rejected hrejection
      simp [ho]

/-- A call that the registry was not told of cannot be deregistered, and that is reported. -/
theorem perform_deregister_unregistered (h : scene.call.registered = false) :
    scene.perform scene.call.owner .deregister =
      ⟨scene, scene.call.reporter.happenings .deregisteredBeforeRegistered, .done⟩ := by
  rw [perform_deregister, Call.bars_owner, if_neg Bool.false_ne_true, if_neg (by simp [h]),
    reported_owner]

theorem rejection?_of_done (hruled : op.isRuled = true)
    (hdone : (scene.perform scene.call.owner op).reply = .done) :
    op.rejection? scene.call = none := by
  cases hrejection : op.rejection? scene.call with
  | none => rfl
  | some e =>
      rw [(refused_iff_rejected hruled e).mpr hrejection] at hdone
      cases hdone

/-- **What is done breaks no rule**, but that one acceptance may replace another. -/
theorem defects_of_done (hruled : op.isRuled = true)
    (hdone : (scene.perform scene.call.owner op).reply = .done) :
    defects (scene.perform scene.call.owner op).trace =
      if op.given?.isSome ∧ scene.call.deferred.isSome then [.deferredReplaced] else [] :=
  (perform_taken hruled (rejection?_of_done hruled hdone)).2

end Scene

/-! ### What a rejection leaves -/

/-- An outcome that leaves a scene as it was: no acceptance runs, nobody is told of anything, and
no record is asked. -/
structure Outcome.Leaves (scene : Scene) (o : Outcome) : Prop where
  same : o.scene = scene
  ran : acceptances o.trace = []
  told : tellings o.trace = []
  asked : requests o.trace = []

/-- What is only reported leaves the scene as it was. -/
theorem Outcome.leaves_of_reported (scene : Scene) (reporter : Reporter) (d : Defect)
    (reply : Reply) : Outcome.Leaves scene ⟨scene, reporter.happenings d, reply⟩ :=
  ⟨rfl, by simp, by simp, by simp⟩

/-- **What is rejected changes nothing and is reported once.**  A call may be anything that it can
become, among anything; an operation is called on the call's own thread.  What a rule of the call
refuses leaves the call, its surroundings and whoever follows it as they were, runs nothing, and
is reported by just the one defect that goes with the refusal, in the same phases.  So it is with a
call that is deregistered before it was registered, which is reported though not refused, and with
an answer to a call that does not ring, which is refused and not reported.  Conversely what is done
is not reported, but that an acceptance which is queued replaces another one. -/
theorem rejected_changes_nothing (scene : Scene) :
    (∀ op e, op.isRuled = true →
      let o := scene.perform scene.call.owner op
      o.reply = .refused e →
        o.Leaves scene ∧ op.rejection? scene.call = some e ∧
          ∃ d, e.defect? = some d ∧ defects o.trace = [d]) ∧
    (∀ a, scene.call.phase ≠ .ringingReadyToAnswer → scene.call.phase ≠ .ringingAnticipatory →
      let o := scene.perform scene.call.owner (.answer a)
      o.Leaves scene ∧ o.reply = .refused (.notRinging scene.call.phase) ∧ defects o.trace = []) ∧
    (scene.call.registered = false →
      let o := scene.perform scene.call.owner .deregister
      o.Leaves scene ∧ o.reply = .done ∧ defects o.trace = [.deregisteredBeforeRegistered]) ∧
    ∀ op, op.isRuled = true →
      let o := scene.perform scene.call.owner op
      o.reply = .done →
        defects o.trace =
          if op.given?.isSome ∧ scene.call.deferred.isSome then [.deferredReplaced] else [] := by
  refine ⟨?_, ?_, ?_, ?_⟩
  · intro op e hruled o hrefused
    have hrejection := (Scene.refused_iff_rejected hruled e).mp hrefused
    obtain ⟨d, hd, ho⟩ := Scene.perform_rejected hrejection
    have hleaves := Outcome.leaves_of_reported scene scene.call.reporter d (.refused e)
    rw [← ho] at hleaves
    exact ⟨hleaves, hrejection, d, hd, by simp [o, ho]⟩
  · intro a hready hanticipatory o
    have ho : o = _ := Scene.perform_answer_of_not_ringing hready hanticipatory scene.call.owner a
    rw [ho]
    exact ⟨⟨rfl, rfl, rfl, rfl⟩, rfl, rfl⟩
  · intro hunregistered o
    have ho : o = _ := Scene.perform_deregister_unregistered hunregistered
    rw [ho]
    exact ⟨Outcome.leaves_of_reported _ _ _ _, rfl, by simp⟩
  · intro op hruled o hdone
    exact Scene.defects_of_done hruled hdone

/-- An accepting call that already has a record and waits with an acceptance queued. -/
theorem waiting_call_survives_rejections :
    let call : Call := { Call.incoming with
      phase := .accepting, deferred := some { name := "a" }, record := some 0, listener := some 0 }
    let scene : Scene := ⟨call, ⟨[], [⟨.incomingIncomplete, false, 0⟩], [.observer]⟩⟩
    let jump := scene.perform 0 (.setPhase .dialing)
    let relink := scene.perform 0 (.linkRecord 1)
    let again := scene.perform 0 (.answer { name := "b" })
    let removal := scene.perform 0 .deregister
    let replace := scene.perform 0 (.deferAcceptance { name := "b" })
    (jump.Leaves scene ∧ defects jump.trace = [.illegalTransition .accepting .dialing]) ∧
    (relink.Leaves scene ∧ defects relink.trace = [.recordRelinked]) ∧
    (again.Leaves scene ∧ again.reply = .refused (.notRinging .accepting)) ∧
    (removal.Leaves scene ∧ defects removal.trace = [.deregisteredBeforeRegistered]) ∧
    defects replace.trace = [.deferredReplaced] := by
  intro call scene jump relink again removal replace
  obtain ⟨hrejected, hignored, hunregistered, hdone⟩ := rejected_changes_nothing scene
  obtain ⟨hjump, -, d, hd, hdefects⟩ := hrejected (.setPhase .dialing)
    (.illegalTransition .accepting .dialing) rfl (by decide)
  obtain rfl := Option.some.inj hd
  obtain ⟨hrelink, -, d, hd, htwice⟩ := hrejected (.linkRecord 1) .recordAlreadyLinked rfl
    (by decide)
  obtain rfl := Option.some.inj hd
  obtain ⟨hagain, hreply, -⟩ := hignored { name := "b" } (by decide) (by decide)
  obtain ⟨hremoval, -, hreported⟩ := hunregistered rfl
  exact ⟨⟨hjump, hdefects⟩, ⟨hrelink, htwice⟩, ⟨hagain, hreply⟩, ⟨hremoval, hreported⟩,
    hdone (.deferAcceptance { name := "b" }) rfl (by decide)⟩

end CallLifecycle

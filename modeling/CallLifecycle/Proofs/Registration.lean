/-
What the registry knows of a call.

A call keeps two marks: that the system's registry was told of it, and that it was told that the
call is over.  Either mark once made stays, each is made by one operation alone, and the second is
made only where the first is: so a call that is deregistered was registered, at every moment.
`Registry.told` says what one operation makes of the marks, and a life of any length comes down to
whether it has an episode in which the one or the other was made.

When the call goes away it diagnoses itself.  What it says then depends on the marks and on its
phase at the end, and since the marks sum up the whole life, so does the diagnosis.
-/
import CallLifecycle.Proofs.Answering
import CallLifecycle.Proofs.ChangeLog
import CallLifecycle.Proofs.Findings

namespace CallLifecycle

open Trace

/-- What the system's registry was told of a call. -/
structure Registry where
  registered : Bool
  deregistered : Bool
  deriving DecidableEq

/-- What the registry was told once an operation has ended: only a call that it knows of can be
deregistered. -/
def Registry.told (known : Registry) (op : Operation) (reply : Reply) : Registry where
  registered := known.registered || (op = .register && reply = .done)
  deregistered := known.deregistered || (op = .deregister && reply = .done && known.registered)

/-- Whether the registry was told of no end without a beginning. -/
def Registry.Sound (known : Registry) : Prop :=
  known.deregistered = true → known.registered = true

theorem Registry.Sound.told {known : Registry} (h : known.Sound) (op : Operation) (reply : Reply) :
    (known.told op reply).Sound := by
  intro hgone
  rcases Bool.or_eq_true_iff.mp hgone with hbefore | hnow
  · exact Bool.or_eq_true_iff.mpr (Or.inl (h hbefore))
  · rw [Bool.and_eq_true] at hnow
    exact Bool.or_eq_true_iff.mpr (Or.inl hnow.2)

theorem Registry.told_of_other (known : Registry) {op : Operation} (hregister : op ≠ .register)
    (hderegister : op ≠ .deregister) (reply : Reply) : known.told op reply = known := by
  simp [told, hregister, hderegister]

/-- What the registry was told of a call. -/
def Call.registry (call : Call) : Registry :=
  ⟨call.registered, call.deregistered⟩

/-! ### One operation -/

@[simp] theorem Switch.set_registry (on : Bool) (call : Call) (switch : Switch) :
    (switch.set on call).registry = call.registry := by
  cases switch <;> rfl

@[simp] theorem Progress.conclude_registry (thread : Thread) (a : Acceptance) (p : Progress) :
    (p.conclude thread a).scene.call.registry = p.scene.call.registry := by
  unfold conclude
  split
  · rfl
  · simp [Call.registry]

namespace Scene

variable (scene : Scene) (thread : Thread)

theorem perform_answer_registry (a : Acceptance) :
    (scene.perform thread (.answer a)).scene.call.registry = scene.call.registry := by
  by_cases hready : scene.call.phase = .ringingReadyToAnswer
  · rw [perform_answer_of_ready hready, Progress.conclude_registry]
  · by_cases hanticipatory : scene.call.phase = .ringingAnticipatory
    · rw [perform_answer_of_anticipatory hanticipatory]
      split
      · rfl
      · simp [Call.registry]
    · rw [perform_answer_of_not_ringing hready hanticipatory]
      rfl

theorem perform_setPhase_registry (new : Phase) :
    (scene.perform thread (.setPhase new)).scene.call.registry = scene.call.registry := by
  rw [perform_setPhase]
  split
  · rfl
  · split <;> simp [Call.registry]

theorem perform_engineReady_registry :
    (scene.perform thread .engineReady).scene.call.registry = scene.call.registry := by
  by_cases hunanswered : scene.call.phase = .answering ∨ scene.call.phase = .ringingAnticipatory
  · rw [perform_engineReady_of_unanswered hunanswered, perform_setPhase_registry]
  · by_cases hphase : scene.call.phase = .accepting
    · cases hdeferred : scene.call.deferred with
      | some a =>
          rw [perform_engineReady_of_queued hphase hdeferred]
          split
          · rfl
          · rw [Progress.conclude_registry]
            rfl
      | none =>
          rw [perform_engineReady_of_nothing_queued hphase hdeferred]
          split
          · rfl
          · split
            · rfl
            · simp [Call.registry]
    · rw [not_or] at hunanswered
      rw [perform_engineReady_of_else hunanswered.1 hunanswered.2 hphase]
      rfl

theorem perform_register_registry :
    (scene.perform thread .register).scene.call.registry =
      scene.call.registry.told .register (scene.perform thread .register).reply := by
  rw [perform_register]
  split
  · simp [giveUp, Registry.told, Call.registry]
  · simp [Registry.told, Call.registry]

theorem perform_deregister_registry :
    (scene.perform thread .deregister).scene.call.registry =
      scene.call.registry.told .deregister (scene.perform thread .deregister).reply := by
  rw [perform_deregister]
  split
  · simp [giveUp, Registry.told, Call.registry]
  · by_cases hknown : scene.call.registered = true
    · rw [if_pos hknown]
      simp [Registry.told, Call.registry, hknown]
    · rw [if_neg hknown]
      simp [Registry.told, Call.registry, hknown]

variable {op : Operation}

theorem perform_registry_of_other (hregister : op ≠ .register) (hderegister : op ≠ .deregister) :
    (scene.perform thread op).scene.call.registry = scene.call.registry := by
  cases op with
  | register => exact absurd rfl hregister
  | deregister => exact absurd rfl hderegister
  | setPhase new => exact perform_setPhase_registry scene thread new
  | awaitMedia a =>
      rw [perform_awaitMedia]
      split
      · rfl
      · split <;> simp [Call.registry]
  | deferAcceptance a =>
      rw [perform_deferAcceptance]
      split
      · rfl
      · split <;> simp [Call.registry]
  | handOver =>
      rw [perform_handOver]
      split <;> rfl
  | answer a => exact perform_answer_registry scene thread a
  | engineReady => exact perform_engineReady_registry scene thread
  | linkRecord record =>
      rw [perform_linkRecord]
      split
      · rfl
      · split <;> simp [Call.registry]
  | assignSignalingId id =>
      rw [perform_assignSignalingId]
      split <;> rfl
  | setSwitch switch on =>
      rw [perform_setSwitch]
      split
      · rfl
      · simp
  | setRoute route =>
      rw [perform_setRoute]
      split <;> rfl
  | attach listener =>
      rw [perform_attach]
      split <;> rfl
  | detach =>
      rw [perform_detach]
      split <;> rfl

variable (op) in
/-- **The registry is told by two operations, and by none else.** -/
theorem perform_registry :
    (scene.perform thread op).scene.call.registry =
      scene.call.registry.told op (scene.perform thread op).reply := by
  by_cases hregister : op = .register
  · rw [hregister]
    exact perform_register_registry scene thread
  · by_cases hderegister : op = .deregister
    · rw [hderegister]
      exact perform_deregister_registry scene thread
    · rw [Registry.told_of_other _ hregister hderegister]
      exact perform_registry_of_other scene thread hregister hderegister

/-- A call that the registry does not know of is not deregistered, and the attempt is reported. -/
theorem perform_deregister_of_unknown {scene : Scene} {thread : Thread}
    (h : scene.call.registered = false)
    (hlasts : (scene.perform thread .deregister).reply.isAborted = false) :
    let o := scene.perform thread .deregister
    o.scene = scene ∧ deliveries o.trace = [] ∧ acceptances o.trace = [] ∧ requests o.trace = [] ∧
      (defects o.trace).filter (!·.isStray) = [.deregisteredBeforeRegistered] := by
  have hunknown : ¬ scene.call.registered = true := by
    rw [h]
    exact Bool.false_ne_true
  have hstray : (defects (scene.call.strayed thread "mark_removed_from_system")).filter
      (!·.isStray) = [] := by
    unfold Call.strayed
    split
    · rfl
    · rw [defects_happenings]
      rfl
  rw [perform_deregister, if_neg hunknown] at hlasts ⊢
  split at hlasts
  · cases hlasts
  · rename_i hb
    rw [if_neg hb]
    refine ⟨rfl, by simp, by simp, by simp, ?_⟩
    rw [Progress.outcome_trace, Progress.add_trace, checked_trace, defects_append,
      List.filter_append, hstray, defects_happenings]
    rfl

end Scene

/-! ### A life -/

/-- Whether a finding is none that a call makes of itself when it goes away. -/
def Finding.isTimely : Finding → Bool
  | check _ => true
  | fault d => !d.isFarewell

theorem Operation.isFarewell_of_fault {call : Call} {op : Operation} {d : Defect}
    (h : .fault d ∈ op.findings call) : d.isFarewell = false := by
  have htimely : ∀ finding ∈ op.findings call, finding.isTimely = true := by
    rw [← List.all_eq_true]
    unfold findings Call.replacing
    repeat' split
    all_goals rfl
  exact (Bool.not_eq_true' _).mp (htimely _ h)

namespace Episode

/-- Whether the registry was told of the call. -/
def registers (e : Episode) : Bool :=
  e.op = .register && e.outcome.reply = .done

/-- Whether the registry was told that the call, of which it knew, is over. -/
def deregisters (e : Episode) : Bool :=
  e.op = .deregister && e.outcome.reply = .done && e.scene.call.registered

theorem registered_outcome (e : Episode) :
    e.outcome.scene.call.registered = (e.scene.call.registered || e.registers) :=
  congrArg Registry.registered (e.scene.perform_registry e.thread e.op)

theorem deregistered_outcome (e : Episode) :
    e.outcome.scene.call.deregistered = (e.scene.call.deregistered || e.deregisters) :=
  congrArg Registry.deregistered (e.scene.perform_registry e.thread e.op)

theorem registry_outcome_sound {e : Episode} (h : e.scene.call.registry.Sound) :
    e.outcome.scene.call.registry.Sound := by
  rw [outcome, e.scene.perform_registry e.thread e.op]
  exact h.told e.op _

/-- A call reports nothing of its end before it goes away. -/
theorem isFarewell_of_mem_defects {e : Episode} {d : Defect} (h : d ∈ defects e.outcome.trace) :
    d.isFarewell = false := by
  have hreports : e.scene.Reports e.thread e.op e.outcome := e.scene.perform_defects e.thread e.op
  rw [Scene.Reports] at hreports
  rw [hreports] at h
  cases hstray : d.isStray with
  | true =>
      cases d with
      | offContext operation owner current => rfl
      | _ => cases hstray
  | false =>
      have hfault := Call.fault_of_mem_report h hstray
      exact Operation.isFarewell_of_fault (Call.mem_of_mem_reached _ _ hfault)

end Episode

namespace Call

variable {call : Call}

theorem registered_after (deeds : List Deed) :
    ∀ call : Call, (call.after deeds).registered =
      (call.registered || (call.episodes deeds).any Episode.registers) := by
  induction deeds with
  | nil => intro call; exact (Bool.or_false _).symm
  | cons deed rest ih =>
      intro call
      rw [after_cons, ih, Episode.registered_outcome, episodes_cons, List.any_cons, Bool.or_assoc]
      rfl

theorem deregistered_after (deeds : List Deed) :
    ∀ call : Call, (call.after deeds).deregistered =
      (call.deregistered || (call.episodes deeds).any Episode.deregisters) := by
  induction deeds with
  | nil => intro call; exact (Bool.or_false _).symm
  | cons deed rest ih =>
      intro call
      rw [after_cons, ih, Episode.deregistered_outcome, episodes_cons, List.any_cons, Bool.or_assoc]
      rfl

/-- What an episode finds registered was so at first, or an earlier episode registered it. -/
theorem registered_of_episodes {e : Episode} {later : List Episode} (before : List Episode) :
    ∀ {call : Call} {deeds : List Deed}, call.episodes deeds = before ++ e :: later →
      e.scene.call.registered = (call.registered || before.any Episode.registers) := by
  induction before with
  | nil =>
      intro call deeds h
      cases deeds with
      | nil => cases h
      | cons deed rest =>
          obtain ⟨rfl, -⟩ := List.cons.inj h
          exact (Bool.or_false _).symm
  | cons first before ih =>
      intro call deeds h
      cases deeds with
      | nil => cases h
      | cons deed rest =>
          obtain ⟨rfl, hrest⟩ := List.cons.inj h
          rw [ih hrest, Episode.registered_outcome, List.any_cons, Bool.or_assoc]
          rfl

theorem registry_sound_start (setup : CallSetup) (address : Address) (settings : Settings)
    (reporter : Reporter) (owner : Thread) :
    (start setup address settings reporter owner).registry.Sound :=
  nofun

/-- What a call reports of itself when it goes away, as far as the registry was told soundly. -/
theorem defects_farewell (h : call.registry.Sound) :
    defects call.farewell =
      (if call.isOver then [] else [.notEndedAtTeardown call.phase]) ++
        if call.registered && !call.deregistered then [.registrationMismatch true false]
        else [] := by
  have hmarks : defects (if call.registered = call.deregistered then []
      else call.reporter.happenings
        (.registrationMismatch call.registered call.deregistered)) =
      if call.registered && !call.deregistered then [.registrationMismatch true false] else [] := by
    cases hknown : call.registered with
    | true => cases call.deregistered <;> simp
    | false =>
        have hgone : call.deregistered = false := by
          rw [← Bool.not_eq_true]
          intro hgone
          have hfalse := h hgone
          rw [registry, hknown] at hfalse
          cases hfalse
        rw [hgone]
        rfl
  unfold farewell
  rw [defects_append, hmarks]
  split <;> simp

end Call

/-- What holds of the registry in the course of an episode. -/
structure Episode.KeepsBooks (e : Episode) : Prop where
  found : e.scene.call.registry.Sound
  left : e.outcome.scene.call.registry.Sound
  /-- A listener that is told of something sees it no other way. -/
  seen : ∀ d ∈ deliveries e.outcome.trace, d.seen.call.registry.Sound
  registered : e.outcome.scene.call.registered = (e.scene.call.registered || e.registers)
  deregistered : e.outcome.scene.call.deregistered = (e.scene.call.deregistered || e.deregisters)
  /-- The end of a call that the registry does not know of is refused, and reported once. -/
  unknown : e.op = .deregister → e.outcome.reply.isAborted = false →
    e.scene.call.registered = false →
      e.outcome.scene = e.scene ∧ deliveries e.outcome.trace = [] ∧
      acceptances e.outcome.trace = [] ∧ requests e.outcome.trace = [] ∧
      (defects e.outcome.trace).filter (!·.isStray) = [.deregisteredBeforeRegistered]
  undiagnosed : ∀ d ∈ defects e.outcome.trace, d.isFarewell = false

theorem Episode.keepsBooks {e : Episode} (h : e.scene.call.registry.Sound) : e.KeepsBooks where
  found := h
  left := registry_outcome_sound h
  seen := by
    intro d hd
    have htells : e.scene.Tells e.outcome := e.scene.perform_tells e.thread e.op
    rw [htells.seen_call d hd]
    exact registry_outcome_sound h
  registered := e.registered_outcome
  deregistered := e.deregistered_outcome
  unknown := by
    obtain ⟨scene, thread, op⟩ := e
    rintro rfl hlasts hunknown
    exact Scene.perform_deregister_of_unknown hunknown hlasts
  undiagnosed := fun _ => isFarewell_of_mem_defects

/-- **What the registry was told is accounted for, and a call that goes away says what is missing.**
In the life of any call, whatever is done to it and on whatever threads, the call is deregistered
only if it is registered, and so it is seen; each of the two marks is set by its own operation and
never taken back, and to deregister a call that is not registered does nothing but report it.  At
the end the call is registered if some episode registered it and deregistered if some episode
deregistered it, which can only have come later.  Going away is never given up, changes nothing,
tells nobody and runs nothing.  It reports that the call is not over, if it is not, and then that it
was registered and never deregistered, if it was, and nothing else. -/
theorem registration_is_accounted_for (setup : CallSetup) (address : Address)
    (settings : Settings) (reporter : Reporter) (owner : Thread) (deeds : List Deed)
    (around : Surroundings) :
    let call := Call.start setup address settings reporter owner
    let episodes := call.episodes deeds
    let last := call.after deeds
    let closed := Scene.close ⟨last, around⟩
    (∀ e ∈ episodes, e.KeepsBooks) ∧
    (∀ before e later, episodes = before ++ e :: later → e.deregisters = true →
      before.any Episode.registers = true) ∧
    last.registered = episodes.any Episode.registers ∧
    last.deregistered = episodes.any Episode.deregisters ∧
    closed.reply = .done ∧ closed.scene = ⟨last, around⟩ ∧
    deliveries closed.trace = [] ∧ acceptances closed.trace = [] ∧ requests closed.trace = [] ∧
    defects closed.trace =
      (if last.isOver then [] else [.notEndedAtTeardown last.phase]) ++
        if episodes.any Episode.registers && !episodes.any Episode.deregisters then
          [.registrationMismatch true false]
        else [] := by
  intro call episodes last closed
  have hstart : call.registry.Sound := Call.registry_sound_start _ _ _ _ _
  have hlast : last.registry.Sound :=
    Call.after_keeps (P := fun c => c.registry.Sound) (fun _ => Episode.registry_outcome_sound)
      deeds hstart
  have hregistered : last.registered = episodes.any Episode.registers :=
    Call.registered_after deeds call
  have hderegistered : last.deregistered = episodes.any Episode.deregisters :=
    Call.deregistered_after deeds call
  have hclosed : closed =
      Progress.outcome ⟨⟨last, around⟩, .noted (.dropping last.label) :: last.farewell⟩ .done :=
    Scene.close_eq _
  rw [hclosed]
  refine ⟨fun e he => ?_, ?_, hregistered, hderegistered, rfl, rfl, by simp, by simp, by simp, ?_⟩
  · exact Episode.keepsBooks (Call.episodes_keep (P := fun c => c.registry.Sound)
      (fun _ => Episode.registry_outcome_sound) deeds hstart e he)
  · intro before e later hsplit hgone
    have hknown : e.scene.call.registered = true := (Bool.and_eq_true_iff.mp hgone).2
    rw [Call.registered_of_episodes before hsplit] at hknown
    exact hknown
  · rw [Progress.outcome_trace, defects_noted, Call.defects_farewell hlast, hregistered,
      hderegistered]

/-- A call is deregistered before the registry knows of it, then registered, and goes away while it
is still ringing. -/
theorem forgotten_call_is_diagnosed :
    let early : Deed := .plain .deregister
    let deeds : List Deed := [early, .plain .register, .plain (.setPhase .ringingAnticipatory)]
    let last := Call.incoming.after deeds
    last.registered = true ∧ last.deregistered = false ∧
      (defects (Call.incoming.meet early).outcome.trace).filter (!·.isStray) =
        [.deregisteredBeforeRegistered] ∧
      defects (Scene.close ⟨last, early.around⟩).trace =
        [.notEndedAtTeardown .ringingAnticipatory, .registrationMismatch true false] := by
  intro early deeds last
  obtain ⟨hbooks, -, hregistered, hderegistered, -, -, -, -, -, hdefects⟩ :=
    registration_is_accounted_for (CallSetup.offered 0 .blank 0 .audio .granted) ⟨none, none⟩ {}
      .collecting 0 deeds early.around
  obtain ⟨-, -, -, -, hreported⟩ :=
    (hbooks (Call.incoming.meet early) List.mem_cons_self).unknown rfl rfl rfl
  exact ⟨hregistered, hderegistered, hreported, hdefects⟩

end CallLifecycle

/-
Each particular of a call has one writer.

Beside its course, which is the phase, the queue, the listener and the marks of the registry, a call
keeps what it is told of itself: five switches, the route, the identifier in signaling, the linked
record.  Each of these is written by one operation of its own, in any phase and also once the call
is over, and by nothing else.  So what a call has of one is what that operation gave it last, and of
the record what it gave first, whatever else was done to the call meanwhile.

`Call.particulars` is a call without its course.  What one operation makes of it is said by
`Call.written`, and `Scene.perform_particulars` is the only place where the operations are gone
through; a run is then a fold over what was given.  Two operations that write different particulars
also come to the same in either order, since each leaves alone what the other writes.
-/
import CallLifecycle.Proofs.Barring
import CallLifecycle.Proofs.Scheduling

namespace CallLifecycle

open Trace

/-! ### What an operation writes -/

/-- What of a call is written by one operation alone. -/
inductive Particular
  | switch (switch : Switch)
  | route
  | signalingId
  | record
  deriving DecidableEq

namespace Operation

/-- The particular that an operation writes, if it writes one. -/
def particular? : Operation → Option Particular
  | setSwitch switch _ => some (.switch switch)
  | setRoute _ => some .route
  | assignSignalingId _ => some .signalingId
  | linkRecord _ => some .record
  | _ => none

/-- What an operation gives a switch, if it gives that switch anything. -/
def switched? (switch : Switch) : Operation → Option Bool
  | setSwitch other on => if other = switch then some on else none
  | _ => none

/-- The route that an operation gives. -/
def route? : Operation → Option Route
  | setRoute route => some route
  | _ => none

/-- The identifier in signaling that an operation gives. -/
def signalingId? : Operation → Option UInt64
  | assignSignalingId id => some id
  | _ => none

/-- The record that an operation gives. -/
def record? : Operation → Option Nat
  | linkRecord record => some record
  | _ => none

end Operation

namespace Call

/-- The call once an operation has written its particular; a record that is there stays. -/
def written (call : Call) : Operation → Call
  | .setSwitch switch on => switch.set on call
  | .setRoute route => { call with route := route }
  | .assignSignalingId id => { call with signalingId := some id }
  | .linkRecord record => { call with record := call.record.or (some record) }
  | _ => call

/-- The call without its course: how far it has come, who follows it, what the registry was told. -/
def particulars (call : Call) : Call :=
  { call with
    phase := .idle
    deferred := none
    listener := none
    registered := false
    deregistered := false }

section Particulars

variable {a b : Call} (h : a.particulars = b.particulars)
include h

theorem isOn_of_particulars (switch : Switch) : switch.isOn a = switch.isOn b := by
  have hsame : switch.isOn a.particulars = switch.isOn b.particulars :=
    congrArg (Switch.isOn · switch) h
  cases switch with
  | audioMuted | localVideo | onHold | remoteVideo | remoteSharing => exact hsame

theorem written_of_particulars (op : Operation) :
    (a.written op).particulars = (b.written op).particulars := by
  cases op with
  | setSwitch switch on =>
      cases switch with
      | audioMuted => exact congrArg ({ · with audioMuted := on }) h
      | localVideo => exact congrArg ({ · with localVideo := on }) h
      | onHold => exact congrArg ({ · with onHold := on }) h
      | remoteVideo => exact congrArg ({ · with remoteVideo := on }) h
      | remoteSharing => exact congrArg ({ · with remoteSharing := on }) h
  | setRoute route => exact congrArg ({ · with route := route }) h
  | assignSignalingId id => exact congrArg ({ · with signalingId := some id }) h
  | linkRecord record =>
      exact congrArg (fun c : Call => { c with record := c.record.or (some record) }) h
  | _ => exact h

theorem foldl_written_of_particulars (ops : List Operation) :
    (ops.foldl written a).particulars = (ops.foldl written b).particulars := by
  induction ops generalizing a b with
  | nil => exact h
  | cons op rest ih => exact ih (written_of_particulars h op)

end Particulars

/-- What is written of different particulars comes to the same in either order. -/
theorem written_comm (call : Call) {op op' : Operation} (hne : op.particular? ≠ op'.particular?) :
    (call.written op).written op' = (call.written op').written op := by
  cases op with
  | setSwitch switch on =>
      cases op' with
      | setSwitch switch' on' =>
          cases switch <;> cases switch' <;> first | rfl | exact absurd rfl hne
      | _ => cases switch <;> rfl
  | setRoute route =>
      cases op' with
      | setSwitch switch' on' => cases switch' <;> rfl
      | setRoute route' => exact absurd rfl hne
      | _ => rfl
  | assignSignalingId id =>
      cases op' with
      | setSwitch switch' on' => cases switch' <;> rfl
      | assignSignalingId id' => exact absurd rfl hne
      | _ => rfl
  | linkRecord record =>
      cases op' with
      | setSwitch switch' on' => cases switch' <;> rfl
      | linkRecord record' => exact absurd rfl hne
      | _ => rfl
  | _ => rfl

/-- To write a particular bars no thread. -/
theorem bars_written (call : Call) (op : Operation) (thread : Thread) (operation : String) :
    (call.written op).bars thread operation = call.bars thread operation := by
  cases op with
  | setSwitch switch on => cases switch <;> rfl
  | _ => rfl

end Call

/-! ### One operation -/

@[simp] theorem Progress.conclude_particulars (thread : Thread) (a : Acceptance) (p : Progress) :
    (p.conclude thread a).scene.call.particulars = p.scene.call.particulars := by
  unfold conclude
  split
  · rfl
  · simp [Call.particulars]

namespace Scene

variable (scene : Scene) (thread : Thread)

theorem perform_setPhase_particulars (new : Phase) :
    (scene.perform thread (.setPhase new)).scene.call.particulars = scene.call.particulars := by
  rw [perform_setPhase]
  split
  · rfl
  · split <;> simp [Call.particulars]

theorem perform_answer_particulars (a : Acceptance) :
    (scene.perform thread (.answer a)).scene.call.particulars = scene.call.particulars := by
  by_cases hready : scene.call.phase = .ringingReadyToAnswer
  · rw [perform_answer_of_ready hready, Progress.conclude_particulars]
  · by_cases hanticipatory : scene.call.phase = .ringingAnticipatory
    · rw [perform_answer_of_anticipatory hanticipatory]
      split
      · rfl
      · simp [Call.particulars]
    · rw [perform_answer_of_not_ringing hready hanticipatory]
      rfl

theorem perform_engineReady_particulars :
    (scene.perform thread .engineReady).scene.call.particulars = scene.call.particulars := by
  by_cases hunanswered : scene.call.phase = .answering ∨ scene.call.phase = .ringingAnticipatory
  · rw [perform_engineReady_of_unanswered hunanswered, perform_setPhase_particulars]
  · by_cases hphase : scene.call.phase = .accepting
    · cases hdeferred : scene.call.deferred with
      | some a =>
          rw [perform_engineReady_of_queued hphase hdeferred]
          split
          · rfl
          · rw [Progress.conclude_particulars]
            rfl
      | none =>
          rw [perform_engineReady_of_nothing_queued hphase hdeferred]
          split
          · rfl
          · split
            · rfl
            · simp [Call.particulars]
    · rw [not_or] at hunanswered
      rw [perform_engineReady_of_else hunanswered.1 hunanswered.2 hphase]
      rfl

variable {op : Operation}

/-- An operation that writes no particular leaves them all as they are, however it ends. -/
theorem perform_particulars_of_none (h : op.particular? = none) :
    (scene.perform thread op).scene.call.particulars = scene.call.particulars := by
  cases op with
  | setPhase new => exact perform_setPhase_particulars scene thread new
  | awaitMedia a =>
      rw [perform_awaitMedia]
      split
      · rfl
      · split <;> simp [Call.particulars]
  | deferAcceptance a =>
      rw [perform_deferAcceptance]
      split
      · rfl
      · split <;> simp [Call.particulars]
  | handOver =>
      rw [perform_handOver]
      split <;> rfl
  | answer a => exact perform_answer_particulars scene thread a
  | engineReady => exact perform_engineReady_particulars scene thread
  | attach listener =>
      rw [perform_attach]
      split <;> rfl
  | detach =>
      rw [perform_detach]
      split <;> rfl
  | register =>
      rw [perform_register]
      split <;> rfl
  | deregister =>
      rw [perform_deregister]
      split
      · rfl
      · split <;> rfl
  | setSwitch | setRoute | assignSignalingId | linkRecord => cases h

/-- An operation that writes a particular writes nothing else of the call, unless it is given up,
and runs nothing. -/
theorem perform_call_of_some {x : Particular} (h : op.particular? = some x)
    (hfree : scene.call.cutsShort thread op = false) :
    (scene.perform thread op).scene.call = scene.call.written op ∧
      acceptances (scene.perform thread op).trace = [] := by
  have hpassed : ∀ {operation : String} {rest : List Finding},
      op.findings scene.call = .check operation :: rest →
        ¬ scene.call.bars thread operation = true :=
    fun hfindings => Bool.eq_false_iff.mp (Call.bars_of_cutsShort hfindings hfree)
  cases op with
  | setSwitch switch on =>
      rw [perform_setSwitch, if_neg (hpassed rfl)]
      simp [Call.written]
  | setRoute route =>
      rw [perform_setRoute, if_neg (hpassed rfl)]
      simp [Call.written]
  | assignSignalingId id =>
      rw [perform_assignSignalingId, if_neg (hpassed rfl)]
      simp [Call.written, Call.acceptances_reassignment]
  | linkRecord record =>
      rw [perform_linkRecord, if_neg (hpassed rfl)]
      cases hrecord : scene.call.record with
      | none => simp [Call.written, hrecord]
      | some old =>
          have hsame : { scene.call with record := some old } = scene.call := by rw [← hrecord]
          simp [Call.written, hrecord, hsame]
  | _ => cases h

/-- **Each particular is written by its own operation, and by none else.** -/
theorem perform_particulars (h : (scene.perform thread op).reply.isAborted = false) :
    (scene.perform thread op).scene.call.particulars = (scene.call.written op).particulars := by
  cases hop : op.particular? with
  | none =>
      have hkept : scene.call.written op = scene.call := by
        cases op <;> first | rfl | cases hop
      rw [perform_particulars_of_none scene thread hop, hkept]
  | some x =>
      rw [isAborted_perform] at h
      rw [(perform_call_of_some scene thread hop h).1]

end Scene

/-! ### A run -/

namespace Call

/-- What every operation writes over is what was given last. -/
theorem read_foldl_written {β : Type} (read : Call → Option β) {given? : Operation → Option β}
    (hstep : ∀ call op, read (call.written op) = (given? op).or (read call))
    (ops : List Operation) : ∀ call : Call,
    read (ops.foldl written call) = (ops.filterMap given?).getLast?.or (read call) := by
  induction ops with
  | nil => intro call; rfl
  | cons op rest ih =>
      intro call
      rw [List.foldl_cons, ih, hstep]
      cases hgiven : given? op with
      | none => rw [List.filterMap_cons_none hgiven, Option.none_or]
      | some b =>
          rw [List.filterMap_cons_some hgiven, List.getLast?_cons, Option.some_or]
          cases (rest.filterMap given?).getLast? <;> rfl

theorem isOn_foldl_written (switch : Switch) (ops : List Operation) (call : Call) :
    switch.isOn (ops.foldl written call) =
      (ops.filterMap (Operation.switched? switch)).getLast?.getD (switch.isOn call) := by
  have hstep : ∀ (call : Call) (op : Operation), some (switch.isOn (call.written op)) =
      (op.switched? switch).or (some (switch.isOn call)) := by
    intro call op
    cases op with
    | setSwitch other on => cases other <;> cases switch <;> rfl
    | _ => rfl
  have hread := read_foldl_written (fun call => some (switch.isOn call)) hstep ops call
  rw [Option.or_some] at hread
  exact Option.some.inj hread

theorem route_foldl_written (ops : List Operation) (call : Call) :
    (ops.foldl written call).route =
      (ops.filterMap Operation.route?).getLast?.getD call.route := by
  have hstep : ∀ (call : Call) (op : Operation), some (call.written op).route =
      op.route?.or (some call.route) := by
    intro call op
    cases op with
    | setSwitch switch on => cases switch <;> rfl
    | _ => rfl
  have hread := read_foldl_written (fun call => some call.route) hstep ops call
  rw [Option.or_some] at hread
  exact Option.some.inj hread

theorem signalingId_foldl_written (ops : List Operation) (call : Call) :
    (ops.foldl written call).signalingId =
      (ops.filterMap Operation.signalingId?).getLast?.or call.signalingId := by
  refine read_foldl_written signalingId (fun call op => ?_) ops call
  cases op with
  | setSwitch switch on => cases switch <;> rfl
  | _ => rfl

/-- A record is never written over, so what counts is what was given first. -/
theorem record_foldl_written (ops : List Operation) :
    ∀ call : Call, (ops.foldl written call).record =
      call.record.or (ops.filterMap Operation.record?).head? := by
  induction ops with
  | nil => intro call; exact Option.or_none.symm
  | cons op rest ih =>
      intro call
      have hstep : (call.written op).record = call.record.or op.record? := by
        cases op with
        | setSwitch switch on => cases switch <;> exact Option.or_none.symm
        | linkRecord record => rfl
        | _ => exact Option.or_none.symm
      rw [List.foldl_cons, ih, hstep, Option.or_assoc]
      cases hgiven : op.record? with
      | none => rw [List.filterMap_cons_none hgiven, Option.none_or]
      | some record => rw [List.filterMap_cons_some hgiven]; rfl

/-- **In a run in which nothing is given up, the particulars are written by what is given.** -/
theorem after_particulars (deeds : List Deed) :
    ∀ call : Call, (∀ e ∈ call.episodes deeds, e.outcome.reply.isAborted = false) →
      (call.after deeds).particulars = ((deeds.map Deed.op).foldl written call).particulars := by
  induction deeds with
  | nil => intro call _; rfl
  | cons deed rest ih =>
      intro call hlasts
      rw [episodes_cons, List.forall_mem_cons] at hlasts
      obtain ⟨hnow, hlater⟩ := hlasts
      have hstep := (call.meet deed).scene.perform_particulars (call.meet deed).thread hnow
      rw [after_cons, ih _ hlater, List.map_cons, List.foldl_cons]
      exact foldl_written_of_particulars hstep _

end Call

/-! ### In either order -/

namespace Scene

variable (scene : Scene) {thread thread' : Thread} {op op' : Operation} {x y : Particular}

/-- Two particulars are written one after the other, where nothing is given up. -/
theorem perform_perform_of_some (hop : op.particular? = some x) (hop' : op'.particular? = some y)
    (hfree : scene.call.cutsShort thread op = false)
    (hfree' : scene.call.cutsShort thread' op' = false) :
    let both := (scene.perform thread op).scene.perform thread' op'
    both.scene.call = (scene.call.written op).written op' ∧
      both.scene.around.contacts = scene.around.contacts := by
  intro both
  obtain ⟨hfirst, hran⟩ := scene.perform_call_of_some thread hop hfree
  have hnext : (scene.perform thread op).scene.call.cutsShort thread' op' = false := by
    obtain ⟨operation, hcut⟩ := op'.exists_cutsShort_eq_bars
      (by rintro a rfl; cases hop') (by rintro rfl; cases hop')
    rw [hfirst, hcut, Call.bars_written, ← hcut, hfree']
  obtain ⟨hsecond, hran'⟩ := (scene.perform thread op).scene.perform_call_of_some thread' hop' hnext
  refine ⟨by rw [hsecond, hfirst], ?_⟩
  rw [perform_contacts, Surroundings.ran, hran']
  show (scene.perform thread op).scene.around.contacts = _
  rw [perform_contacts, Surroundings.ran, hran]
  rfl

/-- **Operations on different particulars come to the same in either order**, as far as the call
and what can be observed of it go. -/
theorem perform_comm (hop : op.particular? = some x) (hop' : op'.particular? = some y)
    (hne : x ≠ y) (hfree : scene.call.cutsShort thread op = false)
    (hfree' : scene.call.cutsShort thread' op' = false) :
    let there := (scene.perform thread op).scene.perform thread' op'
    let back := (scene.perform thread' op').scene.perform thread op
    back.scene.call = there.scene.call ∧ back.scene.observe = there.scene.observe := by
  intro there back
  obtain ⟨hthere, hcontacts⟩ := scene.perform_perform_of_some hop hop' hfree hfree'
  obtain ⟨hback, hcontacts'⟩ := scene.perform_perform_of_some hop' hop hfree' hfree
  have hcall : back.scene.call = there.scene.call := by
    rw [hback, hthere]
    exact scene.call.written_comm (by simpa [hop, hop'] using hne.symm)
  refine ⟨hcall, ?_⟩
  rw [observe, observe, hcall]
  exact there.scene.call.observe_of_contacts (hcontacts'.trans hcontacts.symm)

end Scene

/-! ### What a call has of each -/

/-- **Each particular of a call has one writer.**  Let anything be done to a call, on whatever
threads and among whatever surroundings, and nothing of it be given up.  Then each of the five
switches, the route and the identifier in signaling is what its own operation gave it last, and what
it was at the start if that was never called; the record is the one that was given first.  The
identifier, the direction, the contact, the address that the contact had at the start, the time, the
adapter and the offer are those of the start.  Two more operations that write different ones of
these leave the same call and the same snapshot in either order. -/
theorem particulars_have_one_writer (founding : Surroundings) (setup : CallSetup)
    (settings : Settings) (reporter : Reporter) (owner : Thread) (deeds : List Deed)
    (hlasts : ∀ e ∈ (Call.start setup (founding.contact setup.contact).address settings reporter
      owner).episodes deeds, e.outcome.reply.isAborted = false) (around : Surroundings) :
    let address := (founding.contact setup.contact).address
    let last := (Call.start setup address settings reporter owner).after deeds
    let seen := last.observe around
    let ops := deeds.map Deed.op
    let switched (switch : Switch) := (ops.filterMap (Operation.switched? switch)).getLast?
    seen.audioMuted = (switched .audioMuted).getD (setup.mic ≠ .granted) ∧
    seen.localVideo = (switched .localVideo).getD (setup.offer = .video) ∧
    seen.onHold = (switched .onHold).getD false ∧
    seen.remoteVideo = (switched .remoteVideo).getD false ∧
    seen.remoteSharing = (switched .remoteSharing).getD false ∧
    seen.route = (ops.filterMap Operation.route?).getLast?.getD ⟨.unknown⟩ ∧
    seen.signalingId = (ops.filterMap Operation.signalingId?).getLast? ∧
    last.record = (ops.filterMap Operation.record?).head? ∧
    seen.hasRecord = (ops.filterMap Operation.record?).head?.isSome ∧
    seen.id = setup.id ∧ seen.direction = setup.direction ∧ last.contact = setup.contact ∧
    seen.threadId = (around.contact setup.contact).threadId ∧ seen.remoteAddress = address ∧
    seen.sentAt = setup.sentAt ∧ seen.adapter = setup.adapter ∧ seen.offer = setup.offer ∧
    ∀ op op' x y thread thread', op.particular? = some x → op'.particular? = some y → x ≠ y →
      let one := Scene.perform ⟨last, around⟩ thread op
      let other := Scene.perform ⟨last, around⟩ thread' op'
      one.reply.isAborted = false → other.reply.isAborted = false →
        let there := one.scene.perform thread' op'
        let back := other.scene.perform thread op
        back.scene.call = there.scene.call ∧ back.scene.observe = there.scene.observe := by
  intro address last seen ops switched
  have hlast := Call.after_particulars deeds _ hlasts
  have hfixed : last.fixed = _ := Call.after_fixed _ deeds
  have hrecord : last.record = (ops.filterMap Operation.record?).head? :=
    (congrArg Call.record hlast).trans (Call.record_foldl_written ops _)
  have hon (switch : Switch) :=
    (Call.isOn_of_particulars hlast switch).trans (Call.isOn_foldl_written switch ops _)
  have hmuted : (!setup.mic.permits) = decide (setup.mic ≠ .granted) := by
    cases setup.mic <;> rfl
  have hvideo : (setup.offer == .video) = decide (setup.offer = .video) := by
    cases setup.offer <;> rfl
  have hcontact : last.contact = setup.contact := congrArg Fixed.contact hfixed
  refine ⟨?_, ?_, hon .onHold, hon .remoteVideo, hon .remoteSharing, ?_, ?_, hrecord,
    congrArg Option.isSome hrecord, congrArg Fixed.id hfixed, congrArg Fixed.direction hfixed,
    hcontact, ?_, congrArg Fixed.remoteAddress hfixed, congrArg Fixed.sentAt hfixed,
    congrArg Fixed.adapter hfixed, congrArg Fixed.offer hfixed, ?_⟩
  · rw [← hmuted]
    exact hon .audioMuted
  · rw [← hvideo]
    exact hon .localVideo
  · exact (congrArg Call.route hlast).trans (Call.route_foldl_written ops _)
  · exact ((congrArg Call.signalingId hlast).trans (Call.signalingId_foldl_written ops _)).trans
      Option.or_none
  · show (around.contact last.contact).threadId = _
    rw [hcontact]
  · intro op op' x y thread thread' hop hop' hne one other hone hother
    rw [Scene.isAborted_perform] at hone hother
    exact Scene.perform_comm ⟨last, around⟩ hop hop' hne hone hother

/-- A call is muted on another thread and unmuted when it is over, and a second record is refused;
to mute it again and to hold it then comes to the same in either order. -/
theorem particulars_outlast_the_call :
    let mute (on : Bool) : Deed := { Deed.plain (.setSwitch .audioMuted on) with thread := 1 }
    let deeds : List Deed := [.plain (.linkRecord 0), mute true, .plain (.setPhase .localHangup),
      mute false, .plain (.linkRecord 1)]
    let last := Call.incoming.after deeds
    let muted := Scene.perform ⟨last, (mute true).around⟩ 1 (.setSwitch .audioMuted true)
    let held := Scene.perform ⟨last, (mute true).around⟩ 0 (.setSwitch .onHold true)
    (∀ e ∈ Call.incoming.episodes deeds, e.outcome.reply.isAborted = false) ∧
    last.isOver = true ∧ last.audioMuted = false ∧ last.record = some 0 ∧
    (held.scene.perform 1 (.setSwitch .audioMuted true)).scene.observe =
      (muted.scene.perform 0 (.setSwitch .onHold true)).scene.observe := by
  intro mute deeds last muted held
  have hlasts : ∀ e ∈ Call.incoming.episodes deeds, e.outcome.reply.isAborted = false := by
    decide
  obtain ⟨haudio, -, -, -, -, -, -, hrecord, -, -, -, -, -, -, -, -, -, hcomm⟩ :=
    particulars_have_one_writer ⟨[], [], []⟩ (CallSetup.offered 0 .blank 0 .audio .granted) {}
      .collecting 0 deeds hlasts (mute true).around
  have hover : last.isOver = true := by decide
  exact ⟨hlasts, hover, haudio, hrecord,
    (hcomm (.setSwitch .audioMuted true) (.setSwitch .onHold true) (.switch .audioMuted)
      (.switch .onHold) 1 0 rfl rfl (by decide) rfl rfl).2⟩

end CallLifecycle

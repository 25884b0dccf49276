/-
The life of one call.

A call lives through *deeds*: operations performed on it, each on some thread and
among whatever surrounds the call at the time.  Nothing is said of how the
surroundings came to be what they are, so a life takes in whatever other calls,
contacts, records and listeners do between one deed and the next.  A deed and the
call that it finds make an *episode*, and the outcome of an episode is what
`Scene.perform` says.

Two inductions are done here once.  `episodes_keep` carries whatever every
operation keeps through a whole life, and the first use of it is for what no
operation changes, `Fixed`.  `exists_deeds_of_mem_run` shows that nothing is
missing from this picture: whatever happens on a switchboard, each of its calls
has lived through some list of deeds.
-/
import CallLifecycle.Proofs.Operations
import CallLifecycle.Switchboard

namespace CallLifecycle

/-- An operation on a call, the thread it is called on, and what surrounds the call then. -/
structure Deed where
  thread : Thread
  op : Operation
  around : Surroundings

/-- A deed done on thread 0, with one listener around that is called back. -/
def Deed.plain (op : Operation) : Deed :=
  ⟨0, op, ⟨[], [], [.observer]⟩⟩

/-- An operation, and the scene it is performed in. -/
structure Episode where
  scene : Scene
  thread : Thread
  op : Operation

/-- What an episode leaves behind. -/
def Episode.outcome (e : Episode) : Outcome :=
  e.scene.perform e.thread e.op

namespace Call

/-- The episode in which a deed finds a call. -/
def meet (call : Call) (deed : Deed) : Episode :=
  ⟨⟨call, deed.around⟩, deed.thread, deed.op⟩

/-- The call as some deeds leave it, done one after the other. -/
def after (call : Call) : List Deed → Call
  | [] => call
  | deed :: rest => (call.meet deed).outcome.scene.call.after rest

/-- The episodes of a life, in order. -/
def episodes (call : Call) : List Deed → List Episode
  | [] => []
  | deed :: rest => call.meet deed :: (call.meet deed).outcome.scene.call.episodes rest

@[simp] theorem after_nil (call : Call) : call.after [] = call := rfl

@[simp] theorem after_cons (call : Call) (deed : Deed) (rest : List Deed) :
    call.after (deed :: rest) = (call.meet deed).outcome.scene.call.after rest := rfl

@[simp] theorem episodes_nil (call : Call) : call.episodes [] = [] := rfl

@[simp] theorem episodes_cons (call : Call) (deed : Deed) (rest : List Deed) :
    call.episodes (deed :: rest) =
      call.meet deed :: (call.meet deed).outcome.scene.call.episodes rest := rfl

theorem after_append (past future : List Deed) :
    ∀ call : Call, call.after (past ++ future) = (call.after past).after future := by
  induction past with
  | nil => intro call; rfl
  | cons deed rest ih => intro call; exact ih _

theorem episodes_append (past future : List Deed) :
    ∀ call : Call,
      call.episodes (past ++ future) = call.episodes past ++ (call.after past).episodes future := by
  induction past with
  | nil => intro call; rfl
  | cons deed rest ih =>
      intro call
      simp only [List.cons_append, episodes_cons, after_cons, ih]

/-- A call offered from the other end on thread 0 and held to the table. -/
def incoming : Call :=
  start (CallSetup.offered 0 .blank 0 .audio .granted) ⟨none, none⟩ {} .collecting 0

/-! ### What every operation keeps, a life keeps -/

section Keep

variable {P : Call → Prop} (hkeep : ∀ e : Episode, P e.scene.call → P e.outcome.scene.call)
include hkeep

theorem after_keeps (deeds : List Deed) : ∀ {call : Call}, P call → P (call.after deeds) := by
  induction deeds with
  | nil => intro call h; exact h
  | cons deed rest ih => intro call h; exact ih (hkeep _ h)

/-- Each episode of a life finds what every operation keeps. -/
theorem episodes_keep (deeds : List Deed) :
    ∀ {call : Call}, P call → ∀ e ∈ call.episodes deeds, P e.scene.call := by
  induction deeds with
  | nil => intro call _ e he; simp at he
  | cons deed rest ih =>
      intro call h e he
      rcases List.mem_cons.mp he with rfl | hrest
      · exact h
      · exact ih (hkeep _ h) e hrest

end Keep

end Call

/-! ### What never changes -/

/-- What no operation changes of a call. -/
structure Fixed where
  id : Identifier
  direction : Direction
  contact : Nat
  remoteAddress : Address
  sentAt : UInt64
  adapter : AdapterType
  offer : OfferMedia
  reporter : Reporter
  enforced : Bool
  owner : Thread

/-- What of a call stays as it is. -/
def Call.fixed (call : Call) : Fixed where
  id := call.id
  direction := call.direction
  contact := call.contact
  remoteAddress := call.remoteAddress
  sentAt := call.sentAt
  adapter := call.adapter
  offer := call.offer
  reporter := call.reporter
  enforced := call.enforced
  owner := call.owner

@[simp] theorem Switch.set_fixed (on : Bool) (call : Call) (switch : Switch) :
    (switch.set on call).fixed = call.fixed := by
  cases switch <;> rfl

@[simp] theorem Progress.conclude_fixed (thread : Thread) (a : Acceptance) (p : Progress) :
    (p.conclude thread a).scene.call.fixed = p.scene.call.fixed := by
  unfold conclude
  split
  · rfl
  · simp [Call.fixed]

namespace Scene

variable (scene : Scene) (thread : Thread)

theorem perform_engineReady_fixed :
    (scene.perform thread .engineReady).scene.call.fixed = scene.call.fixed := by
  by_cases hunanswered : scene.call.phase = .answering ∨ scene.call.phase = .ringingAnticipatory
  · rw [perform_engineReady_of_unanswered hunanswered, perform_setPhase]
    split
    · rfl
    · split <;> simp [Call.fixed]
  · by_cases hphase : scene.call.phase = .accepting
    · cases hdeferred : scene.call.deferred with
      | some a =>
          rw [perform_engineReady_of_queued hphase hdeferred]
          split
          · rfl
          · rw [Progress.conclude_fixed]
            rfl
      | none =>
          rw [perform_engineReady_of_nothing_queued hphase hdeferred]
          split
          · rfl
          · split
            · rfl
            · simp [Call.fixed]
    · rw [not_or] at hunanswered
      rw [perform_engineReady_of_else hunanswered.1 hunanswered.2 hphase]
      rfl

theorem perform_answer_fixed (a : Acceptance) :
    (scene.perform thread (.answer a)).scene.call.fixed = scene.call.fixed := by
  by_cases hready : scene.call.phase = .ringingReadyToAnswer
  · rw [perform_answer_of_ready hready, Progress.conclude_fixed]
  · by_cases hanticipatory : scene.call.phase = .ringingAnticipatory
    · rw [perform_answer_of_anticipatory hanticipatory]
      split
      · rfl
      · simp [Call.fixed]
    · rw [perform_answer_of_not_ringing hready hanticipatory]
      rfl

/-- **No operation changes what is fixed**, however it ends. -/
theorem perform_fixed (op : Operation) :
    (scene.perform thread op).scene.call.fixed = scene.call.fixed := by
  cases op with
  | setPhase new =>
      rw [perform_setPhase]
      split
      · rfl
      · split <;> simp [Call.fixed]
  | awaitMedia a =>
      rw [perform_awaitMedia]
      split
      · rfl
      · split <;> simp [Call.fixed]
  | deferAcceptance a =>
      rw [perform_deferAcceptance]
      split
      · rfl
      · split <;> simp [Call.fixed]
  | handOver =>
      rw [perform_handOver]
      split <;> rfl
  | answer a => exact perform_answer_fixed scene thread a
  | engineReady => exact perform_engineReady_fixed scene thread
  | linkRecord record =>
      rw [perform_linkRecord]
      split
      · rfl
      · split <;> simp [Call.fixed]
  | assignSignalingId id =>
      rw [perform_assignSignalingId]
      split <;> rfl
  | setSwitch switch on =>
      rw [perform_setSwitch]
      split
      · rfl
      · simp
  | setRoute route =>
      rw [perform_setRoute]
      split <;> rfl
  | attach listener =>
      rw [perform_attach]
      split <;> rfl
  | detach =>
      rw [perform_detach]
      split <;> rfl
  | register =>
      rw [perform_register]
      split <;> rfl
  | deregister =>
      rw [perform_deregister]
      split
      · rfl
      · split <;> rfl

end Scene

namespace Call

variable (call : Call) (deeds : List Deed)

theorem after_fixed : (call.after deeds).fixed = call.fixed :=
  after_keeps (P := fun c => c.fixed = call.fixed)
    (fun e h => (e.scene.perform_fixed e.thread e.op).trans h) deeds rfl

theorem episodes_fixed : ∀ e ∈ call.episodes deeds, e.scene.call.fixed = call.fixed :=
  episodes_keep (P := fun c => c.fixed = call.fixed)
    (fun e h => (e.scene.perform_fixed e.thread e.op).trans h) deeds rfl

end Call

/-! ### A call on a switchboard -/

namespace Switchboard

/-- The deed that an event is to the call of a number, if it is one. -/
def deed? (board : Switchboard) (i : Nat) : Event → Option Deed
  | .perform j thread op =>
    if j = i ∧ ¬ op.listener?.any fun l => (board.around.liveListener? l).isNone then
      some ⟨thread, op, board.around⟩
    else none
  | .takeAndRun j thread => if j = i then some ⟨thread, .handOver, board.around⟩ else none
  | _ => none

/-- Writing one call leaves the others as they are. -/
theorem call?_set {board : Switchboard} {i : Nat} {call : Call} (h : board.call? i = some call)
    (j : Nat) (new : Option Call) (around : Surroundings) :
    call? ⟨board.calls.set j new, around⟩ i = if j = i then new else some call := by
  have hi : board.calls[i]? = some (some call) := Option.join_eq_some_iff.mp h
  unfold call?
  by_cases hji : j = i
  · subst hji
    obtain ⟨hlt, -⟩ := List.getElem?_eq_some_iff.mp hi
    simp [hlt]
  · simp [hji, hi]

theorem call?_set_of_none {board : Switchboard} {i : Nat} (h : board.call? i = none)
    {j : Nat} (hj : j ≠ i) (new : Option Call) (around : Surroundings) :
    call? ⟨board.calls.set j new, around⟩ i = none := by
  unfold call? at h ⊢
  simpa [List.getElem?_set, hj] using h

/-- An event that is a deed to a call has its outcome; any other but the call's end leaves the
call alone. -/
theorem call?_perform {board : Switchboard} {i : Nat} {call : Call}
    (h : board.call? i = some call) (j : Nat) (thread : Thread) (op : Operation) :
    (board.perform j thread op).board.call? i =
      some (match board.deed? i (.perform j thread op) with
        | some deed => (call.meet deed).outcome.scene.call
        | none => call) := by
  unfold perform deed?
  by_cases hji : j = i
  · subst hji
    rw [h]
    cases hl : op.listener?.any fun l => (board.around.liveListener? l).isNone with
    | true => simpa [hl] using h
    | false =>
        simp only [hl]
        exact (call?_set h _ _ _).trans (if_pos rfl)
  · cases hcall : board.call? j with
    | none => simpa [hji] using h
    | some other =>
        cases hl : op.listener?.any fun l => (board.around.liveListener? l).isNone with
        | true => simpa [hji, hl] using h
        | false =>
            simp only [hl, hji]
            exact (call?_set h _ _ _).trans (if_neg hji)

theorem call?_perform_of_none {board : Switchboard} {i : Nat} (h : board.call? i = none)
    (j : Nat) (thread : Thread) (op : Operation) :
    (board.perform j thread op).board.call? i = none := by
  unfold perform
  cases hcall : board.call? j with
  | none => exact h
  | some other =>
      have hji : j ≠ i := by
        rintro rfl
        simp [h] at hcall
      cases hl : op.listener?.any fun l => (board.around.liveListener? l).isNone with
      | true => simpa [hl] using h
      | false => exact call?_set_of_none h hji _ _

/-- Running what was taken out happens to the surroundings and to no call. -/
theorem call?_takeAndRun (board : Switchboard) (i j : Nat) (thread : Thread) :
    (board.takeAndRun j thread).board.call? i =
      (board.perform j thread .handOver).board.call? i := by
  simp only [takeAndRun]
  split <;> rfl

theorem call?_drop {board : Switchboard} {i : Nat} {call : Call} (h : board.call? i = some call)
    {j : Nat} (hji : j ≠ i) : (board.drop j).board.call? i = some call := by
  unfold drop
  cases board.call? j with
  | none => exact h
  | some other => exact (call?_set h _ _ _).trans (if_neg hji)

theorem call?_drop_of_none {board : Switchboard} {i : Nat} (h : board.call? i = none) (j : Nat) :
    (board.drop j).board.call? i = none := by
  unfold drop
  cases hcall : board.call? j with
  | none => exact h
  | some other =>
      have hji : j ≠ i := by
        rintro rfl
        simp [h] at hcall
      exact call?_set_of_none h hji _ _

theorem call?_drop_self (board : Switchboard) (i : Nat) :
    (board.drop i).board.call? i = none := by
  unfold drop
  cases hcall : board.call? i with
  | none => exact hcall
  | some call =>
      simp only [call?, List.getElem?_set, ↓reduceIte]
      split <;> rfl

/-- An event that is a deed to a call has that deed's outcome, and any other but the call's own
end leaves the call alone. -/
theorem call?_handle {board : Switchboard} {i : Nat} {call : Call}
    (h : board.call? i = some call) {event : Event} (hdrop : event ≠ .drop i) :
    (board.handle event).board.call? i =
      some (match board.deed? i event with
        | some deed => (call.meet deed).outcome.scene.call
        | none => call) := by
  cases event with
  | perform j thread op => exact call?_perform h j thread op
  | takeAndRun j thread =>
      rw [handle, call?_takeAndRun, call?_perform h]
      simp [deed?, Operation.listener?]
  | drop j => exact call?_drop h fun hji => hdrop (by rw [hji])
  | outside step => exact h

/-- A number is not used again once its call is gone. -/
theorem call?_handle_of_none {board : Switchboard} {i : Nat} (h : board.call? i = none)
    (event : Event) : (board.handle event).board.call? i = none := by
  cases event with
  | perform j thread op => exact call?_perform_of_none h j thread op
  | takeAndRun j thread =>
      rw [handle, call?_takeAndRun]
      exact call?_perform_of_none h j thread .handOver
  | drop j => exact call?_drop_of_none h j
  | outside step => exact h

theorem call?_of_mem_run_of_none {i : Nat} (events : List Event) :
    ∀ {board : Switchboard}, board.call? i = none →
      ∀ after ∈ board.run events, after.board.call? i = none := by
  induction events with
  | nil => intro board _ after hafter; simp [run] at hafter
  | cons event rest ih =>
      intro board h after hafter
      have hnext := call?_handle_of_none h event
      rcases List.mem_cons.mp hafter with rfl | hrest
      · exact hnext
      · exact ih hnext after hrest

/-- **Every call on a switchboard has lived a life of deeds**, whatever happened there. -/
theorem exists_deeds_of_mem_run {i : Nat} (events : List Event) :
    ∀ {board : Switchboard} {call : Call}, board.call? i = some call →
      ∀ after ∈ board.run events, ∀ last, after.board.call? i = some last →
        ∃ deeds, last = call.after deeds := by
  induction events with
  | nil => intro board call _ after hafter; simp [run] at hafter
  | cons event rest ih =>
      intro board call h after hafter last hlast
      by_cases hdrop : event = .drop i
      · -- The call is gone from here on.
        have hgone : (board.handle event).board.call? i = none := by
          rw [hdrop]
          exact call?_drop_self board i
        have hnone : after.board.call? i = none := by
          rcases List.mem_cons.mp hafter with rfl | hrest
          · exact hgone
          · exact call?_of_mem_run_of_none rest hgone after hrest
        simp [hnone] at hlast
      · have hnext := call?_handle h hdrop
        rcases List.mem_cons.mp hafter with rfl | hrest
        · rw [hnext] at hlast
          cases hd : board.deed? i event with
          | none => exact ⟨[], by simpa [hd] using hlast.symm⟩
          | some deed => exact ⟨[deed], by simpa [hd] using hlast.symm⟩
        · obtain ⟨deeds, hdeeds⟩ := ih hnext after hrest last hlast
          cases hd : board.deed? i event with
          | none => exact ⟨deeds, by simpa [hd] using hdeeds⟩
          | some deed => exact ⟨deed :: deeds, by simpa [hd] using hdeeds⟩

end Switchboard

end CallLifecycle

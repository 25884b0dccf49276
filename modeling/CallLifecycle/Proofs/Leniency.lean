/-
Where the table refuses nothing, it makes no difference.

A call that is not held to the table follows a rule of its own, which is that outcomes last.
The table never allows what that rule forbids, and an outcome is refused by both in the same
words.  Nothing else asks which of the two is in force.  So the two kinds of calls go the same
way, step by step, for as long as the table refuses nothing to a call that is not over yet.

That is what `Veil` says of a switchboard where it is hidden whether the table is enforced.
Where the two part, the table has refused a move of a live call, and a live call may move
anywhere without it.
-/
import CallLifecycle.Proofs.VeiledTraffic

namespace CallLifecycle

open Trace

/-- Whether a defect is that a call which is not over was refused a move. -/
def Defect.isHarsh : Defect → Bool
  | illegalTransition old _ => !old.isOver
  | _ => false

/-! ### Rules -/

/-- A call that is held to the table, or is not. -/
def Call.ruled (enforced : Bool) (call : Call) : Call :=
  { call with enforced := enforced }

/-- A switchboard with all of its calls held to the table, or none. -/
def Switchboard.ruled (enforced : Bool) (board : Switchboard) : Switchboard :=
  { board with calls := board.calls.map (Option.map (Call.ruled enforced)) }

/-- What happens, to a call that is held to the table or is not. -/
def Happening.ruled (enforced : Bool) : Happening → Happening
  | notified listener change seen =>
    .notified listener change { seen with call := seen.call.ruled enforced }
  | happening => happening

/-- What an event leaves behind, if calls are held to the table or are not. -/
def Aftermath.ruled (enforced : Bool) (after : Aftermath) : Aftermath :=
  { after with
    board := after.board.ruled enforced
    trace := after.trace.map (Happening.ruled enforced) }

namespace Veil

/-- It is hidden whether the table is enforced, and nothing else is. -/
def unruled : Veil where
  table := true

theorem unruled_board (board : Switchboard) : unruled.board board = board.ruled false := rfl

theorem unruled_aftermath (after : Aftermath) : unruled.aftermath after = after.ruled false := by
  have hhappening : unruled.happening? = some ∘ Happening.ruled false := by
    funext happening
    cases happening with
    | noted note => cases note <;> rfl
    | _ => rfl
  have hresponse : unruled.response after.response = after.response := by
    cases after.response <;> rfl
  unfold Veil.aftermath Veil.trace
  rw [hhappening, List.filterMap_eq_map, hresponse, unruled_board]
  rfl

end Veil

namespace Switchboard

variable {board : Switchboard} {event : Event}

theorem ruled_ruled (board : Switchboard) (a b : Bool) :
    (board.ruled a).ruled b = board.ruled b := by
  have hcall : Option.map (Call.ruled b) ∘ Option.map (Call.ruled a) =
      Option.map (Call.ruled b) := by
    funext call
    cases call <;> rfl
  unfold ruled
  rw [List.map_map, hcall]

theorem call?_ruled (board : Switchboard) (enforced : Bool) (i : Nat) :
    (board.ruled enforced).call? i = (board.call? i).map (Call.ruled enforced) := by
  unfold call? ruled
  rw [List.getElem?_map]
  cases board.calls[i]? with
  | none => rfl
  | some call => rfl

/-- Where no move of a live call is refused, the table makes no difference to an operation. -/
theorem allows_eq_of_lawful (h : ∀ d ∈ defects (board.handle event).trace, d.isHarsh = false)
    {e : Episode} (he : board.episode? event = some e)
    (hb : e.scene.call.cutsShort e.thread e.op = false) {new : Phase}
    (hasked : e.op.asked? = some new) :
    Phase.allows e.scene.call.enforced e.scene.call.phase new =
      Phase.allows false e.scene.call.phase new := by
  cases ha : Phase.allows e.scene.call.enforced e.scene.call.phase new with
  | true =>
      cases hrule : e.scene.call.enforced with
      | true =>
          rw [hrule] at ha
          exact (Phase.allows_false_of_mayBecome ha).symm
      | false =>
          rw [hrule] at ha
          exact ha.symm
  | false =>
      have hreported := Scene.mem_defects_illegalTransition.mpr ⟨hb, hasked, rfl, ha⟩
      rw [← Episode.outcome, ← defects_of_episode he] at hreported
      have hover : e.scene.call.phase.isOver = true := by
        simpa [Defect.isHarsh] using h _ hreported
      exact (Phase.allows_of_isOver hover false new).symm

/-- **Where no move of a live call is refused, the table makes no difference to an event.** -/
theorem ruled_handle (h : ∀ d ∈ defects (board.handle event).trace, d.isHarsh = false) :
    (board.handle event).ruled false = (board.ruled false).handle event := by
  have hpasses : ∀ e, board.episode? event = some e →
      Veil.unruled.Passes e.scene.call e.thread e.op := by
    intro e he
    exact ⟨nofun, fun _ hb new hasked => allows_eq_of_lawful h he hb hasked, nofun⟩
  have hhandle := Veil.aftermath_handle hpasses
  rwa [Veil.unruled_aftermath, Veil.unruled_board, Veil.event_of_threads board rfl] at hhandle

/-- **Where no move of a live call is refused, the table makes no difference to a run.** -/
theorem ruled_run (events : List Event) :
    ∀ {board : Switchboard},
      (∀ after ∈ board.run events, ∀ d ∈ defects after.trace, d.isHarsh = false) →
        (board.run events).map (Aftermath.ruled false) = (board.ruled false).run events ∧
          (board.after events).ruled false = (board.ruled false).after events := by
  induction events with
  | nil => intro board _; exact ⟨rfl, rfl⟩
  | cons event rest ih =>
      intro board h
      obtain ⟨hnow, hlater⟩ := List.forall_mem_cons.mp h
      have hstep := ruled_handle hnow
      have hboard : (board.handle event).board.ruled false =
          ((board.ruled false).handle event).board :=
        congrArg Aftermath.board hstep
      obtain ⟨hrun, hafter⟩ := ih hlater
      rw [run_cons, run_cons, List.map_cons, hrun, hstep, hboard, after_cons, after_cons, hafter,
        hboard]
      exact ⟨rfl, rfl⟩

end Switchboard

/-! ### Where the two part -/

namespace Scene

variable {scene : Scene} {thread : Thread} {op : Operation} {new : Phase}

/-- An operation that asks for a phase gets it where that is allowed. -/
theorem perform_asked (hasked : op.asked? = some new)
    (hb : scene.call.cutsShort thread op = false)
    (ha : Phase.allows scene.call.enforced scene.call.phase new = true) :
    (scene.perform thread op).reply = .done ∧
      (scene.perform thread op).scene.call.phase = new := by
  cases op with
  | setPhase asked =>
      cases hasked
      rw [perform_setPhase, Call.bars_of_cutsShort rfl hb, if_pos ha]
      exact ⟨rfl, by simp⟩
  | awaitMedia a =>
      cases hasked
      rw [perform_awaitMedia, Call.bars_of_cutsShort rfl hb, if_pos ha]
      exact ⟨rfl, by simp⟩
  | _ => cases hasked

/-- An operation that asks for a phase is refused where that is not allowed, and does nothing. -/
theorem perform_refused (hasked : op.asked? = some new)
    (hb : scene.call.cutsShort thread op = false)
    (ha : Phase.allows scene.call.enforced scene.call.phase new = false) :
    (scene.perform thread op).reply = .refused (.illegalTransition scene.call.phase new) ∧
      (scene.perform thread op).scene = scene := by
  have hna : ¬ Phase.allows scene.call.enforced scene.call.phase new = true := by
    rw [ha]
    exact Bool.false_ne_true
  cases op with
  | setPhase asked =>
      cases hasked
      rw [perform_setPhase, Call.bars_of_cutsShort rfl hb, if_neg hna]
      exact ⟨rfl, rfl⟩
  | awaitMedia a =>
      cases hasked
      rw [perform_awaitMedia, Call.bars_of_cutsShort rfl hb, if_neg hna]
      exact ⟨rfl, rfl⟩
  | _ => cases hasked

end Scene

/-- **The table refuses a live call what it may do without.** -/
theorem Switchboard.parts_of_refusal {board : Switchboard} {event : Event} {old new : Phase}
    (h : .illegalTransition old new ∈ defects (board.handle event).trace)
    (hlive : old.isOver = false) :
    ∃ i, event.subject? = some i ∧ (board.call? i).map (·.phase) = some old ∧
      (board.handle event).response = .reply (.refused (.illegalTransition old new)) ∧
      (board.handle event).board = board ∧
      ((board.ruled false).handle event).response = .reply .done ∧
      (((board.ruled false).handle event).board.call? i).map (·.phase) = some new := by
  obtain ⟨e, he, hb, hasked, rfl, ha⟩ := exists_refusal h
  rcases episode?_cases he with ⟨i, rfl⟩ | ⟨i, -, hop⟩
  · obtain ⟨hfound, -⟩ := call?_of_subject he rfl
    obtain ⟨hreply, hscene⟩ := e.scene.perform_refused hasked hb ha
    have hstrict : board.handle (.perform i e.thread e.op) =
        ⟨board, e.outcome.trace,
          .reply (.refused (.illegalTransition e.scene.call.phase new))⟩ := by
      rw [handle, perform_of_episode he, Episode.outcome, hreply, hscene, settle_of_episode he rfl]
    -- The episode of the same call, not held to the table.
    let free : Episode := ⟨⟨e.scene.call.ruled false, board.around⟩, e.thread, e.op⟩
    have hallowed : Phase.allows false free.scene.call.phase new = true := by
      show (!e.scene.call.phase.isOver) = true
      rw [hlive]
      rfl
    have hpassed : free.scene.call.cutsShort free.thread free.op = false := by
      obtain ⟨operation, hcut⟩ := e.op.exists_cutsShort_eq_bars
        (by intro a heq; rw [heq] at hasked; cases hasked)
        (by intro heq; rw [heq] at hasked; cases hasked)
      rw [hcut] at hb ⊢
      exact hb
    obtain ⟨hdone, hphase⟩ := free.scene.perform_asked hasked hpassed hallowed
    have hfree : (board.ruled false).episode? (.perform i e.thread e.op) = some free := by
      have hcall : (board.ruled false).call? i = some (e.scene.call.ruled false) := by
        rw [call?_ruled, hfound]
        rfl
      have hop : e.op.listener? = none := by
        cases hop : e.op <;> first | rfl | (rw [hop] at hasked; cases hasked)
      exact episode?_of_call? hcall hop e.thread
    obtain ⟨-, hleft⟩ := call?_of_subject hfree rfl
    refine ⟨i, rfl, by rw [hfound]; rfl, by rw [hstrict], by rw [hstrict], ?_, ?_⟩
    · rw [handle, perform_of_episode hfree]
      exact congrArg Response.reply hdone
    · rw [hleft]
      exact congrArg some hphase
  · -- Handing out what is queued asks for no phase.
    rw [hop] at hasked
    cases hasked

/-- **Calls that are not held to the table do all that others do, and more.**  Take the calls of a
switchboard once held to the table and once not, and let the same happen to both.  For as long as
the table refuses no move of a live call, the runs agree step by step: on every response, be it a
refusal or that an operation is given up, on all that happens, and on the switchboard, but for what
is written there of the table itself.  Where it first refuses one, the call stays where it was and
the same call, not held to the table, makes that move. -/
theorem leniency_extends_table {board : Switchboard} {events : List Event}
    (hlawful : ∀ after ∈ (board.ruled true).run events,
      ∀ d ∈ defects after.trace, d.isHarsh = false) :
    (board.ruled false).run events =
      ((board.ruled true).run events).map (Aftermath.ruled false) ∧
    let strict := (board.ruled true).after events
    let lenient := (board.ruled false).after events
    ∀ event old new, .illegalTransition old new ∈ defects (strict.handle event).trace →
      old.isOver = false →
        ∃ i, event.subject? = some i ∧ (strict.call? i).map (·.phase) = some old ∧
          (strict.handle event).response = .reply (.refused (.illegalTransition old new)) ∧
          (strict.handle event).board = strict ∧
          (lenient.handle event).response = .reply .done ∧
          ((lenient.handle event).board.call? i).map (·.phase) = some new := by
  obtain ⟨hrun, hafter⟩ := Switchboard.ruled_run events hlawful
  rw [Switchboard.ruled_ruled] at hrun hafter
  refine ⟨hrun.symm, ?_⟩
  intro strict lenient event old new h hlive
  have hlenient : lenient = strict.ruled false := hafter.symm
  rw [hlenient]
  exact Switchboard.parts_of_refusal h hlive

/-- A call that is answered straight from `answering` is refused by the table and connected
without it; up to then both are one. -/
theorem jump_is_refused_by_table_alone :
    let board : Switchboard := ⟨[some Call.incoming], ⟨[], [], []⟩⟩
    let events : List Event :=
      [.perform 0 0 (.setPhase .answering), .perform 0 0 (.setSwitch .onHold true)]
    let jump : Event := .perform 0 0 (.setPhase .connected)
    (board.ruled false).run events =
        ((board.ruled true).run events).map (Aftermath.ruled false) ∧
      (((board.ruled true).after events).handle jump).response =
        .reply (.refused (.illegalTransition .answering .connected)) ∧
      (((board.ruled false).after events).handle jump).response = .reply .done := by
  intro board events jump
  have hlawful : ∀ after ∈ (board.ruled true).run events,
      ∀ d ∈ defects after.trace, d.isHarsh = false := by
    decide
  obtain ⟨hrun, hparts⟩ := leniency_extends_table hlawful
  have hrefused : .illegalTransition .answering .connected ∈
      defects (((board.ruled true).after events).handle jump).trace := by
    decide
  obtain ⟨i, -, -, hstrict, -, hlenient, -⟩ := hparts jump _ _ hrefused rfl
  exact ⟨hrun, hstrict, hlenient⟩

end CallLifecycle

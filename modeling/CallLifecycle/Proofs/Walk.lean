/-
A call walks, and its listener sees every step.

Each assignment of a phase that is accepted is a step of the call, be it asked for or one that
answering makes on its way, and be it to where the call stands already.  The steps make up a walk
under the call's rule: none begins at an outcome, and all are in the table if that is enforced.

The walk leaves two accounts.  The log has each step with where it began, and whoever follows the
call is told where each ended.  `walk_of_run` says that the log is the walk, and `phases_heard`
that the notices are.  A move that is refused is reported from where the walk has come to.
-/
import CallLifecycle.Proofs.Findings
import CallLifecycle.Proofs.Routing
import Mathlib.Data.List.Chain

namespace CallLifecycle

open Trace

/-- A walk under the rule of a call, with the steps on its way, each from one phase to another. -/
inductive Phase.Walk (enforced : Bool) : Phase → List (Phase × Phase) → Phase → Prop
  | stay (phase : Phase) : Walk enforced phase [] phase
  | step {old new last : Phase} {rest : List (Phase × Phase)}
      (allowed : Phase.allows enforced old new = true) (walk : Walk enforced new rest last) :
      Walk enforced old ((old, new) :: rest) last

namespace Phase.Walk

variable {enforced : Bool} {first mid last : Phase} {moves rest : List (Phase × Phase)}

theorem append (h : Walk enforced first moves mid) (hrest : Walk enforced mid rest last) :
    Walk enforced first (moves ++ rest) last := by
  induction h with
  | stay phase => exact hrest
  | step allowed walk ih => exact .step allowed (ih hrest)

/-- One step, if any. -/
theorem of_option {next? : Option Phase}
    (h : ∀ new, next? = some new → Phase.allows enforced first new = true) :
    Walk enforced first (next?.toList.map (first, ·)) (next?.getD first) := by
  cases next? with
  | none => exact .stay first
  | some new => exact .step (h new rfl) (.stay new)

/-- Each step begins where the one before it ended. -/
theorem eq_zip (h : Walk enforced first moves last) :
    moves = (first :: moves.map (·.2)).zip (moves.map (·.2)) := by
  induction h with
  | stay phase => rfl
  | step allowed walk ih =>
      rw [List.map_cons, List.zip_cons_cons, ← ih]

theorem getLast?_eq (h : Walk enforced first moves last) :
    (first :: moves.map (·.2)).getLast? = some last := by
  induction h with
  | stay phase => rfl
  | step allowed walk ih =>
      rw [List.map_cons, List.getLast?_cons_cons]
      exact ih

theorem isChain (h : Walk enforced first moves last) :
    (first :: moves.map (·.2)).IsChain (Phase.allows enforced · · = true) := by
  induction h with
  | stay phase => exact .singleton phase
  | step allowed walk ih => exact .cons_cons allowed ih

/-- Where a step begins is all of the walk but its end. -/
theorem dropLast_eq (h : Walk enforced first moves last) :
    (first :: moves.map (·.2)).dropLast = moves.map (·.1) := by
  induction h with
  | stay phase => rfl
  | step allowed walk ih =>
      rw [List.map_cons, List.map_cons, List.dropLast_cons_cons, ih]

theorem allows_of_mem (h : Walk enforced first moves last) :
    ∀ move ∈ moves, Phase.allows enforced move.1 move.2 = true := by
  induction h with
  | stay phase => exact fun _ hmem => absurd hmem List.not_mem_nil
  | step allowed walk ih => exact List.forall_mem_cons.mpr ⟨allowed, ih⟩

/-- **Nothing but the end of a walk is an outcome.** -/
theorem isOver_of_mem_dropLast (h : Walk enforced first moves last) :
    ∀ phase ∈ (first :: moves.map (·.2)).dropLast, phase.isOver = false := by
  intro phase hphase
  rw [h.dropLast_eq, List.mem_map] at hphase
  obtain ⟨move, hmove, rfl⟩ := hphase
  cases hover : move.1.isOver with
  | false => rfl
  | true =>
      have hallowed := h.allows_of_mem move hmove
      rw [Phase.allows_of_isOver hover] at hallowed
      cases hallowed

end Phase.Walk

/-! ### What is told of phases -/

/-- The phase that a change is to, if it is one of phase. -/
def Change.phase? : Change → Option Phase
  | phase new => some new
  | _ => none

/-- The phase that a notice tells of, if it does. -/
def Notice.phase? (notice : Notice) : Option Phase :=
  notice.change.phase?

/-- The phases of a call that a listener is shown, if it knows where the call begins: that, and
whatever phase it is told of in the course of some events. -/
def Switchboard.walk (i l : Nat) (board : Switchboard) (first : Phase) (events : List Event) :
    List Phase :=
  first :: (board.heard i l events).filterMap Notice.phase?

namespace Episode

/-- The phase that an episode assigns, if it does. -/
def assigned? (e : Episode) : Option Phase :=
  e.op.assigned? e.scene.call e.outcome.reply

/-- The listener of a call is told of a phase if one was assigned. -/
theorem phase?_of_news? (e : Episode) : e.news?.bind Change.phase? = e.assigned? := by
  unfold news? assigned? Operation.news?
  split
  · rename_i switch on hop
    rw [hop]
    split
    · cases switch <;> rfl
    · rfl
  · rw [Option.bind_map]
    exact Option.bind_fun_some _

end Episode

theorem Call.moves_farewell (call : Call) : moves call.farewell = [] := by
  unfold farewell
  split <;> split <;> simp

/-! ### One event -/

namespace Switchboard

/-- The phase that an event assigns to a call, if it does: one that is asked for and not refused,
or one that comes of answering. -/
def assigned? (i : Nat) (board : Switchboard) (event : Event) : Option Phase :=
  if event.subject? = some i then (board.episode? event).bind Episode.assigned? else none

/-- The phases that are assigned to a call in the course of an event, as the log has them. -/
def movesAt (i : Nat) (board : Switchboard) (event : Event) : List (Phase × Phase) :=
  if event.subject? = some i then Trace.moves (board.handle event).trace else []

section Event

variable {board : Switchboard} {event : Event} {i l : Nat}

theorem moves_of_episode {e : Episode} (h : board.episode? event = some e) :
    Trace.moves (board.handle event).trace = Trace.moves e.outcome.trace := by
  obtain ⟨extra, -, htrace, -⟩ := handle_of_episode h
  have hextra : Trace.moves (extraRuns extra) = [] := filterMap_extraRuns extra fun _ => rfl
  rw [htrace, moves_append, hextra, List.append_nil]

theorem moves_of_no_episode (h : board.episode? event = none) :
    Trace.moves (board.handle event).trace = [] := by
  obtain ⟨htrace | ⟨call, htrace⟩, -⟩ := trace_of_no_episode h
  · rw [htrace]
    rfl
  · rw [htrace]
    exact call.moves_farewell

/-- What is about another call, or no episode, assigns nothing to a call. -/
theorem assigned?_of_else (h : event.subject? ≠ some i ∨ board.episode? event = none) :
    board.assigned? i event = none := by
  rcases h with hi | he
  · exact if_neg hi
  · rw [assigned?, he]
    exact ite_self _

theorem movesAt_of_else (h : event.subject? ≠ some i ∨ board.episode? event = none) :
    board.movesAt i event = [] := by
  rcases h with hi | he
  · exact if_neg hi
  · rw [movesAt, moves_of_no_episode he]
    exact ite_self _

/-- **In the course of an event a call makes the step that is assigned to it**, which its rule
allows, and no other; the log has this step. -/
theorem walk_of_handle {first next : Call} (hfirst : board.call? i = some first)
    (hnext : (board.handle event).board.call? i = some next) :
    next.enforced = first.enforced ∧
      (board.movesAt i event).map (·.2) = (board.assigned? i event).toList ∧
      Phase.Walk first.enforced first.phase (board.movesAt i event) next.phase := by
  rcases call?_handle_split hfirst hnext with ⟨e, he, hi, rfl, rfl⟩ | ⟨rfl, helse⟩
  · have hassigned : board.assigned? i event = e.assigned? := by
      rw [assigned?, if_pos hi, he]
      rfl
    have hmoves : board.movesAt i event = e.assigned?.toList.map (e.scene.call.phase, ·) := by
      rw [movesAt, if_pos hi, moves_of_episode he]
      exact e.announces.moves
    have hphase : e.outcome.scene.call.phase = e.assigned?.getD e.scene.call.phase :=
      e.announces.phase
    refine ⟨congrArg Fixed.enforced (e.scene.perform_fixed e.thread e.op), ?_, ?_⟩
    · rw [hmoves, hassigned, List.map_map]
      exact List.map_id _
    · rw [hmoves, hphase]
      exact .of_option e.announces.allowed
  · rw [movesAt_of_else helse, assigned?_of_else helse]
    exact ⟨rfl, rfl, .stay _⟩

/-- **Whoever follows a call is told of a phase when it is assigned**, and of no other. -/
theorem phases_of_news (hfollows : (board.handle event).board.follows i l = true) :
    (board.news i l event).filterMap Notice.phase? = (board.assigned? i event).toList := by
  by_cases hi : event.subject? = some i
  · cases he : board.episode? event with
    | none =>
        rw [news_of_else (Or.inr he), assigned?_of_else (Or.inr he)]
        rfl
    | some e =>
        have hassigned : board.assigned? i event = e.news?.bind Change.phase? := by
          rw [e.phase?_of_news?, assigned?, if_pos hi, he]
          rfl
        rw [news, if_pos hi, to_eq_dispatch, dispatch?_of_follows he hi hfollows, hassigned]
        cases e.news? with
        | none => rfl
        | some change =>
            simp only [Option.map_some, Option.toList_some, List.filter_cons, decide_true, if_true,
              List.filter_nil, List.map_cons, List.map_nil, Option.bind_some]
            cases change <;> rfl
  · rw [news_of_else (Or.inl hi), assigned?_of_else (Or.inl hi)]
    rfl

end Event

/-! ### The whole run -/

/-- The phases that some events assign to a call, in order. -/
def assignments (i : Nat) (board : Switchboard) : List Event → List Phase
  | [] => []
  | event :: rest =>
    (board.assigned? i event).toList ++ (board.handle event).board.assignments i rest

/-- The phases that are assigned to a call in the course of some events, as the log has them. -/
def allMoves (i : Nat) (board : Switchboard) : List Event → List (Phase × Phase)
  | [] => []
  | event :: rest => board.movesAt i event ++ (board.handle event).board.allMoves i rest

section Run

variable {i l : Nat}

/-- **A call walks under its rule**, by what is assigned to it and as the log has it. -/
theorem walk_of_run (events : List Event) :
    ∀ {board : Switchboard} {first last : Call}, board.call? i = some first →
      (board.after events).call? i = some last →
        last.enforced = first.enforced ∧
          (board.allMoves i events).map (·.2) = board.assignments i events ∧
          Phase.Walk first.enforced first.phase (board.allMoves i events) last.phase := by
  induction events with
  | nil =>
      intro board first last hfirst hlast
      obtain rfl := Option.some.inj (hfirst.symm.trans hlast)
      exact ⟨rfl, rfl, .stay _⟩
  | cons event rest ih =>
      intro board first last hfirst hlast
      cases hnext : (board.handle event).board.call? i with
      | none =>
          rw [after_cons, call?_after_of_none rest hnext] at hlast
          cases hlast
      | some next =>
          obtain ⟨hrule, hassigned, hstep⟩ := walk_of_handle hfirst hnext
          obtain ⟨hlater, hothers, hwalk⟩ := ih hnext hlast
          rw [hrule] at hwalk
          refine ⟨hlater.trans hrule, ?_, hstep.append hwalk⟩
          rw [allMoves, List.map_append, hassigned, hothers, assignments]

/-- **Whoever follows a call throughout is told of the phases that are assigned**, in order. -/
theorem phases_heard (events : List Event) :
    ∀ {board : Switchboard}, (∀ after ∈ board.run events, after.board.follows i l = true) →
      (board.heard i l events).filterMap Notice.phase? = board.assignments i events := by
  induction events with
  | nil => intro board _; rfl
  | cons event rest ih =>
      intro board hfollows
      obtain ⟨hnow, hlater⟩ := List.forall_mem_cons.mp hfollows
      rw [heard_cons, List.filterMap_append, phases_of_news hnow, ih hlater, assignments]

/-- A call that is followed is there. -/
theorem exists_call?_after {events : List Event} {board : Switchboard} {first : Call}
    (hfirst : board.call? i = some first)
    (hfollows : ∀ after ∈ board.run events, after.board.follows i l = true) :
    ∃ last, (board.after events).call? i = some last := by
  obtain ⟨last, hlast, -⟩ := heard_of_run events hfirst hfollows
  exact ⟨last, hlast⟩

/-- What is told to whoever follows a call is its walk. -/
theorem walk_eq {events : List Event} {board : Switchboard} {first : Call}
    (hfirst : board.call? i = some first)
    (hfollows : ∀ after ∈ board.run events, after.board.follows i l = true) :
    ∃ last, (board.after events).call? i = some last ∧ last.enforced = first.enforced ∧
      board.walk i l first.phase events = first.phase :: (board.allMoves i events).map (·.2) ∧
      Phase.Walk first.enforced first.phase (board.allMoves i events) last.phase := by
  obtain ⟨last, hlast⟩ := exists_call?_after hfirst hfollows
  obtain ⟨hrule, hassigned, hwalk⟩ := walk_of_run events hfirst hlast
  refine ⟨last, hlast, hrule, ?_, hwalk⟩
  rw [walk, phases_heard events hfollows, hassigned]

/-- **A move that is refused is reported from where the walk has come to.** -/
theorem refused_at_end {past : List Event} {board : Switchboard} {first : Call} {event : Event}
    {old new : Phase} (hfirst : board.call? i = some first)
    (hfollows : ∀ after ∈ board.run past, after.board.follows i l = true)
    (hi : event.subject? = some i)
    (hrefused : .illegalTransition old new ∈ defects ((board.after past).handle event).trace) :
    (board.walk i l first.phase past).getLast? = some old ∧
      Phase.allows first.enforced old new = false := by
  obtain ⟨last, hlast, hrule, hwalk, hsteps⟩ := walk_eq hfirst hfollows
  obtain ⟨e, he, -, -, rfl, hforbidden⟩ := exists_refusal hrefused
  obtain rfl := Option.some.inj (hlast.symm.trans (call?_of_subject he hi).1)
  rw [hwalk, hsteps.getLast?_eq, ← hrule]
  exact ⟨rfl, hforbidden⟩

end Run

end Switchboard

/-- **A listener sees a call walk.**  Take a call that one listener follows throughout some events.
The phase in which the call begins, and whatever phase the listener is told of since, are the call's
walk.  It has one step for each assignment that was accepted, and these are just the assignments
that the log has, each from where the walk was.  It ends where the call is.  Each step is in the
table if that is enforced, and in any case is one that the call's rule allows and begins at no
outcome.  An illegal transition is reported from where the walk has come to, and to where the
call's rule does not let it go. -/
theorem phases_told_are_a_walk {board : Switchboard} {i l : Nat} {first : Call}
    {events : List Event} (hfirst : board.call? i = some first)
    (hfollows : ∀ after ∈ board.run events, after.board.follows i l = true) :
    let walk := board.walk i l first.phase events
    walk.tail = board.assignments i events ∧
    board.allMoves i events = walk.zip walk.tail ∧
    (∃ last, (board.after events).call? i = some last ∧ walk.getLast? = some last.phase) ∧
    walk.IsChain (Phase.allows first.enforced · · = true) ∧
    (first.enforced = true → walk.IsChain (Phase.mayBecome · · = true)) ∧
    (∀ phase ∈ walk.dropLast, phase.isOver = false) ∧
    (∀ past event rest old new, events = past ++ event :: rest → event.subject? = some i →
      .illegalTransition old new ∈ defects ((board.after past).handle event).trace →
        (board.walk i l first.phase past).getLast? = some old ∧
          Phase.allows first.enforced old new = false) := by
  intro walk
  obtain ⟨last, hlast, -, hwalk, hsteps⟩ := Switchboard.walk_eq hfirst hfollows
  have hshown : walk = first.phase :: (board.allMoves i events).map (·.2) := hwalk
  have hchain : walk.IsChain (Phase.allows first.enforced · · = true) := by
    rw [hshown]
    exact hsteps.isChain
  refine ⟨Switchboard.phases_heard events hfollows, ?_, ⟨last, hlast, ?_⟩, hchain, ?_, ?_, ?_⟩
  · rw [hshown]
    exact hsteps.eq_zip
  · rw [hshown]
    exact hsteps.getLast?_eq
  · intro henforced
    rw [henforced] at hchain
    exact hchain
  · rw [hshown]
    exact hsteps.isOver_of_mem_dropLast
  · rintro past event rest old new rfl hi hrefused
    refine Switchboard.refused_at_end hfirst (fun after hafter => hfollows after ?_) hi hrefused
    rw [Switchboard.run_append]
    exact List.mem_append_left _ hafter

/-- A call that is asked to stay where it is makes a step, and one that is refused a jump makes
none; then it is answered. -/
theorem refused_jump_is_no_step :
    let call : Call := { Call.incoming with listener := some 0 }
    let board : Switchboard := ⟨[some call], ⟨[], [], [.observer]⟩⟩
    let past : List Event := [.perform 0 0 (.setPhase .answering)]
    let jump : Event := .perform 0 0 (.setPhase .connected)
    let rest : List Event := [.perform 0 0 .engineReady, .perform 0 0 (.answer { name := "a" })]
    let walk : List Phase := [.answering, .answering, .ringingReadyToAnswer, .connected]
    board.walk 0 0 call.phase (past ++ jump :: rest) = walk ∧
      walk.IsChain (Phase.mayBecome · · = true) ∧
      board.allMoves 0 (past ++ jump :: rest) = walk.zip walk.tail ∧
      (board.walk 0 0 call.phase past).getLast? = some .answering := by
  intro call board past jump rest walk
  have hwalk : board.walk 0 0 call.phase (past ++ jump :: rest) = walk := by
    decide
  have hfollows : ∀ after ∈ board.run (past ++ jump :: rest), after.board.follows 0 0 = true := by
    decide
  have hrefused : .illegalTransition .answering .connected ∈
      defects ((board.after past).handle jump).trace := by
    decide
  have hfirst : board.call? 0 = some call := rfl
  obtain ⟨-, hmoves, -, -, hchain, -, hdefects⟩ := phases_told_are_a_walk hfirst hfollows
  rw [hwalk] at hmoves hchain
  obtain ⟨hfrom, -⟩ := hdefects past jump rest _ _ rfl rfl hrefused
  exact ⟨hwalk, hchain rfl, hmoves, hfrom⟩

end CallLifecycle

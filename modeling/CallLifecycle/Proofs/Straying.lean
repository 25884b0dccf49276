/-
Use off the context is flagged and changes nothing else.

A call belongs to a thread, and an operation that is called on another one is a mistake in
the driving program.  Under a reporter that never gives up the mistake is reported, once for
each check that the operation makes, and the operation goes on as if it had not been made.
So two runs that differ in threads alone differ in these reports alone.

The first half is that threads can be hidden.  The second goes by `Operation.findings`, and
adds that an operation which makes no check does nothing that would need one: it notes that
there is nothing to do.
-/
import CallLifecycle.Proofs.VeiledTraffic

namespace CallLifecycle

open Trace

/-- Whether a happening is that an operation is called off the context. -/
def Happening.isStray : Happening → Bool
  | reported d | noted (.defect d) => d.isStray
  | _ => false

/-- An aftermath but for all reports of operations that are called off the context. -/
def Aftermath.unstrayed (after : Aftermath) : Aftermath :=
  { after with trace := after.trace.filter (!·.isStray) }

@[simp] theorem Aftermath.unstrayed_board (after : Aftermath) :
    after.unstrayed.board = after.board := rfl

/-- An event, whatever thread it is called on. -/
def Event.unthreaded : Event → Event
  | perform i _ op => .perform i 0 op
  | takeAndRun i _ => .takeAndRun i 0
  | event => event

/-- Whether there is no call whose reporter ever gives up. -/
def Switchboard.NeverGivesUp (board : Switchboard) : Prop :=
  ∀ i call, board.call? i = some call → call.reporter.NeverGivesUp

/-! ### Where threads are hidden -/

namespace Veil

/-- Threads are hidden, and nothing else. -/
def unthreaded : Veil where
  threads := true

@[simp] theorem unthreaded_board (board : Switchboard) : unthreaded.board board = board := by
  have hcall : Option.map unthreaded.call = id := by
    funext call
    cases call <;> rfl
  unfold Veil.board
  rw [hcall, List.map_id]
  rfl

theorem unthreaded_aftermath (after : Aftermath) :
    unthreaded.aftermath after = after.unstrayed := by
  have hhappening : ∀ happening : Happening, unthreaded.happening? happening =
      if happening.isStray then none else some happening := by
    intro happening
    cases happening with
    | noted note => cases note <;> rfl
    | _ => rfl
  have hresponse : unthreaded.response after.response = after.response := by
    cases after.response <;> rfl
  unfold Veil.aftermath Aftermath.unstrayed
  rw [unthreaded_board, trace_eq_filter hhappening, hresponse]

/-- Events that differ in their threads alone seem to be one. -/
theorem unthreaded_event (board : Switchboard) {event event' : Event}
    (h : event'.unthreaded = event.unthreaded) :
    unthreaded.event board event' = unthreaded.event board event := by
  have hthread : ∀ i thread thread',
      unthreaded.threadAt board i thread' = unthreaded.threadAt board i thread := by
    intro i thread thread'
    unfold threadAt
    cases board.call? i <;> rfl
  cases event with
  | perform i thread op =>
      cases event' with
      | perform j thread' op' =>
          cases h
          exact congrArg (Event.perform i · op) (hthread i thread thread')
      | _ => cases h
  | takeAndRun i thread =>
      cases event' with
      | takeAndRun j thread' =>
          cases h
          exact congrArg (Event.takeAndRun i ·) (hthread i thread thread')
      | _ => cases h
  | drop i =>
      cases event' with
      | drop j => exact h
      | _ => cases h
  | outside step =>
      cases event' with
      | outside step' => exact h
      | _ => cases h

end Veil

namespace Switchboard

variable {board : Switchboard} {event : Event}

namespace NeverGivesUp

/-- No call changes its reporter. -/
protected theorem handle (h : board.NeverGivesUp) (event : Event) :
    (board.handle event).board.NeverGivesUp := by
  intro i last hlast
  rcases call?_handle_cases hlast with hsame | ⟨e, -, -, hfound, rfl⟩
  · exact h i last hsame
  · have hreporter : e.outcome.scene.call.reporter = e.scene.call.reporter :=
      congrArg Fixed.reporter (e.scene.perform_fixed e.thread e.op)
    rw [hreporter]
    exact h i _ hfound

protected theorem after (past : List Event) :
    ∀ {board : Switchboard}, board.NeverGivesUp → (board.after past).NeverGivesUp := by
  induction past with
  | nil => intro board h; exact h
  | cons event rest ih => intro board h; exact ih (NeverGivesUp.handle h event)

theorem of_episode? (h : board.NeverGivesUp) {e : Episode}
    (he : board.episode? event = some e) : e.scene.call.reporter.NeverGivesUp := by
  obtain ⟨i, -, -, hfound, -⟩ := call?_of_episode he
  exact h i _ hfound

end NeverGivesUp

/-- But for reports of it, an event comes to what it would on the thread of its call. -/
theorem unstrayed_handle (h : board.NeverGivesUp) (event : Event) :
    (board.handle event).unstrayed = board.handle (Veil.unthreaded.event board event) := by
  have hpasses : ∀ e, board.episode? event = some e →
      Veil.unthreaded.Passes e.scene.call e.thread e.op := by
    intro e he
    exact ⟨nofun, nofun, fun _ => h.of_episode? he⟩
  have hhandle := Veil.aftermath_handle hpasses
  rwa [Veil.unthreaded_aftermath, Veil.unthreaded_board] at hhandle

/-- **Runs that differ in threads alone** differ in reports of that alone. -/
theorem unstrayed_run (events : List Event) :
    ∀ {events' : List Event} {board : Switchboard}, board.NeverGivesUp →
      events'.map Event.unthreaded = events.map Event.unthreaded →
        (board.run events').map Aftermath.unstrayed =
          (board.run events).map Aftermath.unstrayed := by
  induction events with
  | nil =>
      intro events' board _ hsame
      rw [List.map_nil, List.map_eq_nil_iff] at hsame
      rw [hsame]
  | cons event rest ih =>
      intro events' board h hsame
      obtain ⟨event', rest', rfl, hevent, hrest⟩ := List.map_eq_cons_iff.mp hsame
      have hstep : (board.handle event').unstrayed = (board.handle event).unstrayed := by
        rw [unstrayed_handle h, unstrayed_handle h, Veil.unthreaded_event board hevent]
      have hboard : (board.handle event').unstrayed.board = (board.handle event).unstrayed.board :=
        congrArg Aftermath.board hstep
      rw [Aftermath.unstrayed_board, Aftermath.unstrayed_board] at hboard
      rw [run_cons, run_cons, List.map_cons, List.map_cons, hstep, hboard,
        ih (h.handle event) hrest]

end Switchboard

/-! ### What is reported -/

namespace Episode

/-- The reports of an operation that is called off the context: one for each check that it makes,
in the name of the operation that the check is made for. -/
def strays (e : Episode) : List Defect :=
  if e.thread = e.scene.call.owner then []
  else (e.op.checks e.scene.call).map (.offContext · e.scene.call.owner e.thread)

theorem filter_defects (e : Episode) (h : e.scene.call.reporter.NeverGivesUp) :
    (defects e.outcome.trace).filter Defect.isStray = e.strays := by
  have hreports : e.scene.Reports e.thread e.op e.outcome := e.scene.perform_defects e.thread e.op
  rw [Scene.Reports, Call.reached_eq_self _ _ (Call.cutsShort_eq_false (Or.inr h) e.op)]
    at hreports
  rw [hreports]
  exact Call.filter_report Operation.isPlain_of_mem_findings

/-- **An operation that makes no check does nothing**, and says so. -/
theorem idle_of_no_checks (e : Episode) (h : e.op.checks e.scene.call = []) :
    e.outcome.scene = e.scene ∧ ∃ note, e.outcome.trace = [.noted note] := by
  obtain ⟨scene, thread, op⟩ := e
  have hnone : ∀ {operation rest}, op.findings scene.call ≠ .check operation :: rest := by
    intro operation rest hfindings
    rw [Operation.checks, hfindings] at h
    cases h
  cases op with
  | answer a =>
      by_cases hready : scene.call.phase = .ringingReadyToAnswer
      · exact absurd (if_pos hready) hnone
      · by_cases hanticipatory : scene.call.phase = .ringingAnticipatory
        · exact absurd ((if_neg hready).trans (if_pos hanticipatory)) hnone
        · rw [outcome, Scene.perform_answer_of_not_ringing hready hanticipatory]
          exact ⟨rfl, _, rfl⟩
  | engineReady =>
      by_cases hunanswered :
          scene.call.phase = .answering ∨ scene.call.phase = .ringingAnticipatory
      · exact absurd (if_pos hunanswered) hnone
      · by_cases hphase : scene.call.phase = .accepting
        · exact absurd ((if_neg hunanswered).trans (if_pos hphase)) hnone
        · rw [not_or] at hunanswered
          rw [outcome, Scene.perform_engineReady_of_else hunanswered.1 hunanswered.2 hphase]
          exact ⟨rfl, _, rfl⟩
  | _ => exact absurd rfl hnone

end Episode

namespace Switchboard

variable {board : Switchboard} {event : Event}

/-- The reports of an event that is an operation called off the context. -/
def strays (board : Switchboard) (event : Event) : List Defect :=
  ((board.episode? event).map Episode.strays).getD []

/-- Whether an event changes nothing, tells nobody, runs nothing and asks nothing of a record. -/
structure Idle (board : Switchboard) (event : Event) : Prop where
  same : (board.handle event).board = board
  told : deliveries (board.handle event).trace = []
  ran : acceptances (board.handle event).trace = []
  asked : requests (board.handle event).trace = []

theorem filter_defects (h : board.NeverGivesUp) (event : Event) :
    (defects (board.handle event).trace).filter Defect.isStray = board.strays event := by
  cases he : board.episode? event with
  | none =>
      rw [strays, he, Option.map_none, Option.getD_none, List.filter_eq_nil_iff]
      intro d hd
      have hfarewell := isFarewell_of_no_episode he d hd
      cases d <;> first | exact Bool.false_ne_true | cases hfarewell
  | some e =>
      rw [strays, he, defects_of_episode he]
      exact e.filter_defects (h.of_episode? he)

/-- **An operation that makes no check leaves a switchboard as it was.** -/
theorem idle_of_no_checks {e : Episode} (he : board.episode? event = some e)
    (h : e.op.checks e.scene.call = []) : board.Idle event := by
  obtain ⟨hscene, note, htrace⟩ := e.idle_of_no_checks h
  rcases episode?_cases he with ⟨i, rfl⟩ | ⟨i, -, hop⟩
  · have hperform : board.handle (.perform i e.thread e.op) =
        ⟨board, [.noted note], .reply e.outcome.reply⟩ := by
      rw [handle, perform_of_episode he, hscene, htrace, settle_of_episode he rfl]
    refine ⟨?_, ?_, ?_, ?_⟩ <;> rw [hperform] <;> rfl
  · -- Handing out what is queued begins with a check.
    rw [hop] at h
    cases h

end Switchboard

/-- **Use off the context is flagged and changes nothing else.**  Take a switchboard on which nobody
ever gives up, and two runs of events that differ in their threads alone.  Step by step
they come to the same: the switchboard, so every snapshot, is the same, and so is the response, and
all that happens but for reports of use off the context.  An operation on the thread of its call
makes no such report.  On any other thread it makes one for each check that it comes to, and it
comes to one at least unless it does nothing. -/
theorem straying_is_only_reported {board : Switchboard} {events events' : List Event}
    (hlenient : board.NeverGivesUp)
    (hsame : events'.map Event.unthreaded = events.map Event.unthreaded) :
    (board.run events').map Aftermath.unstrayed = (board.run events).map Aftermath.unstrayed ∧
    ∀ past event rest, events' = past ++ event :: rest →
      let found := board.after past
      let strays := (defects (found.handle event).trace).filter Defect.isStray
      (found.episode? event = none → strays = []) ∧
      ∀ e, found.episode? event = some e →
        (e.thread = e.scene.call.owner → strays = []) ∧
        (e.thread ≠ e.scene.call.owner →
          strays = (e.op.checks e.scene.call).map (.offContext · e.scene.call.owner e.thread) ∧
          (¬ found.Idle event → strays ≠ [])) := by
  refine ⟨Switchboard.unstrayed_run events hlenient hsame, ?_⟩
  intro past event rest _ found strays
  have hstrays : strays = found.strays event :=
    Switchboard.filter_defects (.after past hlenient) event
  rw [hstrays, Switchboard.strays]
  refine ⟨fun hnone => by rw [hnone]; rfl, fun e he => ?_⟩
  rw [he]
  show (_ → e.strays = []) ∧ (_ → e.strays = _ ∧ (_ → e.strays ≠ []))
  refine ⟨fun hown => if_pos hown, fun hforeign => ?_⟩
  have hall : e.strays =
      (e.op.checks e.scene.call).map (.offContext · e.scene.call.owner e.thread) :=
    if_neg hforeign
  refine ⟨hall, fun hacts hnone => hacts ?_⟩
  rw [hall, List.map_eq_nil_iff] at hnone
  exact Switchboard.idle_of_no_checks he hnone

/-- A call is connected by the media engine on the wrong thread: two checks are reported, and all
else is as on the right one. -/
theorem connecting_off_context_is_reported_twice :
    let call : Call := { Call.incoming with phase := .accepting, deferred := some { name := "a" } }
    let board : Switchboard := ⟨[some call], ⟨[], [], []⟩⟩
    let strayed := board.handle (.perform 0 7 .engineReady)
    [strayed.unstrayed] = [(board.handle (.perform 0 0 .engineReady)).unstrayed] ∧
      (defects strayed.trace).filter Defect.isStray =
        [.offContext "take_deferred_acceptance" 0 7, .offContext "set_state" 0 7] := by
  intro call board strayed
  have hlenient : board.NeverGivesUp := by
    intro i found hfound
    cases i with
    | zero =>
        cases hfound
        exact Reporter.neverGivesUp_collecting
    | succ i => cases hfound
  have hsame : [Event.perform 0 7 .engineReady].map Event.unthreaded =
      [Event.perform 0 0 .engineReady].map Event.unthreaded := rfl
  obtain ⟨hrun, hreports⟩ := straying_is_only_reported hlenient hsame
  obtain ⟨-, hforeign⟩ := (hreports [] (.perform 0 7 .engineReady) [] rfl).2 _ rfl
  obtain ⟨hall, -⟩ := hforeign (by decide)
  exact ⟨hrun, hall⟩

end CallLifecycle

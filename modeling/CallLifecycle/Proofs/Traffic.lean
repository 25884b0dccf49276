/-
The traffic on a switchboard.

An event is about one call at most, and what it does to that call is an episode of
the call's life among the surroundings of that moment.  So what is proved of one
operation holds on a switchboard, and only three things have to be added: which
call it was, that all other calls are as they were, and that an acceptance which is
handed out may run right after.

`handle_cases` says what becomes of the surroundings, and `call?_handle_cases` where each
call of a switchboard comes from.
-/
import CallLifecycle.Proofs.Answering

namespace CallLifecycle

open Trace

/-- The call that an event is about, by number. -/
def Event.subject? : Event → Option Nat
  | .perform i _ _ | .takeAndRun i _ | .drop i => some i
  | .outside _ => none

/-- The steps from outside that an event itself is. -/
def Event.outsideSteps : Event → List OutsideStep
  | .outside step => [step]
  | _ => []

namespace Call

@[simp] theorem deliveries_farewell (call : Call) : deliveries call.farewell = [] := by
  unfold farewell
  split <;> split <;> simp

@[simp] theorem requests_farewell (call : Call) : requests call.farewell = [] := by
  unfold farewell
  split <;> split <;> simp

end Call

namespace Switchboard

/-- The switchboard as some events leave it, one after the other. -/
def after (board : Switchboard) : List Event → Switchboard
  | [] => board
  | event :: rest => (board.handle event).board.after rest

@[simp] theorem after_nil (board : Switchboard) : board.after [] = board := rfl

@[simp] theorem after_cons (board : Switchboard) (event : Event) (rest : List Event) :
    board.after (event :: rest) = (board.handle event).board.after rest := rfl

@[simp] theorem run_nil (board : Switchboard) : board.run [] = [] := rfl

@[simp] theorem run_cons (board : Switchboard) (event : Event) (rest : List Event) :
    board.run (event :: rest) =
      board.handle event :: (board.handle event).board.run rest := rfl

theorem after_append (past future : List Event) :
    ∀ board : Switchboard, board.after (past ++ future) = (board.after past).after future := by
  induction past with
  | nil => intro board; rfl
  | cons event rest ih => intro board; exact ih _

theorem run_append (past future : List Event) :
    ∀ board : Switchboard,
      board.run (past ++ future) = board.run past ++ (board.after past).run future := by
  induction past with
  | nil => intro board; rfl
  | cons event rest ih =>
      intro board
      rw [List.cons_append, run_cons, run_cons, ih, after_cons, List.cons_append]

theorem call?_after_of_none {i : Nat} (events : List Event) :
    ∀ {board : Switchboard}, board.call? i = none → (board.after events).call? i = none := by
  induction events with
  | nil => intro board h; exact h
  | cons event rest ih => intro board h; exact ih (call?_handle_of_none h event)

theorem mem_liveCalls_iff {board : Switchboard} {call : Call} :
    call ∈ board.liveCalls ↔ ∃ i, board.call? i = some call := by
  unfold liveCalls call?
  simp only [List.mem_filterMap, id_eq, exists_eq_right, Option.join_eq_some_iff]
  exact List.mem_iff_getElem?

/-- The steps from outside that are taken in the course of an event. -/
def steps (board : Switchboard) (event : Event) : List OutsideStep :=
  (acceptances (board.handle event).trace).flatMap (·.effects) ++ event.outsideSteps

/-- The steps from outside that are taken in the course of some events. -/
def allSteps (board : Switchboard) : List Event → List OutsideStep
  | [] => []
  | event :: rest => board.steps event ++ (board.handle event).board.allSteps rest

theorem allSteps_append (past future : List Event) :
    ∀ board : Switchboard,
      board.allSteps (past ++ future) =
        board.allSteps past ++ (board.after past).allSteps future := by
  induction past with
  | nil => intro board; rfl
  | cons event rest ih =>
      intro board
      rw [List.cons_append, allSteps, allSteps, ih, List.append_assoc, after_cons]

/-- The episode that an event is, if it reaches a call. -/
def episode? (board : Switchboard) (event : Event) : Option Episode := do
  let i ← event.subject?
  let call ← board.call? i
  let deed ← board.deed? i event
  return call.meet deed

/-! ### Which episode it is -/

section Which

variable {board : Switchboard} {event : Event} {i : Nat}

/-- A deed is an operation that is performed, or the handing out of what is queued. -/
theorem deed?_cases {deed : Deed} (h : board.deed? i event = some deed) :
    (∃ thread op, event = .perform i thread op ∧ deed = ⟨thread, op, board.around⟩ ∧
      ¬ op.listener?.any fun l => (board.around.liveListener? l).isNone) ∨
    ∃ thread, event = .takeAndRun i thread ∧ deed = ⟨thread, .handOver, board.around⟩ := by
  cases event with
  | perform j thread op =>
      rw [deed?] at h
      split at h
      · rename_i hdone
        obtain ⟨rfl, hheld⟩ := hdone
        exact Or.inl ⟨thread, op, rfl, (Option.some.inj h).symm, hheld⟩
      · cases h
  | takeAndRun j thread =>
      rw [deed?] at h
      split at h
      · rename_i hji
        obtain rfl := hji
        exact Or.inr ⟨thread, rfl, (Option.some.inj h).symm⟩
      · cases h
  | drop j => cases h
  | outside step => cases h

theorem around_of_deed? {deed : Deed} (h : board.deed? i event = some deed) :
    deed.around = board.around := by
  rcases deed?_cases h with ⟨_, _, _, rfl, _⟩ | ⟨_, _, rfl⟩ <;> rfl

/-- Only the call that an event is about can take it for a deed. -/
theorem subject?_of_deed? {deed : Deed} (h : board.deed? i event = some deed) :
    event.subject? = some i := by
  rcases deed?_cases h with ⟨_, _, rfl, _⟩ | ⟨_, rfl, _⟩ <;> rfl

theorem episode?_eq_some {e : Episode} (h : board.episode? event = some e) :
    ∃ i call deed, event.subject? = some i ∧ board.call? i = some call ∧
      board.deed? i event = some deed ∧ call.meet deed = e := by
  simp only [episode?, Option.bind_eq_bind, Option.bind_eq_some_iff] at h
  obtain ⟨i, hi, call, hcall, deed, hdeed, he⟩ := h
  exact ⟨i, call, deed, hi, hcall, hdeed, Option.some.inj he⟩

/-- An episode is an operation that is performed, or the handing out of what is queued. -/
theorem episode?_cases {e : Episode} (h : board.episode? event = some e) :
    (∃ i, event = .perform i e.thread e.op) ∨
      ∃ i, event = .takeAndRun i e.thread ∧ e.op = .handOver := by
  obtain ⟨i, call, deed, -, -, hdeed, rfl⟩ := episode?_eq_some h
  rcases deed?_cases hdeed with ⟨thread, op, rfl, rfl, -⟩ | ⟨thread, rfl, rfl⟩
  · exact Or.inl ⟨i, rfl⟩
  · exact Or.inr ⟨i, rfl, rfl⟩

theorem episode?_of_deed? {call : Call} {deed : Deed} (hcall : board.call? i = some call)
    (hdeed : board.deed? i event = some deed) : board.episode? event = some (call.meet deed) := by
  simp [episode?, subject?_of_deed? hdeed, hcall, hdeed]

/-- An episode finds its call on the switchboard, among what surrounds all calls, and leaves it
there. -/
theorem call?_of_episode {e : Episode} (h : board.episode? event = some e) :
    ∃ i, event.subject? = some i ∧ e.scene.around = board.around ∧
      board.call? i = some e.scene.call ∧
      (board.handle event).board.call? i = some e.outcome.scene.call := by
  obtain ⟨i, call, deed, hi, hcall, hdeed, rfl⟩ := episode?_eq_some h
  have hdrop : event ≠ .drop i := by
    rintro rfl
    cases hdeed
  have hnext := call?_handle hcall hdrop
  rw [hdeed] at hnext
  exact ⟨i, hi, around_of_deed? hdeed, hcall, hnext⟩

theorem call?_of_subject {e : Episode} (h : board.episode? event = some e)
    (hi : event.subject? = some i) :
    board.call? i = some e.scene.call ∧
      (board.handle event).board.call? i = some e.outcome.scene.call := by
  obtain ⟨j, hj, -, hfound, hleft⟩ := call?_of_episode h
  obtain rfl : i = j := Option.some.inj (hi.symm.trans hj)
  exact ⟨hfound, hleft⟩

/-- **A call that is there after an event was there before**, and is as it was unless the event was
an episode of its life. -/
theorem call?_handle_cases {last : Call} (h : (board.handle event).board.call? i = some last) :
    board.call? i = some last ∨
      ∃ e, board.episode? event = some e ∧ event.subject? = some i ∧
        board.call? i = some e.scene.call ∧ last = e.outcome.scene.call := by
  cases hcall : board.call? i with
  | none =>
      rw [call?_handle_of_none hcall] at h
      cases h
  | some call =>
      have hdrop : event ≠ .drop i := by
        rintro rfl
        rw [handle, call?_drop_self] at h
        cases h
      rw [call?_handle hcall hdrop] at h
      cases hdeed : board.deed? i event with
      | none =>
          rw [hdeed] at h
          exact Or.inl h
      | some deed =>
          rw [hdeed] at h
          exact Or.inr ⟨call.meet deed, episode?_of_deed? hcall hdeed, subject?_of_deed? hdeed,
            rfl, (Option.some.inj h).symm⟩

/-- **An event is an episode of a call's life, or it leaves the call as it was** and is either about
another call or no episode at all. -/
theorem call?_handle_split {first last : Call} (hfirst : board.call? i = some first)
    (hlast : (board.handle event).board.call? i = some last) :
    (∃ e, board.episode? event = some e ∧ event.subject? = some i ∧ e.scene.call = first ∧
      e.outcome.scene.call = last) ∨
    (last = first ∧ (event.subject? ≠ some i ∨ board.episode? event = none)) := by
  have hcases := call?_handle_cases hlast
  cases he : board.episode? event with
  | none =>
      refine Or.inr ⟨?_, Or.inr rfl⟩
      rcases hcases with hsame | ⟨e, he', -⟩
      · exact Option.some.inj (hsame.symm.trans hfirst)
      · rw [he] at he'
        cases he'
  | some e =>
      by_cases hi : event.subject? = some i
      · obtain ⟨hfound, hleft⟩ := call?_of_subject he hi
        exact Or.inl ⟨e, rfl, hi, Option.some.inj (hfound.symm.trans hfirst),
          Option.some.inj (hleft.symm.trans hlast)⟩
      · refine Or.inr ⟨?_, Or.inl hi⟩
        rcases hcases with hsame | ⟨-, -, hmine, -⟩
        · exact Option.some.inj (hsame.symm.trans hfirst)
        · exact absurd hmine hi

end Which

/-! ### How an event is handled -/

/-- A switchboard settled as an episode finds it is as it was. -/
theorem settle_of_episode {board : Switchboard} {event : Event} {i : Nat} {e : Episode}
    (h : board.episode? event = some e) (hi : event.subject? = some i) :
    board.settle i e.scene = board := by
  obtain ⟨-, -, haround, -, -⟩ := call?_of_episode h
  obtain ⟨hfound, -⟩ := call?_of_subject h hi
  obtain ⟨hlt, hcall⟩ := List.getElem?_eq_some_iff.mp (Option.join_eq_some_iff.mp hfound)
  unfold settle
  rw [haround, ← hcall, List.set_getElem_self]

/-- What the acceptances that run outside all operations add to a trace. -/
def extraRuns (extra : List Acceptance) : Trace :=
  extra.map .ran

section ExtraRuns

variable (extra : List Acceptance)

@[simp] theorem acceptances_extraRuns : acceptances (extraRuns extra) = extra := by
  unfold acceptances extraRuns
  rw [List.filterMap_map]
  exact List.filterMap_some

/-- Nothing but runs is to be found there. -/
theorem filterMap_extraRuns {β : Type} {f : Happening → Option β} (h : ∀ a, f (.ran a) = none) :
    (extraRuns extra).filterMap f = [] := by
  unfold extraRuns
  rw [List.filterMap_map]
  exact List.filterMap_eq_nil_iff.mpr fun a _ => h a

@[simp] theorem deliveries_extraRuns : deliveries (extraRuns extra) = [] :=
  filterMap_extraRuns extra fun _ => rfl

@[simp] theorem requests_extraRuns : requests (extraRuns extra) = [] :=
  filterMap_extraRuns extra fun _ => rfl

end ExtraRuns

/-- An operation that is called on a switchboard is an episode, or nothing is done. -/
theorem perform_cases (board : Switchboard) (i : Nat) (thread : Thread) (op : Operation) :
    (∃ e : Episode, board.episode? (.perform i thread op) = some e ∧ e.op = op ∧
      (board.perform i thread op).trace = e.outcome.trace ∧
      (board.perform i thread op).board.around = e.outcome.scene.around) ∨
    (board.episode? (.perform i thread op) = none ∧
      ∃ response, board.perform i thread op = ⟨board, [], response⟩ ∧
        ∀ reply, response ≠ .reply reply) := by
  unfold perform
  cases hcall : board.call? i with
  | none =>
      refine Or.inr ⟨?_, .noCall, rfl, by simp⟩
      simp [episode?, Event.subject?, hcall]
  | some call =>
      cases hl : op.listener?.any fun l => (board.around.liveListener? l).isNone with
      | true =>
          refine Or.inr ⟨?_, .noListener, rfl, by simp⟩
          simp [episode?, Event.subject?, deed?, hl]
      | false =>
          refine Or.inl ⟨call.meet ⟨thread, op, board.around⟩, ?_, rfl, rfl, rfl⟩
          exact episode?_of_deed? hcall (by simp [deed?, hl])

/-- An operation that is an episode leaves the switchboard as the episode leaves its scene. -/
theorem perform_of_episode {board : Switchboard} {i : Nat} {thread : Thread} {op : Operation}
    {e : Episode} (h : board.episode? (.perform i thread op) = some e) :
    board.perform i thread op =
      ⟨board.settle i e.outcome.scene, e.outcome.trace, .reply e.outcome.reply⟩ := by
  obtain ⟨j, call, deed, hj, hcall, hdeed, rfl⟩ := episode?_eq_some h
  obtain rfl : i = j := Option.some.inj hj
  rcases deed?_cases hdeed with ⟨_, _, ⟨⟩, rfl, hheld⟩ | ⟨_, ⟨⟩, -⟩
  unfold perform
  rw [hcall]
  simp only [if_neg hheld]
  rfl

/-- An operation that attaches nobody asks for nothing but that the call is there. -/
theorem episode?_of_call? {board : Switchboard} {i : Nat} {call : Call} {op : Operation}
    (hcall : board.call? i = some call) (hop : op.listener? = none) (thread : Thread) :
    board.episode? (.perform i thread op) = some (call.meet ⟨thread, op, board.around⟩) :=
  episode?_of_deed? hcall (by simp [deed?, hop])

/-- Taking what is queued is an episode like any other, whoever runs it then. -/
theorem episode?_takeAndRun (board : Switchboard) (i : Nat) (thread : Thread) :
    board.episode? (.takeAndRun i thread) = board.episode? (.perform i thread .handOver) := by
  simp [episode?, Event.subject?, deed?, Operation.listener?]

/-- Handing out what is queued is nobody's business but the call's. -/
theorem outcome_of_handOver {e : Episode} (h : e.op = .handOver) :
    e.outcome.scene.around = e.scene.around ∧ acceptances e.outcome.trace = [] ∧
      deliveries e.outcome.trace = [] ∧ requests e.outcome.trace = [] := by
  unfold Episode.outcome
  rw [h, Scene.perform_handOver]
  split
  · refine ⟨rfl, ?_, ?_, ?_⟩ <;> simp [Scene.giveUp]
  · refine ⟨rfl, ?_, ?_, ?_⟩ <;> simp

/-- **An event that reaches a call does what the episode does**, and runs what it handed out if
whoever took it does. -/
theorem handle_of_episode {board : Switchboard} {event : Event} {e : Episode}
    (h : board.episode? event = some e) :
    ∃ extra, (extra = [] ∨ e.op = .handOver) ∧
      (board.handle event).trace = e.outcome.trace ++ extraRuns extra ∧
      (board.handle event).board.around =
        e.outcome.scene.around.applyAll (extra.flatMap (·.effects)) := by
  cases event with
  | perform i thread op =>
      rcases board.perform_cases i thread op with
        ⟨found, hfound, -, htrace, haround⟩ | ⟨hnone, -⟩
      · obtain rfl : found = e := Option.some.inj (hfound.symm.trans h)
        refine ⟨[], Or.inl rfl, ?_, haround⟩
        rw [handle, htrace]
        exact (List.append_nil _).symm
      · rw [hnone] at h
        cases h
  | takeAndRun i thread =>
      rw [episode?_takeAndRun] at h
      rcases board.perform_cases i thread .handOver with
        ⟨found, hfound, hop, htrace, haround⟩ | ⟨hnone, -⟩
      · obtain rfl : found = e := Option.some.inj (hfound.symm.trans h)
        rw [handle, takeAndRun]
        split
        · rename_i a _
          refine ⟨[a], Or.inr hop, ?_, ?_⟩
          · rw [htrace]
            rfl
          · rw [haround, List.flatMap_singleton]
        · refine ⟨[], Or.inl rfl, ?_, haround⟩
          rw [htrace]
          exact (List.append_nil _).symm
      · rw [hnone] at h
        cases h
  | drop i =>
      obtain ⟨_, _, _, _, _, hdeed, _⟩ := episode?_eq_some h
      cases hdeed
  | outside step => cases h

/-- **An event that reaches no call** leaves no trace but what a call which goes away says of
itself, and changes the surroundings only if it is a step from outside. -/
theorem trace_of_no_episode {board : Switchboard} {event : Event}
    (h : board.episode? event = none) :
    ((board.handle event).trace = [] ∨
      ∃ call : Call, (board.handle event).trace = .noted (.dropping call.label) :: call.farewell) ∧
    (board.handle event).board.around = board.around.applyAll event.outsideSteps := by
  cases event with
  | perform i thread op =>
      rcases board.perform_cases i thread op with ⟨e, he, -⟩ | ⟨-, response, hnothing, -⟩
      · rw [h] at he
        cases he
      · rw [handle, hnothing]
        exact ⟨Or.inl rfl, rfl⟩
  | takeAndRun i thread =>
      rw [episode?_takeAndRun] at h
      rcases board.perform_cases i thread .handOver with
        ⟨e, he, -⟩ | ⟨-, response, hnothing, hnoReply⟩
      · rw [h] at he
        cases he
      · rw [handle, takeAndRun, hnothing]
        split
        · rename_i hreply
          exact absurd hreply (hnoReply _)
        · exact ⟨Or.inl rfl, rfl⟩
  | drop i =>
      rw [handle, drop]
      cases hcall : board.call? i with
      | none => exact ⟨Or.inl rfl, rfl⟩
      | some call =>
          simp only [Scene.close_eq]
          exact ⟨Or.inr ⟨call, rfl⟩, rfl⟩
  | outside step => exact ⟨Or.inl rfl, rfl⟩

/-- An event that reaches no call tells nobody, runs nothing and asks nothing of a record. -/
theorem handle_of_no_episode {board : Switchboard} {event : Event}
    (h : board.episode? event = none) :
    acceptances (board.handle event).trace = [] ∧ deliveries (board.handle event).trace = [] ∧
      requests (board.handle event).trace = [] ∧
      (board.handle event).board.around = board.around.applyAll event.outsideSteps := by
  obtain ⟨htrace | ⟨call, htrace⟩, haround⟩ := trace_of_no_episode h
  · rw [htrace]
    exact ⟨rfl, rfl, rfl, haround⟩
  · rw [htrace]
    exact ⟨by simp, by simp, by simp, haround⟩

/-- **An event is an episode and no more, or it comes to the steps from outside alone.** -/
theorem handle_cases (board : Switchboard) (event : Event) :
    (∃ e, board.episode? event = some e ∧ (board.handle event).trace = e.outcome.trace ∧
      (board.handle event).board.around = e.outcome.scene.around ∧
      board.steps event = (acceptances e.outcome.trace).flatMap (·.effects)) ∨
    ((∀ e, board.episode? event = some e → e.op = .handOver) ∧
      deliveries (board.handle event).trace = [] ∧ requests (board.handle event).trace = [] ∧
      (board.handle event).board.around = board.around.applyAll (board.steps event)) := by
  cases he : board.episode? event with
  | none =>
      obtain ⟨hran, htold, hasked, haround⟩ := handle_of_no_episode he
      refine Or.inr ⟨by simp, htold, hasked, ?_⟩
      rw [haround, steps, hran]
      rfl
  | some e =>
      have houtside : event.outsideSteps = [] := by
        cases event with
        | outside step => cases he
        | perform _ _ _ | takeAndRun _ _ | drop _ => rfl
      obtain ⟨extra, hextra, htrace, haround⟩ := handle_of_episode he
      have hsteps : board.steps event =
          (acceptances e.outcome.trace).flatMap (·.effects) ++ extra.flatMap (·.effects) := by
        rw [steps, houtside, htrace, acceptances_append, acceptances_extraRuns,
          List.flatMap_append, List.append_nil]
      rcases hextra with rfl | hop
      · refine Or.inl ⟨e, rfl, ?_, haround, ?_⟩
        · rw [htrace]
          exact List.append_nil _
        · rw [hsteps]
          exact List.append_nil _
      · -- What runs after it was handed out comes alone.
        obtain ⟨hbefore, hran, htold, hasked⟩ := outcome_of_handOver hop
        obtain ⟨-, -, hfound, -, -⟩ := call?_of_episode he
        refine Or.inr ⟨?_, ?_, ?_, ?_⟩
        · rintro _ ⟨⟩
          exact hop
        · rw [htrace, deliveries_append, htold, deliveries_extraRuns]
          rfl
        · rw [htrace, requests_append, hasked, requests_extraRuns]
          rfl
        · rw [haround, hbefore, hfound, hsteps, hran]
          rfl

end Switchboard

end CallLifecycle

/-
Answering is a handshake.

A call that rings before the media engine is ready waits for two signals, and they
come in either order, as often as they like: the user answers, and the engine is
ready.  What comes of them does not depend on the order.  It depends on which
answer was the first, and on whether the engine was heard from at all, and a
`Handshake` is just these two.

A call *stands* at a handshake if its phase and its queue are what the handshake
says.  `Stands.step` shows that one operation takes a standing call to the next
handshake, so the run lemma is an induction over the deeds with the handshake as
what is carried along.  Four operations would break in from outside, because they
move the call or reach into its queue; all others may come in between.
-/
import CallLifecycle.Proofs.Waiting

namespace CallLifecycle

open Trace

/-! ### The two signals -/

/-- Whether an operation moves a call or changes its queue without being part of the handshake. -/
def Operation.breaksIn : Operation → Bool
  | setPhase _ | awaitMedia _ | deferAcceptance _ | handOver => true
  | _ => false

/-- The acceptance of an answer. -/
def Operation.answered? : Operation → Option Acceptance
  | answer a => some a
  | _ => none

/-- How far the two sides of answering have come. -/
structure Handshake where
  /-- The acceptance of the first answer, if there was one. -/
  answer : Option Acceptance
  /-- Whether the media engine was heard from. -/
  engine : Bool

namespace Handshake

/-- Neither signal has come. -/
def awaited : Handshake := ⟨none, false⟩

/-- The phase that the signals lead to. -/
def phase : Handshake → Phase
  | ⟨none, false⟩ => .ringingAnticipatory
  | ⟨none, true⟩ => .ringingReadyToAnswer
  | ⟨some _, false⟩ => .accepting
  | ⟨some a, true⟩ => a.target

/-- What waits for the engine. -/
def queued : Handshake → Option Acceptance
  | ⟨some a, false⟩ => some a
  | _ => none

/-- What has run by now: once both signals have come, the first answer. -/
def ran : Handshake → List Acceptance
  | ⟨some a, true⟩ => [a]
  | _ => []

/-- The handshake once an operation was performed; an answer counts if it is the first. -/
def next (h : Handshake) (op : Operation) : Handshake :=
  ⟨h.answer.or op.answered?, h.engine || op == .engineReady⟩

/-- The handshake once some deeds were done. -/
def after (h : Handshake) (deeds : List Deed) : Handshake :=
  deeds.foldl (fun h deed => h.next deed.op) h

/-- What runs in the course of an operation: whichever signal comes second runs the answer. -/
def runs : Handshake → Operation → List Acceptance
  | ⟨none, true⟩, .answer a => [a]
  | ⟨some a, false⟩, .engineReady => [a]
  | _, _ => []

/-- How a signal is replied to: an answer that is not the first is refused. -/
def reply? : Handshake → Operation → Option Reply
  | ⟨none, false⟩, .answer _ => some .done
  | ⟨none, true⟩, .answer a => some a.verdict
  | ⟨some b, engine⟩, .answer _ => some (.refused (.notRinging (phase ⟨some b, engine⟩)))
  | ⟨some a, false⟩, .engineReady => some a.verdict
  | _, .engineReady => some .done
  | _, _ => none

theorem ran_next (h : Handshake) (op : Operation) : (h.next op).ran = h.ran ++ h.runs op := by
  rcases h with ⟨_ | b, _ | _⟩ <;> cases op <;> rfl

/-- The handshake that some deeds come to: their first answer, and whether the engine was heard. -/
def of (deeds : List Deed) : Handshake :=
  ⟨deeds.findSome? (·.op.answered?), deeds.any (·.op == .engineReady)⟩

/-- What some deeds add to a handshake. -/
theorem after_eq (deeds : List Deed) :
    ∀ h : Handshake,
      h.after deeds = ⟨h.answer.or (of deeds).answer, h.engine || (of deeds).engine⟩ := by
  induction deeds with
  | nil => intro h; simp [after, of]
  | cons deed rest ih =>
      intro h
      show (h.next deed.op).after rest = _
      rw [ih, next, of, of, List.any_cons, Bool.or_assoc, List.findSome?_cons]
      cases h.answer <;> cases deed.op.answered? <;> rfl

theorem awaited_after (deeds : List Deed) : awaited.after deeds = of deeds := by
  rw [after_eq]
  rfl

/-- The phase and the queue of the call are those of the handshake. -/
structure Stands (h : Handshake) (call : Call) : Prop where
  phase : call.phase = h.phase
  deferred : call.deferred = h.queued

/-! ### What a phase says of the signals -/

section Phase

variable {h : Handshake}

theorem eq_of_anticipatory (hphase : h.phase = .ringingAnticipatory) : h = awaited := by
  rcases h with ⟨_ | a, _ | _⟩
  · rfl
  · simp [phase] at hphase
  · simp [phase] at hphase
  · exact absurd hphase (a.target_ne (by simp) (by simp))

theorem eq_of_ready (hphase : h.phase = .ringingReadyToAnswer) : h = ⟨none, true⟩ := by
  rcases h with ⟨_ | a, _ | _⟩
  · simp [phase] at hphase
  · rfl
  · simp [phase] at hphase
  · exact absurd hphase (a.target_ne (by simp) (by simp))

theorem eq_of_accepting (hphase : h.phase = .accepting) : ∃ a, h = ⟨some a, false⟩ := by
  rcases h with ⟨_ | a, _ | _⟩
  · simp [phase] at hphase
  · simp [phase] at hphase
  · exact ⟨a, rfl⟩
  · exact absurd hphase (a.target_ne (by simp) (by simp))

/-- The signals never lead back to before the call rang. -/
theorem phase_ne_answering (h : Handshake) : h.phase ≠ .answering := by
  rcases h with ⟨_ | a, _ | _⟩
  · simp [phase]
  · simp [phase]
  · simp [phase]
  · exact a.target_ne (by simp) (by simp)

/-- Once the call rings no more, there was an answer. -/
theorem exists_answer (hready : h.phase ≠ .ringingReadyToAnswer)
    (hanticipatory : h.phase ≠ .ringingAnticipatory) : ∃ a, h.answer = some a := by
  rcases h with ⟨_ | a, _ | _⟩
  · exact absurd rfl hanticipatory
  · exact absurd rfl hready
  · exact ⟨a, rfl⟩
  · exact ⟨a, rfl⟩

/-- Where the call waits for the engine no more, it was heard from. -/
theorem engine_eq_true (hanticipatory : h.phase ≠ .ringingAnticipatory)
    (haccepting : h.phase ≠ .accepting) : h.engine = true := by
  rcases h with ⟨_ | a, _ | _⟩
  · exact absurd rfl hanticipatory
  · rfl
  · exact absurd rfl haccepting
  · rfl

end Phase

/-! ### One operation -/

/-- What an operation does that changes nothing of a handshake: it runs nothing. -/
structure Rests (h : Handshake) (op : Operation) : Prop where
  next : h.next op = h
  runs : h.runs op = []

theorem rests_of_isAside (h : Handshake) {op : Operation} (haside : op.isAside = true) :
    h.Rests op ∧ h.reply? op = none := by
  rcases h with ⟨_ | a, _ | _⟩ <;> cases op <;> first | exact ⟨⟨rfl, rfl⟩, rfl⟩ | cases haside

/-- An answer that is not the first changes nothing, and is refused. -/
theorem rests_answer {h : Handshake} {b : Acceptance} (hb : h.answer = some b) (a : Acceptance) :
    h.Rests (.answer a) ∧ h.reply? (.answer a) = some (.refused (.notRinging h.phase)) := by
  rcases h with ⟨_ | c, _ | _⟩
  · simp at hb
  · simp at hb
  · exact ⟨⟨rfl, rfl⟩, rfl⟩
  · exact ⟨⟨rfl, rfl⟩, rfl⟩

/-- An engine that is heard from again changes nothing, and all is well. -/
theorem rests_engineReady {h : Handshake} (hengine : h.engine = true) :
    h.Rests .engineReady ∧ h.reply? .engineReady = some .done := by
  rcases h with ⟨_ | c, _ | _⟩
  · simp at hengine
  · exact ⟨⟨rfl, rfl⟩, rfl⟩
  · simp at hengine
  · exact ⟨⟨rfl, rfl⟩, rfl⟩

/-- What an operation makes of a call that stands at a handshake. -/
structure Meets (h : Handshake) (op : Operation) (o : Outcome) : Prop where
  stands : (h.next op).Stands o.scene.call
  ran : acceptances o.trace = h.runs op
  reply : ∀ reply, h.reply? op = some reply → o.reply = reply

/-- A call at rest stands where it stood. -/
theorem Stands.meets_of_rests {h : Handshake} {call : Call} (hstands : h.Stands call)
    {op : Operation} {o : Outcome} (hleaves : o.LeavesAnswering call) (hrests : h.Rests op)
    (hreply : ∀ reply, h.reply? op = some reply → o.reply = reply) : h.Meets op o := by
  refine ⟨?_, ?_, hreply⟩
  · rw [hrests.next]
    exact ⟨hleaves.phase.trans hstands.phase, hleaves.deferred.trans hstands.deferred⟩
  · rw [hrests.runs]
    exact hleaves.ran

/-- **One operation takes a call to the next handshake**, unless it breaks in or is given up. -/
theorem Stands.step {h : Handshake} {call : Call} (hstands : h.Stands call) {thread : Thread}
    {op : Operation} {o : Outcome} (hstep : call.Step thread op o) (hkept : op.breaksIn = false)
    (hlasts : ¬ o.GivenUp) : h.Meets op o := by
  have hphase := hstands.phase
  cases hstep with
  | aside isAside leaves =>
      obtain ⟨hrests, hnone⟩ := h.rests_of_isAside isAside
      exact hstands.meets_of_rests leaves hrests (by simp [hnone])
  | giveUp _ _ reply => exact absurd reply hlasts
  | idle isIdle leaves reply =>
      cases op with
      | answer a =>
          simp only [Operation.isIdle, hphase, Bool.and_eq_true, decide_eq_true_eq] at isIdle
          obtain ⟨b, hb⟩ := exists_answer isIdle.1 isIdle.2
          obtain ⟨hrests, hrefused⟩ := rests_answer hb a
          refine hstands.meets_of_rests leaves hrests fun reply' hreply' => ?_
          rw [hrefused, ← hphase] at hreply'
          exact Option.some.inj (reply.symm.trans hreply')
      | engineReady =>
          simp only [Operation.isIdle, hphase, Bool.and_eq_true, decide_eq_true_eq] at isIdle
          obtain ⟨hrests, hdone⟩ := rests_engineReady (engine_eq_true isIdle.1.2 isIdle.2)
          refine hstands.meets_of_rests leaves hrests fun reply' hreply' => ?_
          rw [hdone] at hreply'
          exact Option.some.inj (reply.symm.trans hreply')
      | setPhase _ | awaitMedia _ | deferAcceptance _ | handOver => cases hkept
      | _ => cases isIdle
  | move | handOver => cases hkept
  | @queue op a _ _ queued settles _ reply =>
      cases op with
      | answer b =>
          have hanticipatory : call.phase = .ringingAnticipatory := by
            by_cases hfound : call.phase = .ringingAnticipatory
            · exact hfound
            · rw [Operation.queued?, if_neg hfound] at queued
              cases queued
          rw [Operation.queued?, if_pos hanticipatory] at queued
          obtain rfl : b = a := Option.some.inj queued
          obtain rfl := eq_of_anticipatory (hphase.symm.trans hanticipatory)
          exact ⟨⟨settles.phase, settles.deferred⟩, settles.ran, by rintro _ ⟨⟩; exact reply⟩
      | awaitMedia _ | deferAcceptance _ => cases hkept
      | _ => cases queued
  | strand _ _ reply | strandQueued _ _ _ reply => exact absurd reply hlasts
  | answer phase settles _ reply =>
      obtain rfl := eq_of_ready (hphase.symm.trans phase)
      exact ⟨⟨settles.phase, settles.deferred⟩, settles.ran, by rintro _ ⟨⟩; exact reply⟩
  | getReady phase settles _ reply =>
      rw [hphase] at phase
      obtain rfl := eq_of_anticipatory (phase.resolve_left h.phase_ne_answering)
      exact ⟨⟨settles.phase, settles.deferred⟩, settles.ran, by rintro _ ⟨⟩; exact reply⟩
  | complete phase deferred settles reply =>
      obtain ⟨b, rfl⟩ := eq_of_accepting (hphase.symm.trans phase)
      obtain rfl := Option.some.inj (deferred.symm.trans hstands.deferred)
      exact ⟨⟨settles.phase, settles.deferred⟩, settles.ran, by rintro _ ⟨⟩; exact reply⟩
  | fail phase deferred =>
      obtain ⟨b, rfl⟩ := eq_of_accepting (hphase.symm.trans phase)
      simp [hstands.deferred, queued] at deferred

/-! ### A whole word of them -/

/-- **The signals decide**: after any deeds a call stands at the handshake of them, and what has
run is what that says. -/
theorem Stands.run (deeds : List Deed) :
    ∀ {h : Handshake} {call : Call}, h.Stands call →
      (∀ deed ∈ deeds, deed.op.breaksIn = false) →
      (∀ e ∈ call.episodes deeds, ¬ e.outcome.GivenUp) →
        (h.after deeds).Stands (call.after deeds) ∧
          (h.after deeds).ran =
            h.ran ++ (call.episodes deeds).flatMap (acceptances ·.outcome.trace) := by
  induction deeds with
  | nil => intro h call hstands _ _; exact ⟨hstands, by simp [after]⟩
  | cons deed rest ih =>
      intro h call hstands hkept hlasts
      have hmeets := hstands.step (call.meet deed).step (hkept deed (by simp))
        (hlasts _ (by simp))
      obtain ⟨hlast, hran⟩ := ih hmeets.stands (fun d hd => hkept d (by simp [hd]))
        (fun e he => hlasts e (by simp [he]))
      refine ⟨hlast, ?_⟩
      refine hran.trans ?_
      rw [ran_next, Call.episodes_cons, List.flatMap_cons, hmeets.ran, List.append_assoc]

end Handshake

/-- **The first answer is run once, when both signals have come, whatever their order.**  Let any
life bring a call to ring before its engine is ready, and let deeds follow of which none breaks in
and none is given up.  Where the call is then, what it has queued and what has run are those of the
handshake that the deeds come to.  And wherever one looks at a deed, what ran in it and how it was
replied to are what the handshake of the deeds before it says. -/
theorem first_answer_runs_once (setup : CallSetup) (address : Address) (settings : Settings)
    (reporter : Reporter) (owner : Thread) (past deeds : List Deed)
    (hrings : ((Call.start setup address settings reporter owner).after past).phase =
      .ringingAnticipatory)
    (hkept : ∀ deed ∈ deeds, deed.op.breaksIn = false)
    (hlasts : ∀ e ∈ ((Call.start setup address settings reporter owner).after past).episodes deeds,
      e.outcome.reply.isAborted = false) :
    let call := (Call.start setup address settings reporter owner).after past
    (call.after deeds).phase = (Handshake.of deeds).phase ∧
    (call.after deeds).deferred = (Handshake.of deeds).queued ∧
    (call.episodes deeds).flatMap (acceptances ·.outcome.trace) = (Handshake.of deeds).ran ∧
    ∀ before deed later, deeds = before ++ deed :: later →
      let e := (call.after before).meet deed
      e.scene.call.phase = (Handshake.of before).phase ∧
      acceptances e.outcome.trace = (Handshake.of before).runs deed.op ∧
      ∀ reply, (Handshake.of before).reply? deed.op = some reply → e.outcome.reply = reply := by
  intro call
  have horderly : call.Orderly :=
    Call.after_orderly (Call.start_orderly setup address settings reporter owner) past
  have hstands : Handshake.awaited.Stands call :=
    ⟨hrings, Call.deferred_eq_none_of_orderly horderly (by rw [hrings]; simp)⟩
  have hrun := hstands.run deeds hkept fun e he => Outcome.not_givenUp (hlasts e he)
  rw [Handshake.awaited_after] at hrun
  refine ⟨hrun.1.phase, hrun.1.deferred, hrun.2.symm, ?_⟩
  rintro before deed later rfl e
  have hepisodes := Call.episodes_append before (deed :: later) call
  have hbefore := hstands.run before (fun d hd => hkept d (by simp [hd]))
    (fun e he => Outcome.not_givenUp (hlasts e (by rw [hepisodes]; simp [he])))
  rw [Handshake.awaited_after] at hbefore
  have hmeets := hbefore.1.step e.step (hkept deed (by simp))
    (Outcome.not_givenUp (hlasts e (by rw [hepisodes]; simp [e])))
  exact ⟨hbefore.1.phase, hmeets.ran, hmeets.reply⟩

/-- An answer that comes too early waits; the next one is refused, and the engine completes the
first, which fails here. -/
theorem first_of_two_early_answers_fails :
    let why : CallFailure := .acceptance "no media"
    let first : Acceptance := { name := "a", failure := some why }
    let second : Acceptance := { name := "b" }
    let signals := [Deed.plain (.answer first), .plain (.answer second), .plain .engineReady]
    let rings := Call.incoming.after [.plain (.setPhase .ringingAnticipatory)]
    let last := (rings.after [.plain (.answer first), .plain (.answer second)]).meet
      (.plain .engineReady)
    (rings.after signals).phase = .localFailure ∧
      (rings.episodes signals).flatMap (acceptances ·.outcome.trace) = [first] ∧
      last.outcome.reply = .refused why := by
  intro why first second signals rings last
  have hrings : rings.phase = .ringingAnticipatory := by
    decide
  have hlasts : ∀ e ∈ rings.episodes signals, e.outcome.reply.isAborted = false := by
    decide
  obtain ⟨hphase, -, hran, hdeeds⟩ := first_answer_runs_once _ _ _ _ _
    [.plain (.setPhase .ringingAnticipatory)] signals hrings (by decide) hlasts
  exact ⟨hphase, hran,
    (hdeeds [.plain (.answer first), .plain (.answer second)] _ [] rfl).2.2 _ rfl⟩

end CallLifecycle

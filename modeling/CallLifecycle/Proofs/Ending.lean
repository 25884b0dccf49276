/-
An outcome lasts.

Four things might bring an ended call back to life: a call that is not held to the
table, a move from a phase to itself, an acceptance that is still waiting, and a
record that is linked too late.  None of them does.  The rule of a call allows
nothing once it is over, whether the table is enforced or not and also where the
phase would stay the same; an orderly call that is over has nothing queued; and a
record is asked for something only by a connected call.

So `Step.of_isOver` finds that an operation on such a call leaves answering alone,
and that it replies as one that can do nothing.
-/
import CallLifecycle.Proofs.Waiting

namespace CallLifecycle

open Trace

theorem Phase.ne_of_isOver {old new : Phase} (h : old.isOver = true) (hnew : new.isOver = false) :
    old ≠ new := by
  rintro rfl
  simp [h] at hnew

/-- **Nothing is done to a call that is over**, and what it is asked for in vain it refuses. -/
theorem Call.Step.of_isOver {call : Call} {thread : Thread} {op : Operation} {o : Outcome}
    (h : call.Step thread op o) (hover : call.phase.isOver = true)
    (hdeferred : call.deferred = none) :
    o.LeavesAnswering call ∧
      ((∀ operation, call.bars thread operation = false) →
        ∀ reply, op.idleReply? call.phase = some reply → o.reply = reply) := by
  have hne : ∀ {new : Phase}, new.isOver = false → call.phase ≠ new := Phase.ne_of_isOver hover
  cases h with
  | aside isAside leaves =>
      refine ⟨leaves, fun _ reply hreply => ?_⟩
      simp [Operation.idleReply?_of_isAside isAside] at hreply
  | giveUp bars leaves =>
      refine ⟨leaves, fun hpasses => ?_⟩
      rw [hpasses] at bars
      cases bars
  | idle _ leaves hidle =>
      refine ⟨leaves, fun _ reply hreply => ?_⟩
      rw [hidle] at hreply
      exact Option.some.inj hreply
  | move allowed | queue allowed =>
      simp [Phase.allows_of_isOver hover] at allowed
  | handOver deferred =>
      simp [hdeferred] at deferred
  | strand phase | answer phase => exact absurd phase (hne rfl)
  | getReady phase =>
      rcases phase with h | h
      · exact absurd h (hne rfl)
      · exact absurd h (hne rfl)
  | complete phase | fail phase | strandQueued phase => exact absurd phase (hne rfl)

/-- A call that is over is found as it was left, by whatever comes later. -/
theorem Call.episodes_of_isOver {call : Call} (hover : call.phase.isOver = true)
    (hdeferred : call.deferred = none) (deeds : List Deed) :
    ∀ e ∈ call.episodes deeds,
      e.scene.call.phase = call.phase ∧ e.scene.call.deferred = none := by
  refine episodes_keep (P := fun c => c.phase = call.phase ∧ c.deferred = none) ?_ deeds
    ⟨rfl, hdeferred⟩
  rintro e ⟨hphase, hd⟩
  have h := (e.step.of_isOver (by rw [hphase]; exact hover) hd).1
  exact ⟨h.phase.trans hphase, h.deferred.trans hd⟩

/-- **A call that is over stays over, as it ended.**  From the moment when any life has brought a
call to an outcome, or it started there, no deed moves it, tells its listener of a phase, queues,
hands out or runs an acceptance, or asks a record for anything.  Where nothing is given up because
of the thread, the operations of answering reply as `idleReply?` says. -/
theorem outcome_lasts (setup : CallSetup) (address : Address) (settings : Settings)
    (reporter : Reporter) (owner : Thread) (past : List Deed)
    (hover : ((Call.start setup address settings reporter owner).after past).isOver = true)
    (future : List Deed) :
    let ended := (Call.start setup address settings reporter owner).after past
    ended.deferred = none ∧
    ∀ e ∈ ended.episodes future,
      e.outcome.scene.call.phase = ended.phase ∧ e.outcome.scene.call.isOver = true ∧
      e.outcome.scene.call.deferred = none ∧
      acceptances e.outcome.trace = [] ∧
      (∀ d ∈ deliveries e.outcome.trace, ∀ new, d.change ≠ .phase new) ∧
      requests e.outcome.trace = [] ∧
      (e.thread = owner ∨ reporter.NeverGivesUp →
        ∀ reply, e.op.idleReply? ended.phase = some reply → e.outcome.reply = reply) := by
  intro ended
  have horderly : ended.Orderly :=
    Call.after_orderly (Call.start_orderly setup address settings reporter owner) past
  have hdeferred : ended.deferred = none :=
    Call.deferred_eq_none_of_orderly horderly (Phase.ne_of_isOver hover rfl)
  refine ⟨hdeferred, fun e he => ?_⟩
  obtain ⟨hphase, hd⟩ := Call.episodes_of_isOver hover hdeferred future e he
  have hfound : e.scene.call.phase.isOver = true := by
    rw [hphase]
    exact hover
  obtain ⟨hleaves, hreplies⟩ := e.step.of_isOver hfound hd
  have hlast : e.outcome.scene.call.phase = ended.phase := hleaves.phase.trans hphase
  refine ⟨hlast, ?_, hleaves.deferred.trans hd, hleaves.ran, hleaves.hushed,
    hleaves.asked (Phase.ne_of_isOver hfound rfl), ?_⟩
  · show e.outcome.scene.call.phase.isOver = true
    rw [hlast]
    exact hover
  · intro hthread reply hreply
    -- Who owns the call and who is told of defects were settled when it started.
    have hfixed : e.scene.call.fixed = (Call.start setup address settings reporter owner).fixed :=
      (Call.episodes_fixed ended future e he).trans (Call.after_fixed _ past)
    have howner : e.scene.call.owner = owner := congrArg Fixed.owner hfixed
    have hreporter : e.scene.call.reporter = reporter := congrArg Fixed.reporter hfixed
    refine hreplies (Call.bars_eq_false ?_) reply ?_
    · rw [howner, hreporter]
      exact hthread
    · rw [hphase]
      exact hreply

/-- A call that is hung up is not hung up again, and its record is linked in vain. -/
theorem hung_up_call_stays_hung_up :
    let hangUp := Deed.plain (.setPhase .localHangup)
    let ended := Call.incoming.after [hangUp]
    let again := (ended.after [.plain (.linkRecord 0)]).meet hangUp
    ended.isOver = true ∧ again.outcome.scene.call.phase = .localHangup ∧
      requests again.outcome.trace = [] ∧
      again.outcome.reply = .refused (.illegalTransition .localHangup .localHangup) := by
  intro hangUp ended again
  have hover : ended.isOver = true := by
    decide
  have he : again ∈ ended.episodes [.plain (.linkRecord 0), hangUp] := by
    simp [again]
  obtain ⟨hphase, -, -, -, -, hasked, hreply⟩ :=
    (outcome_lasts _ _ _ _ _ [hangUp] hover [.plain (.linkRecord 0), hangUp]).2 again he
  exact ⟨hover, hphase, hasked, hreply (Or.inl rfl) _ rfl⟩

end CallLifecycle

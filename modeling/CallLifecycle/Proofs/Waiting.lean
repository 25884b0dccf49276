/-
A call that waits is accepting.

An acceptance is queued only while the call is in `accepting`.  A call that is so
is *orderly*, and every operation keeps it so, on any thread and however it ends.
Where the rule is broken for a moment, between the writing of a new phase and the
clearing of the queue, nobody can look: whoever is told of the new phase is told
when both are done, which is the last field of `Settles`.

The rule does not rest on the transition table.  A call that is not held to the
table may become `accepting` from anywhere, and nothing is queued there either
until it has.
-/
import CallLifecycle.Proofs.Answering
import CallLifecycle.Snapshot

namespace CallLifecycle

open Trace

/-- An acceptance is queued only while the call is accepting. -/
def Call.Orderly (call : Call) : Prop :=
  call.deferred.isSome → call.phase = .accepting

namespace Call

/-- A call starts with nothing queued. -/
theorem start_orderly (setup : CallSetup) (address : Address) (settings : Settings)
    (reporter : Reporter) (owner : Thread) :
    (start setup address settings reporter owner).Orderly := by
  intro h
  cases h

theorem deferred_eq_none_of_orderly {call : Call} (h : call.Orderly)
    (hphase : call.phase ≠ .accepting) : call.deferred = none := by
  cases hd : call.deferred with
  | none => rfl
  | some a => exact absurd (h (by rw [hd]; rfl)) hphase

end Call

/-- What an outcome settles is what the call and everyone who was told of it show. -/
theorem Outcome.Settles.orderly {o : Outcome} {new : Phase} {queued : Option Acceptance}
    {done : List Acceptance} (h : o.Settles new queued done)
    (hqueued : queued.isSome → new = .accepting) :
    o.scene.call.Orderly ∧ ∀ d ∈ deliveries o.trace, d.seen.call.Orderly := by
  refine ⟨?_, fun d hd => ?_⟩
  · unfold Call.Orderly
    rw [h.phase, h.deferred]
    exact hqueued
  · obtain ⟨hphase, hdeferred⟩ := h.told d hd
    unfold Call.Orderly
    rw [hphase, hdeferred]
    exact hqueued

/-- Every step of answering leaves a call orderly, and shows it so. -/
theorem Call.Step.orderly {call : Call} {thread : Thread} {op : Operation} {o : Outcome}
    (hstep : call.Step thread op o) (h : call.Orderly) :
    o.scene.call.Orderly ∧ ∀ d ∈ deliveries o.trace, d.seen.call.Orderly := by
  cases hstep with
  | aside _ leaves | giveUp _ leaves _ | idle _ leaves _ => exact leaves.toSettles.orderly h
  | @move new _ _ settles =>
      refine settles.orderly fun hqueued => ?_
      by_cases hnew : new = .accepting
      · exact hnew
      · simp [hnew] at hqueued
  | queue _ _ settles => exact settles.orderly fun _ => rfl
  | handOver _ settles => exact settles.orderly (by simp)
  | strand _ settles => exact settles.orderly h
  | strandQueued _ _ settles => exact settles.orderly (by simp)
  | answer _ settles => exact settles.orderly (by simp)
  | getReady _ settles => exact settles.orderly (by simp)
  | complete _ _ settles => exact settles.orderly (by simp)
  | fail _ _ settles => exact settles.orderly (by simp)

namespace Call

/-- **No operation breaks the rule**, and nobody who is told of one sees it broken. -/
theorem episode_orderly (e : Episode) (h : e.scene.call.Orderly) :
    e.outcome.scene.call.Orderly ∧ ∀ d ∈ deliveries e.outcome.trace, d.seen.call.Orderly :=
  e.step.orderly h

theorem after_orderly {call : Call} (h : call.Orderly) (deeds : List Deed) :
    (call.after deeds).Orderly :=
  after_keeps (fun e he => (episode_orderly e he).1) deeds h

theorem episodes_orderly {call : Call} (h : call.Orderly) (deeds : List Deed) :
    ∀ e ∈ call.episodes deeds, e.scene.call.Orderly :=
  episodes_keep (fun e he => (episode_orderly e he).1) deeds h

end Call

/-- Where every call is orderly, every call stays so, whatever happens on the switchboard. -/
theorem Switchboard.run_orderly {board : Switchboard}
    (h : ∀ i call, board.call? i = some call → call.Orderly) (events : List Event) :
    ∀ after ∈ board.run events, ∀ i last, after.board.call? i = some last → last.Orderly := by
  intro after hafter i last hlast
  cases hcall : board.call? i with
  | none =>
      simp [call?_of_mem_run_of_none events hcall after hafter] at hlast
  | some call =>
      obtain ⟨deeds, rfl⟩ := exists_deeds_of_mem_run events hcall after hafter last hlast
      exact Call.after_orderly (h i call hcall) deeds

/-- **Only an accepting call is seen with an acceptance queued.**  Any call may start, in any
phase, and live through any deeds: neither a snapshot taken afterwards, nor one taken after any
episode of its life, nor what a listener sees while it is told of something, shows otherwise. -/
theorem deferred_only_while_accepting (setup : CallSetup) (address : Address)
    (settings : Settings) (reporter : Reporter) (owner : Thread) (deeds : List Deed) :
    (∀ around,
      (((Call.start setup address settings reporter owner).after deeds).observe
          around).hasDeferred = true →
        (((Call.start setup address settings reporter owner).after deeds).observe
          around).phase = .accepting) ∧
    ∀ e ∈ (Call.start setup address settings reporter owner).episodes deeds,
      (e.outcome.scene.observe.hasDeferred = true →
        e.outcome.scene.observe.phase = .accepting) ∧
      ∀ d ∈ deliveries e.outcome.trace,
        d.seen.observe.hasDeferred = true → d.seen.observe.phase = .accepting := by
  have hstart := Call.start_orderly setup address settings reporter owner
  refine ⟨fun _ => Call.after_orderly hstart deeds, fun e he => ?_⟩
  have hfound := Call.episodes_orderly hstart deeds e he
  obtain ⟨hleft, hshown⟩ := Call.episode_orderly e hfound
  exact ⟨hleft, fun d hd => hshown d hd⟩

/-- A call that is answered too early waits, and its listener sees it `accepting`. -/
theorem early_answer_seen_accepting :
    let rings := [Deed.plain (.attach 0), .plain (.setPhase .ringingAnticipatory)]
    let answered := (Call.incoming.after rings).meet (.plain (.answer { name := "a" }))
    ∃ d ∈ deliveries answered.outcome.trace,
      d.seen.observe.hasDeferred = true ∧ d.seen.observe.phase = .accepting := by
  intro rings answered
  have he : answered ∈ Call.incoming.episodes (rings ++ [.plain (.answer { name := "a" })]) := by
    simp [Call.episodes_append, answered]
  have htold : deliveries answered.outcome.trace =
      [⟨0, .phase .accepting, answered.outcome.scene⟩] := rfl
  have hd : ⟨0, .phase .accepting, answered.outcome.scene⟩ ∈ deliveries answered.outcome.trace := by
    rw [htold]
    exact List.mem_singleton_self _
  have hdeferred : answered.outcome.scene.observe.hasDeferred = true := by
    decide
  have h := (deferred_only_while_accepting _ _ _ _ _ _).2 answered he
  exact ⟨_, hd, hdeferred, h.2 _ hd hdeferred⟩

end CallLifecycle

/-
A record is promoted once, and when that is due.

Linking a record and connecting a call come in either order, a call may be connected
again and again, and one record may be linked to several calls.  Nothing keeps count of
any of this.  What makes a promotion happen once is that a completed kind has no
counterpart, so a record that does as it is asked is asked no more; what makes it happen
at all is that a call gets connected with a record nowhere but where it asks.

On a switchboard a record goes through `Record.promote` once for each event at which it
was to be promoted, which is `records_of_run`, and all else that is said of a whole run
is what repeating `Record.promote` comes to.

Whoever else may write a record is not told of calls, so nothing is said of runs in which
a step from outside does.
-/
import CallLifecycle.Proofs.Asking
import CallLifecycle.Proofs.Traffic
import Mathlib.Logic.Function.Iterate

namespace CallLifecycle

open Trace

/-! ### Promoting a record again -/

namespace Record

/-- How often a record is asked when it is promoted. -/
def asks (rec : Record) : Nat :=
  if rec.kind.completed?.isSome then 1 else 0

variable {rec : Record}

theorem frozen_promote (rec : Record) : rec.promote.frozen = rec.frozen := by
  unfold promote
  split <;> rfl

theorem requests_promote (rec : Record) : rec.promote.requests = rec.requests + rec.asks := by
  unfold promote asks
  split <;> simp [Record.request, *]

/-- A record that does as it is asked becomes its completed counterpart. -/
theorem kind_promote (h : rec.frozen = false) :
    rec.promote.kind = rec.kind.completed?.getD rec.kind := by
  unfold promote
  split <;> simp [Record.request, *]

/-- A frozen record stays what it is. -/
theorem kind_promote_of_frozen (h : rec.frozen = true) : rec.promote.kind = rec.kind := by
  unfold promote
  split <;> simp [Record.request, *]

/-- **There is nothing to promote twice** about a record that does as it is asked. -/
theorem promote_promote (h : rec.frozen = false) : rec.promote.promote = rec.promote := by
  cases hkind : rec.kind.completed? with
  | none => rw [promote_of_completed hkind, promote_of_completed hkind]
  | some kind =>
      refine promote_of_completed ?_
      rw [kind_promote h, hkind]
      exact RecordKind.completed?_of_completed hkind

theorem asks_le_one (rec : Record) : rec.asks ≤ 1 := by
  unfold asks
  split <;> omega

/-- **A record that does as it is asked is asked once at most**, and is promoted if it was to be at
all. -/
theorem iterate_promote (h : rec.frozen = false) (n : Nat) :
    (promote^[n] rec).requests ≤ rec.requests + 1 ∧
      (promote^[n] rec).kind =
        if 0 < n then rec.kind.completed?.getD rec.kind else rec.kind := by
  cases n with
  | zero => exact ⟨Nat.le_succ _, rfl⟩
  | succ n =>
      rw [Function.iterate_succ_apply, Function.iterate_fixed (promote_promote h),
        if_pos (Nat.succ_pos n), requests_promote]
      exact ⟨Nat.add_le_add_left rec.asks_le_one _, kind_promote h⟩

/-- A frozen record stays what it is, and is asked each time if it is asked at all. -/
theorem iterate_promote_of_frozen (n : Nat) :
    ∀ {rec : Record}, rec.frozen = true →
      (promote^[n] rec).requests =
          rec.requests + (if rec.kind.completed?.isSome then n else 0) ∧
        (promote^[n] rec).kind = rec.kind := by
  induction n with
  | zero =>
      intro rec _
      refine ⟨?_, rfl⟩
      split <;> rfl
  | succ n ih =>
      intro rec h
      obtain ⟨hrequests, hkind⟩ := ih (rec.frozen_promote.trans h)
      have hsame := kind_promote_of_frozen h
      rw [Function.iterate_succ_apply, hrequests, hkind, hsame, requests_promote]
      refine ⟨?_, rfl⟩
      unfold asks
      split <;> omega

end Record

/-! ### What an event asks -/

/-- Whether a step from outside writes a record. -/
def OutsideStep.writesRecord : OutsideStep → Bool
  | recordChange _ _ => true
  | _ => false

namespace Surroundings

variable {around : Surroundings} {due : Option Nat} {r : Nat} {rec : Record}

/-- Most steps from outside are none of the records' business. -/
theorem applyAll_records (steps : List OutsideStep) :
    ∀ {around : Surroundings}, (∀ step ∈ steps, step.writesRecord = false) →
      (around.applyAll steps).records = around.records := by
  induction steps with
  | nil => intro around _; rfl
  | cons step rest ih =>
      intro around h
      obtain ⟨hstep, hrest⟩ := List.forall_mem_cons.mp h
      have hone : (around.apply step).records = around.records := by
        cases step with
        | recordChange i kind => cases hstep
        | contactChange _ _ | listenerDrop _ | receiverDrop _ | receiverDrain _ => rfl
      exact (ih hrest).trans hone

theorem asked_of_records {a b : Surroundings} (h : a.records = b.records) (due : Option Nat) :
    a.asked due = b.asked due := by
  unfold asked
  rw [h]

theorem promoted_of_records {a b : Surroundings} (h : a.records = b.records)
    (due : Option Nat) : (a.promoted due).records = (b.promoted due).records := by
  cases due with
  | none => exact h
  | some r => exact congrArg (·.modify r Record.promote) h

/-- A record is promoted just if it was to be. -/
theorem promoted_getElem? (h : around.records[r]? = some rec) :
    (around.promoted due).records[r]? = some (if due = some r then rec.promote else rec) := by
  cases due with
  | none => exact h
  | some i =>
      show (around.records.modify i Record.promote)[r]? = _
      rw [List.getElem?_modify, h]
      by_cases hi : i = r
      · simp [hi]
      · simp [hi]

/-- What is asked is the completed counterpart of a record that was to be promoted. -/
theorem exists_of_mem_asked {kind : RecordKind} (h : (r, kind) ∈ around.asked due) :
    due = some r ∧ ∃ rec, around.records[r]? = some rec ∧ rec.kind.completed? = some kind := by
  simp only [asked, Option.mem_toList, Option.bind_eq_some_iff, Option.map_eq_some_iff] at h
  obtain ⟨i, hdue, new, ⟨rec, hrec, hkind⟩, heq⟩ := h
  cases heq
  exact ⟨hdue, rec, hrec, hkind⟩

theorem countP_asked (h : around.records[r]? = some rec) :
    (around.asked due).countP (·.1 = r) = if due = some r then rec.asks else 0 := by
  by_cases hdue : due = some r
  · rw [if_pos hdue, hdue]
    cases hkind : rec.kind.completed? with
    | none => simp [asked, Record.asks, h, hkind]
    | some kind => simp [asked, Record.asks, h, hkind]
  · rw [if_neg hdue, List.countP_eq_zero]
    intro request hrequest
    obtain ⟨hasked, -⟩ := exists_of_mem_asked hrequest
    have hne : request.1 ≠ r := by
      rintro rfl
      exact hdue hasked
    simpa using hne

end Surroundings

namespace Switchboard

/-- The record that an event is to promote. -/
def due? (board : Switchboard) (event : Event) : Option Nat :=
  (board.episode? event).bind fun e => e.outcome.due? e.scene.call.phase e.op

/-- Whether some call is connected and linked to a record. -/
def hasConnected (board : Switchboard) (r : Nat) : Bool :=
  board.liveCalls.any (·.connectedRecord? = some r)

section Event

variable {board : Switchboard} {event : Event} {r : Nat}

theorem hasConnected_iff :
    board.hasConnected r = true ↔
      ∃ i call, board.call? i = some call ∧ call.connectedRecord? = some r := by
  unfold hasConnected
  simp only [List.any_eq_true, decide_eq_true_eq, mem_liveCalls_iff]
  constructor
  · rintro ⟨call, ⟨i, hi⟩, hlinked⟩
    exact ⟨i, call, hi, hlinked⟩
  · rintro ⟨i, call, hi, hlinked⟩
    exact ⟨call, ⟨i, hi⟩, hlinked⟩

/-- Calls that are linked to no record are connected with none. -/
theorem hasConnected_of_unlinked (h : ∀ call ∈ board.liveCalls, call.record = none) (r : Nat) :
    board.hasConnected r = false := by
  unfold hasConnected
  rw [List.any_eq_false]
  intro call hcall
  simp [Call.connectedRecord?, h call hcall]

theorem exists_of_due? (h : board.due? event = some r) :
    ∃ e, board.episode? event = some e ∧
      e.outcome.due? e.scene.call.phase e.op = some r :=
  Option.bind_eq_some_iff.mp h

/-- A record was to be promoted because of a call that is connected and linked to it now. -/
theorem hasConnected_of_due? (h : board.due? event = some r) :
    (board.handle event).board.hasConnected r = true := by
  obtain ⟨e, he, hdue⟩ := exists_of_due? h
  obtain ⟨i, -, -, -, hleft⟩ := call?_of_episode he
  exact hasConnected_iff.mpr ⟨i, _, hleft, Outcome.connectedRecord?_of_due? hdue⟩

/-- **A call gets connected with a record only where the record is to be promoted.** -/
theorem hasConnected_of_handle (h : (board.handle event).board.hasConnected r = true) :
    board.hasConnected r = true ∨ board.due? event = some r := by
  obtain ⟨i, last, hlast, hlinked⟩ := hasConnected_iff.mp h
  rcases call?_handle_cases hlast with hsame | ⟨e, he, -, hfound, rfl⟩
  · exact Or.inl (hasConnected_iff.mpr ⟨i, last, hsame, hlinked⟩)
  · have hasks : e.scene.Asks e.op e.outcome := e.scene.perform_asks e.thread e.op
    rcases hasks.newly r hlinked with hbefore | hdue
    · exact Or.inl (hasConnected_iff.mpr ⟨i, _, hfound, hbefore⟩)
    · refine Or.inr ?_
      rw [due?, he]
      exact hdue

/-- **An event asks what is due and nothing else**, if only calls write records. -/
theorem handle_asks (h : ∀ step ∈ board.steps event, step.writesRecord = false) :
    requests (board.handle event).trace = board.around.asked (board.due? event) ∧
      (board.handle event).board.around.records =
        (board.around.promoted (board.due? event)).records := by
  rcases board.handle_cases event with
    ⟨e, he, htrace, haround, hsteps⟩ | ⟨hhanded, -, hasked, haround⟩
  · obtain ⟨-, -, hfound, -, -⟩ := call?_of_episode he
    have hasks : e.scene.Asks e.op e.outcome := e.scene.perform_asks e.thread e.op
    have hdue : board.due? event = e.outcome.due? e.scene.call.phase e.op := by
      rw [due?, he]
      rfl
    have hran : (e.scene.around.ran e.outcome.trace).records = board.around.records := by
      rw [← hfound]
      exact Surroundings.applyAll_records _ (by rwa [← hsteps])
    refine ⟨?_, ?_⟩
    · rw [htrace, hasks.requests, hdue, Surroundings.asked_of_records hran]
    · rw [haround, hasks.records, hdue, Surroundings.promoted_of_records hran]
  · have hdue : board.due? event = none := by
      cases he : board.episode? event with
      | none =>
          rw [due?, he]
          rfl
      | some e =>
          rw [due?, he]
          simp [Outcome.due?, hhanded e he, Operation.connects, Operation.links]
    rw [hdue, hasked, haround]
    exact ⟨rfl, Surroundings.applyAll_records _ h⟩

end Event

/-! ### What a run asks -/

/-- How often a record was to be promoted in the course of some events. -/
def occasions (r : Nat) (board : Switchboard) : List Event → Nat
  | [] => 0
  | event :: rest =>
    (board.handle event).board.occasions r rest + if board.due? event = some r then 1 else 0

/-- How often a record was asked to become another kind in the course of some events. -/
def timesAsked (r : Nat) (board : Switchboard) (events : List Event) : Nat :=
  ((board.run events).flatMap (requests ·.trace)).countP (·.1 = r)

theorem timesAsked_cons (r : Nat) (board : Switchboard) (event : Event) (rest : List Event) :
    board.timesAsked r (event :: rest) =
      (requests (board.handle event).trace).countP (·.1 = r) +
        (board.handle event).board.timesAsked r rest := by
  rw [timesAsked, run_cons, List.flatMap_cons, List.countP_append, timesAsked]

/-- **A record is promoted once for each time that it was to be**, and asked as often as that
takes. -/
theorem records_of_run {r : Nat} (events : List Event) :
    ∀ {board : Switchboard} {rec : Record},
      (∀ step ∈ board.allSteps events, step.writesRecord = false) →
        board.around.records[r]? = some rec →
          (board.after events).around.records[r]? =
              some (Record.promote^[board.occasions r events] rec) ∧
            (Record.promote^[board.occasions r events] rec).requests =
              rec.requests + board.timesAsked r events := by
  induction events with
  | nil =>
      intro board rec _ hrec
      exact ⟨hrec, rfl⟩
  | cons event rest ih =>
      intro board rec honly hrec
      obtain ⟨hnow, hlater⟩ := List.forall_mem_append.mp honly
      obtain ⟨hasked, hrecords⟩ := handle_asks hnow
      have hnext : (board.handle event).board.around.records[r]? =
          some (if board.due? event = some r then rec.promote else rec) := by
        rw [hrecords]
        exact Surroundings.promoted_getElem? hrec
      obtain ⟨hlast, hcount⟩ := ih hlater hnext
      rw [after_cons, hlast, timesAsked_cons, hasked, Surroundings.countP_asked hrec, occasions]
      by_cases hdue : board.due? event = some r
      · rw [if_pos hdue] at hcount
        rw [if_pos hdue, if_pos hdue, if_pos hdue, Function.iterate_succ_apply, hcount,
          Record.requests_promote, Nat.add_assoc]
        exact ⟨rfl, rfl⟩
      · rw [if_neg hdue] at hcount
        rw [if_neg hdue, if_neg hdue, if_neg hdue, Nat.add_zero, hcount, Nat.zero_add]
        exact ⟨rfl, rfl⟩

/-- **A record was to be promoted if some call has been connected and linked to it**, and only
then. -/
theorem occasions_pos_iff {r : Nat} (events : List Event) :
    ∀ {board : Switchboard}, board.hasConnected r = false →
      (0 < board.occasions r events ↔
        (board.run events).any (·.board.hasConnected r) = true) := by
  induction events with
  | nil =>
      intro board _
      simp [occasions]
  | cons event rest ih =>
      intro board hbefore
      rw [occasions, run_cons, List.any_cons]
      by_cases hdue : board.due? event = some r
      · rw [if_pos hdue, hasConnected_of_due? hdue]
        simp
      · have hafter : (board.handle event).board.hasConnected r = false := by
          rw [Bool.eq_false_iff]
          intro h
          rcases hasConnected_of_handle h with hold | hnew
          · rw [hbefore] at hold
            cases hold
          · exact hdue hnew
        rw [if_neg hdue, Nat.add_zero, hafter, Bool.false_or]
        exact ih hafter

/-! ### Who asks, and who does not -/

section Who

variable {board : Switchboard} {event : Event} {r : Nat}

/-- **Only a connected call asks**, of its own record, when it is put into `connected` or the
record is linked, and only for the completed counterpart of what the record is. -/
theorem exists_of_mem_requests {kind : RecordKind}
    (honly : ∀ step ∈ board.steps event, step.writesRecord = false)
    (h : (r, kind) ∈ requests (board.handle event).trace) :
    ∃ e rec, board.episode? event = some e ∧ e.outcome.reply = .done ∧
      (e.op.connects e.scene.call.phase = true ∨ e.op = .linkRecord r) ∧
      e.outcome.scene.call.phase = .connected ∧ e.outcome.scene.call.record = some r ∧
      board.around.records[r]? = some rec ∧ rec.kind.completed? = some kind := by
  rw [(handle_asks honly).1] at h
  obtain ⟨hdue, rec, hrec, hkind⟩ := Surroundings.exists_of_mem_asked h
  obtain ⟨e, he, hdue⟩ := exists_of_due? hdue
  have hconnected := Outcome.connectedRecord?_of_due? hdue
  unfold Call.connectedRecord? at hconnected
  unfold Outcome.due? at hdue
  split at hdue
  · rename_i hdone
    split at hconnected
    · rename_i hphase
      refine ⟨e, rec, he, hdone.1, ?_, hphase, hconnected, hrec, hkind⟩
      rcases hdone.2 with hconnects | hlinks
      · exact Or.inl hconnects
      · exact Or.inr (e.op_of_links hdone.1 hlinks hconnected)
    · cases hconnected
  · cases hdue

/-- **A second link touches no record.** -/
theorem handle_relink {i record : Nat} {thread : Thread} {call : Call}
    (hcall : board.call? i = some call) (hlinked : call.record.isSome = true) :
    let after := board.handle (.perform i thread (.linkRecord record))
    requests after.trace = [] ∧ after.board.around = board.around ∧
      after.board.call? i = some call := by
  intro after
  have hdeed : board.deed? i (.perform i thread (.linkRecord record)) =
      some ⟨thread, .linkRecord record, board.around⟩ := by
    simp [deed?, Operation.listener?]
  have he := episode?_of_deed? hcall hdeed
  obtain ⟨hscene, hasked⟩ :=
    Scene.perform_relink ⟨call, board.around⟩ hlinked thread record
  obtain ⟨j, hj, -, -, hleft⟩ := call?_of_episode he
  obtain rfl : i = j := Option.some.inj hj
  rcases board.handle_cases (.perform i thread (.linkRecord record)) with
    ⟨e, he', htrace, haround, -⟩ | ⟨hhanded, -⟩
  · obtain rfl := Option.some.inj (he'.symm.trans he)
    refine ⟨?_, ?_, ?_⟩
    · exact (congrArg requests htrace).trans hasked
    · exact haround.trans (congrArg Scene.around hscene)
    · exact hleft.trans (congrArg (fun scene => some (Scene.call scene)) hscene)
  · cases hhanded _ he

end Who

end Switchboard

/-- **A record is promoted one way, when that is due, and at most once.**  Calls that start on a
switchboard with no record linked, in any phase and held to the table or not, go through whatever
events there are in which only calls write records.

Each request comes from a call that is connected, is for its own record and for the completed
counterpart of what that record is, and is made as the call is put into `connected` or as the record
is linked to it.  A second link asks nothing and leaves every record and the call as they were.

A record that does as it is asked is asked once at most; it has become its completed counterpart, if
it has one, once some call has been connected and linked to it, and is what it was until then.  A
frozen record stays what it is, and if it has a counterpart it is asked each time that a call is
connected which is linked to it, or linked which is connected. -/
theorem record_promoted_once {board : Switchboard} {events : List Event}
    (hstart : ∀ call ∈ board.liveCalls, call.record = none)
    (honly : ∀ step ∈ board.allSteps events, step.writesRecord = false) :
    (∀ before event later, events = before ++ event :: later →
      let now := board.after before
      (∀ r kind, (r, kind) ∈ requests (now.handle event).trace →
        ∃ e rec, now.episode? event = some e ∧ e.outcome.reply = .done ∧
          (e.op.connects e.scene.call.phase = true ∨ e.op = .linkRecord r) ∧
          e.outcome.scene.call.phase = .connected ∧ e.outcome.scene.call.record = some r ∧
          now.around.records[r]? = some rec ∧ rec.kind.completed? = some kind) ∧
      (∀ i thread record call, event = .perform i thread (.linkRecord record) →
        now.call? i = some call → call.record.isSome = true →
          requests (now.handle event).trace = [] ∧
            (now.handle event).board.around = now.around ∧
            (now.handle event).board.call? i = some call)) ∧
    ∀ r rec, board.around.records[r]? = some rec →
      ∃ last, (board.after events).around.records[r]? = some last ∧
        (rec.frozen = false →
          board.timesAsked r events ≤ 1 ∧
          last.kind = if (board.run events).any (·.board.hasConnected r) then
            rec.kind.completed?.getD rec.kind else rec.kind) ∧
        (rec.frozen = true →
          last.kind = rec.kind ∧
          board.timesAsked r events =
            if rec.kind.completed?.isSome then board.occasions r events else 0) := by
  refine ⟨?_, ?_⟩
  · intro before event later hevents now
    refine ⟨?_, ?_⟩
    · intro r kind h
      refine Switchboard.exists_of_mem_requests (fun step hstep => honly step ?_) h
      rw [hevents, Switchboard.allSteps_append, Switchboard.allSteps]
      exact List.mem_append_right _ (List.mem_append_left _ hstep)
    · rintro i thread record call rfl hcall hlinked
      exact Switchboard.handle_relink hcall hlinked
  · intro r rec hrec
    obtain ⟨hlast, hcount⟩ := Switchboard.records_of_run events honly hrec
    have hdue := Switchboard.occasions_pos_iff events
      (Switchboard.hasConnected_of_unlinked hstart r)
    refine ⟨_, hlast, ?_, ?_⟩
    · intro hfrozen
      obtain ⟨hrequests, hkind⟩ := Record.iterate_promote hfrozen (board.occasions r events)
      refine ⟨?_, hkind.trans (if_congr hdue rfl rfl)⟩
      rw [hcount] at hrequests
      exact Nat.le_of_add_le_add_left hrequests
    · intro hfrozen
      obtain ⟨hrequests, hkind⟩ :=
        Record.iterate_promote_of_frozen (board.occasions r events) hfrozen
      refine ⟨hkind, ?_⟩
      rw [hcount] at hrequests
      exact Nat.add_left_cancel hrequests

/-- Three calls, one of them connected from the start: two share a record, which is promoted with
the first and not asked again, and the third keeps asking one that is frozen. -/
theorem shared_record_promoted_once :
    let connected : Call := { Call.incoming with phase := .connected }
    let ringing : Call := { Call.incoming with phase := .ringingReadyToAnswer }
    let board : Switchboard :=
      ⟨[some connected, some ringing, some connected],
        ⟨[], [⟨.incomingIncomplete, false, 0⟩, ⟨.outgoingIncomplete, true, 0⟩], []⟩⟩
    let events : List Event :=
      [.perform 0 0 (.linkRecord 0), .perform 1 0 (.linkRecord 0),
        .perform 1 0 (.answer { name := "a" }), .perform 1 0 (.linkRecord 1),
        .perform 2 0 (.linkRecord 1), .perform 2 0 (.setPhase .reconnecting),
        .perform 2 0 (.setPhase .connected)]
    (∃ last, (board.after events).around.records[0]? = some last ∧ last.kind = .incoming ∧
      board.timesAsked 0 events ≤ 1) ∧
    ((board.after (events.take 4)).around = (board.after (events.take 3)).around) ∧
    (∃ last, (board.after events).around.records[1]? = some last ∧
      last.kind = .outgoingIncomplete ∧ board.timesAsked 1 events = 2) := by
  intro connected ringing board events
  have hstart : ∀ call ∈ board.liveCalls, call.record = none := by
    decide
  have honly : ∀ step ∈ board.allSteps events, step.writesRecord = false := by
    decide
  obtain ⟨hevents, hrecords⟩ := record_promoted_once hstart honly
  obtain ⟨shared, hshared, hpromoted, -⟩ := hrecords 0 _ rfl
  obtain ⟨frozen, hfrozen, -, hkept⟩ := hrecords 1 _ rfl
  obtain ⟨hasked, hkind⟩ := hpromoted rfl
  obtain ⟨-, hrefused⟩ := hevents (events.take 3) (.perform 1 0 (.linkRecord 1)) (events.drop 4) rfl
  obtain ⟨-, huntouched, -⟩ := hrefused 1 0 1 _ rfl rfl rfl
  exact ⟨⟨shared, hshared, hkind.trans (by decide), hasked⟩, huntouched, frozen, hfrozen,
    (hkept rfl).1, (hkept rfl).2.trans (by decide)⟩

end CallLifecycle

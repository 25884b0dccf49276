/-
The order among calls makes no difference.

What drives several calls may take turns between them in many ways.  Calls meet in the records and
in the listeners that they share, and there the order does show: which of two calls completes a
record that both are linked to, and which notice comes first to a listener that follows both.  But
each call has its lane to itself, so the lanes of two runs are the same if each call's own events
are, in the same order.

Everything else is read off the lanes.  A record is asked as often as promotions fall due, and they
fall due in the lanes, so each record is asked as often and becomes the same kind.  A listener takes
the notices of a call as its lane has them, and no other call has notices with that identifier.
-/
import CallLifecycle.Proofs.Lanes
import CallLifecycle.Snapshot

namespace CallLifecycle

open Trace

/-! ### Steps from outside, and contacts -/

/-- Whether a step from outside changes who a contact is. -/
def OutsideStep.movesContact : OutsideStep → Bool
  | contactChange _ _ => true
  | _ => false

theorem OutsideStep.writesRecord_of_isCalm {step : OutsideStep} (h : step.isCalm = true) :
    step.writesRecord = false := by
  cases step with
  | recordChange i kind => cases h
  | contactChange i new | listenerDrop i | receiverDrop i | receiverDrain i => rfl

namespace Surroundings

theorem contacts_apply {a b : Surroundings} (h : a.contacts = b.contacts) (step : OutsideStep) :
    (a.apply step).contacts = (b.apply step).contacts := by
  cases step with
  | contactChange i new => exact congrArg (·.set i new) h
  | recordChange i kind | listenerDrop i | receiverDrop i | receiverDrain i => exact h

theorem contacts_applyAll (steps : List OutsideStep) :
    ∀ {a b : Surroundings}, a.contacts = b.contacts →
      (a.applyAll steps).contacts = (b.applyAll steps).contacts := by
  induction steps with
  | nil => intro a b h; exact h
  | cons step rest ih => intro a b h; exact ih (contacts_apply h step)

theorem contacts_applyAll_of_still (steps : List OutsideStep) :
    ∀ {around : Surroundings}, (∀ step ∈ steps, step.movesContact = false) →
      (around.applyAll steps).contacts = around.contacts := by
  induction steps with
  | nil => intro around _; rfl
  | cons step rest ih =>
      intro around hstill
      obtain ⟨hnow, hlater⟩ := List.forall_mem_cons.mp hstill
      have hstep : (around.apply step).contacts = around.contacts := by
        cases step with
        | contactChange i new => cases hnow
        | recordChange i kind | listenerDrop i | receiverDrop i | receiverDrain i => rfl
      exact (ih hlater).trans hstep

theorem ran_of_acceptances {s t : Trace} (around : Surroundings)
    (h : acceptances s = acceptances t) : around.ran s = around.ran t := by
  unfold ran
  rw [h]

theorem ran_append_ran (around : Surroundings) (t : Trace) (a : Acceptance) :
    around.ran (t ++ [.ran a]) = (around.ran t).applyAll a.effects := by
  have hran : acceptances (t ++ [.ran a]) = acceptances t ++ [a] := acceptances_append t [.ran a]
  unfold ran
  rw [hran, List.flatMap_append, List.flatMap_singleton, applyAll_append]

end Surroundings

/-- Whether the contacts are as the acceptances that an operation has run have left them. -/
def Progress.LeavesContacts (around : Surroundings) (p : Progress) : Prop :=
  p.scene.around.contacts = (around.ran p.trace).contacts

theorem likeness_contacts (thread : Thread) (around : Surroundings) :
    Likeness thread fun p q => q = p ∧ p.LeavesContacts around where
  call := by
    rintro p q ⟨rfl, -⟩
    exact ⟨_, rfl⟩
  mapCall := by
    rintro p q ⟨rfl, h⟩ f -
    exact ⟨rfl, h⟩
  note := by
    rintro p q ⟨rfl, h⟩ n -
    refine ⟨rfl, h.trans (congrArg _ (around.ran_of_acceptances ?_))⟩
    simp
  report := by
    rintro p q ⟨rfl, h⟩ d
    refine ⟨rfl, h.trans (congrArg _ (around.ran_of_acceptances ?_))⟩
    simp
  notify := by
    rintro p q ⟨rfl, h⟩ change
    have hsame : (q.notify change).scene.around.contacts = q.scene.around.contacts := by
      rcases q.notify_cases change with hsame | hgone | ⟨i, htold⟩
      · rw [hsame]
      · rw [hgone]; rfl
      · rw [htold]; rfl
    refine ⟨rfl, hsame.trans (h.trans (congrArg _ (around.ran_of_acceptances ?_)))⟩
    rw [Progress.acceptances_notify]
  promoteRecord := by
    rintro p q ⟨rfl, h⟩
    have hsame : q.promoteRecord.scene.around.contacts = q.scene.around.contacts := by
      unfold Progress.promoteRecord
      split <;> rfl
    refine ⟨rfl, hsame.trans (h.trans (congrArg _ (around.ran_of_acceptances ?_)))⟩
    rw [Progress.acceptances_promoteRecord]
  runAcceptance := by
    rintro p q ⟨rfl, h⟩ a
    refine ⟨rfl, ?_⟩
    show (q.scene.around.applyAll a.effects).contacts = (around.ran (q.trace ++ [.ran a])).contacts
    rw [Surroundings.ran_append_ran]
    exact Surroundings.contacts_applyAll a.effects h

/-- An operation changes a contact only by the acceptances that it runs. -/
theorem Scene.perform_contacts (scene : Scene) (thread : Thread) (op : Operation) :
    (scene.perform thread op).scene.around.contacts =
      (scene.around.ran (scene.perform thread op).trace).contacts :=
  ((likeness_contacts thread scene.around).perform ⟨rfl, rfl⟩ op fun _ _ => rfl).2.2

theorem Call.observe_of_contacts (call : Call) {a b : Surroundings} (h : a.contacts = b.contacts) :
    call.observe a = call.observe b := by
  unfold observe Surroundings.contact
  rw [h]

namespace Switchboard

variable {i : Nat} {board : Switchboard} {event : Event}

theorem contacts_handle (board : Switchboard) (event : Event) :
    (board.handle event).board.around.contacts =
      (board.around.applyAll (board.steps event)).contacts := by
  rcases board.handle_cases event with ⟨e, he, -, haround, hsteps⟩ | ⟨-, -, -, haround⟩
  · obtain ⟨-, -, hfound, -⟩ := call?_of_episode he
    rw [haround, hsteps, ← hfound]
    exact e.scene.perform_contacts e.thread e.op
  · rw [haround]

/-- What can be observed after an event of the call that it is about. -/
def snapshot? (board : Switchboard) (event : Event) : Option Snapshot :=
  (event.subject?.bind (board.handle event).board.call?).map
    (·.observe (board.handle event).board.around)

/-- **What can be observed of a call is in its lane**, as long as contacts are who they were. -/
theorem lane_snapshot? {around : Surroundings} (events : List Event) :
    ∀ {board : Switchboard}, board.around.contacts = around.contacts →
      (∀ step ∈ board.allSteps events, step.movesContact = false) →
        board.lane snapshot? i events =
          (board.lane account i events).map fun a => a.call.map (·.observe around) := by
  induction events with
  | nil => intro board _ _; rfl
  | cons event rest ih =>
      intro board hcontacts hstill
      obtain ⟨hnow, hlater⟩ := List.forall_mem_append.mp hstill
      have hnext : (board.handle event).board.around.contacts = around.contacts := by
        rw [contacts_handle, Surroundings.contacts_applyAll_of_still _ hnow, hcontacts]
      by_cases hi : event.subject? = some i
      · have hshown : board.snapshot? event =
            (board.account event).call.map (·.observe around) := by
          unfold snapshot? account
          congr 1
          funext call
          exact call.observe_of_contacts hnext
        rw [lane_cons_of_subject _ hi, lane_cons_of_subject _ hi, List.map_cons, hshown,
          ih hnext hlater]
      · rw [lane_cons_of_other _ hi, lane_cons_of_other _ hi, ih hnext hlater]

/-! ### Records -/

theorem occasions_eq_log (r : Nat) (events : List Event) :
    ∀ board : Switchboard,
      board.occasions r events = (board.log account events).countP (·.2.due = some r) := by
  induction events with
  | nil => intro board; rfl
  | cons event rest ih =>
      intro board
      rw [occasions, log, List.countP_cons, ih]
      congr 1
      exact if_congr decide_eq_true_iff.symm rfl rfl

/-- Promotions fall due in lanes. -/
theorem subject_of_mem_log (events : List Event) :
    ∀ {board : Switchboard}, ∀ x ∈ board.log account events, x.2.due.isSome = true →
      x.1.isSome = true := by
  induction events with
  | nil => intro board x hx; cases hx
  | cons event rest ih =>
      intro board x hx hdue
      rcases List.mem_cons.mp hx with rfl | hrest
      · obtain ⟨r, hr⟩ := Option.isSome_iff_exists.mp hdue
        obtain ⟨e, he, -⟩ := exists_of_due? hr
        obtain ⟨i, hi, -⟩ := call?_of_episode he
        exact Option.isSome_iff_exists.mpr ⟨i, hi⟩
      · exact ih x hrest hdue

/-- What is counted in the lanes of two logs is counted alike if the lanes are. -/
theorem countP_of_lanes {xs ys : List (Option Nat × Account)} {p : Option Nat × Account → Bool}
    (hlanes : ∀ i, xs.filter (·.1 = some i) = ys.filter (·.1 = some i))
    (hxs : ∀ x ∈ xs, p x = true → x.1.isSome = true)
    (hys : ∀ y ∈ ys, p y = true → y.1.isSome = true) : xs.countP p = ys.countP p := by
  classical
  have hperm : (xs.filter p).Perm (ys.filter p) := by
    rw [List.perm_iff_count]
    intro x
    by_cases hp : p x = true
    · rw [List.count_filter hp, List.count_filter hp]
      cases hx : x.1 with
      | some i =>
          have hcount := congrArg (List.count x) (hlanes i)
          rwa [List.count_filter (by simpa using hx), List.count_filter (by simpa using hx)]
            at hcount
      | none =>
          have hnot : ∀ zs : List (Option Nat × Account),
              (∀ z ∈ zs, p z = true → z.1.isSome = true) → x ∉ zs := by
            intro zs hzs hmem
            have hsome := hzs x hmem hp
            rw [hx] at hsome
            cases hsome
          rw [List.count_eq_zero_of_not_mem (hnot xs hxs),
            List.count_eq_zero_of_not_mem (hnot ys hys)]
    · have hnot : ∀ zs : List (Option Nat × Account), x ∉ zs.filter p :=
        fun zs hmem => hp (List.mem_filter.mp hmem).2
      rw [List.count_eq_zero_of_not_mem (hnot xs), List.count_eq_zero_of_not_mem (hnot ys)]
  rw [List.countP_eq_length_filter, List.countP_eq_length_filter, hperm.length_eq]

/-- A lane is a log with the call left out. -/
theorem filter_log (i : Nat) (board : Switchboard) (events : List Event) :
    (board.log account events).filter (·.1 = some i) =
      (board.lane account i events).map (some i, ·) := by
  unfold lane
  rw [List.map_map]
  refine (List.map_id _).symm.trans (List.map_congr_left fun x hx => ?_)
  have hi : x.1 = some i := by simpa using (List.mem_filter.mp hx).2
  exact Prod.ext hi rfl

theorem occasions_of_lanes {events events' : List Event}
    (h : ∀ i, board.lane account i events' = board.lane account i events) (r : Nat) :
    board.occasions r events' = board.occasions r events := by
  rw [occasions_eq_log, occasions_eq_log]
  refine countP_of_lanes (fun i => ?_) (fun x hx hdue => ?_) (fun x hx hdue => ?_)
  · rw [filter_log, filter_log, h]
  · refine subject_of_mem_log events' x hx ?_
    rw [of_decide_eq_true hdue]
    rfl
  · refine subject_of_mem_log events x hx ?_
    rw [of_decide_eq_true hdue]
    rfl

/-! ### Listeners -/

theorem heard_eq_lane (l : Nat) (events : List Event) :
    ∀ board : Switchboard, board.heard i l events =
      (board.lane account i events).flatMap fun a =>
        (a.posted.filter (·.1 = l)).map (·.2) := by
  have hposted : ∀ (board : Switchboard) (event : Event),
      (Trace.to l (board.handle event).trace).map (·.notice) =
        ((board.account event).posted.filter (·.1 = l)).map (·.2) := by
    intro board event
    show _ = (((deliveries (board.handle event).trace).map (·.posted)).filter (·.1 = l)).map (·.2)
    rw [List.filter_map, List.map_map]
    rfl
  induction events with
  | nil => intro board; rfl
  | cons event rest ih =>
      intro board
      rw [heard_cons, ih]
      by_cases hi : event.subject? = some i
      · rw [lane_cons_of_subject _ hi, List.flatMap_cons, news, if_pos hi, hposted]
      · rw [lane_cons_of_other _ hi, news, if_neg hi, List.nil_append]

/-- No event gives a call another identifier. -/
theorem call?_of_handle {last : Call} (h : (board.handle event).board.call? i = some last) :
    ∃ first, board.call? i = some first ∧ first.id = last.id := by
  rcases call?_handle_cases h with hsame | ⟨e, -, -, hfound, rfl⟩
  · exact ⟨last, hsame, rfl⟩
  · exact ⟨_, hfound, (congrArg Fixed.id (e.scene.perform_fixed e.thread e.op)).symm⟩

/-- A notice names the call that it is of. -/
theorem call?_of_mem_told {l : Nat} (events : List Event) :
    ∀ {board : Switchboard}, ∀ x ∈ board.told l events,
      ∃ i call, x.1 = some i ∧ board.call? i = some call ∧ x.2.callId = call.id := by
  induction events with
  | nil => intro board x hx; cases hx
  | cons event rest ih =>
      intro board x hx
      rcases List.mem_append.mp hx with hnow | hlater
      · obtain ⟨d, hd, rfl⟩ := List.mem_map.mp hnow
        cases he : board.episode? event with
        | none =>
            rw [Trace.to, (handle_of_no_episode he).2.1] at hd
            cases hd
        | some e =>
            obtain ⟨i, hi, -, hfound, -⟩ := call?_of_episode he
            have hid : e.outcome.scene.call.id = e.scene.call.id :=
              congrArg Fixed.id (e.scene.perform_fixed e.thread e.op)
            have htells : e.scene.Tells e.outcome := e.scene.perform_tells e.thread e.op
            rw [to_of_episode he] at hd
            refine ⟨i, _, hi, hfound, ?_⟩
            show d.seen.call.id = e.scene.call.id
            rw [htells.seen_call d (List.mem_filter.mp hd).1, hid]
      · obtain ⟨i, last, hi, hlast, hid⟩ := ih x hlater
        obtain ⟨first, hfirst, hsame⟩ := call?_of_handle hlast
        exact ⟨i, first, hi, hfirst, hid.trans hsame.symm⟩

/-- Where no two calls have one identifier, the notices with an identifier are those of its call. -/
theorem told_of_id {call : Call} (l : Nat) (events : List Event)
    (hids : ∀ i j a b, board.call? i = some a → board.call? j = some b → a.id = b.id → i = j)
    (hcall : board.call? i = some call) :
    ((board.told l events).map (·.2)).filter (·.callId = call.id) = board.heard i l events := by
  rw [List.filter_map, heard]
  congr 1
  refine List.filter_congr fun x hx => ?_
  obtain ⟨j, other, hj, hother, hid⟩ := call?_of_mem_told events x hx
  show decide (x.2.callId = call.id) = decide (x.1 = some i)
  rw [hid, hj]
  refine decide_eq_decide.mpr ⟨fun hsame => ?_, fun hsame => ?_⟩
  · rw [hids j i other call hother hcall hsame]
  · obtain rfl : j = i := Option.some.inj hsame
    rw [Option.some.inj (hother.symm.trans hcall)]

theorem told_of_lanes {events events' : List Event}
    (hids : ∀ i j a b, board.call? i = some a → board.call? j = some b → a.id = b.id → i = j)
    (h : ∀ i, board.lane account i events' = board.lane account i events) (l : Nat)
    (id : Identifier) :
    ((board.told l events').map (·.2)).filter (·.callId = id) =
      ((board.told l events).map (·.2)).filter (·.callId = id) := by
  by_cases hknown : ∃ i call, board.call? i = some call ∧ call.id = id
  · obtain ⟨i, call, hcall, rfl⟩ := hknown
    rw [told_of_id l events' hids hcall, told_of_id l events hids hcall, heard_eq_lane,
      heard_eq_lane, h]
  · have hnone : ∀ events : List Event,
        ((board.told l events).map (·.2)).filter (·.callId = id) = [] := by
      intro events
      rw [List.filter_eq_nil_iff]
      intro notice hnotice
      obtain ⟨x, hx, rfl⟩ := List.mem_map.mp hnotice
      obtain ⟨i, call, -, hcall, hid⟩ := call?_of_mem_told events x hx
      rw [hid, decide_eq_true_eq]
      exact fun hsame => hknown ⟨i, call, hcall, hsame⟩
    rw [hnone, hnone]

/-- A lane depends on the call's own events alone. -/
theorem lane_congr {events events' : List Event}
    (horder : events'.filter (·.subject? = some i) = events.filter (·.subject? = some i))
    (hcalm : ∀ step ∈ board.allSteps events, step.isCalm = true)
    (hcalm' : ∀ step ∈ board.allSteps events', step.isCalm = true) :
    board.lane account i events' = board.lane account i events := by
  have hself : Alongside i board board := ⟨rfl, rfl⟩
  rw [lane_of_filter events' hself hcalm', lane_of_filter events hself hcalm, horder]

end Switchboard

/-- **The order among calls makes no difference.**  Take a switchboard on which no two calls have
one identifier, and two runs of events that have the same events for each call, in the same order,
while in neither run a step from outside writes a record or drops a listener or a reading end.  Then
for each call both runs have the same responses, defects, acceptances and notices, one after the
other, and the call is the same after each of its events; so are its snapshots, if contacts stay
who they are.  Each record has become the same and has been asked as often.  Each listener has
taken the same notices of each call, in the same order, and if it queues them, its reading end has
received the same. -/
theorem order_among_calls_makes_no_difference {board : Switchboard} {events events' : List Event}
    (hids : ∀ i j a b, board.call? i = some a → board.call? j = some b → a.id = b.id → i = j)
    (horder : ∀ i, events'.filter (·.subject? = some i) = events.filter (·.subject? = some i))
    (hcalm : ∀ step ∈ board.allSteps events ++ board.allSteps events', step.isCalm = true) :
    (∀ i, board.lane Switchboard.account i events' = board.lane Switchboard.account i events) ∧
    ((∀ step ∈ board.allSteps events ++ board.allSteps events', step.movesContact = false) →
      ∀ i, board.lane Switchboard.snapshot? i events' = board.lane Switchboard.snapshot? i events) ∧
    (∀ r rec, board.around.records[r]? = some rec →
      (board.after events').around.records[r]? = (board.after events).around.records[r]? ∧
      board.timesAsked r events' = board.timesAsked r events) ∧
    ∀ l id,
      ((board.told l events').map (·.2)).filter (·.callId = id) =
        ((board.told l events).map (·.2)).filter (·.callId = id) ∧
      ∀ waiting, board.around.waiting? l = some waiting →
        (board.received l events').filter (·.callId = id) =
          (board.received l events).filter (·.callId = id) := by
  obtain ⟨hfirst, hsecond⟩ := List.forall_mem_append.mp hcalm
  have hlanes : ∀ i,
      board.lane Switchboard.account i events' = board.lane Switchboard.account i events :=
    fun i => Switchboard.lane_congr (horder i) hfirst hsecond
  have hunwritten : ∀ steps : List OutsideStep, (∀ step ∈ steps, step.isCalm = true) →
      ∀ step ∈ steps, step.writesRecord = false :=
    fun _ hsteps step hstep => OutsideStep.writesRecord_of_isCalm (hsteps step hstep)
  have hkept : ∀ steps : List OutsideStep, (∀ step ∈ steps, step.isCalm = true) →
      ∀ l, .receiverDrop l ∉ steps := by
    intro steps hsteps l hmem
    cases hsteps _ hmem
  have htold := Switchboard.told_of_lanes hids hlanes
  refine ⟨hlanes, fun hstill i => ?_, fun r rec hrec => ?_, fun l id => ⟨htold l id, ?_⟩⟩
  · obtain ⟨hstill, hstill'⟩ := List.forall_mem_append.mp hstill
    rw [Switchboard.lane_snapshot? events' rfl hstill',
      Switchboard.lane_snapshot? events rfl hstill, hlanes]
  · obtain ⟨hlast, hcount⟩ :=
      Switchboard.records_of_run events (hunwritten _ hfirst) hrec
    obtain ⟨hlast', hcount'⟩ :=
      Switchboard.records_of_run events' (hunwritten _ hsecond) hrec
    rw [Switchboard.occasions_of_lanes hlanes] at hlast' hcount'
    refine ⟨hlast'.trans hlast.symm, ?_⟩
    rw [hcount'] at hcount
    omega
  · intro waiting hwaiting
    rw [Switchboard.received_of_kept events' (hkept _ hsecond l) hwaiting,
      Switchboard.received_of_kept events (hkept _ hfirst l) hwaiting, List.filter_append,
      List.filter_append, htold]

/-- Two calls that share a record and a channel connect in either order: the channel's notices come
in another order, and yet all else is the same. -/
theorem shared_record_in_either_order :
    let ringing : Call := { Call.incoming with
      phase := .ringingReadyToAnswer, record := some 0, listener := some 0 }
    let board : Switchboard :=
      ⟨[some ringing, some { ringing with id := .blank }],
        ⟨[], [⟨.incomingIncomplete, false, 0⟩], [.channel]⟩⟩
    let connect (i : Nat) : Event := .perform i 0 (.setPhase .connected)
    let events : List Event := [connect 0, connect 1]
    let events' : List Event := [connect 1, connect 0]
    (board.received 0 events' ≠ board.received 0 events) ∧
    (∀ i, board.lane Switchboard.account i events' = board.lane Switchboard.account i events ∧
      board.lane Switchboard.snapshot? i events' = board.lane Switchboard.snapshot? i events) ∧
    board.timesAsked 0 events' = board.timesAsked 0 events ∧
    ∀ id, (board.received 0 events').filter (·.callId = id) =
      (board.received 0 events).filter (·.callId = id) := by
  intro ringing board connect events events'
  have hids : ∀ i j a b, board.call? i = some a → board.call? j = some b → a.id = b.id → i = j := by
    intro i j a b hi hj hid
    rcases i with _ | _ | i <;> rcases j with _ | _ | j <;> cases hi <;> cases hj
    · rfl
    · exact absurd hid (by decide)
    · exact absurd hid (by decide)
    · rfl
  have horder : ∀ i,
      events'.filter (·.subject? = some i) = events.filter (·.subject? = some i) := by
    intro i
    rcases i with _ | _ | i
    · rfl
    · rfl
    · simp [events, events', connect, Event.subject?]
  obtain ⟨hlanes, hsnapshots, hrecords, hlisteners⟩ :=
    order_among_calls_makes_no_difference hids horder (by decide)
  exact ⟨by decide, fun i => ⟨hlanes i, hsnapshots (by decide) i⟩, (hrecords 0 _ rfl).2,
    fun id => (hlisteners 0 id).2 _ rfl⟩

end CallLifecycle

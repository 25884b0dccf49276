/-
What becomes of acceptances.

An acceptance that is given to an operation is afterwards in one of four places:
it is still queued, it has run, it was handed out, or it is gone.  The ledger of a
life says of each acceptance how often it is where, because one may be given many
times.

What is gone is not written down anywhere, so it is what is missing: of that which
an episode found queued and that which it was given, what is left once everything
that is queued, ran or was handed out is taken away.  `Step.accounts` exhibits the
missing acceptances for each kind of step and names what tells of them, and the
sum over a life balances because nothing but the queue is carried from one episode
to the next.
-/
import CallLifecycle.Proofs.Waiting

namespace CallLifecycle

open Trace

/-- How often an acceptance is queued in a call, which is once at most. -/
def Call.held (call : Call) (a : Acceptance) : Nat :=
  call.deferred.toList.count a

/-- How often an operation is given an acceptance, which is once at most. -/
def Operation.given (op : Operation) (a : Acceptance) : Nat :=
  op.given?.toList.count a

/-! ### What an operation does with acceptances -/

theorem Operation.given?_of_queued? {op : Operation} {found : Phase} {a : Acceptance}
    (h : op.queued? found = some a) : op.given? = some a := by
  cases op with
  | awaitMedia b => exact h
  | deferAcceptance b => exact h
  | answer b =>
      by_cases hfound : found = .ringingAnticipatory
      · rwa [queued?, if_pos hfound] at h
      · simp [queued?, hfound] at h
  | _ => cases h

/-- Whether something tells of all that is gone after an operation, if anything is: what it was
given is gone and it is refused or given up, or what was queued is gone and it is reported that it
is replaced or logged that it is thrown away. -/
def Call.Accounts (call : Call) (op : Operation) (o : Outcome) (gone : Acceptance → Nat) : Prop :=
  (∀ a, gone a = 0) ∨
    (∀ a, gone a = op.given a) ∧ (o.GivenUp ∨ ∃ e, o.reply = .refused e) ∨
    (∀ a, gone a = call.held a) ∧ (o.Replaces ∨ o.Discards)

theorem Operation.given?_of_isAside {op : Operation} (h : op.isAside = true) :
    op.given? = none := by
  cases op <;> first | rfl | cases h

/-- An operation that is given an acceptance and can do nothing is refused. -/
theorem Operation.refused_of_given? {op : Operation} {a : Acceptance} (h : op.given? = some a)
    {found : Phase} {reply : Reply} (hreply : op.idleReply? found = some reply) :
    ∃ e, reply = .refused e := by
  cases op with
  | awaitMedia b | deferAcceptance b | answer b => exact ⟨_, (Option.some.inj hreply).symm⟩
  | _ => cases h

theorem Acceptance.handed?_verdict (a : Acceptance) : a.verdict.handed? = none := by
  unfold verdict
  cases a.failure <;> rfl

/-- How often an acceptance is queued, has run or was handed out after an operation. -/
def Outcome.spent (o : Outcome) (a : Acceptance) : Nat :=
  o.scene.call.held a + (acceptances o.trace).count a + o.reply.handed?.toList.count a

theorem Outcome.Settles.spent {o : Outcome} {new : Phase} {queued : Option Acceptance}
    {done : List Acceptance} (h : o.Settles new queued done) (a : Acceptance) :
    o.spent a = queued.toList.count a + done.count a + o.reply.handed?.toList.count a := by
  rw [Outcome.spent, Call.held, h.deferred, h.ran]

/-- What leaves answering alone has spent just what was queued. -/
theorem Outcome.LeavesAnswering.spent {call : Call} {o : Outcome} (h : o.LeavesAnswering call)
    (a : Acceptance) : o.spent a = call.held a := by
  rw [h.toSettles.spent, h.handed]
  rfl

/-- What was queued is accounted for if whatever becomes of it is reported or logged. -/
theorem Call.accounts_held {call : Call} {op : Operation} {o : Outcome}
    (h : call.deferred.isSome = true → o.Replaces ∨ o.Discards) :
    call.Accounts op o call.held := by
  by_cases hd : call.deferred.isSome = true
  · exact Or.inr (Or.inr ⟨fun _ => rfl, h hd⟩)
  · refine Or.inl fun a => ?_
    rw [Bool.not_eq_true, Option.isSome_eq_false_iff, Option.isNone_iff_eq_none] at hd
    rw [held, hd]
    rfl

namespace Call.Step

variable {call : Call} {thread : Thread} {op : Operation} {o : Outcome}

/-- **Of each step, what is gone is accounted for.** -/
theorem accounts (h : call.Step thread op o) :
    ∃ gone : Acceptance → Nat,
      (∀ a, call.held a + op.given a = o.spent a + gone a) ∧ call.Accounts op o gone := by
  cases h with
  | aside isAside leaves =>
      refine ⟨fun _ => 0, fun a => ?_, Or.inl fun _ => rfl⟩
      rw [leaves.spent, Operation.given, Operation.given?_of_isAside isAside]
      rfl
  | giveUp _ leaves reply =>
      refine ⟨op.given, fun a => ?_, Or.inr (Or.inl ⟨fun _ => rfl, Or.inl reply⟩)⟩
      rw [leaves.spent]
  | idle _ leaves reply =>
      refine ⟨op.given, fun a => ?_, ?_⟩
      · rw [leaves.spent]
      · cases hgiven : op.given? with
        | none => exact Or.inl fun a => by rw [Operation.given, hgiven]; rfl
        | some a =>
            have hrefused := Operation.refused_of_given? hgiven reply
            exact Or.inr (Or.inl ⟨fun _ => rfl, Or.inr hrefused⟩)
  | @move new _ _ settles discards reply =>
      by_cases hnew : new = .accepting
      · refine ⟨fun _ => 0, fun a => ?_, Or.inl fun _ => rfl⟩
        rw [settles.spent, reply, if_pos hnew]
        rfl
      · refine ⟨call.held, fun a => ?_, accounts_held fun hd => Or.inr (discards hnew hd)⟩
        rw [settles.spent, reply, if_neg hnew]
        exact Nat.add_comm _ _
  | queue _ queued settles replaces reply =>
      refine ⟨call.held, fun a => ?_, accounts_held fun hd => Or.inl (replaces hd)⟩
      rw [settles.spent, reply, Operation.given, Operation.given?_of_queued? queued]
      exact Nat.add_comm _ _
  | handOver deferred settles reply =>
      refine ⟨fun _ => 0, fun a => ?_, Or.inl fun _ => rfl⟩
      rw [settles.spent, reply, held, deferred]
      exact Nat.add_comm _ _
  | strand _ settles reply =>
      refine ⟨fun _ => 0, fun a => ?_, Or.inl fun _ => rfl⟩
      obtain ⟨_, _, _, hreply⟩ := reply
      rw [settles.spent, hreply]
      rfl
  | strandQueued _ deferred settles reply =>
      refine ⟨fun _ => 0, fun a => ?_, Or.inl fun _ => rfl⟩
      obtain ⟨_, _, _, hreply⟩ := reply
      rw [settles.spent, hreply, held, deferred]
      simp [Operation.given, Operation.given?, Reply.handed?]
  | @answer b _ _ settles discards reply =>
      refine ⟨call.held, fun a => ?_, accounts_held fun hd => Or.inr (discards hd)⟩
      rw [settles.spent, reply, b.handed?_verdict]
      simp [Operation.given, Operation.given?, Nat.add_comm]
  | getReady _ settles discards reply =>
      refine ⟨call.held, fun a => ?_, accounts_held fun hd => Or.inr (discards hd)⟩
      rw [settles.spent, reply]
      exact Nat.add_comm _ _
  | @complete b _ _ deferred settles reply =>
      refine ⟨fun _ => 0, fun a => ?_, Or.inl fun _ => rfl⟩
      rw [settles.spent, reply, b.handed?_verdict, held, deferred]
      simp [Operation.given, Operation.given?]
  | fail _ deferred settles reply =>
      refine ⟨fun _ => 0, fun a => ?_, Or.inl fun _ => rfl⟩
      rw [settles.spent, reply, held, deferred]
      rfl

/-- What runs is given to an answer where that may finish at once, or is completed out of the
queue, and it is one acceptance at most. -/
theorem runs (h : call.Step thread op o) :
    ∀ a ∈ acceptances o.trace, acceptances o.trace = [a] ∧
      (op = .answer a ∧ call.phase = .ringingReadyToAnswer ∨
        op = .engineReady ∧ call.phase = .accepting ∧ call.deferred = some a) := by
  intro b hb
  cases h with
  | aside _ leaves | giveUp _ leaves | idle _ leaves => simp [leaves.ran] at hb
  | move _ settles | queue _ _ settles | handOver _ settles | getReady _ settles
  | fail _ _ settles => simp [settles.ran] at hb
  | strand phase settles | answer phase settles =>
      rw [settles.ran, List.mem_singleton] at hb
      rw [hb]
      exact ⟨settles.ran, Or.inl ⟨rfl, phase⟩⟩
  | complete phase deferred settles | strandQueued phase deferred settles =>
      rw [settles.ran, List.mem_singleton] at hb
      rw [hb]
      exact ⟨settles.ran, Or.inr ⟨rfl, phase, deferred⟩⟩

/-- What is handed out was queued, and it is handed out on request. -/
theorem hands (h : call.Step thread op o) {a : Acceptance} (ha : o.reply.handed? = some a) :
    op = .handOver ∧ call.deferred = some a := by
  cases h with
  | aside _ leaves | giveUp _ leaves | idle _ leaves =>
      simp [leaves.handed] at ha
  | move _ _ _ reply | getReady _ _ _ reply | fail _ _ _ reply | queue _ _ _ _ reply =>
      simp [reply, Reply.handed?] at ha
  | handOver deferred _ reply =>
      rw [reply] at ha
      exact ⟨rfl, deferred.trans ha⟩
  | strand _ _ reply | strandQueued _ _ _ reply =>
      obtain ⟨_, _, _, hreply⟩ := reply
      simp [hreply, Reply.handed?] at ha
  | answer _ _ _ reply | complete _ _ _ reply =>
      simp [reply, Acceptance.handed?_verdict] at ha

end Call.Step

/-- The acceptance that an operation queued, if it did what it was called for. -/
def Outcome.queued? (o : Outcome) (op : Operation) (found : Phase) : Option Acceptance :=
  if o.reply = .done then op.queued? found else none

/-- What is queued was queued by this operation, or it was queued before and this queued nothing. -/
theorem Call.Step.latest {call : Call} {thread : Thread} {op : Operation} {o : Outcome}
    (h : call.Step thread op o) {a : Acceptance} (ha : o.scene.call.deferred = some a) :
    o.queued? op call.phase = some a ∨
      o.queued? op call.phase = none ∧ call.deferred = some a := by
  have hkept : o.LeavesAnswering call → (o.reply = .done → op.given? = none) →
      o.queued? op call.phase = none ∧ call.deferred = some a := by
    intro hleaves hnone
    refine ⟨?_, hleaves.deferred.symm.trans ha⟩
    unfold Outcome.queued?
    split
    · rename_i hdone
      cases hqueued : op.queued? call.phase with
      | none => rfl
      | some b =>
          have hgiven := hnone hdone
          simp [Operation.given?_of_queued? hqueued] at hgiven
    · rfl
  cases h with
  | aside isAside leaves =>
      exact Or.inr (hkept leaves fun _ => Operation.given?_of_isAside isAside)
  | giveUp _ leaves reply =>
      refine Or.inr (hkept leaves fun hdone => ?_)
      obtain ⟨_, _, _, hreply⟩ := reply
      simp [hreply] at hdone
  | idle _ leaves reply =>
      refine Or.inr (hkept leaves fun hdone => ?_)
      cases hgiven : op.given? with
      | none => rfl
      | some b =>
          obtain ⟨e, he⟩ := Operation.refused_of_given? hgiven reply
          simp [he] at hdone
  | @move new _ _ settles =>
      rw [settles.deferred] at ha
      by_cases hnew : new = .accepting
      · rw [if_pos hnew] at ha
        exact Or.inr ⟨by simp [Outcome.queued?, Operation.queued?], ha⟩
      · simp [hnew] at ha
  | queue _ queued settles _ reply =>
      rw [settles.deferred] at ha
      exact Or.inl (by rw [Outcome.queued?, if_pos reply, queued, ha])
  | strand phase settles =>
      refine Or.inr ⟨?_, settles.deferred.symm.trans ha⟩
      simp [Outcome.queued?, Operation.queued?, phase]
  | handOver _ settles | answer _ settles | getReady _ settles | complete _ _ settles
  | fail _ _ settles | strandQueued _ _ settles => simp [settles.deferred] at ha

/-! ### The ledger of a life -/

namespace Episode

variable (e : Episode)

/-- How often an episode was given an acceptance. -/
def given (a : Acceptance) : Nat :=
  e.op.given a

/-- How often an acceptance ran in an episode. -/
def ran (a : Acceptance) : Nat :=
  (acceptances e.outcome.trace).count a

/-- How often an episode handed an acceptance out. -/
def handed (a : Acceptance) : Nat :=
  e.outcome.reply.handed?.toList.count a

/-- How often an acceptance was queued before or was given, and is neither queued now, nor has it
run, nor was it handed out. -/
def gone (a : Acceptance) : Nat :=
  e.scene.call.held a + e.given a - (e.outcome.scene.call.held a + e.ran a + e.handed a)

/-- The acceptance that an episode queued, if it did what it was called for. -/
def queued? : Option Acceptance :=
  e.outcome.queued? e.op e.scene.call.phase

/-- An episode leaves no more than it found and was given, and what is gone is accounted for. -/
theorem balance :
    (∀ a, e.scene.call.held a + e.given a =
      e.outcome.scene.call.held a + e.ran a + e.handed a + e.gone a) ∧
      e.scene.call.Accounts e.op e.outcome e.gone := by
  obtain ⟨gone, hbalance, haccounts⟩ := e.step.accounts
  have hspent : ∀ a, e.scene.call.held a + e.given a =
      e.outcome.scene.call.held a + e.ran a + e.handed a + gone a := hbalance
  have hgone : e.gone = gone := by
    funext a
    have h := hspent a
    unfold Episode.gone
    omega
  rw [hgone]
  exact ⟨hspent, haccounts⟩

theorem latest {a : Acceptance} (h : e.outcome.scene.call.deferred = some a) :
    e.queued? = some a ∨ e.queued? = none ∧ e.scene.call.deferred = some a :=
  e.step.latest h

end Episode

namespace Call

/-- What the episodes of a life come to, for one acceptance and in one respect. -/
def tally (call : Call) (deeds : List Deed) (f : Episode → Acceptance → Nat) (a : Acceptance) :
    Nat :=
  (call.episodes deeds).foldr (fun e total => f e a + total) 0

theorem tally_cons (call : Call) (deed : Deed) (rest : List Deed) (f : Episode → Acceptance → Nat)
    (a : Acceptance) :
    call.tally (deed :: rest) f a =
      f (call.meet deed) a + (call.meet deed).outcome.scene.call.tally rest f a := rfl

/-- **The ledger of a life balances.** -/
theorem tally_balance (deeds : List Deed) (a : Acceptance) :
    ∀ call : Call, call.held a + call.tally deeds Episode.given a =
      (call.after deeds).held a + call.tally deeds Episode.ran a +
        call.tally deeds Episode.handed a + call.tally deeds Episode.gone a := by
  induction deeds with
  | nil => intro call; rfl
  | cons deed rest ih =>
      intro call
      have hfirst := (call.meet deed).balance.1 a
      have hrest := ih (call.meet deed).outcome.scene.call
      have hfound : (call.meet deed).scene.call = call := rfl
      rw [hfound] at hfirst
      rw [tally_cons, tally_cons, tally_cons, tally_cons, after_cons]
      omega

/-- What a life leaves queued is what it last queued, or what it began with. -/
theorem latest_of_deferred (deeds : List Deed) :
    ∀ {call : Call} {a : Acceptance}, (call.after deeds).deferred = some a →
      ((call.episodes deeds).filterMap Episode.queued?).getLast?.or call.deferred = some a := by
  induction deeds with
  | nil => intro call a ha; exact ha
  | cons deed rest ih =>
      intro call a ha
      have hrest := ih ha
      rw [episodes_cons]
      cases hlater :
          (((call.meet deed).outcome.scene.call.episodes rest).filterMap Episode.queued?).getLast?
        with
      | some b =>
          rw [hlater] at hrest
          cases hqueued : (call.meet deed).queued? with
          | none => rw [List.filterMap_cons_none hqueued, hlater]; exact hrest
          | some c => rw [List.filterMap_cons_some hqueued, List.getLast?_cons, hlater]; exact hrest
      | none =>
          rw [hlater, Option.none_or] at hrest
          rcases (call.meet deed).latest hrest with hqueued | ⟨hqueued, hkept⟩
          · rw [List.filterMap_cons_some hqueued, List.getLast?_cons, hlater]
            rfl
          · rw [List.filterMap_cons_none hqueued, hlater]
            exact hkept

end Call

/-- **No acceptance is lost or run twice.**  Whatever life a call has lived, every acceptance that
was given to it is queued, has run, was handed out or is gone, and is so as often as it was given.
What is queued is what was queued last.  An acceptance runs where it is given to an answer or
completed out of the queue, one in an episode, and nowhere else; what is handed out was queued; and
what is gone is accounted for in the episode where it went.  When the call goes away nothing runs,
and it says so if it leaves anything queued. -/
theorem acceptances_accounted_for (setup : CallSetup) (address : Address) (settings : Settings)
    (reporter : Reporter) (owner : Thread) (deeds : List Deed) (around : Surroundings) :
    let call := Call.start setup address settings reporter owner
    let last := call.after deeds
    let closed := Scene.close ⟨last, around⟩
    (∀ a, call.tally deeds Episode.given a =
      last.held a + call.tally deeds Episode.ran a + call.tally deeds Episode.handed a +
        call.tally deeds Episode.gone a) ∧
    (∀ a, last.deferred = some a →
      ((call.episodes deeds).filterMap Episode.queued?).getLast? = some a) ∧
    (∀ e ∈ call.episodes deeds,
      (∀ a ∈ acceptances e.outcome.trace, acceptances e.outcome.trace = [a] ∧
        (e.op = .answer a ∧ e.scene.call.phase = .ringingReadyToAnswer ∨
          e.op = .engineReady ∧ e.scene.call.phase = .accepting ∧
            e.scene.call.deferred = some a)) ∧
      (∀ a, e.outcome.reply.handed? = some a →
        e.op = .handOver ∧ e.scene.call.deferred = some a) ∧
      e.scene.call.Accounts e.op e.outcome e.gone) ∧
    acceptances closed.trace = [] ∧
    (last.deferred.isSome = true → .notEndedAtTeardown .accepting ∈ defects closed.trace) := by
  intro call last closed
  refine ⟨fun a => ?_, fun a ha => ?_,
    fun e _ => ⟨e.step.runs, fun a => e.step.hands, e.balance.2⟩, ?_, ?_⟩
  · have hbalance := Call.tally_balance deeds a call
    have hempty : call.held a = 0 := rfl
    rwa [hempty, Nat.zero_add] at hbalance
  · have hlatest := Call.latest_of_deferred deeds ha
    have hempty : call.deferred = none := rfl
    rwa [hempty, Option.or_none] at hlatest
  · have hclosed : closed = _ := Scene.close_eq ⟨last, around⟩
    rw [hclosed]
    simp
  · intro hqueued
    have hstart := Call.start_orderly setup address settings reporter owner
    have hphase : last.phase = .accepting := Call.after_orderly hstart deeds hqueued
    have hlive : last.isOver = false := by
      unfold Call.isOver
      rw [hphase]
      rfl
    have hclosed : closed = _ := Scene.close_eq ⟨last, around⟩
    rw [hclosed, ← hphase]
    exact Call.mem_defects_farewell hlive

/-- A call that is answered early and then given another acceptance reports that the first is
gone, and going away it reports that it leaves the second. -/
theorem replaced_acceptance_accounted_for :
    let first : Acceptance := { name := "a" }
    let second : Acceptance := { name := "b" }
    let early := [Deed.plain (.setPhase .ringingAnticipatory), .plain (.answer first)]
    let replacing := (Call.incoming.after early).meet (.plain (.deferAcceptance second))
    replacing.gone first = 1 ∧
      replacing.scene.call.Accounts replacing.op replacing.outcome replacing.gone ∧
      .notEndedAtTeardown .accepting ∈ defects replacing.outcome.scene.close.trace := by
  intro first second early replacing
  have he : replacing ∈ Call.incoming.episodes (early ++ [.plain (.deferAcceptance second)]) := by
    simp [Call.episodes_append, replacing]
  have hgone : replacing.gone first = 1 := by
    decide
  obtain ⟨-, -, hepisodes, -, hclosed⟩ := acceptances_accounted_for _ _ _ _ _
    (early ++ [.plain (.deferAcceptance second)]) replacing.outcome.scene.around
  exact ⟨hgone, (hepisodes replacing he).2.2, hclosed (by decide)⟩

end CallLifecycle

/-
The course of a call that is held to the transition table.

A call placed here starts out dialing and one offered from the other end starts
out answering, and the table takes them on different roads that meet where the
call connects.  What is said here of a whole life are four things.

  * A call never strays to the other road: the phases that are `foreign` to its
    direction lead only to one another and to where both roads meet.
  * It talks only after it has been at a `gate` of its road.
  * It never comes back.  The phases have stages, and a move that is no standing
    still takes a call to a later stage, but for the two phases in which it talks.
  * It runs one acceptance at most, because one that runs takes the call to a
    stage from which none runs any more.

The last needs that no operation is given up on a foreign thread: there an
acceptance may run and the call stays where it is.
-/
import CallLifecycle.Proofs.Handshake
import CallLifecycle.Proofs.Ledger

namespace CallLifecycle

open Trace

/-! ### The two roads -/

namespace Direction

/-- The phase in which a call starts out. -/
def firstPhase : Direction → Phase
  | outgoing => .dialing
  | incoming => .answering

/-- The phases of the other road, and the one before both. -/
def foreign : Direction → List Phase
  | outgoing => [.idle, .answering, .ringingAnticipatory, .ringingReadyToAnswer, .accepting]
  | incoming => [.idle, .dialing, .remoteRinging]

/-- The phases from which a call connects. -/
def gates : Direction → List Phase
  | outgoing => [.remoteRinging]
  | incoming => [.ringingReadyToAnswer, .accepting]

theorem firstPhase_not_mem_foreign (direction : Direction) :
    direction.firstPhase ∉ direction.foreign := by
  cases direction <;> decide

end Direction

namespace Phase

/-- What the table allows is to end, to stay, or to go on to a successor. -/
theorem mayBecome_iff {old new : Phase} :
    old.mayBecome new = true ↔
      old.isOver = false ∧ (new.isOver = true ∨ old = new ∨ new ∈ old.successors) := by
  simp [mayBecome, or_assoc]

/-- Nothing but a foreign phase leads to a foreign phase. -/
theorem foreign_of_mayBecome {direction : Direction} {old new : Phase}
    (h : old.mayBecome new = true) (hnew : new ∈ direction.foreign) :
    old ∈ direction.foreign := by
  obtain ⟨-, hover | rfl | hnext⟩ := mayBecome_iff.mp h
  · have hlive : ∀ p ∈ direction.foreign, p.isOver = false := by
      cases direction <;> decide
    rw [hlive new hnew] at hover
    cases hover
  · exact hnew
  · have hback : ∀ p ∈ old.successors, p ∈ direction.foreign → old ∈ direction.foreign := by
      cases direction <;> cases old <;> decide
    exact hback new hnext hnew

/-- Whether the two ends talk, or would if the media engine were not reconnecting. -/
def talks (p : Phase) : Bool :=
  p = .connected || p = .reconnecting

/-- A call that talks has talked before, or comes from a gate of its road. -/
theorem talks_of_mayBecome {direction : Direction} {old new : Phase}
    (hold : old ∉ direction.foreign) (h : old.mayBecome new = true) (hnew : new.talks = true) :
    old.talks = true ∨ old ∈ direction.gates := by
  obtain ⟨-, hover | rfl | hnext⟩ := mayBecome_iff.mp h
  · have hlive : ∀ p : Phase, p.talks = true → p.isOver = false := by
      intro p
      cases p <;> decide
    rw [hlive new hnew] at hover
    cases hover
  · exact Or.inl hnew
  · have hback : old ∉ direction.foreign → ∀ p ∈ old.successors, p.talks = true →
        old.talks = true ∨ old ∈ direction.gates := by
      cases direction <;> cases old <;> decide
    exact hback hold new hnext hnew

/-- Only a connected call is reconnecting. -/
theorem connected_of_mayBecome {old : Phase} (h : old.mayBecome .reconnecting = true) :
    old = .reconnecting ∨ old = .connected := by
  obtain ⟨-, hover | rfl | hnext⟩ := mayBecome_iff.mp h
  · cases hover
  · exact Or.inl rfl
  · have hback : .reconnecting ∈ old.successors → old = .connected := by
      cases old <;> decide
    exact Or.inr (hback hnext)

/-! ### How far a call has come -/

/-- How far a call has come; the two phases in which it talks are one stage. -/
def stage : Phase → Nat
  | idle => 0
  | dialing | answering => 1
  | remoteRinging | ringingAnticipatory => 2
  | ringingReadyToAnswer | accepting => 3
  | connected | reconnecting => 4
  | localFailure | localHangup | remoteHangup | remoteHangupNeedPermission | remoteBusy
  | answeredElsewhere | declinedElsewhere | busyElsewhere => 5

theorem stage_eq_of_isOver {p : Phase} (h : p.isOver = true) : p.stage = 5 := by
  cases p <;> first | rfl | cases h

theorem stage_lt_of_not_isOver {p : Phase} (h : p.isOver = false) : p.stage < 5 := by
  cases p <;> first | decide | cases h

theorem stage_eq_of_talks {p : Phase} (h : p.talks = true) : p.stage = 4 := by
  cases p <;> first | rfl | cases h

/-- A phase leads to another, perhaps by way of others, only if the call stands still, comes
farther, or goes on talking. -/
def Leads (old new : Phase) : Prop :=
  old = new ∨ old.stage < new.stage ∨ (old.talks = true ∧ new.talks = true)

namespace Leads

theorem refl (p : Phase) : p.Leads p :=
  Or.inl rfl

theorem stage_le {old new : Phase} (h : old.Leads new) : old.stage ≤ new.stage := by
  obtain rfl | hlt | ⟨hold, hnew⟩ := h
  · exact Nat.le_refl _
  · exact Nat.le_of_lt hlt
  · exact Nat.le_of_eq ((stage_eq_of_talks hold).trans (stage_eq_of_talks hnew).symm)

theorem trans {a b c : Phase} (hab : a.Leads b) (hbc : b.Leads c) : a.Leads c := by
  obtain rfl | hlt | ⟨ha, hb⟩ := hab
  · exact hbc
  · exact Or.inr (Or.inl (Nat.lt_of_lt_of_le hlt hbc.stage_le))
  · obtain rfl | hlt | ⟨-, hc⟩ := hbc
    · exact Or.inr (Or.inr ⟨ha, hb⟩)
    · rw [stage_eq_of_talks hb, ← stage_eq_of_talks ha] at hlt
      exact Or.inr (Or.inl hlt)
    · exact Or.inr (Or.inr ⟨ha, hc⟩)

/-- Two phases that lead to each other are one, unless the call talks in both. -/
theorem eq_of_leads_back {a b : Phase} (hab : a.Leads b) (hba : b.Leads a)
    (ha : a.talks = false) : b = a := by
  have hle := hba.stage_le
  obtain rfl | hlt | ⟨htalks, -⟩ := hab
  · rfl
  · omega
  · rw [ha] at htalks
    cases htalks

theorem of_mem_successors {old new : Phase} (h : new ∈ old.successors) : old.Leads new := by
  have hnext : ∀ p ∈ old.successors, old.stage < p.stage ∨ (old.talks = true ∧ p.talks = true) := by
    cases old <;> decide
  exact Or.inr (hnext new h)

theorem of_mayBecome {old new : Phase} (h : old.mayBecome new = true) : old.Leads new := by
  obtain ⟨hlive, hover | rfl | hnext⟩ := mayBecome_iff.mp h
  · refine Or.inr (Or.inl ?_)
    rw [stage_eq_of_isOver hover]
    exact stage_lt_of_not_isOver hlive
  · exact refl _
  · exact of_mem_successors hnext

end Leads

end Phase

/-! ### What one operation does to the phase -/

namespace Call.Step

variable {call : Call} {thread : Thread} {op : Operation} {o : Outcome}

/-- **An operation leaves the phase as it is, or moves the call as its rule allows.** -/
theorem moves (h : call.Step thread op o) :
    o.scene.call.phase = call.phase ∨
      Phase.allows call.enforced call.phase o.scene.call.phase = true := by
  cases h with
  | aside _ leaves | giveUp _ leaves | idle _ leaves => exact Or.inl leaves.phase
  | handOver _ settles | strand _ settles | strandQueued _ _ settles => exact Or.inl settles.phase
  | move allowed settles | queue allowed _ settles =>
      rw [settles.phase]
      exact Or.inr allowed
  | answer phase settles =>
      rw [settles.phase]
      exact Or.inr (Scene.allows_target (Or.inl phase) _)
  | getReady phase settles =>
      rw [settles.phase]
      rcases phase with hphase | hphase
      · rw [hphase]
        cases call.enforced <;> exact Or.inr rfl
      · rw [hphase]
        cases call.enforced <;> exact Or.inr rfl
  | complete phase _ settles =>
      rw [settles.phase]
      exact Or.inr (Scene.allows_target (Or.inr phase) _)
  | fail phase _ settles =>
      rw [settles.phase, phase]
      cases call.enforced <;> exact Or.inr rfl

/-- Where the table is enforced, it is what allows the move. -/
theorem mayBecome (h : call.Step thread op o) (henforced : call.enforced = true) :
    o.scene.call.phase = call.phase ∨ call.phase.mayBecome o.scene.call.phase = true := by
  have hmoves := h.moves
  rw [henforced] at hmoves
  exact hmoves

/-- What runs takes the call to where it talks or is over, unless the operation is given up. -/
theorem stage_of_ran (h : call.Step thread op o) (hlasts : ¬ o.GivenUp)
    (hran : acceptances o.trace ≠ []) : 4 ≤ o.scene.call.phase.stage := by
  have htarget : ∀ a : Acceptance, 4 ≤ a.target.stage := by
    intro a
    unfold Acceptance.target
    cases a.failure with
    | none => exact Nat.le_refl 4
    | some e => exact Nat.le_succ 4
  cases h with
  | aside _ leaves | giveUp _ leaves | idle _ leaves => exact absurd leaves.ran hran
  | move _ settles | queue _ _ settles | handOver _ settles | getReady _ settles
  | fail _ _ settles => exact absurd settles.ran hran
  | strand _ _ reply | strandQueued _ _ _ reply => exact absurd reply hlasts
  | answer _ settles | complete _ _ settles =>
      rw [settles.phase]
      exact htarget _

/-- Nothing runs in a call that talks or is over. -/
theorem ran_of_stage (h : call.Step thread op o) (hstage : 4 ≤ call.phase.stage) :
    acceptances o.trace = [] := by
  rw [List.eq_nil_iff_forall_not_mem]
  intro a ha
  obtain ⟨-, ⟨-, hphase⟩ | ⟨-, hphase, -⟩⟩ := h.runs a ha
  · rw [hphase] at hstage
    exact absurd hstage (by decide)
  · rw [hphase] at hstage
    exact absurd hstage (by decide)

/-- One operation runs one acceptance at most. -/
theorem length_ran_le (h : call.Step thread op o) : (acceptances o.trace).length ≤ 1 := by
  cases hran : acceptances o.trace with
  | nil => exact Nat.zero_le 1
  | cons a rest =>
      have hone := (h.runs a (by simp [hran])).1
      rw [hran] at hone
      simp [hone]

end Call.Step

/-! ### The course of a life -/

/-- The phases of a life in order: the one it begins with, and the one after each deed. -/
def Call.phases (call : Call) (deeds : List Deed) : List Phase :=
  call.phase :: (call.episodes deeds).map (·.outcome.scene.call.phase)

theorem Call.phases_cons (call : Call) (deed : Deed) (rest : List Deed) :
    call.phases (deed :: rest) =
      call.phase :: (call.meet deed).outcome.scene.call.phases rest := rfl

/-- A call is on course if it is held to the table and has not strayed to the other road. -/
structure Call.OnCourse (direction : Direction) (call : Call) : Prop where
  enforced : call.enforced = true
  road : call.phase ∉ direction.foreign

namespace Call.OnCourse

variable {direction : Direction} {call : Call}

theorem start (setup : CallSetup) (address : Address) (settings : Settings) (reporter : Reporter)
    (owner : Thread) (hfirst : setup.phase = setup.direction.firstPhase)
    (htable : settings.enforceTable = true) :
    (Call.start setup address settings reporter owner).OnCourse setup.direction := by
  refine ⟨htable, ?_⟩
  show setup.phase ∉ setup.direction.foreign
  rw [hfirst]
  exact setup.direction.firstPhase_not_mem_foreign

/-- **No operation takes a call off its course.** -/
theorem step (e : Episode) (h : e.scene.call.OnCourse direction) :
    e.outcome.scene.call.OnCourse direction := by
  have hfixed := e.scene.perform_fixed e.thread e.op
  have henforced : e.outcome.scene.call.enforced = e.scene.call.enforced :=
    congrArg Fixed.enforced hfixed
  refine ⟨henforced.trans h.enforced, fun hstray => h.road ?_⟩
  rcases e.step.mayBecome h.enforced with hsame | hmoved
  · rwa [hsame] at hstray
  · exact Phase.foreign_of_mayBecome hmoved hstray

theorem leads (e : Episode) (h : e.scene.call.OnCourse direction) :
    e.scene.call.phase.Leads e.outcome.scene.call.phase := by
  rcases e.step.mayBecome h.enforced with hsame | hmoved
  · rw [hsame]
    exact Phase.Leads.refl _
  · exact Phase.Leads.of_mayBecome hmoved

theorem not_mem_foreign (deeds : List Deed) :
    ∀ {call : Call}, call.OnCourse direction →
      ∀ p ∈ call.phases deeds, p ∉ direction.foreign := by
  induction deeds with
  | nil =>
      intro call h p hp
      obtain rfl : p = call.phase := by simpa [phases] using hp
      exact h.road
  | cons deed rest ih =>
      intro call h p hp
      rw [phases_cons, List.mem_cons] at hp
      rcases hp with rfl | hlater
      · exact h.road
      · exact ih (step (call.meet deed) h) p hlater

/-- **The way to some phases leads through a gate**, if no call on its course gets among them from
anywhere else. -/
theorem gate_before (inside gate : Phase → Prop)
    (henter : ∀ {old new : Phase}, old ∉ direction.foreign → old.mayBecome new = true →
      inside new → inside old ∨ gate old)
    (deeds : List Deed) :
    ∀ {call : Call}, call.OnCourse direction → ¬ inside call.phase →
      ∀ before p later, call.phases deeds = before ++ p :: later → inside p →
        ∃ q ∈ before, gate q := by
  induction deeds with
  | nil =>
      intro call _ hout before p later hphases hp
      obtain ⟨-, rfl⟩ : before = [] ∧ p = call.phase := by
        cases before <;> simp_all [phases]
      exact absurd hp hout
  | cons deed rest ih =>
      intro call h hout before p later hphases hp
      rw [phases_cons] at hphases
      rcases List.cons_eq_append_iff.mp hphases with ⟨rfl, hfirst⟩ | ⟨earlier, rfl, hrest⟩
      · obtain ⟨rfl, -⟩ := List.cons.inj hfirst
        exact absurd hp hout
      · -- The next phase is still outside, or this one was the gate.
        by_cases hgate : gate call.phase
        · exact ⟨call.phase, by simp, hgate⟩
        · have hnext : ¬ inside (call.meet deed).outcome.scene.call.phase := by
            intro hinside
            rcases (call.meet deed).step.mayBecome h.enforced with hsame | hmoved
            · rw [hsame] at hinside
              exact hout hinside
            · exact (henter h.road hmoved hinside).elim hout hgate
          obtain ⟨q, hq, hgateq⟩ := ih (step (call.meet deed) h) hnext earlier p later hrest hp
          exact ⟨q, by simp [hq], hgateq⟩

/-- Each phase of a life leads to all later ones. -/
theorem pairwise_leads (deeds : List Deed) :
    ∀ {call : Call}, call.OnCourse direction → (call.phases deeds).Pairwise Phase.Leads := by
  induction deeds with
  | nil => intro call _; simp [phases]
  | cons deed rest ih =>
      intro call h
      have hrest := ih (step (call.meet deed) h)
      rw [phases_cons, List.pairwise_cons]
      refine ⟨fun p hp => ?_, hrest⟩
      have hnext := leads (call.meet deed) h
      rw [phases, List.mem_cons] at hp
      rcases hp with rfl | hlater
      · exact hnext
      · exact hnext.trans ((List.pairwise_cons.mp hrest).1 p hlater)

/-- Between two visits to a phase in which the call does not talk, the call stays in it. -/
theorem stays {deeds : List Deed} (h : call.OnCourse direction) {p : Phase}
    (hp : p.talks = false) {before mid later : List Phase}
    (hphases : call.phases deeds = before ++ p :: (mid ++ p :: later)) : ∀ q ∈ mid, q = p := by
  intro q hq
  have hpairs := h.pairwise_leads deeds
  rw [hphases, List.pairwise_append, List.pairwise_cons, List.pairwise_append] at hpairs
  obtain ⟨-, ⟨hfirst, -, -, hcross⟩, -⟩ := hpairs
  exact (hfirst q (by simp [hq])).eq_of_leads_back (hcross q hq p (by simp)) hp

/-- Nothing runs any more once the call talks or is over. -/
theorem ran_of_stage (deeds : List Deed) (h : call.OnCourse direction)
    (hstage : 4 ≤ call.phase.stage) :
    (call.episodes deeds).flatMap (acceptances ·.outcome.trace) = [] := by
  rw [List.flatMap_eq_nil_iff]
  intro e he
  have hkeeps : ∀ e : Episode, (e.scene.call.OnCourse direction ∧ 4 ≤ e.scene.call.phase.stage) →
      e.outcome.scene.call.OnCourse direction ∧ 4 ≤ e.outcome.scene.call.phase.stage := by
    rintro e ⟨hcourse, hlate⟩
    exact ⟨step e hcourse, Nat.le_trans hlate (leads e hcourse).stage_le⟩
  have hfound := episodes_keep
    (P := fun c => c.OnCourse direction ∧ 4 ≤ c.phase.stage) hkeeps deeds ⟨h, hstage⟩ e he
  exact e.step.ran_of_stage hfound.2

/-- **A life runs one acceptance at most**, if none of its deeds is given up. -/
theorem length_ran_le (deeds : List Deed) :
    ∀ {call : Call}, call.OnCourse direction →
      (∀ e ∈ call.episodes deeds, ¬ e.outcome.GivenUp) →
        ((call.episodes deeds).flatMap (acceptances ·.outcome.trace)).length ≤ 1 := by
  induction deeds with
  | nil => intro call _ _; simp
  | cons deed rest ih =>
      intro call h hlasts
      have hnext := step (call.meet deed) h
      rw [episodes_cons, List.flatMap_cons, List.length_append]
      by_cases hran : acceptances (call.meet deed).outcome.trace = []
      · rw [hran, List.length_nil, Nat.zero_add]
        exact ih hnext fun e he => hlasts e (by simp [he])
      · have hstage := (call.meet deed).step.stage_of_ran (hlasts _ (by simp)) hran
        rw [hnext.ran_of_stage rest hstage]
        exact (call.meet deed).step.length_ran_le

end Call.OnCourse

/-- An answer to a call placed here is refused, and nothing is queued or run. -/
theorem Episode.outgoing_not_answered {e : Episode}
    (hcourse : e.scene.call.OnCourse .outgoing) (horderly : e.scene.call.Orderly) :
    (∀ a, e.op = .answer a → e.outcome.reply = .refused (.notRinging e.scene.call.phase)) ∧
      e.outcome.scene.call.deferred = none ∧ acceptances e.outcome.trace = [] := by
  have hne : ∀ {call : Call}, call.OnCourse .outgoing → ∀ p ∈ Direction.outgoing.foreign,
      call.phase ≠ p := by
    intro call h p hp hphase
    rw [← hphase] at hp
    exact h.road hp
  have hready := hne hcourse .ringingReadyToAnswer (by decide)
  have hanticipatory := hne hcourse .ringingAnticipatory (by decide)
  have haccepting := hne hcourse .accepting (by decide)
  refine ⟨fun a ha => ?_, ?_, ?_⟩
  · unfold Episode.outcome
    rw [ha, Scene.perform_answer_of_not_ringing hready hanticipatory]
    rfl
  · exact Call.deferred_eq_none_of_orderly (Call.episode_orderly e horderly).1
      (hne (Call.OnCourse.step e hcourse) .accepting (by decide))
  · rw [List.eq_nil_iff_forall_not_mem]
    intro a ha
    obtain ⟨-, ⟨-, hphase⟩ | ⟨-, hphase, -⟩⟩ := e.step.runs a ha
    · exact hready hphase
    · exact haccepting hphase

/-- **The course of a life that is held to the table.**  Let a call start out as its direction says,
as one that is placed here or offered from the other end does, and let it live through any deeds.
It is never in a phase that is foreign to its direction, so a call placed here is answered in vain,
and nothing is ever queued in it or run.  It is connected only after it was at a gate, and
reconnecting only after it was connected.  Any other phase is not visited again once the call has
left it.  And if none of the deeds is given up, it runs one acceptance at most. -/
theorem course_of_life (setup : CallSetup) (address : Address) (settings : Settings)
    (reporter : Reporter) (owner : Thread) (deeds : List Deed)
    (hfirst : setup.phase = setup.direction.firstPhase) (htable : settings.enforceTable = true) :
    let call := Call.start setup address settings reporter owner
    (∀ p ∈ call.phases deeds, p ∉ setup.direction.foreign) ∧
    (setup.direction = .outgoing → ∀ e ∈ call.episodes deeds,
      (∀ a, e.op = .answer a → e.outcome.reply = .refused (.notRinging e.scene.call.phase)) ∧
      e.outcome.scene.call.deferred = none ∧ acceptances e.outcome.trace = []) ∧
    (∀ before later, call.phases deeds = before ++ .connected :: later →
      ∃ p ∈ before, p ∈ setup.direction.gates) ∧
    (∀ before later, call.phases deeds = before ++ .reconnecting :: later →
      .connected ∈ before) ∧
    (∀ p : Phase, p ≠ .connected → p ≠ .reconnecting →
      ∀ before mid later, call.phases deeds = before ++ p :: (mid ++ p :: later) →
        ∀ q ∈ mid, q = p) ∧
    ((∀ e ∈ call.episodes deeds, e.outcome.reply.isAborted = false) →
      ((call.episodes deeds).flatMap (acceptances ·.outcome.trace)).length ≤ 1) := by
  intro call
  have hcourse : call.OnCourse setup.direction :=
    Call.OnCourse.start setup address settings reporter owner hfirst htable
  have hbegins : call.phase.talks = false := by
    show setup.phase.talks = false
    rw [hfirst]
    cases setup.direction <;> rfl
  refine ⟨Call.OnCourse.not_mem_foreign deeds hcourse, ?_, ?_, ?_, ?_, ?_⟩
  · intro houtgoing e he
    rw [houtgoing] at hcourse
    exact e.outgoing_not_answered
      (Call.episodes_keep (P := Call.OnCourse .outgoing) Call.OnCourse.step deeds hcourse e he)
      (Call.episodes_orderly (Call.start_orderly setup address settings reporter owner) deeds e he)
  · intro before later hphases
    exact Call.OnCourse.gate_before (fun p => p.talks = true) (· ∈ setup.direction.gates)
      Phase.talks_of_mayBecome deeds hcourse (by simp [hbegins]) before _ later hphases rfl
  · intro before later hphases
    have houtside : ¬ call.phase = .reconnecting := by
      intro hphase
      rw [hphase] at hbegins
      cases hbegins
    obtain ⟨q, hq, rfl⟩ := Call.OnCourse.gate_before (· = .reconnecting) (· = .connected)
      (fun _ hmoves hnew => Phase.connected_of_mayBecome (hnew ▸ hmoves))
      deeds hcourse houtside before _ later hphases rfl
    exact hq
  · intro p hconnected hreconnecting before mid later hphases
    have hp : p.talks = false := by
      simp [Phase.talks, hconnected, hreconnecting]
    exact hcourse.stays hp hphases
  · intro hlasts
    exact Call.OnCourse.length_ran_le deeds hcourse fun e he =>
      Outcome.not_givenUp (hlasts e he)

/-- A call that is offered and answered early connects from `accepting`, as often as it likes after
that, and runs the first answer only; a call that is placed is answered in vain. -/
theorem answered_call_keeps_its_course :
    let first : Acceptance := { name := "a" }
    let talk := [Deed.plain (.setPhase .ringingAnticipatory), .plain (.answer first),
      .plain .engineReady, .plain (.setPhase .reconnecting), .plain (.setPhase .connected)]
    let placed :=
      Call.start (CallSetup.placed 0 .blank 0 .audio .granted) ⟨none, none⟩ {} .collecting 0
    let answered := placed.meet (.plain (.answer first))
    Call.incoming.phases talk =
        [.answering, .ringingAnticipatory, .accepting, .connected, .reconnecting, .connected] ∧
      (∃ p ∈ [Phase.answering, .ringingAnticipatory, .accepting], p ∈ Direction.incoming.gates) ∧
      ((Call.incoming.episodes talk).flatMap (acceptances ·.outcome.trace)).length ≤ 1 ∧
      answered.outcome.reply = .refused (.notRinging .dialing) := by
  intro first talk placed answered
  have hphases : Call.incoming.phases talk =
      [.answering, .ringingAnticipatory, .accepting, .connected, .reconnecting, .connected] := by
    decide
  have hlasts : ∀ e ∈ Call.incoming.episodes talk, e.outcome.reply.isAborted = false := by
    decide
  obtain ⟨-, -, hgates, -, -, hran⟩ := course_of_life
    (CallSetup.offered 0 .blank 0 .audio .granted) ⟨none, none⟩ {} .collecting 0 talk rfl rfl
  have hplaced := course_of_life (CallSetup.placed 0 .blank 0 .audio .granted) ⟨none, none⟩ {}
    .collecting 0 [.plain (.answer first)] rfl rfl
  have hanswered : answered ∈ placed.episodes [.plain (.answer first)] := by
    simp [answered]
  exact ⟨hphases, hgates [.answering, .ringingAnticipatory, .accepting] _ hphases, hran hlasts,
    (hplaced.2.1 rfl answered hanswered).1 first rfl⟩

end CallLifecycle

import Codify.Harness.GateConsistency

/-! # Safety of the Control Gate

    The gates stay consistent with the commands as long as a pump that comes back
    from its transport acts on what is committed (`ActsOnCommitted`). A pump keeps
    the attempt object it loaded before its dispatch commit, so without that
    condition it can close a gate that was reopened, or make the outcome of a
    follow-up unknown that it does not know the native id of.
-/

namespace Codify.Harness.Commands

open Codify Codify.Framework List TaskHarnessAttempt System

variable {db db' : Db} {s s' : State} {flights : TaskHarnessCommand → Prop}

/-! ### Gates Along Runs -/

/-- The attempt object of a pump belongs to a row. -/
def AttemptRow (db : Db) (attempt : TaskHarnessAttempt) : Prop :=
  ∃ a ∈ db.attempts, a.attemptId = attempt.attemptId ∧ a.taskId = attempt.taskId

/-- What a pump may rely on in each of its phases. -/
def PumpGate (db : Db) : PumpPhase → Prop
  | .idle => True
  | .sending attempt flight =>
    AttemptRow db attempt ∧ flight.command.attemptId = attempt.attemptId ∧
      ∀ a ∈ db.attempts, a.attemptId = attempt.attemptId →
        a.pendingFollowUpCommandId = some flight.command.commandId →
          attempt.pendingFollowUpNativeId = some (nativeRequestIdOf flight.command)
  | .finishing attempt => AttemptRow db attempt
  | .closing attempt => AttemptRow db attempt ∧ Settled db attempt.attemptId

/-- The gates are consistent, and every pump finds what it relies on. -/
structure GateInv (s : State) : Prop where
  gates : GatesOk none s.db
  pumps : ∀ p, PumpGate s.db (s.pumps p)

/-- The condition on a step under which the gates stay consistent. A pump that comes back from
    its transport with an ambiguous reply finds the Task RUNNING if the gate waits for its
    command, and finds no other follow-up in flight if its own command has been taken over;
    and a pump that wants to close the gate finds it drained as it believes. -/
def ActsOnCommitted (s : State) : Label → Prop
  | .pumpReply pump reply _ => ∀ attempt flight, s.pumps pump = .sending attempt flight →
      reply.ambiguous = true → ∀ a ∈ s.db.attempts, a.attemptId = attempt.attemptId →
        (a.pendingFollowUpCommandId = some flight.command.commandId →
          s.db.taskRunning a.taskId = true) ∧
        (0 < flight.budget → ¬ StillDispatching s.db flight.command.commandId →
          ∀ id, a.pendingFollowUpCommandId = some id → ¬ StillDispatching s.db id)
  | .pumpClose pump => ∀ attempt, s.pumps pump = .finishing attempt →
      drained attempt s.db = true → ∀ a ∈ s.db.attempts, a.attemptId = attempt.attemptId →
        a.controlState = .closed ∨
          (a.controlState = .closing ∧ a.awaitingFollowUpTurn = false)
  | _ => True

variable {attempt : TaskHarnessAttempt} {locked : List String} {now : DateTime} {owner : String}
  {taskId pump : Nat} {env : CommandEnv}

theorem AttemptRow.frame (h : AttemptRow db attempt)
    (hframe : GateFrame flights db db') : AttemptRow db' attempt := by
  obtain ⟨a, ha, hid, htask⟩ := h
  obtain ⟨a', ha', hid', htask'⟩ := hframe.attempts a ha
  exact ⟨a', ha', hid'.trans hid, htask'.trans htask⟩

theorem PumpGate.frame {phase : PumpPhase} (h : PumpGate db phase)
    (hframe : GateFrame flights db db')
    (hflight : ∀ attempt flight, phase = .sending attempt flight → flights flight.command) :
    PumpGate db' phase := by
  cases phase with
  | idle => trivial
  | sending attempt flight =>
    obtain ⟨hrow, hattempt, harmed⟩ := h
    refine ⟨hrow.frame hframe, hattempt, ?_⟩
    intro a' ha' haid hp
    rcases hframe.pending a' ha' _ hp with ⟨a, ha, hid, hp₀⟩ | hnone
    · exact harmed a ha (hid.trans haid) hp₀
    · exact absurd rfl (hnone _ (hflight attempt flight rfl))
  | finishing attempt => exact AttemptRow.frame h hframe
  | closing attempt =>
    exact ⟨AttemptRow.frame h.1 hframe, hframe.settled _ h.2⟩

theorem GateInv.of_frame (h : GateInv s) (hpumps : s'.pumps = s.pumps)
    (hgates : GatesOk none s'.db) (hframe : GateFrame s.inFlight s.db s'.db) : GateInv s' := by
  refine ⟨hgates, ?_⟩
  intro p
  rw [hpumps]
  apply (h.pumps p).frame hframe
  intro attempt flight hphase
  exact ⟨p, attempt, flight, hphase, rfl⟩

theorem GateInv.of_setPump (h : GateInv s) (pump : Nat) (phase : PumpPhase)
    (hpumps : ∀ q, s'.pumps q = if q = pump then phase else s.pumps q)
    (hgates : GatesOk none s'.db) (hframe : GateFrame (s.othersFlights pump) s.db s'.db)
    (hphase : PumpGate s'.db phase) : GateInv s' := by
  refine ⟨hgates, ?_⟩
  intro q
  rw [hpumps q]
  split
  · exact hphase
  next hne =>
  apply (h.pumps q).frame hframe
  intro attempt flight hq
  exact ⟨q, hne, attempt, flight, hq, rfl⟩

theorem terminal_of_no_head (hwf : db.WF)
    (hrow : AttemptRow db attempt)
    (hnone : loadHeadCommand attempt.taskId attempt.attemptId db = none) :
    ∀ c ∈ db.commands, c.attemptId = attempt.attemptId → c.status.terminal = true := by
  intro c hc hattempt
  by_contra hterm
  have hlive : c.status.live = true := by simpa [CommandStatus.terminal] using hterm
  obtain ⟨a, ha, haid, hatask⟩ := hrow
  obtain ⟨b, hb, hbid, hbtask⟩ := hwf.owned c hc
  obtain rfl := hwf.attemptIds.eq_of_key_eq hb ha (hbid.trans (hattempt.trans haid.symm))
  have hmem : c ∈ db.commands.filter fun c => decide (c.taskId = attempt.taskId) &&
      decide (c.attemptId = attempt.attemptId) && c.status.live := by
    apply mem_filter.mpr
    exact ⟨hc, by simp [hattempt, hlive, ← hbtask, hatask]⟩
  rw [loadHeadCommand, argmin_eq_none] at hnone
  rw [hnone] at hmem
  cases hmem

theorem drained_spec (h : drained attempt db = true) :
    attempt.controlState = .closing ∧ attempt.awaitingFollowUpTurn = false ∧
      loadHeadCommand attempt.taskId attempt.attemptId db = none := by
  simp only [drained, Bool.and_eq_true, beq_iff_eq, Bool.not_eq_true',
    Option.isNone_iff_eq_none] at h
  exact ⟨h.1.1, h.1.2, h.2⟩

theorem GatesOk.closeDrainedAttempt (h : GatesOk none db)
    (hsettled : Settled db attempt.attemptId) (flights : TaskHarnessCommand → Prop) :
    GatesOk none (closeDrainedAttempt attempt db) ∧
      GateFrame flights db (closeDrainedAttempt attempt db) := by
  have hstate : ∀ st : ControlState, flushColumn attempt.controlState .closed st = .closed ∨
      flushColumn attempt.controlState .closed st = st := by
    intro st
    unfold flushColumn
    split
    · exact .inr rfl
    · exact .inl rfl
  refine ⟨gatesOk_updateAttempt ?_ fun a ha _ => h a ha, ?_⟩
  · intro a ha haid
    have hgate := h a ha
    have hterm : ∀ c ∈ db.commands, c.attemptId = a.attemptId → c.status.terminal = true := by
      rcases hsettled a ha haid with hclosed | ⟨-, -, hterm⟩
      · exact hgate.drained hclosed
      · rw [haid]
        exact hterm
    have hawait : a.awaitingFollowUpTurn = false := by
      rcases hsettled a ha haid with hclosed | ⟨-, hawait, -⟩
      · cases hw : a.awaitingFollowUpTurn with
        | false => rfl
        | true =>
          have := hgate.closing hw
          simp [hclosed] at this
      · exact hawait
    refine ⟨fun _ => hterm, hgate.awaiting, ?_, hgate.pending⟩
    intro hw
    have hw' : a.awaitingFollowUpTurn = true := hw
    simp [hawait] at hw'
  · refine GateFrame.updateAttempt flights db attempt.attemptId ?_ ?_ ?_ ?_ ?_
    · exact fun _ => rfl
    · exact fun _ => rfl
    · exact fun a _ _ id hp => .inl hp
    · intro a _ _ hclosed
      rcases hstate a.controlState with hnew | hold
      · exact hnew
      · exact hold.trans hclosed
    · intro a _ _ hclosing hawait _
      rcases hstate a.controlState with hnew | hold
      · exact .inl hnew
      · exact .inr ⟨hold.trans hclosing, hawait⟩

/-- A claim or a probe: the lease does not touch the gate, and only a starting gate opens. -/
theorem GatesOk.claim (h : GatesOk none db) (hwf : db.WF)
    {probeAck : Bool}
    (hclaim : claimOrPromote taskId owner now locked probeAck db = some (db', attempt))
    (flights : TaskHarnessCommand → Prop) :
    GatesOk none db' ∧ GateFrame flights db db' ∧ Fresh db' attempt ∧ AttemptRow db' attempt ∧
      db'.taskRunning attempt.taskId = true := by
  obtain ⟨row, hrow, f, rfl, rfl, hrunning, hf⟩ := claimOrPromote_eq_some hclaim
  have hunique : ∀ a ∈ db.attempts, a.attemptId = row.attemptId → a = row :=
    fun a ha hid => hwf.attemptIds.eq_of_key_eq ha hrow hid
  obtain ⟨hfid, hftask⟩ : (∀ a, (f a).attemptId = a.attemptId) ∧ ∀ a, (f a).taskId = a.taskId := by
    rcases hf with ⟨-, rfl⟩ | ⟨-, rfl⟩
    · exact ⟨fun _ => rfl, fun _ => rfl⟩
    · unfold promote
      cases probeAck <;> exact ⟨fun _ => rfl, fun _ => rfl⟩
  have hmem : f row ∈ (db.updateAttempt row.attemptId f).attempts :=
    mem_map.mpr ⟨row, hrow, if_pos rfl⟩
  refine ⟨gatesOk_updateAttempt ?_ fun a ha _ => h a ha, ?_, ?_, ⟨f row, hmem, rfl, rfl⟩, ?_⟩
  · intro a ha haid
    obtain rfl := hunique a ha haid
    have hgate := h a ha
    rcases hf with ⟨-, rfl⟩ | ⟨hstarting, rfl⟩
    · exact ⟨hgate.drained, hgate.awaiting, hgate.closing, hgate.pending⟩
    · -- a starting gate waits for nothing
      have hawait : a.awaitingFollowUpTurn = false := by
        cases hw : a.awaitingFollowUpTurn with
        | false => rfl
        | true =>
          have := hgate.closing hw
          simp [hstarting] at this
      have hnone := hgate.pending_none hawait
      unfold promote lease
      cases probeAck <;> constructor <;> simp [hstarting, hawait, hnone]
  · refine GateFrame.updateAttempt flights db row.attemptId hfid hftask ?_ ?_ ?_
    · intro a _ _ id hp
      left
      rcases hf with ⟨-, rfl⟩ | ⟨-, rfl⟩
      · exact hp
      · unfold promote at hp
        cases probeAck <;> exact hp
    · intro a ha haid hclosed
      obtain rfl := hunique a ha haid
      rcases hf with ⟨-, rfl⟩ | ⟨hstarting, -⟩
      · exact hclosed
      · simp [hstarting] at hclosed
    · intro a ha haid hclosing hawait _
      obtain rfl := hunique a ha haid
      rcases hf with ⟨-, rfl⟩ | ⟨hstarting, -⟩
      · exact .inr ⟨hclosing, hawait⟩
      · simp [hstarting] at hclosing
  · intro a' ha' haid
    obtain ⟨a, ha, rfl⟩ := mem_map.mp ha'
    rw [hfid row] at haid
    split at haid
    · next heq =>
      rw [if_pos heq]
      obtain rfl := hunique a ha heq
      exact ⟨rfl, rfl, rfl, rfl, rfl⟩
    · next hne => exact absurd haid hne
  · rw [hftask row]
    exact hrunning

theorem GateInv.afterLoop (h : GateInv s) {db₀ : Db}
    {history : List SendEvent} {result : Db × TaskHarnessAttempt × Option InFlight}
    {atEnd : TaskHarnessAttempt → PumpPhase} (hrow : AttemptRow db₀ attempt)
    (hbefore : GateFrame (s.othersFlights pump) s.db db₀)
    (hloop : LoopGates (s.othersFlights pump) db₀ attempt result)
    (hend : result.2.2 = none → PumpGate result.1 (atEnd result.2.1)) :
    GateInv (({ s with history := history }).afterLoop pump result atEnd) := by
  obtain ⟨db₁, attempt₁, flight⟩ := result
  have hrow₁ : AttemptRow db₁ attempt₁ := by
    obtain ⟨a, ha, hid, htask⟩ := hrow.frame hloop.frame
    exact ⟨a, ha, hid.trans hloop.attemptId.symm, htask.trans hloop.taskId.symm⟩
  cases flight with
  | none =>
    exact h.of_setPump pump (atEnd attempt₁) (fun q => rfl) hloop.gates
      (hbefore.trans hloop.frame) (hend rfl)
  | some flight =>
    refine h.of_setPump pump (.sending attempt₁ flight) (fun q => rfl) hloop.gates
      (hbefore.trans hloop.frame) ?_
    obtain ⟨hattempt, harmed⟩ := hloop.sent flight rfl
    refine ⟨hrow₁, hattempt.trans hloop.attemptId.symm, ?_⟩
    intro a ha haid hp
    exact harmed a ha (haid.trans hloop.attemptId) hp

theorem GateInv.createCommand (h : GateInv s) (hinv : Inv s)
    {request : CreateRequest} {result : CommandCreateResult}
    (hcreate : createCommand env request now s.db = .ok (result, db')) :
    GateInv { s with db := db' } := by
  obtain ⟨commandId, commandType, row, hrow, -, hacc, -, -, rfl⟩ := createCommand_eq_ok hcreate
  -- the new command belongs to the accepting gate only
  have honly : ∀ a ∈ s.db.attempts, a.attemptId = row.attemptId → a.controlState = .accepting := by
    intro a ha hid
    obtain rfl := hinv.plane.wf.attemptIds.eq_of_key_eq ha hrow hid
    exact hacc
  have hattempts : GateFrame s.inFlight s.db (s.db.updateAttempt row.attemptId fun a =>
      { a with nextCommandSequence := row.nextCommandSequence + 1 }) :=
    GateFrame.updateAttempt_of_eq s.inFlight s.db row.attemptId (fun _ => rfl) (fun _ => rfl)
      (fun _ => rfl) fun _ _ _ => .inl ⟨rfl, rfl⟩
  refine h.of_frame rfl ?_ ⟨hattempts.attempts, hattempts.pending, ?_⟩
  · intro a' ha'
    obtain ⟨a, ha, rfl⟩ := mem_map.mp ha'
    have hgate := h.gates a ha
    have hold : GateOk none
        (s.db.commands ++ [newCommand env request commandType commandId row now]) a := by
      refine ⟨?_, hgate.awaiting, hgate.closing, ?_⟩
      · intro hclosed c hc hattempt
        rcases mem_append.mp hc with hin | hnew
        · exact hgate.drained hclosed c hin hattempt
        · obtain rfl : c = newCommand env request commandType commandId row now := by
            simpa using hnew
          have := honly a ha hattempt.symm
          simp [hclosed] at this
      · intro id hp
        obtain ⟨c, hc, hrest⟩ := hgate.pending id hp
        exact ⟨c, mem_append_left _ hc, hrest⟩
    split
    · exact ⟨hold.drained, hold.awaiting, hold.closing, hold.pending⟩
    · exact hold
  · intro attemptId hsettled a' ha' haid
    have hbefore := hattempts.settled attemptId hsettled a' ha' haid
    rcases hbefore with hclosed | ⟨hclosing, hawait, hterm⟩
    · exact .inl hclosed
    · refine .inr ⟨hclosing, hawait, ?_⟩
      intro c hc hattempt
      rcases mem_append.mp hc with hin | hnew
      · exact hterm c hin hattempt
      · obtain rfl : c = newCommand env request commandType commandId row now := by
          simpa using hnew
        have hrowid : row.attemptId = attemptId := hattempt
        rcases hsettled row hrow hrowid with hst | ⟨hst, -⟩ <;> simp [hacc] at hst

theorem GateInv.createAttempt (h : GateInv s) {new : TaskHarnessAttempt}
    (hnew : ∀ a ∈ s.db.attempts, a.attemptId ≠ new.attemptId)
    (hstate : new.controlState ≠ .closed) (hawait : new.awaitingFollowUpTurn = false)
    (hpend : new.pendingFollowUpCommandId = none) :
    GateInv { s with db := { s.db with attempts := s.db.attempts ++ [new] } } := by
  have hother : ∀ attempt, AttemptRow s.db attempt → new.attemptId ≠ attempt.attemptId := by
    intro attempt hrow hid
    obtain ⟨a, ha, haid, -⟩ := hrow
    exact hnew a ha (haid.trans hid.symm)
  have hrow' : ∀ attempt, AttemptRow s.db attempt →
      AttemptRow { s.db with attempts := s.db.attempts ++ [new] } attempt := by
    intro attempt hrow
    obtain ⟨a, ha, haid, htask⟩ := hrow
    exact ⟨a, mem_append_left _ ha, haid, htask⟩
  refine ⟨?_, ?_⟩
  · intro a ha
    rcases mem_append.mp ha with hin | hlast
    · exact h.gates a hin
    · obtain rfl : a = new := by simpa using hlast
      exact ⟨fun hc => absurd hc hstate, by simp [hawait, hpend], by simp [hawait],
        by simp [hpend]⟩
  · intro p
    have hp := h.pumps p
    show PumpGate _ (s.pumps p)
    cases hphase : s.pumps p with
    | idle => trivial
    | sending attempt flight =>
      rw [hphase] at hp
      refine ⟨hrow' attempt hp.1, hp.2.1, ?_⟩
      intro a ha haid
      rcases mem_append.mp ha with hin | hlast
      · exact hp.2.2 a hin haid
      · obtain rfl : a = new := by simpa using hlast
        exact absurd haid (hother attempt hp.1)
    | finishing attempt =>
      rw [hphase] at hp
      exact hrow' attempt hp
    | closing attempt =>
      rw [hphase] at hp
      refine ⟨hrow' attempt hp.1, ?_⟩
      intro a ha haid
      rcases mem_append.mp ha with hin | hlast
      · exact hp.2 a hin haid
      · obtain rfl : a = new := by simpa using hlast
        exact absurd haid (hother attempt hp.1)

theorem GatesOk.beginControlDrain (h : GatesOk none db) (attemptId : String)
    (flights : TaskHarnessCommand → Prop) :
    GatesOk none (beginControlDrain attemptId db) ∧
      GateFrame flights db (beginControlDrain attemptId db) := by
  refine ⟨gatesOk_updateAttempt ?_ fun a ha _ => h a ha, ?_⟩
  · intro a ha _
    have hgate := h a ha
    split
    · next hopen =>
      have hawait : a.awaitingFollowUpTurn ≠ true := by
        intro hw
        simp [hgate.closing hw] at hopen
      exact ⟨by simp, hgate.awaiting, fun hw => absurd hw hawait, hgate.pending⟩
    · exact hgate
  · refine GateFrame.updateAttempt flights db attemptId ?_ ?_ ?_ ?_ ?_
    · intro a
      split <;> rfl
    · intro a
      split <;> rfl
    · intro a _ _ id hp
      split at hp <;> exact .inl hp
    · intro a _ _ hclosed
      split
      · next hopen => simp [hclosed] at hopen
      · exact hclosed
    · intro a _ _ hclosing hawait _
      split
      · next hopen => simp [hclosing] at hopen
      · exact .inr ⟨hclosing, hawait⟩

theorem GatesOk.reopenControl (h : GatesOk none db) (attemptId : String)
    (commandId nativeId : Option String) (flights : TaskHarnessCommand → Prop) :
    GatesOk none (reopenControlAfterNativeTurnStart attemptId commandId nativeId db) ∧
      GateFrame flights db (reopenControlAfterNativeTurnStart attemptId commandId nativeId db) := by
  have hcan : ∀ a, canReopen commandId nativeId db a = true →
      a.controlState = .closing ∧ a.awaitingFollowUpTurn = true := by
    intro a ha
    simp only [canReopen, Bool.and_eq_true, beq_iff_eq] at ha
    exact ⟨ha.1.1.1.1.1, ha.1.1.1.1.2⟩
  refine ⟨gatesOk_updateAttempt ?_ fun a ha _ => h a ha, ?_⟩
  · intro a ha _
    split
    · have hclear := (h a ha).clearPending none
      exact ⟨by simp, hclear.awaiting, by simp [clearPending], hclear.pending⟩
    · exact h a ha
  · refine GateFrame.updateAttempt flights db attemptId ?_ ?_ ?_ ?_ ?_
    · intro a
      split <;> rfl
    · intro a
      split <;> rfl
    · intro a _ _ id hp
      split at hp
      · simp [clearPending] at hp
      · exact .inl hp
    · intro a _ _ hclosed
      split
      · next hr => simp [(hcan a hr).1] at hclosed
      · exact hclosed
    · intro a _ _ hclosing hawait _
      split
      · next hr => simp [(hcan a hr).2] at hawait
      · exact .inr ⟨hclosing, hawait⟩

/-- A reply and the loop after it: either the pump's own command was still dispatching, and
    then nothing else of the attempt is, or it was taken over, and then the condition says
    that no awaited follow-up is in flight. -/
theorem GateInv.replied (h : GateInv s) (hinv : Inv s)
    {flight : InFlight} {reply : Reply}
    {r : Recorded} (hpump : s.pumps pump = .sending attempt flight)
    (hguard : ActsOnCommitted s (.pumpReply pump reply now))
    (hrec : recordReply attempt flight.command flight.startedAt now reply s.db = some r) :
    LoopGates (s.othersFlights pump) s.db attempt
      (if r.again then pumpLoop now flight.budget r.attempt r.db else (r.db, r.attempt, none)) := by
  have hphase := h.pumps pump
  rw [hpump] at hphase
  obtain ⟨-, hattempt, harmed⟩ := hphase
  have hwf := hinv.plane.wf
  have hok := hinv.plane.flight _ ⟨pump, attempt, flight, hpump, rfl⟩
  have hknown : reply.ambiguous = true → KnowsPending s.db attempt flight.command := by
    intro hamb a ha haid hp
    exact ⟨(hguard attempt flight hpump hamb a ha haid).1 hp, harmed a ha haid hp⟩
  obtain ⟨hreply, hrows⟩ :=
    h.gates.recordReply hwf hok (s.othersFlights pump) hattempt hknown hrec
  obtain ⟨hreplyAll, -⟩ := h.gates.recordReply hwf hok (fun _ => True) hattempt hknown hrec
  have hother : ∀ c, s.othersFlights pump c → c.commandId ≠ flight.command.commandId := by
    intro c hc hid
    obtain ⟨q, hne, b, fl, hq, rfl⟩ := hc
    exact hne (hinv.distinct q pump b attempt fl flight hq hpump hid)
  obtain ⟨hplane, -⟩ := (hinv.others pump).recordReply False hok hother (fun hf => hf.elim) hrec
  split
  · next hagain =>
    have hloop : LoopGates (s.othersFlights pump) r.db r.attempt
        (pumpLoop now flight.budget r.attempt r.db) := by
      apply hreply.gates.pumpLoop now flight.budget hplane
      intro hbudget c hc hca hdisp a ha haid hp
      exfalso
      obtain ⟨c₀, hc₀, hsame, hdisp₀⟩ := hrows.noNew c hc hdisp
      -- the follow-up was awaited before the reply
      obtain ⟨a₀, ha₀, hid₀, hp₀⟩ : ∃ a₀ ∈ s.db.attempts, a₀.attemptId = a.attemptId ∧
          a₀.pendingFollowUpCommandId = some c.commandId := by
        rcases hreplyAll.frame.pending a ha _ hp with hold | hnone
        · exact hold
        · exact absurd rfl (hnone c trivial)
      by_cases hstill : StillDispatching s.db flight.command.commandId
      · obtain ⟨row, hrow, hrowid, hrowdisp⟩ := hstill
        obtain ⟨row', hrow', hrowsame, -⟩ := hok.row
        obtain rfl := hwf.commandIds.eq_of_key_eq hrow' hrow (hrowsame.commandId.trans hrowid.symm)
        have hsameAttempt : c₀.attemptId = row'.attemptId := by
          rw [hrowsame.attemptId, hattempt, ← hreply.attemptId, ← hca, hsame.attemptId]
        obtain rfl := hwf.dispatching_unique hrow' hc₀ hsameAttempt hrowdisp hdisp₀
        exact hrows.ended hagain ⟨c, hc, hsame.commandId.trans hrowid, hdisp⟩
      · have hamb : reply.ambiguous = true := by
          by_contra hnot
          exact hstill (hrows.still hagain (by simpa using hnot))
        have ha₀id : a₀.attemptId = attempt.attemptId :=
          hid₀.trans (haid.trans hreply.attemptId)
        exact (hguard attempt flight hpump hamb a₀ ha₀ ha₀id).2 hbudget hstill _ hp₀
          ⟨c₀, hc₀, hsame.commandId.symm, hdisp₀⟩
    exact ⟨hloop.gates, hreply.frame.trans hloop.frame, hloop.attemptId.trans hreply.attemptId,
      hloop.taskId.trans hreply.taskId, fun fl hfl => by
        obtain ⟨hfa, harm⟩ := hloop.sent fl hfl
        exact ⟨hfa.trans hreply.attemptId, fun a ha haid =>
          harm a ha (haid.trans hreply.attemptId.symm)⟩⟩
  · exact ⟨hreply.gates, hreply.frame, hreply.attemptId, hreply.taskId, by simp⟩

theorem GateInv.claimed (h : GateInv s) (hinv : Inv s)
    {probeAck closeAck : Bool}
    (hclaim : claimOrPromote taskId owner now locked probeAck s.db = some (db, attempt)) :
    LoopGates (s.othersFlights pump) db attempt
      (closeLocked closeAck (pumpLoop now maxCommandsPerAttempt attempt db)) := by
  obtain ⟨h₁, -, hfresh, hrow, hrunning⟩ :=
    h.gates.claim hinv.plane.wf hclaim (s.othersFlights pump)
  have hplane : Plane db (s.othersFlights pump) s.history := by
    obtain ⟨a, -, f, rfl, -, -, hf⟩ := claimOrPromote_eq_some hclaim
    rcases hf with ⟨-, rfl⟩ | ⟨-, rfl⟩
    · exact (hinv.others pump).updateAttempt _ (fun _ => rfl) (fun _ => rfl) (fun _ => rfl)
    · apply (hinv.others pump).updateAttempt <;>
        (intro b; unfold promote; cases probeAck <;> rfl)
  have hloop : LoopGates (s.othersFlights pump) db attempt
      (pumpLoop now maxCommandsPerAttempt attempt db) := by
    apply h₁.pumpLoop now maxCommandsPerAttempt hplane
    intro _ c hc _ _ a ha haid hp
    obtain ⟨htask, -, -, -, hnative⟩ := hfresh a ha haid
    obtain ⟨-, -, hrownative, -⟩ := (h₁ a ha).pending_row hplane.wf.keyed hc hp
    exact ⟨htask ▸ hrunning, hnative ▸ hrownative⟩
  have hfreshEnd := pumpLoop_fresh now maxCommandsPerAttempt hfresh
  have hplaneEnd := (hplane.pumpLoop False now maxCommandsPerAttempt attempt).1
  generalize pumpLoop now maxCommandsPerAttempt attempt db = result at hloop hfreshEnd hplaneEnd
  obtain ⟨db₁, attempt₁, flight⟩ := result
  unfold closeLocked
  cases flight with
  | some flight => exact hloop
  | none =>
    simp only
    split
    · next hclose =>
      have hdrained : drained attempt₁ db₁ = true := (Bool.and_eq_true_iff.mp hclose).1
      obtain ⟨hclosing, hawait, hnone⟩ := drained_spec hdrained
      have hrow₁ : AttemptRow db₁ attempt₁ := by
        obtain ⟨a, ha, hid, htask⟩ := hrow.frame hloop.frame
        exact ⟨a, ha, hid.trans hloop.attemptId.symm, htask.trans hloop.taskId.symm⟩
      have hsettled : Settled db₁ attempt₁.attemptId := by
        intro a ha haid
        obtain ⟨-, hstate, hw, -⟩ := hfreshEnd rfl a ha haid
        exact .inr ⟨hstate.trans hclosing, hw.trans hawait,
          terminal_of_no_head (Plane.wf hplaneEnd) hrow₁ hnone⟩
      obtain ⟨h₂, hframe⟩ := hloop.gates.closeDrainedAttempt hsettled (s.othersFlights pump)
      exact ⟨h₂, hloop.frame.trans hframe, hloop.attemptId, hloop.taskId, by simp⟩
    · exact hloop

/-- **One step** keeps the gates consistent. -/
theorem GateInv.step {l : Label} (h : GateInv s) (hinv : Inv s)
    (hnext : next env s l = some s') (hguard : ActsOnCommitted s l) : GateInv s' := by
  cases l with
  | createTaskAttempt attemptId taskId eventSchema harnessKey controlSupported =>
    simp only [next] at hnext
    split at hnext
    · next hfresh =>
      cases hnext
      apply h.createAttempt
      · intro b hb
        have := all_eq_true.mp (Bool.and_eq_true_iff.mp hfresh).2 b hb
        simpa using this
      · cases controlSupported <;> simp
      · rfl
      · rfl
    · cases hnext
  | setTaskStatus taskId status =>
    cases hnext
    exact ⟨h.gates, h.pumps⟩
  | createCommand request now =>
    simp only [next] at hnext
    split at hnext
    · next result db hcreate =>
      cases hnext
      exact h.createCommand hinv hcreate
    · cases hnext
  | pumpCycle pump taskId owner now locked probeAck closeAck =>
    simp only [next] at hnext
    split at hnext
    · next db attempt hidle hclaim =>
      cases hnext
      obtain ⟨-, hframe, -, hrow, -⟩ :=
        h.gates.claim hinv.plane.wf hclaim (s.othersFlights pump)
      exact h.afterLoop hrow hframe (h.claimed hinv hclaim) fun _ => trivial
    · cases hnext
  | pumpReply pump reply now =>
    simp only [next] at hnext
    split at hnext
    · next attempt flight hpump =>
      split at hnext
      · cases hnext
        exact h.of_setPump pump .idle (fun q => rfl) h.gates (GateFrame.refl _ s.db) trivial
      next r hrec =>
      cases hnext
      have hphase := h.pumps pump
      rw [hpump] at hphase
      have hloop := h.replied hinv hpump hguard hrec
      have hhistory : (if r.requeued then
          { s with history := .requeued flight.command.commandId :: s.history } else s) =
          { s with history := historyAfter s.history flight.command.commandId r.requeued } := by
        unfold historyAfter
        split <;> rfl
      rw [hhistory]
      refine h.afterLoop hphase.1 (GateFrame.refl _ s.db) hloop fun _ => ?_
      obtain ⟨a, ha, hid, htask⟩ := hphase.1.frame hloop.frame
      exact ⟨a, ha, hid.trans hloop.attemptId.symm, htask.trans hloop.taskId.symm⟩
    · cases hnext
  | pumpClose pump =>
    simp only [next] at hnext
    split at hnext
    · next attempt hpump =>
      cases hnext
      have hphase := h.pumps pump
      rw [hpump] at hphase
      refine h.of_setPump pump _ (fun q => rfl) h.gates (GateFrame.refl _ s.db) ?_
      show PumpGate s.db _
      split
      · next hdrained =>
        refine ⟨hphase, ?_⟩
        intro a ha haid
        rcases hguard attempt hpump hdrained a ha haid with hclosed | ⟨hclosing, hawait⟩
        · exact .inl hclosed
        · obtain ⟨-, -, hnone⟩ := drained_spec hdrained
          exact .inr ⟨hclosing, hawait, terminal_of_no_head hinv.plane.wf hphase hnone⟩
      · trivial
    · cases hnext
  | pumpClosed pump ack =>
    simp only [next] at hnext
    split at hnext
    · next attempt hpump =>
      cases hnext
      have hphase := h.pumps pump
      rw [hpump] at hphase
      cases ack with
      | true =>
        obtain ⟨h₁, hframe⟩ := h.gates.closeDrainedAttempt hphase.2 (s.othersFlights pump)
        exact h.of_setPump pump .idle (fun q => rfl) h₁ hframe trivial
      | false =>
        exact h.of_setPump pump .idle (fun q => rfl) h.gates (GateFrame.refl _ s.db) trivial
    · cases hnext
  | crash pump =>
    cases hnext
    exact h.of_setPump pump .idle (fun q => rfl) h.gates (GateFrame.refl _ s.db) trivial
  | beginControlDrain attemptId =>
    cases hnext
    obtain ⟨h₁, hframe⟩ := h.gates.beginControlDrain attemptId s.inFlight
    exact h.of_frame rfl h₁ hframe
  | reopenControl attemptId commandId nativeId =>
    cases hnext
    obtain ⟨h₁, hframe⟩ := h.gates.reopenControl attemptId commandId nativeId s.inFlight
    exact h.of_frame rfl h₁ hframe
  | closeControlGate attemptId reason now =>
    cases hnext
    obtain ⟨h₁, hframe⟩ := h.gates.closeControlGate s.inFlight attemptId reason now
    exact h.of_frame rfl h₁ hframe
  | closeTaskControlGates taskId reason now =>
    cases hnext
    obtain ⟨h₁, hframe⟩ := GatesOk.closeControlGates s.inFlight
      (s.db.attempts.filter fun a => decide (a.taskId = taskId) && a.gateOpen) reason now h.gates
    exact h.of_frame rfl h₁ hframe

/-- The gates are consistent in every state of a run that meets the condition. -/
theorem gateInv_reachable (h : (controlPlane env).Reachable ActsOnCommitted s) :
    GateInv s := by
  have hboth : Inv s ∧ GateInv s := by
    apply h.invariant (P := fun s => Inv s ∧ GateInv s)
    · intro s₀ hinit
      refine ⟨inv_init hinit, ?_, ?_⟩
      · obtain ⟨hattempts, -⟩ := hinit
        intro a ha
        simp [hattempts] at ha
      · intro p
        rw [hinit.2.2.2 p]
        trivial
    · intro s l s' hs hguard hnext
      exact ⟨(hs.1.step False hnext (fun hf => hf.elim)).1, hs.2.step hs.1 hnext hguard⟩
  exact hboth.2

/-! ### The Gate Contract -/

/-- In every reachable state of every interleaving: a closed gate stays closed in every run;
    a step that creates a command finds the gate of its attempt accepting; and a step that
    leads a gate from closing to accepting is a reopen for the armed pair. In every state of a
    run whose steps meet `ActsOnCommitted`, moreover, a closed gate has no queued or
    dispatching command, and a follow-up turn is awaited only by a closing gate, exactly when
    a command is pending, which is then a follow-up of the attempt that is dispatching or
    delivered. -/
theorem control_gate_safe (env : CommandEnv) {s : State}
    (hs : (controlPlane env).Reachable anyStep s) :
    (∀ t, (controlPlane env).Run anyStep s t → ∀ a ∈ s.db.attempts,
      a.controlState = .closed →
        ∃ a' ∈ t.db.attempts, a'.attemptId = a.attemptId ∧ a'.controlState = .closed) ∧
    (∀ l t, (controlPlane env).next s l = some t → ∀ c ∈ t.db.commands,
      (∀ c₀ ∈ s.db.commands, c₀.commandId ≠ c.commandId) →
        ∃ a ∈ s.db.attempts, a.attemptId = c.attemptId ∧ a.controlState = .accepting) ∧
    (∀ l t, (controlPlane env).next s l = some t → ∀ a ∈ s.db.attempts,
      ∀ a' ∈ t.db.attempts, a'.attemptId = a.attemptId → a.controlState = .closing →
        a'.controlState = .accepting → a.awaitingFollowUpTurn = true ∧
          l = .reopenControl a.attemptId a.pendingFollowUpCommandId a.pendingFollowUpNativeId) ∧
    ((controlPlane env).Reachable ActsOnCommitted s → ∀ a ∈ s.db.attempts,
      (a.controlState = .closed → ∀ c ∈ s.db.commands, c.attemptId = a.attemptId →
        c.status ≠ .queued ∧ c.status ≠ .dispatching) ∧
      (a.awaitingFollowUpTurn = true → a.controlState = .closing) ∧
      (a.awaitingFollowUpTurn = true ↔ a.pendingFollowUpCommandId ≠ none) ∧
      (∀ id, a.pendingFollowUpCommandId = some id → ∃ c ∈ s.db.commands,
        c.commandId = id ∧ c.attemptId = a.attemptId ∧ c.commandType = .followUp ∧
          (c.status = .dispatching ∨ c.status = .delivered))) := by
  have hinv := inv_reachable hs
  refine ⟨?_, ?_, ?_, ?_⟩
  · intro t hrun
    have hboth : Inv t ∧ ∀ a ∈ s.db.attempts, a.controlState = .closed →
        ∃ a' ∈ t.db.attempts, a'.attemptId = a.attemptId ∧ a'.controlState = .closed := by
      refine hrun.preserves (P := fun t => Inv t ∧ ∀ a ∈ s.db.attempts, a.controlState = .closed →
          ∃ a' ∈ t.db.attempts, a'.attemptId = a.attemptId ∧ a'.controlState = .closed)
        ?_ ⟨hinv, fun a ha hclosed => ⟨a, ha, rfl, hclosed⟩⟩
      intro t l t' ht _ hnext
      refine ⟨(ht.1.step False hnext (fun hf => hf.elim)).1, ?_⟩
      intro a ha hclosed
      obtain ⟨a₁, ha₁, hid₁, hclosed₁⟩ := ht.2 a ha hclosed
      obtain ⟨a₂, ha₂, hid₂, hclosed₂⟩ := ht.1.closed_final hnext ha₁ hclosed₁
      exact ⟨a₂, ha₂, hid₂.trans hid₁, hclosed₂⟩
    exact hboth.2
  · intro l t hnext c hc hnew
    rcases (hinv.step_gates hnext).2 c hc with ⟨c₀, hc₀, hid⟩ | haccepted
    · exact absurd hid (hnew c₀ hc₀)
    · exact haccepted
  · intro l t hnext a ha a' ha' hid hclosing haccepting
    have hinv' := (hinv.step False hnext (fun hf => hf.elim)).1
    exact hinv.reopened hinv' hnext ha ha' hid hclosing haccepting
  · intro hreach a ha
    have hgate := (gateInv_reachable hreach).gates a ha
    refine ⟨?_, hgate.closing, ?_, ?_⟩
    · intro hclosed c hc hattempt
      have hterm := hgate.drained hclosed c hc hattempt
      constructor <;> (intro hst; simp [hst, CommandStatus.terminal, CommandStatus.live] at hterm)
    · rw [hgate.awaiting, Option.isSome_iff_ne_none]
    · intro id hp
      obtain ⟨c, hc, hid, hattempt, htype, -, hst⟩ := hgate.pending id hp
      exact ⟨c, hc, hid, hattempt, htype, hst (by simp)⟩

/-- A follow-up is sent while the gate drains and is delivered: the gate is closing and waits
    for its turn. -/
theorem control_gate_safe_run :
    ∃ s, (controlPlane sampleEnv).Reachable anyStep s ∧
      s.db.attempts.map (fun a => (a.controlState, a.awaitingFollowUpTurn)) =
        [(.closing, true)] ∧
      ∀ a ∈ s.db.attempts, ∀ id, a.pendingFollowUpCommandId = some id →
        ∃ c ∈ s.db.commands, c.commandId = id ∧ c.attemptId = a.attemptId ∧
          c.commandType = .followUp ∧ (c.status = .dispatching ∨ c.status = .delivered) := by
  have hexec := show (controlPlane sampleEnv).exec {} (openGate ++
      [.createCommand (sampleRequest "01ARZ3NDEKTSV4RRFFQ69G5FA1" "follow_up") 1,
       .beginControlDrain "a1",
       .pumpCycle 0 1 "p" 2 [] false false,
       .pumpReply 0 (.answered { status := .ack, nativeSent := true }) 3]) = some _ from rfl
  have hinit : (controlPlane sampleEnv).init ({} : State) := ⟨rfl, rfl, rfl, fun _ => rfl⟩
  have hguarded : (controlPlane sampleEnv).Run ActsOnCommitted {} _ :=
    guarded_run_of_exec (fun l hl s => by
      simp only [openGate, cons_append, nil_append, mem_cons, not_mem_nil, or_false] at hl
      rcases hl with rfl | rfl | rfl | rfl | rfl | rfl | rfl <;>
        simp [ActsOnCommitted, Reply.ambiguous]) hexec
  have hreach := reachable_of_exec hinit hexec
  refine ⟨_, hreach, rfl, fun a ha => ?_⟩
  exact ((control_gate_safe sampleEnv hreach).2.2.2 ⟨{}, hinit, hguarded⟩ a ha).2.2.2

/-- Both halves of the gate contract fail without the condition. In the first run a second
    pump takes the lease over while the transport holds a steer; it makes that outcome
    unknown and sends a follow-up. The first pump comes back, makes the outcome of the
    follow-up unknown too, and its conditional UPDATE misses since its attempt object has no
    native id: the gate waits for a command whose outcome is unknown. In the second run the
    gate is reopened for a follow-up that the transport then rejects; the pump closes the
    gate from its old attempt object, with a command queued in the meantime. -/
theorem stale_attempt_breaks_gate :
    (∃ s, (controlPlane sampleEnv).Reachable anyStep s ∧
      s.db.attempts.map (fun a => (a.controlState, a.awaitingFollowUpTurn,
        a.pendingFollowUpCommandId)) =
          [(.closing, true, some "01ARZ3NDEKTSV4RRFFQ69G5FA2")] ∧
      s.db.commands.map (fun c => (c.commandId, c.status)) =
        [("01ARZ3NDEKTSV4RRFFQ69G5FA1", .outcomeUnknown),
         ("01ARZ3NDEKTSV4RRFFQ69G5FA2", .outcomeUnknown)]) ∧
    (∃ s, (controlPlane sampleEnv).Reachable anyStep s ∧
      s.db.attempts.map (·.controlState) = [.closed] ∧
      s.db.commands.map (fun c => (c.commandId, c.status)) =
        [("01ARZ3NDEKTSV4RRFFQ69G5FA1", .rejected), ("01ARZ3NDEKTSV4RRFFQ69G5FA2", .queued)]) := by
  have hinit : (controlPlane sampleEnv).init ({} : State) := ⟨rfl, rfl, rfl, fun _ => rfl⟩
  have htakeover := reachable_of_exec hinit (show (controlPlane sampleEnv).exec {} (openGate ++
      [.createCommand (sampleRequest "01ARZ3NDEKTSV4RRFFQ69G5FA1" "steer") 1,
       .createCommand (sampleRequest "01ARZ3NDEKTSV4RRFFQ69G5FA2" "follow_up") 2,
       .beginControlDrain "a1",
       .pumpCycle 0 1 "p" 10 [] false false,
       .pumpCycle 1 1 "q" 200000000 [] false false,
       .pumpCycle 1 1 "q" 200000001 [] false false,
       .pumpReply 0 .raised 200000002]) = some _ from rfl)
  have hreopened := reachable_of_exec hinit (show (controlPlane sampleEnv).exec {} (openGate ++
      [.createCommand (sampleRequest "01ARZ3NDEKTSV4RRFFQ69G5FA1" "follow_up") 1,
       .beginControlDrain "a1",
       .pumpCycle 0 1 "p" 2 [] false false,
       .reopenControl "a1" (some "01ARZ3NDEKTSV4RRFFQ69G5FA1") (some "1000001"),
       .pumpReply 0 (.answered { status := .reject }) 3,
       .pumpClose 0,
       .createCommand (sampleRequest "01ARZ3NDEKTSV4RRFFQ69G5FA2" "steer") 4,
       .pumpClosed 0 true]) = some _ from rfl)
  exact ⟨⟨_, htakeover, rfl, rfl⟩, _, hreopened, rfl, rfl⟩

end Codify.Harness.Commands

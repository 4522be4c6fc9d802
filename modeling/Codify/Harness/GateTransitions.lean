import Codify.Harness.CommandSafety

/-! # Transitions of the Control Gate

    What every interleaving keeps of the gate of an attempt: `closed` is final,
    commands are created only while the gate accepts, and a draining gate opens
    again only for the follow-up it was armed for. The pump's loop and its
    replies change no gate at all (`SameGates`).
-/

namespace Codify.Harness.Commands

open Codify Codify.Framework List

variable {db db' : Db} {s s' : State}

/-! ### What a Pump Leaves Alone -/

/-- The identity and the state of every gate. -/
def gates (db : Db) : List (String × Nat × ControlState) :=
  db.attempts.map fun a => (a.attemptId, a.taskId, a.controlState)

/-- No gate changes its state, no command appears, and the Tasks stay as they are. -/
structure SameGates (db db' : Db) : Prop where
  gates : gates db' = gates db
  commands : db'.commands.map (·.commandId) = db.commands.map (·.commandId)
  tasks : db'.taskStatus = db.taskStatus

open SameGates

theorem SameGates.refl (db : Db) : SameGates db db := ⟨rfl, rfl, rfl⟩

variable {db'' : Db} {a a' : TaskHarnessAttempt} {f : TaskHarnessAttempt → TaskHarnessAttempt}
  {command current : TaskHarnessCommand} {now startedAt : DateTime} {r : Recorded}
  {env : CommandEnv} {l : Label}

theorem SameGates.trans (h : SameGates db db') (h' : SameGates db' db'') :
    SameGates db db'' :=
  ⟨h'.gates.trans h.gates, h'.commands.trans h.commands, h'.tasks.trans h.tasks⟩

theorem SameGates.attempt (h : SameGates db db') (ha : a ∈ db.attempts) :
    ∃ a' ∈ db'.attempts, a'.attemptId = a.attemptId ∧ a'.taskId = a.taskId ∧
      a'.controlState = a.controlState := by
  have hmem : (a.attemptId, a.taskId, a.controlState) ∈ Commands.gates db' := by
    rw [h.gates]
    exact mem_map_of_mem ha
  obtain ⟨a', ha', heq⟩ := mem_map.mp hmem
  simp only [Prod.mk.injEq] at heq
  exact ⟨a', ha', heq.1, heq.2.1, heq.2.2⟩

theorem SameGates.mapCommands (db : Db) {f : TaskHarnessCommand → TaskHarnessCommand}
    (hid : ∀ c, SameCommand c (f c)) : SameGates db (db.mapCommands f) := by
  refine ⟨rfl, ?_, rfl⟩
  show (db.commands.map f).map (·.commandId) = _
  rw [map_map]
  exact map_congr_left fun c _ => (hid c).commandId

theorem SameGates.updateAttempt (db : Db) (attemptId : String)
    (hf : ∀ a, ((f a).attemptId, (f a).taskId, (f a).controlState) =
      (a.attemptId, a.taskId, a.controlState)) :
    SameGates db (db.updateAttempt attemptId f) := by
  refine ⟨?_, rfl, rfl⟩
  unfold Commands.gates Db.updateAttempt Table.update
  rw [map_map]
  apply map_congr_left
  intro a _
  simp only [Function.comp]
  split
  · exact hf a
  · rfl

theorem saveCommand_sameGates {loaded current : TaskHarnessCommand}
    (h : saveCommand loaded current db = some db') : SameGates db db' := by
  obtain ⟨rfl, -⟩ := saveCommand_eq_some h
  exact mapCommands db (saveRow_same loaded current)

theorem writeThrough_sameGates
    {written : Option TaskHarnessCommand} {wrote : Bool}
    (h : writeThrough command written db = some (db', current, wrote)) : SameGates db db' := by
  rcases writeThrough_cases h with ⟨-, rfl, -⟩ | ⟨-, hsave, -⟩
  · exact SameGates.refl db'
  · exact saveCommand_sameGates hsave

theorem clearPendingFollowUp_sameGates (attempt : TaskHarnessAttempt)
    (command : TaskHarnessCommand) (db : Db) :
    SameGates db (clearPendingFollowUp attempt command db).1 := by
  unfold clearPendingFollowUp
  split
  · apply updateAttempt
    intro a
    split <;> rfl
  · exact SameGates.refl db

theorem failPendingFollowUp_sameGates (attempt : TaskHarnessAttempt)
    (command : TaskHarnessCommand) (reason : String) (now : DateTime) (db : Db) :
    SameGates db (failPendingFollowUp attempt command reason now db).1 := by
  unfold failPendingFollowUp requestForceCloseAfterUnknownFollowUp
  split
  · split
    · next db' hsome =>
      split at hsome
      · cases hsome
        apply (updateAttempt db attempt.attemptId ?_).trans
        · exact mapCommands _ (rejectQueued_same attempt.attemptId reason now)
        · exact fun a => rfl
      · cases hsome
    · exact SameGates.refl db
  · exact SameGates.refl db

theorem recordUnknown_sameGates {attempt attempt' : TaskHarnessAttempt}
    {message reason : String} {occurredAt now : DateTime}
    (h : recordUnknown attempt command message reason occurredAt now db = some (db', attempt')) :
    SameGates db db' := by
  unfold recordUnknown at h
  split at h
  · cases h
  next db₁ _ _ hwrite =>
  obtain ⟨rfl, rfl⟩ := Prod.ext_iff.mp (Option.some.inj h)
  exact (writeThrough_sameGates hwrite).trans
    (failPendingFollowUp_sameGates attempt command reason now db₁)

theorem beginDispatch_sameGates {attempt attempt' : TaskHarnessAttempt}
    {head claimed : TaskHarnessCommand}
    (h : beginDispatch attempt head now db = some (db', attempt', claimed)) :
    SameGates db db' := by
  unfold beginDispatch at h
  split at h
  · cases h
  next db₁ attempt₁ harm =>
  split at h
  · cases h
  obtain ⟨db₂, hsave, heq⟩ := Option.map_eq_some_iff.mp h
  obtain ⟨rfl, -⟩ := Prod.mk.inj heq
  have harmed : SameGates db db₁ := by
    unfold armFollowUp at harm
    split at harm
    · split at harm
      · obtain ⟨rfl, -⟩ := Prod.mk.inj (Option.some.inj harm)
        exact updateAttempt db _ fun a => rfl
      · cases harm
    · obtain ⟨rfl, -⟩ := Prod.mk.inj (Option.some.inj harm)
      exact SameGates.refl db
  exact harmed.trans (saveCommand_sameGates hsave)

theorem pumpLoop_sameGates (now : DateTime) (budget : Nat) (attempt : TaskHarnessAttempt)
    (db : Db) : SameGates db (pumpLoop now budget attempt db).1 := by
  induction budget with
  | zero => exact SameGates.refl db
  | succ budget ih =>
    unfold pumpLoop
    split
    · exact SameGates.refl db
    split
    · split
      · next hrec => exact recordUnknown_sameGates hrec
      · exact SameGates.refl db
    · split
      · next hbegin => exact beginDispatch_sameGates hbegin
      · exact ih

theorem recordStatus_sameGates {attempt : TaskHarnessAttempt}
    {answer : Answer}
    (h : recordStatus attempt command startedAt now answer db = some r) : SameGates db r.db := by
  unfold recordStatus at h
  split at h
  · obtain ⟨⟨db₁, c₁, b₁⟩, hwrite, rfl⟩ := Option.map_eq_some_iff.mp h
    exact writeThrough_sameGates hwrite
  · obtain ⟨⟨db₁, c₁, b₁⟩, hwrite, rfl⟩ := Option.map_eq_some_iff.mp h
    exact (writeThrough_sameGates hwrite).trans (clearPendingFollowUp_sameGates attempt command db₁)
  · obtain ⟨⟨db₁, c₁, b₁⟩, hwrite, rfl⟩ := Option.map_eq_some_iff.mp h
    exact (writeThrough_sameGates hwrite).trans (clearPendingFollowUp_sameGates attempt command db₁)
  · obtain ⟨⟨db₁, a₁⟩, hunknown, rfl⟩ := Option.map_eq_some_iff.mp h
    exact recordUnknown_sameGates hunknown

theorem recordReply_sameGates {attempt : TaskHarnessAttempt}
    {reply : Reply}
    (h : recordReply attempt command startedAt now reply db = some r) : SameGates db r.db := by
  unfold recordReply at h
  split at h
  · obtain ⟨⟨db₁, a₁⟩, hunknown, rfl⟩ := Option.map_eq_some_iff.mp h
    exact recordUnknown_sameGates hunknown
  next answer =>
  split at h
  · cases h
  next db₁ command₁ sent hmark =>
  have h₁ : SameGates db db₁ := by
    unfold markSent at hmark
    split at hmark
    · exact writeThrough_sameGates hmark
    · obtain ⟨rfl, -⟩ := Prod.mk.inj (Option.some.inj hmark)
      exact SameGates.refl db
  split at h
  · exact h₁.trans (recordStatus_sameGates h)
  · cases h
    exact h₁

/-! ### Gate Transitions -/

/-- A gate does not go back: `closed` stays, and `closing` stays or is closed. -/
structure GateForward (a a' : TaskHarnessAttempt) : Prop where
  closed : a.controlState = .closed → a'.controlState = .closed
  closing : a.controlState = .closing → a'.controlState = .closing ∨ a'.controlState = .closed

theorem GateForward.of_eq (h : a'.controlState = a.controlState) :
    GateForward a a' :=
  ⟨fun hc => h.trans hc, fun hc => .inl (h.trans hc)⟩

theorem GateForward.of_closed (h : a'.controlState = .closed) :
    GateForward a a' :=
  ⟨fun _ => h, fun _ => .inr h⟩

/-- Every gate is found again and did not go back. -/
def GatesForward (db db' : Db) : Prop :=
  ∀ a ∈ db.attempts, ∃ a' ∈ db'.attempts, a'.attemptId = a.attemptId ∧ GateForward a a'

theorem GatesForward.refl (db : Db) : GatesForward db db :=
  fun a ha => ⟨a, ha, rfl, GateForward.of_eq rfl⟩

theorem GatesForward.trans (h : GatesForward db db') (h' : GatesForward db' db'') :
    GatesForward db db'' := by
  intro a ha
  obtain ⟨a₁, ha₁, hid₁, hmove₁⟩ := h a ha
  obtain ⟨a₂, ha₂, hid₂, hmove₂⟩ := h' a₁ ha₁
  refine ⟨a₂, ha₂, hid₂.trans hid₁, fun hc => hmove₂.closed (hmove₁.closed hc), ?_⟩
  intro hclosing
  rcases hmove₁.closing hclosing with hst | hst
  · exact hmove₂.closing hst
  · exact .inr (hmove₂.closed hst)

theorem SameGates.forward (h : SameGates db db') : GatesForward db db' := by
  intro a ha
  obtain ⟨a', ha', hid, -, hstate⟩ := h.attempt ha
  exact ⟨a', ha', hid, GateForward.of_eq hstate⟩

theorem gatesForward_updateAttempt (db : Db) (attemptId : String)
    (hid : ∀ a, (f a).attemptId = a.attemptId)
    (hf : ∀ a ∈ db.attempts, a.attemptId = attemptId → GateForward a (f a)) :
    GatesForward db (db.updateAttempt attemptId f) := by
  intro a ha
  refine ⟨_, mem_map_of_mem ha, ?_, ?_⟩
  · split
    · exact hid a
    · rfl
  · split
    · next heq => exact hf a ha heq
    · exact GateForward.of_eq rfl

theorem closeControlGate_forward (attemptId reason : String) (now : DateTime) (db : Db) :
    GatesForward db (closeControlGate attemptId reason now db) := by
  have hclose : GatesForward db (db.updateAttempt attemptId TaskHarnessAttempt.closeGate) :=
    gatesForward_updateAttempt db attemptId (fun _ => rfl) fun a _ _ => GateForward.of_closed rfl
  apply hclose.trans
  apply forward
  apply (mapCommands _ (rejectQueued_same attemptId reason now)).trans
  exact mapCommands _ (abandonDispatching_same attemptId now)

theorem closeDrainedAttempt_forward (attempt : TaskHarnessAttempt) (db : Db) :
    GatesForward db (closeDrainedAttempt attempt db) := by
  apply gatesForward_updateAttempt
  · exact fun _ => rfl
  intro a _ _
  by_cases hmem : ControlState.closed = attempt.controlState
  · apply GateForward.of_eq
    show flushColumn attempt.controlState .closed a.controlState = a.controlState
    rw [← hmem, flushColumn_untouched]
  · apply GateForward.of_closed
    exact flushColumn_touched hmem _

/-- Where the commands of a step come from: they were there, or the gate accepted them. -/
def CommandsFrom (db db' : Db) : Prop :=
  ∀ c ∈ db'.commands, (∃ c₀ ∈ db.commands, c₀.commandId = c.commandId) ∨
    ∃ a ∈ db.attempts, a.attemptId = c.attemptId ∧ a.controlState = .accepting

theorem commandsFrom_of_ids (h : db'.commands.map (·.commandId) = db.commands.map (·.commandId)) :
    CommandsFrom db db' := by
  intro c hc
  have hmem : c.commandId ∈ db.commands.map (·.commandId) := by
    rw [← h]
    exact mem_map_of_mem hc
  obtain ⟨c₀, hc₀, hid⟩ := mem_map.mp hmem
  exact .inl ⟨c₀, hc₀, hid⟩

theorem closeControlGate_commandIds (attemptId reason : String) (now : DateTime) (db : Db) :
    (closeControlGate attemptId reason now db).commands.map (·.commandId) =
      db.commands.map (·.commandId) :=
  (mapCommands _ (abandonDispatching_same attemptId now)).commands.trans
    (mapCommands _ (rejectQueued_same attemptId reason now)).commands

theorem closeControlGates_forward (attempts : List TaskHarnessAttempt) (reason : String)
    (now : DateTime) (db : Db) :
    GatesForward db (attempts.foldl (fun db b => closeControlGate b.attemptId reason now db) db) ∧
      (attempts.foldl (fun db b => closeControlGate b.attemptId reason now db) db).commands.map
        (·.commandId) = db.commands.map (·.commandId) := by
  induction attempts generalizing db with
  | nil => exact ⟨GatesForward.refl db, rfl⟩
  | cons b attempts ih =>
    obtain ⟨hforward, hids⟩ := ih (closeControlGate b.attemptId reason now db)
    exact ⟨(closeControlGate_forward b.attemptId reason now db).trans hforward,
      hids.trans (closeControlGate_commandIds b.attemptId reason now db)⟩

theorem closeLocked_forward (closeAck : Bool)
    (result : Db × TaskHarnessAttempt × Option InFlight) :
    GatesForward result.1 (closeLocked closeAck result).1 ∧
      (closeLocked closeAck result).1.commands = result.1.commands := by
  obtain ⟨db, attempt, flight⟩ := result
  unfold closeLocked
  cases flight with
  | some flight => exact ⟨GatesForward.refl db, rfl⟩
  | none =>
    simp only
    split
    · exact ⟨closeDrainedAttempt_forward attempt db, rfl⟩
    · exact ⟨GatesForward.refl db, rfl⟩

theorem Inv.pumpCycle_gates {pump taskId : Nat} {owner : String} {now : DateTime}
    {locked : List String} {probeAck closeAck : Bool} (h : Inv s)
    (hnext : next env s (.pumpCycle pump taskId owner now locked probeAck closeAck) = some s') :
    GatesForward s.db s'.db ∧ CommandsFrom s.db s'.db := by
  simp only [next] at hnext
  split at hnext
  · next db attempt hidle hclaim =>
    cases hnext
    rw [State.afterLoop_db]
    obtain ⟨a, ha, f, rfl, -, -, hf⟩ := claimOrPromote_eq_some hclaim
    -- the lease keeps the gate; the probe moves a starting gate only
    have hclaimed : GatesForward s.db (s.db.updateAttempt a.attemptId f) := by
      rcases hf with ⟨-, rfl⟩ | ⟨hstarting, rfl⟩
      · exact gatesForward_updateAttempt _ _ (fun _ => rfl) fun b _ _ => GateForward.of_eq rfl
      · apply gatesForward_updateAttempt
        · intro b
          unfold TaskHarnessAttempt.promote
          cases probeAck <;> rfl
        · intro b hb hid
          obtain rfl := h.plane.wf.attemptIds.eq_of_key_eq hb ha hid
          constructor <;> (intro hstate; simp [hstarting] at hstate)
    have hloop := pumpLoop_sameGates now maxCommandsPerAttempt attempt
      (s.db.updateAttempt a.attemptId f)
    obtain ⟨hclosed, hcommands⟩ := closeLocked_forward closeAck
      (pumpLoop now maxCommandsPerAttempt attempt (s.db.updateAttempt a.attemptId f))
    refine ⟨(hclaimed.trans hloop.forward).trans hclosed, commandsFrom_of_ids ?_⟩
    rw [hcommands]
    exact hloop.commands
  · cases hnext

/-- **One step**: no gate goes back unless it is reopened, and a new command belongs to a gate
    that accepted it. -/
theorem Inv.step_gates (h : Inv s)
    (hnext : next env s l = some s') :
    (GatesForward s.db s'.db ∨ ∃ attemptId commandId nativeId,
      l = .reopenControl attemptId commandId nativeId) ∧ CommandsFrom s.db s'.db := by
  cases l with
  | createTaskAttempt attemptId taskId eventSchema harnessKey controlSupported =>
    simp only [next] at hnext
    split at hnext
    · cases hnext
      refine ⟨.inl ?_, commandsFrom_of_ids rfl⟩
      intro a ha
      exact ⟨a, mem_append_left _ ha, rfl, GateForward.of_eq rfl⟩
    · cases hnext
  | setTaskStatus taskId status =>
    cases hnext
    exact ⟨.inl fun a ha => ⟨a, ha, rfl, GateForward.of_eq rfl⟩, commandsFrom_of_ids rfl⟩
  | createCommand request now =>
    simp only [next] at hnext
    split at hnext
    · next result db hcreate =>
      cases hnext
      obtain ⟨commandId, commandType, a, ha, -, hacc, -, -, rfl⟩ := createCommand_eq_ok hcreate
      refine ⟨.inl (gatesForward_updateAttempt s.db a.attemptId (fun _ => rfl)
        fun b _ _ => GateForward.of_eq rfl), ?_⟩
      intro c hc
      rcases mem_append.mp hc with hold | hnew
      · exact .inl ⟨c, hold, rfl⟩
      · obtain rfl : c = newCommand env request commandType commandId a now := by
          simpa using hnew
        exact .inr ⟨a, ha, rfl, hacc⟩
    · cases hnext
  | pumpCycle pump taskId owner now locked probeAck closeAck => exact (h.pumpCycle_gates hnext).imp .inl id
  | pumpReply pump reply now =>
    simp only [next] at hnext
    split at hnext
    · next attempt flight hpump =>
      split at hnext
      · cases hnext
        exact ⟨.inl (GatesForward.refl s.db), commandsFrom_of_ids rfl⟩
      next r hrec =>
      cases hnext
      rw [State.afterLoop_db]
      have hsame : SameGates s.db (if r.again then pumpLoop now flight.budget r.attempt r.db
          else (r.db, r.attempt, none)).1 := by
        apply (recordReply_sameGates hrec).trans
        split
        · exact pumpLoop_sameGates now flight.budget r.attempt r.db
        · exact SameGates.refl r.db
      exact ⟨.inl hsame.forward, commandsFrom_of_ids hsame.commands⟩
    · cases hnext
  | pumpClose pump =>
    simp only [next] at hnext
    split at hnext
    · cases hnext
      exact ⟨.inl (GatesForward.refl s.db), commandsFrom_of_ids rfl⟩
    · cases hnext
  | pumpClosed pump ack =>
    simp only [next] at hnext
    split at hnext
    · next attempt hpump =>
      cases hnext
      cases ack with
      | true => exact ⟨.inl (closeDrainedAttempt_forward attempt s.db), commandsFrom_of_ids rfl⟩
      | false => exact ⟨.inl (GatesForward.refl s.db), commandsFrom_of_ids rfl⟩
    · cases hnext
  | crash pump =>
    cases hnext
    exact ⟨.inl (GatesForward.refl s.db), commandsFrom_of_ids rfl⟩
  | beginControlDrain attemptId =>
    cases hnext
    refine ⟨.inl (gatesForward_updateAttempt s.db attemptId ?_ ?_), commandsFrom_of_ids rfl⟩
    · intro a
      split <;> rfl
    · intro a _ _
      split
      · next hopen =>
        constructor <;> (intro hstate; simp [hstate] at hopen)
      · exact GateForward.of_eq rfl
  | reopenControl attemptId commandId nativeId =>
    cases hnext
    exact ⟨.inr ⟨attemptId, commandId, nativeId, rfl⟩, commandsFrom_of_ids rfl⟩
  | closeControlGate attemptId reason now =>
    cases hnext
    exact ⟨.inl (closeControlGate_forward attemptId reason now s.db),
      commandsFrom_of_ids (closeControlGate_commandIds attemptId reason now s.db)⟩
  | closeTaskControlGates taskId reason now =>
    cases hnext
    obtain ⟨hforward, hids⟩ := closeControlGates_forward
      (s.db.attempts.filter fun a => decide (a.taskId = taskId) && a.gateOpen) reason now s.db
    exact ⟨.inl hforward, commandsFrom_of_ids hids⟩

/-- What a reopen does to a gate: nothing, or it is the gate that was armed for the pair. -/
theorem reopenControl_cases {attemptId : String} {commandId nativeId : Option String} (db : Db) :
    ∀ a ∈ db.attempts, ∃ a' ∈
      (reopenControlAfterNativeTurnStart attemptId commandId nativeId db).attempts,
      a'.attemptId = a.attemptId ∧ (a' = a ∨
        a.attemptId = attemptId ∧ a.controlState = .closing ∧ a.awaitingFollowUpTurn = true ∧
          a.pendingFollowUpCommandId = commandId ∧ a.pendingFollowUpNativeId = nativeId) := by
  intro a ha
  refine ⟨_, mem_map_of_mem ha, ?_, ?_⟩
  · split
    · beta_reduce
      split <;> rfl
    · rfl
  · split
    · next hid =>
      beta_reduce
      split
      · next hcan =>
        simp only [canReopen, Bool.and_eq_true, beq_iff_eq] at hcan
        obtain ⟨⟨⟨⟨⟨hclosing, hawait⟩, -⟩, hcommand⟩, hnative⟩, -⟩ := hcan
        exact .inr ⟨hid, hclosing, hawait, hcommand, hnative⟩
      · exact .inl rfl
    · exact .inl rfl

theorem Inv.closed_final (h : Inv s)
    (hnext : next env s l = some s') (ha : a ∈ s.db.attempts)
    (hclosed : a.controlState = .closed) :
    ∃ a' ∈ s'.db.attempts, a'.attemptId = a.attemptId ∧ a'.controlState = .closed := by
  rcases (h.step_gates hnext).1 with hforward | ⟨attemptId, commandId, nativeId, rfl⟩
  · obtain ⟨a', ha', hid, hmove⟩ := hforward a ha
    exact ⟨a', ha', hid, hmove.closed hclosed⟩
  · cases hnext
    obtain ⟨a', ha', hid, hcases⟩ := reopenControl_cases s.db a ha
    refine ⟨a', ha', hid, ?_⟩
    rcases hcases with rfl | ⟨-, hclosing, -⟩
    · exact hclosed
    · simp [hclosed] at hclosing

/-- A draining gate accepts again only when it is reopened for the armed pair. -/
theorem Inv.reopened (h : Inv s) (h' : Inv s')
    (hnext : next env s l = some s') (ha : a ∈ s.db.attempts)
    (ha' : a' ∈ s'.db.attempts) (hid : a'.attemptId = a.attemptId)
    (hclosing : a.controlState = .closing) (haccepting : a'.controlState = .accepting) :
    a.awaitingFollowUpTurn = true ∧
      l = .reopenControl a.attemptId a.pendingFollowUpCommandId a.pendingFollowUpNativeId := by
  rcases (h.step_gates hnext).1 with hforward | ⟨attemptId, commandId, nativeId, rfl⟩
  · obtain ⟨b, hb, hbid, hmove⟩ := hforward a ha
    obtain rfl := h'.plane.wf.attemptIds.eq_of_key_eq ha' hb (hid.trans hbid.symm)
    rcases hmove.closing hclosing with hst | hst <;> simp [haccepting] at hst
  · have hinj := Option.some.inj hnext
    subst hinj
    obtain ⟨b, hb, hbid, hcases⟩ := reopenControl_cases s.db a ha
    obtain rfl := h'.plane.wf.attemptIds.eq_of_key_eq ha' hb (hid.trans hbid.symm)
    rcases hcases with rfl | ⟨hattempt, -, hawait, hcommand, hnative⟩
    · simp [hclosing] at haccepting
    · rw [hattempt, hcommand, hnative]
      exact ⟨hawait, rfl⟩

end Codify.Harness.Commands

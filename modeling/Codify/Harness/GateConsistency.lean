import Codify.Harness.GateTransitions

/-! # Consistency of Gates and Commands

    A closed gate has no live command, and an awaited follow-up is a command of
    the attempt that is in flight or delivered (`GateOk`). Each operation of the
    gate and of the pump keeps this, the pump under the condition that it knows
    the follow-up whose outcome it makes unknown (`KnowsPending`). Along with it
    each lemma says what the other pumps may rely on (`GateFrame`).
-/

namespace Codify.Harness.Commands

open Codify Codify.Framework List TaskHarnessAttempt CommandStatus

variable {db db' : Db}

/-! ### Closed Gates and Awaited Follow-ups -/

/-- A gate is consistent with the commands: a closed one has no live command; one that awaits
    a follow-up is closing and knows the command, which is in flight or delivered. While an
    operation is under way, the status of one command (`except`) may not have been followed
    up yet. -/
structure GateOk (except : Option String) (commands : List TaskHarnessCommand)
    (a : TaskHarnessAttempt) : Prop where
  drained : a.controlState = .closed → ∀ c ∈ commands, c.attemptId = a.attemptId →
    c.status.terminal = true
  awaiting : a.awaitingFollowUpTurn = true ↔ a.pendingFollowUpCommandId.isSome = true
  closing : a.awaitingFollowUpTurn = true → a.controlState = .closing
  pending : ∀ id, a.pendingFollowUpCommandId = some id → ∃ c ∈ commands, c.commandId = id ∧
    c.attemptId = a.attemptId ∧ c.commandType = .followUp ∧
    a.pendingFollowUpNativeId = some (nativeRequestIdOf c) ∧
    (except ≠ some id → c.status = .dispatching ∨ c.status = .delivered)

def GatesOk (except : Option String) (db : Db) : Prop :=
  ∀ a ∈ db.attempts, GateOk except db.commands a

/-- The gate is closed, or nothing can keep it from closing any more. -/
def Settled (db : Db) (attemptId : String) : Prop :=
  ∀ a ∈ db.attempts, a.attemptId = attemptId → a.controlState = .closed ∨
    (a.controlState = .closing ∧ a.awaitingFollowUpTurn = false ∧
      ∀ c ∈ db.commands, c.attemptId = attemptId → c.status.terminal = true)

/-- What the pumps that have `flights` under way rely on: attempts stay, a follow-up becomes
    awaited only when its own pump sends it, and a settled gate stays settled. -/
structure GateFrame (flights : TaskHarnessCommand → Prop) (db db' : Db) : Prop where
  attempts : ∀ a ∈ db.attempts, ∃ a' ∈ db'.attempts,
    a'.attemptId = a.attemptId ∧ a'.taskId = a.taskId
  pending : ∀ a' ∈ db'.attempts, ∀ id, a'.pendingFollowUpCommandId = some id →
    (∃ a ∈ db.attempts, a.attemptId = a'.attemptId ∧ a.pendingFollowUpCommandId = some id) ∨
      ∀ c, flights c → c.commandId ≠ id
  settled : ∀ attemptId, Settled db attemptId → Settled db' attemptId

variable {flights : TaskHarnessCommand → Prop} {x x' : Option String}

theorem GateFrame.refl (flights : TaskHarnessCommand → Prop) (db : Db) :
    GateFrame flights db db :=
  ⟨fun a ha => ⟨a, ha, rfl, rfl⟩, fun a ha _ hp => .inl ⟨a, ha, rfl, hp⟩, fun _ h => h⟩

theorem GateFrame.trans {db'' : Db} (h : GateFrame flights db db')
    (h' : GateFrame flights db' db'') : GateFrame flights db db'' where
  attempts := by
    intro a ha
    obtain ⟨a₁, ha₁, hid₁, htask₁⟩ := h.attempts a ha
    obtain ⟨a₂, ha₂, hid₂, htask₂⟩ := h'.attempts a₁ ha₁
    exact ⟨a₂, ha₂, hid₂.trans hid₁, htask₂.trans htask₁⟩
  pending := by
    intro a₂ ha₂ id hp
    rcases h'.pending a₂ ha₂ id hp with ⟨a₁, ha₁, hid₁, hp₁⟩ | hnone
    · rcases h.pending a₁ ha₁ id hp₁ with ⟨a, ha, hid, hp₀⟩ | hnone
      · exact .inl ⟨a, ha, hid.trans hid₁, hp₀⟩
      · exact .inr hnone
    · exact .inr hnone
  settled := fun attemptId hs => h'.settled attemptId (h.settled attemptId hs)

variable {a : TaskHarnessAttempt} {commands : List TaskHarnessCommand}
  {f : TaskHarnessCommand → TaskHarnessCommand} {c : TaskHarnessCommand}

theorem GateOk.pending_none
    (h : GateOk x commands a) (hawait : a.awaitingFollowUpTurn = false) :
    a.pendingFollowUpCommandId = none := by
  cases hp : a.pendingFollowUpCommandId with
  | none => rfl
  | some id =>
    have := h.awaiting.mpr (by simp [hp])
    simp [hawait] at this

attribute [local simp] terminal live clearPending
  closeGate arm

theorem GateOk.clearPending
    (h : GateOk x commands a) (x' : Option String) : GateOk x' commands a.clearPending where
  drained := h.drained
  awaiting := by simp
  closing := by simp
  pending := by simp

theorem GateOk.of_pending_ne
    {id : String} (h : GateOk (some id) commands a) (hne : a.pendingFollowUpCommandId ≠ some id) :
    GateOk none commands a where
  drained := h.drained
  awaiting := h.awaiting
  closing := h.closing
  pending := by
    intro id' hp
    obtain ⟨c, hc, hid, hattempt, htype, hnative, hst⟩ := h.pending id' hp
    refine ⟨c, hc, hid, hattempt, htype, hnative, fun _ => hst ?_⟩
    intro heq
    cases heq
    exact hne hp

/-- Writing the commands: ends are kept, and the awaited follow-up stays in flight or is
    delivered. -/
theorem GateOk.map
    (h : GateOk x commands a)
    (hid : ∀ c, SameCommand c (f c))
    (hend : ∀ c ∈ commands, c.attemptId = a.attemptId → c.status.terminal = true →
      (f c).status = c.status)
    (hx : x = none ∨ x = x')
    (hpend : ∀ c ∈ commands, a.pendingFollowUpCommandId = some c.commandId →
      c.attemptId = a.attemptId → x' ≠ some c.commandId → c.status = .dispatching →
        (f c).status = .dispatching ∨ (f c).status = .delivered) :
    GateOk x' (commands.map f) a where
  drained := by
    intro hclosed c' hc' hattempt
    obtain ⟨c, hc, rfl⟩ := mem_map.mp hc'
    rw [(hid c).attemptId] at hattempt
    have hterm := h.drained hclosed c hc hattempt
    rw [hend c hc hattempt hterm]
    exact hterm
  awaiting := h.awaiting
  closing := h.closing
  pending := by
    intro id hp
    obtain ⟨c, hc, hcid, hattempt, htype, hnative, hst⟩ := h.pending id hp
    refine ⟨f c, mem_map_of_mem hc, (hid c).commandId.trans hcid,
      (hid c).attemptId.trans hattempt, (hid c).commandType.trans htype, ?_, ?_⟩
    · rw [hnative, nativeRequestIdOf, nativeRequestIdOf, (hid c).sequenceNo]
    · intro hne
      have hx' : x ≠ some id := by
        rcases hx with rfl | rfl
        · simp
        · exact hne
      rcases hst hx' with hdisp | hdel
      · exact hpend c hc (hcid ▸ hp) hattempt (hcid ▸ hne) hdisp
      · rw [hend c hc hattempt (by simp [hdel])]
        exact .inr hdel

theorem GateFrame.mapCommands (flights : TaskHarnessCommand → Prop) (db : Db)
    (hid : ∀ c, SameCommand c (f c))
    (hend : ∀ c ∈ db.commands, c.status.terminal = true → (f c).status = c.status) :
    GateFrame flights db (db.mapCommands f) where
  attempts := fun a ha => ⟨a, ha, rfl, rfl⟩
  pending := fun a ha _ hp => .inl ⟨a, ha, rfl, hp⟩
  settled := by
    intro attemptId hs a ha hattempt
    rcases hs a ha hattempt with hclosed | ⟨hclosing, hawait, hterm⟩
    · exact .inl hclosed
    · refine .inr ⟨hclosing, hawait, ?_⟩
      intro c' hc' hca
      obtain ⟨c, hc, rfl⟩ := mem_map.mp hc'
      rw [(hid c).attemptId] at hca
      rw [hend c hc (hterm c hc hca)]
      exact hterm c hc hca

theorem GatesOk.mapCommands (h : GatesOk x db)
    (hid : ∀ c, SameCommand c (f c))
    (hend : ∀ c ∈ db.commands, c.status.terminal = true → (f c).status = c.status)
    (hx : x = none ∨ x = x')
    (hpend : ∀ c ∈ db.commands, c.status = .dispatching → x' ≠ some c.commandId →
      (f c).status = .dispatching ∨ (f c).status = .delivered) :
    GatesOk x' (db.mapCommands f) := by
  intro a ha
  apply GateOk.map (h a ha) hid
  · exact fun c hc _ ht => hend c hc ht
  · exact hx
  · exact fun c hc _ _ hne hdisp => hpend c hc hdisp hne

theorem gatesOk_updateAttempt {attemptId : String} {f : TaskHarnessAttempt → TaskHarnessAttempt}
    (hrow : ∀ a ∈ db.attempts, a.attemptId = attemptId → GateOk x' db.commands (f a))
    (hother : ∀ a ∈ db.attempts, a.attemptId ≠ attemptId → GateOk x' db.commands a) :
    GatesOk x' (db.updateAttempt attemptId f) := by
  intro a' ha'
  obtain ⟨a, ha, rfl⟩ := mem_map.mp ha'
  split
  · next hid => exact hrow a ha hid
  · next hid => exact hother a ha hid

/-- Writing one gate keeps what other pumps rely on: it awaits nothing that is in flight, and a
    settled gate stays settled. -/
theorem GateFrame.updateAttempt (flights : TaskHarnessCommand → Prop) (db : Db)
    (attemptId : String) {f : TaskHarnessAttempt → TaskHarnessAttempt}
    (hid : ∀ a, (f a).attemptId = a.attemptId) (htask : ∀ a, (f a).taskId = a.taskId)
    (hpend : ∀ a ∈ db.attempts, a.attemptId = attemptId → ∀ id,
      (f a).pendingFollowUpCommandId = some id →
        a.pendingFollowUpCommandId = some id ∨ ∀ c, flights c → c.commandId ≠ id)
    (hclosed : ∀ a ∈ db.attempts, a.attemptId = attemptId → a.controlState = .closed →
      (f a).controlState = .closed)
    (hclosing : ∀ a ∈ db.attempts, a.attemptId = attemptId → a.controlState = .closing →
      a.awaitingFollowUpTurn = false →
      (∀ c ∈ db.commands, c.attemptId = attemptId → c.status.terminal = true) →
      (f a).controlState = .closed ∨
        ((f a).controlState = .closing ∧ (f a).awaitingFollowUpTurn = false)) :
    GateFrame flights db (db.updateAttempt attemptId f) where
  attempts := by
    intro a ha
    refine ⟨_, mem_map_of_mem ha, ?_, ?_⟩
    · split
      · exact hid a
      · rfl
    · split
      · exact htask a
      · rfl
  pending := by
    intro a' ha' id hp
    obtain ⟨a, ha, rfl⟩ := mem_map.mp ha'
    split at hp
    · next heq =>
      rw [if_pos heq]
      rcases hpend a ha heq id hp with hold | hnew
      · exact .inl ⟨a, ha, (hid a).symm, hold⟩
      · exact .inr hnew
    · next hne =>
      rw [if_neg hne]
      exact .inl ⟨a, ha, rfl, hp⟩
  settled := by
    intro id hs a' ha' haid
    obtain ⟨a, ha, rfl⟩ := mem_map.mp ha'
    split at haid
    · next heq =>
      rw [if_pos heq]
      rw [hid a] at haid
      rcases hs a ha haid with hcl | ⟨hcl, hawait, hterm⟩
      · exact .inl (hclosed a ha heq hcl)
      · obtain rfl : id = attemptId := haid.symm.trans heq
        rcases hclosing a ha heq hcl hawait hterm with hnew | ⟨hnew, hawait'⟩
        · exact .inl hnew
        · exact .inr ⟨hnew, hawait', hterm⟩
    · next hne =>
      rw [if_neg hne]
      exact hs a ha haid

theorem GateFrame.updateAttempt_of_eq (flights : TaskHarnessCommand → Prop) (db : Db)
    (attemptId : String) {f : TaskHarnessAttempt → TaskHarnessAttempt}
    (hid : ∀ a, (f a).attemptId = a.attemptId) (htask : ∀ a, (f a).taskId = a.taskId)
    (hstate : ∀ a, (f a).controlState = a.controlState)
    (hpend : ∀ a ∈ db.attempts, a.attemptId = attemptId →
      (f a).awaitingFollowUpTurn = a.awaitingFollowUpTurn ∧
        (f a).pendingFollowUpCommandId = a.pendingFollowUpCommandId ∨
      (f a).awaitingFollowUpTurn = false ∧ (f a).pendingFollowUpCommandId = none) :
    GateFrame flights db (db.updateAttempt attemptId f) := by
  apply GateFrame.updateAttempt flights db attemptId hid htask
  · intro a ha haid id hp
    rcases hpend a ha haid with ⟨-, heq⟩ | ⟨-, hnone⟩
    · exact .inl (heq ▸ hp)
    · simp [hnone] at hp
  · intro a _ _ hcl
    rw [hstate a]
    exact hcl
  · intro a ha haid hcl hawait _
    right
    rw [hstate a]
    rcases hpend a ha haid with ⟨heq, -⟩ | ⟨hfalse, -⟩
    · exact ⟨hcl, heq.trans hawait⟩
    · exact ⟨hcl, hfalse⟩

/-! ### Operations on a Gate -/

/-- Closing the gate of one attempt leaves the others alone. -/
theorem GatesOk.closeControlGate (h : GatesOk none db) (flights : TaskHarnessCommand → Prop)
    (attemptId reason : String) (now : DateTime) :
    GatesOk none (closeControlGate attemptId reason now db) ∧
      GateFrame flights db (closeControlGate attemptId reason now db) := by
  have hframe : GateFrame flights db (Commands.closeControlGate attemptId reason now db) := by
    have h₁ : GateFrame flights db (db.updateAttempt attemptId closeGate) := by
      apply GateFrame.updateAttempt flights db attemptId (f := closeGate)
        (fun _ => rfl) (fun _ => rfl)
      · intro a _ _ id hp
        simp at hp
      · exact fun _ _ _ _ => rfl
      · exact fun _ _ _ _ _ _ => .inl rfl
    apply h₁.trans
    refine (GateFrame.mapCommands flights _ (rejectQueued_same attemptId reason now) ?_).trans
      (GateFrame.mapCommands flights _ (abandonDispatching_same attemptId now) ?_)
    · exact fun c _ ht => by rw [rejectQueued_of_terminal ht]
    · exact fun c _ ht => by rw [abandonDispatching_of_terminal ht]
  refine ⟨?_, hframe⟩
  intro a' ha'
  obtain ⟨a, ha, rfl⟩ := mem_map.mp ha'
  have hcommands : (Commands.closeControlGate attemptId reason now db).commands =
      (db.commands.map (rejectQueued attemptId reason now)).map
        (abandonDispatching attemptId now) := rfl
  rw [hcommands]
  split
  · next hid =>
    refine ⟨?_, by simp,
      by simp,
      by simp⟩
    -- what was queued is rejected, what was in flight is unknown
    intro _ c₂ hc₂ hattempt
    obtain ⟨c₁, hc₁, rfl⟩ := mem_map.mp hc₂
    obtain ⟨c, -, rfl⟩ := mem_map.mp hc₁
    have hca : c.attemptId = attemptId := by
      rw [(abandonDispatching_same attemptId now _).attemptId,
        (rejectQueued_same attemptId reason now c).attemptId] at hattempt
      exact hattempt.trans hid
    rcases abandonDispatching_cases attemptId now (rejectQueued attemptId reason now c) with
      ⟨heq, hnot⟩ | ⟨-, -, hnew⟩
    · rw [heq]
      rcases rejectQueued_cases attemptId reason now c with ⟨heq', hnot'⟩ | ⟨-, -, hrej⟩
      · rw [heq'] at hnot ⊢
        cases hst : c.status <;> simp_all [terminal, live]
      · simp [hrej]
    · simp [hnew]
  · next hid =>
    -- the commands of another attempt are not touched
    have hreject : ∀ c : TaskHarnessCommand, c.attemptId = a.attemptId →
        rejectQueued attemptId reason now c = c := fun c hca =>
      if_neg fun h => hid (hca.symm.trans h.1)
    have habandon : ∀ c : TaskHarnessCommand, c.attemptId = a.attemptId →
        abandonDispatching attemptId now c = c := fun c hca =>
      if_neg fun h => hid (hca.symm.trans h.1)
    apply GateOk.map (x := none) _ (abandonDispatching_same attemptId now)
    · exact fun c _ hca _ => by rw [habandon c hca]
    · exact .inl rfl
    · exact fun c _ _ hca _ hdisp => .inl (by rw [habandon c hca]; exact hdisp)
    apply GateOk.map (h a ha) (rejectQueued_same attemptId reason now)
    · exact fun c _ hca _ => by rw [hreject c hca]
    · exact .inl rfl
    · exact fun c _ _ hca _ hdisp => .inl (by rw [hreject c hca]; exact hdisp)

theorem GatesOk.closeControlGates (flights : TaskHarnessCommand → Prop)
    (attempts : List TaskHarnessAttempt) (reason : String) (now : DateTime)
    (h : GatesOk none db) :
    let db' := attempts.foldl (fun db a => Commands.closeControlGate a.attemptId reason now db) db
    GatesOk none db' ∧ GateFrame flights db db' := by
  induction attempts generalizing db with
  | nil => exact ⟨h, GateFrame.refl flights db⟩
  | cons a attempts ih =>
    obtain ⟨h₁, hf₁⟩ := h.closeControlGate flights a.attemptId reason now
    obtain ⟨h₂, hf₂⟩ := ih h₁
    exact ⟨h₂, hf₁.trans hf₂⟩

/-- Both tables have unique keys. -/
structure Db.Keyed (db : Db) : Prop where
  attemptIds : Table.KeyUnique (·.attemptId) db.attempts
  commandIds : Table.KeyUnique (·.commandId) db.commands

theorem Db.WF.keyed (h : db.WF) : db.Keyed := ⟨h.attemptIds, h.commandIds⟩

theorem Db.Keyed.mapCommands (h : db.Keyed)
    (hid : ∀ c, SameCommand c (f c)) : (db.mapCommands f).Keyed :=
  ⟨h.attemptIds, h.commandIds.map fun c => (hid c).commandId⟩

theorem GateOk.pending_row (hkeyed : db.Keyed)
    (h : GateOk x db.commands a) (hc : c ∈ db.commands)
    (hp : a.pendingFollowUpCommandId = some c.commandId) :
    c.attemptId = a.attemptId ∧ c.commandType = .followUp ∧
      a.pendingFollowUpNativeId = some (nativeRequestIdOf c) ∧
      (x ≠ some c.commandId → c.status = .dispatching ∨ c.status = .delivered) := by
  obtain ⟨c', hc', hid, hattempt, htype, hnative, hst⟩ := h.pending c.commandId hp
  obtain rfl := hkeyed.commandIds.eq_of_key_eq hc' hc hid
  exact ⟨hattempt, htype, hnative, hst⟩

section FollowUp

variable {attempt : TaskHarnessAttempt} {command row : TaskHarnessCommand}

/-- `_clear_pending_follow_up` settles the command that was rejected or put back. -/
theorem GatesOk.clearPendingFollowUp (h : GatesOk (some command.commandId) db) (hkeyed : db.Keyed)
    (flights : TaskHarnessCommand → Prop) (hrow : row ∈ db.commands)
    (hsame : SameCommand command row) (hattempt : command.attemptId = attempt.attemptId) :
    GatesOk none (clearPendingFollowUp attempt command db).1 ∧
      GateFrame flights db (clearPendingFollowUp attempt command db).1 := by
  unfold Commands.clearPendingFollowUp
  split
  · refine ⟨gatesOk_updateAttempt ?_ ?_, ?_⟩
    · intro a ha _
      split
      · exact (h a ha).clearPending none
      · next hne => exact (h a ha).of_pending_ne hne
    · intro a ha hne
      apply (h a ha).of_pending_ne
      intro hp
      rw [← hsame.commandId] at hp
      obtain ⟨hra, -⟩ := (h a ha).pending_row hkeyed hrow hp
      exact hne (hra.symm.trans (hsame.attemptId.trans hattempt))
    · apply GateFrame.updateAttempt_of_eq
      · intro a
        split <;> rfl
      · intro a
        split <;> rfl
      · intro a
        split <;> rfl
      · intro a _ _
        split
        · exact .inr ⟨rfl, rfl⟩
        · exact .inl ⟨rfl, rfl⟩
  · next htype =>
    refine ⟨?_, GateFrame.refl flights db⟩
    intro a ha
    apply (h a ha).of_pending_ne
    intro hp
    rw [← hsame.commandId] at hp
    obtain ⟨-, hrt, -⟩ := (h a ha).pending_row hkeyed hrow hp
    exact htype (hsame.commandType.symm.trans hrt)

/-- `_fail_pending_follow_up` settles the command whose outcome is unknown, provided the gate
    that waits for it belongs to a RUNNING Task and the pump knows the native id. -/
theorem GatesOk.failPendingFollowUp (h : GatesOk (some command.commandId) db) (hkeyed : db.Keyed)
    (flights : TaskHarnessCommand → Prop) (hrow : row ∈ db.commands)
    (hsame : SameCommand command row) (hattempt : command.attemptId = attempt.attemptId)
    (hknown : ∀ a ∈ db.attempts, a.attemptId = attempt.attemptId →
      a.pendingFollowUpCommandId = some command.commandId →
        db.taskRunning a.taskId = true ∧
          attempt.pendingFollowUpNativeId = some (nativeRequestIdOf command))
    (reason : String) (now : DateTime) :
    GatesOk none (failPendingFollowUp attempt command reason now db).1 ∧
      GateFrame flights db (failPendingFollowUp attempt command reason now db).1 := by
  have hpendattempt : ∀ a ∈ db.attempts, a.pendingFollowUpCommandId = some command.commandId →
        a.attemptId = attempt.attemptId ∧ command.commandType = .followUp ∧
          a.pendingFollowUpNativeId = some (nativeRequestIdOf command) := by
    intro a ha hp
    rw [← hsame.commandId] at hp
    obtain ⟨hra, hrt, hnative, -⟩ := (h a ha).pending_row hkeyed hrow hp
    refine ⟨hra.symm.trans (hsame.attemptId.trans hattempt), hsame.commandType.symm.trans hrt, ?_⟩
    rw [hnative, nativeRequestIdOf, nativeRequestIdOf, hsame.sequenceNo]
  unfold Commands.failPendingFollowUp requestForceCloseAfterUnknownFollowUp
  split
  · next htype =>
    by_cases hcas : (db.attempt? attempt.attemptId).any
        (canForceClose command.commandId attempt.pendingFollowUpNativeId db) = true
    · simp only [hcas, if_true]
      have h₁ : GatesOk none (db.updateAttempt attempt.attemptId forceClose) := by
        apply gatesOk_updateAttempt
        · intro a ha _
          have hclear := (h a ha).clearPending none
          exact ⟨hclear.drained, hclear.awaiting, hclear.closing, hclear.pending⟩
        · intro a ha hne
          apply (h a ha).of_pending_ne
          exact fun hp => hne (hpendattempt a ha hp).1
      have hend : ∀ c ∈ db.commands, c.status.terminal = true →
          (rejectQueued attempt.attemptId reason now c).status = c.status := fun c _ ht => by
        rw [rejectQueued_of_terminal ht]
      refine ⟨h₁.mapCommands (rejectQueued_same _ reason now) hend (.inl rfl) ?_, ?_⟩
      · intro c _ hdisp _
        rcases rejectQueued_cases attempt.attemptId reason now c with ⟨heq, -⟩ | ⟨-, hst, -⟩
        · rw [heq]
          exact .inl hdisp
        · simp [hst] at hdisp
      · refine GateFrame.trans (GateFrame.updateAttempt_of_eq flights db attempt.attemptId
          (f := forceClose) (fun _ => rfl) (fun _ => rfl) (fun _ => rfl) fun _ _ _ => .inr ⟨rfl, rfl⟩) ?_
        exact GateFrame.mapCommands flights _ (rejectQueued_same _ reason now) hend
    · -- the UPDATE misses only when no gate waits for the command
      simp only [hcas]
      refine ⟨?_, GateFrame.refl flights db⟩
      intro a ha
      apply (h a ha).of_pending_ne
      intro hp
      obtain ⟨haid, -, hnative⟩ := hpendattempt a ha hp
      obtain ⟨hrunning, hmem⟩ := hknown a ha haid hp
      have hclosing := (h a ha).closing ((h a ha).awaiting.mpr (by simp [hp]))
      have hfind : db.attempt? attempt.attemptId = some a :=
        hkeyed.attemptIds.row?_eq_some_iff.mpr ⟨ha, haid⟩
      apply hcas
      simp [hfind, canForceClose, hrunning, hclosing, hp, hnative, hmem]
  · next htype =>
    refine ⟨?_, GateFrame.refl flights db⟩
    intro a ha
    apply (h a ha).of_pending_ne
    exact fun hp => htype (hpendattempt a ha hp).2.1

end FollowUp

/-! ### Steps of a Pump -/

theorem flightOk_of_row (hwf : db.WF) (hc : c ∈ db.commands)
    (hdisp : c.status = .dispatching) : FlightOk db c :=
  { status := hdisp
    checked := hwf.checked c hc
    row := ⟨c, hc, SameCommand.refl c, .inl rfl⟩
    first := fun c' hc' hattempt hlt => hwf.ordered c hc hdisp c' hc' hattempt hlt }

section Pump

variable {attempt attempt' : TaskHarnessAttempt} {command current : TaskHarnessCommand}

/-- The pump knows the follow-up that the gate waits for, and the Task is RUNNING. -/
def KnowsPending (db : Db) (attempt : TaskHarnessAttempt) (command : TaskHarnessCommand) : Prop :=
  ∀ a ∈ db.attempts, a.attemptId = attempt.attemptId →
    a.pendingFollowUpCommandId = some command.commandId →
      db.taskRunning a.taskId = true ∧
        attempt.pendingFollowUpNativeId = some (nativeRequestIdOf command)

/-- Flushing a command object: the gates stay consistent, up to the command itself where it
    ends in neither of the two statuses a gate may wait for. -/
theorem GatesOk.saveFlight (h : GatesOk none db) (hwf : db.WF) (hok : FlightOk db command)
    (hw : WrittenFrom command current) (flights : TaskHarnessCommand → Prop)
    (hx : x = some command.commandId ∨ current.status = .dispatching ∨
      current.status = .delivered)
    (hsave : saveCommand command current db = some db') :
    GatesOk x db' ∧ GateFrame flights db db' := by
  have hcases := fun c hc => hok.saveRow_cases False hwf hw hsave (c := c) hc
  obtain ⟨rfl, -⟩ := saveCommand_eq_some hsave
  have hend : ∀ c ∈ db.commands, c.status.terminal = true →
      (saveRow command current c).status = c.status := by
    intro c hc ht
    rcases hcases c hc with ⟨-, heq⟩ | ⟨rfl, -⟩ | ⟨-, hunknown, hnew, -⟩
    · rw [heq]
    · simp [hok.status] at ht
    · exact hnew.trans hunknown.symm
  refine ⟨h.mapCommands (saveRow_same command current) hend (.inl rfl) ?_,
    GateFrame.mapCommands flights db (saveRow_same command current) hend⟩
  intro c hc hdisp hne
  rcases hcases c hc with ⟨-, heq⟩ | ⟨rfl, heq⟩ | ⟨-, hunknown, -⟩
  · rw [heq]
    exact .inl hdisp
  · rw [heq]
    rcases hx with hx | hstatus
    · exact absurd hx hne
    · exact hstatus
  · simp [hunknown] at hdisp

theorem GatesOk.writeThrough (h : GatesOk none db) (hwf : db.WF) (hok : FlightOk db command)
    (flights : TaskHarnessCommand → Prop) {written : Option TaskHarnessCommand} {wrote : Bool}
    (hwritten : ∀ current, written = some current → WrittenFrom command current ∧
      (x = some command.commandId ∨ current.status = .dispatching ∨
        current.status = .delivered))
    (hwrite : writeThrough command written db = some (db', current, wrote)) :
    GatesOk x db' ∧ GateFrame flights db db' ∧ db'.attempts = db.attempts ∧
      db'.taskStatus = db.taskStatus ∧ db'.Keyed ∧
      ∃ row ∈ db'.commands, SameCommand command row := by
  obtain ⟨row, hrow, hsame, -⟩ := hok.row
  rcases writeThrough_cases hwrite with ⟨-, rfl, -⟩ | ⟨rfl, hsave, -⟩
  · refine ⟨?_, GateFrame.refl flights db', rfl, rfl, hwf.keyed, row, hrow, hsame⟩
    intro a ha
    have hgate := h a ha
    refine ⟨hgate.drained, hgate.awaiting, hgate.closing, ?_⟩
    intro id hp
    obtain ⟨c, hc, hid, hca, htype, hnative, hst⟩ := hgate.pending id hp
    exact ⟨c, hc, hid, hca, htype, hnative, fun _ => hst (by simp)⟩
  · obtain ⟨hw, hstatus⟩ := hwritten current rfl
    obtain ⟨h₁, hframe⟩ := h.saveFlight hwf hok hw flights hstatus hsave
    obtain ⟨rfl, -⟩ := saveCommand_eq_some hsave
    refine ⟨h₁, hframe, rfl, rfl, hwf.keyed.mapCommands (saveRow_same command current), ?_⟩
    exact ⟨_, mem_map_of_mem hrow, hsame.trans (saveRow_same command current row)⟩

variable {message reason : String} {occurredAt now startedAt : DateTime} {answer : Answer}
  {r : Recorded}

/-- Recording an unknown outcome and failing the follow-up that waits for it. -/
theorem GatesOk.recordUnknown (h : GatesOk none db) (hwf : db.WF) (hok : FlightOk db command)
    (flights : TaskHarnessCommand → Prop) (hattempt : command.attemptId = attempt.attemptId)
    (hknown : KnowsPending db attempt command)
    (hrec : recordUnknown attempt command message reason occurredAt now db =
      some (db', attempt')) :
    GatesOk none db' ∧ GateFrame flights db db' := by
  unfold Commands.recordUnknown at hrec
  split at hrec
  · cases hrec
  next db₁ _ _ hwrite =>
  obtain ⟨rfl, rfl⟩ := Prod.ext_iff.mp (Option.some.inj hrec)
  obtain ⟨h₁, hframe₁, hattempts, htasks, hkeyed, row, hrow, hsame⟩ :=
    h.writeThrough (x := some command.commandId) hwf hok flights (by
      intro current hcurrent
      exact ⟨(writeCommandOutcomeUnknown_spec hcurrent).1, .inl rfl⟩) hwrite
  have hknown₁ : KnowsPending db₁ attempt command := by
    intro a ha haid hp
    rw [hattempts] at ha
    obtain ⟨hrunning, hnative⟩ := hknown a ha haid hp
    exact ⟨by rw [Db.taskRunning, htasks]; exact hrunning, hnative⟩
  obtain ⟨h₂, hframe₂⟩ :=
    h₁.failPendingFollowUp hkeyed flights hrow hsame hattempt hknown₁ reason now
  exact ⟨h₂, hframe₁.trans hframe₂⟩

/-- The gates after a command is claimed for its dispatch. -/
theorem GatesOk.beginDispatch (h : GatesOk none db) (hwf : db.WF) {head claimed : TaskHarnessCommand}
    (hhead : head ∈ db.commands) (hattempt : head.attemptId = attempt.attemptId)
    (hflights : ∀ c, flights c → c.commandId ≠ head.commandId)
    (hbegin : beginDispatch attempt head now db = some (db', attempt', claimed)) :
    GatesOk none db' ∧ GateFrame flights db db' ∧ claimed.attemptId = attempt.attemptId ∧
      attempt'.attemptId = attempt.attemptId ∧ attempt'.taskId = attempt.taskId ∧
      ∀ a ∈ db'.attempts, a.attemptId = attempt.attemptId →
        a.pendingFollowUpCommandId = some claimed.commandId →
          attempt'.pendingFollowUpNativeId = some (nativeRequestIdOf claimed) := by
  obtain ⟨db₁, harm, hcurrent, hsave⟩ := beginDispatch_cases hbegin
  obtain ⟨hw, hqueued, hdisp⟩ := beginCommandDispatch_spec hcurrent
  obtain ⟨rfl, -⟩ := saveCommand_eq_some hsave
  have hnative : nativeRequestIdOf head = nativeRequestIdOf claimed := by
    rw [nativeRequestIdOf, nativeRequestIdOf, hw.same.sequenceNo]
  -- what the flush does to the commands, before and after arming
  have hsaved : ∀ c ∈ db.commands, c = head ∨ saveRow head claimed c = c := by
    intro c hc
    by_cases hid : c.commandId = head.commandId
    · exact .inl (hwf.commandIds.eq_of_key_eq hc hhead hid)
    · exact .inr (saveRow_of_ne hid)
  have hend : ∀ c ∈ db.commands, c.status.terminal = true →
      (saveRow head claimed c).status = c.status := by
    intro c hc ht
    rcases hsaved c hc with rfl | heq
    · simp [hqueued] at ht
    · rw [heq]
  have hmapped : GatesOk none (db.mapCommands (saveRow head claimed)) := by
    apply h.mapCommands (saveRow_same head claimed) hend (.inl rfl)
    intro c hc hd _
    rcases hsaved c hc with rfl | heq
    · simp [hqueued] at hd
    · rw [heq]
      exact .inl hd
  unfold armFollowUp at harm
  split at harm
  · next htype =>
    split at harm
    · next hcan =>
      cases harm
      obtain ⟨row, hfind, hrowcan⟩ : ∃ row, db.attempt? attempt.attemptId = some row ∧
          canArm db row = true := by simpa [Option.any_eq_true] using hcan
      obtain ⟨hrow, hrowid⟩ := Table.mem_of_row? hfind
      have hclosing : row.controlState = .closing := by
        simp only [canArm, Bool.and_eq_true, beq_iff_eq] at hrowcan
        exact hrowcan.1.1
      refine ⟨?_, ?_, ?_, rfl, rfl, fun _ _ _ _ => ?_⟩
      · -- arming and flushing write different tables
        show GatesOk none ((db.mapCommands (saveRow head claimed)).updateAttempt
          attempt.attemptId (·.arm head))
        apply gatesOk_updateAttempt
        · intro a ha haid
          obtain rfl := hwf.attemptIds.eq_of_key_eq ha hrow (haid.trans hrowid.symm)
          refine ⟨?_, by simp, fun _ => hclosing, ?_⟩
          · intro hclosed
            have : a.controlState = .closed := hclosed
            simp [hclosing] at this
          · intro id hp
            obtain rfl : head.commandId = id := by simpa using hp
            refine ⟨claimed, mem_map.mpr ⟨head, hhead, hw.saveRow_self⟩, hw.same.commandId,
              ?_, hw.same.commandType.trans htype.1, ?_, fun _ => .inl hdisp⟩
            · exact hw.same.attemptId.trans (hattempt.trans haid.symm)
            · simp [hnative]
        · exact fun a ha _ => hmapped a ha
      · refine GateFrame.trans (GateFrame.updateAttempt flights db attempt.attemptId
          (f := (·.arm head)) (fun _ => rfl) (fun _ => rfl) ?_ (fun _ _ _ hcl => hcl) ?_)
          (GateFrame.mapCommands flights _ (saveRow_same head claimed) hend)
        · intro a _ _ id hp
          obtain rfl : head.commandId = id := by simpa using hp
          exact .inr hflights
        · -- a settled gate has nothing to dispatch
          intro a _ _ _ _ hterm
          have := hterm head hhead hattempt
          simp [hqueued] at this
      · exact hw.same.attemptId.trans hattempt
      · simp [hnative]
    · cases harm
  · cases harm
    refine ⟨hmapped, GateFrame.mapCommands flights db (saveRow_same head claimed) hend,
      hw.same.attemptId.trans hattempt, rfl, rfl, ?_⟩
    -- a queued command is not awaited
    intro a ha _ hp
    rw [hw.same.commandId] at hp
    obtain ⟨-, -, -, hst⟩ := (h a ha).pending_row hwf.keyed hhead hp
    rcases hst (by simp) with hd | hd <;> simp [hqueued] at hd

/-- What the pump loop leaves of the gates: `result` is its database, its attempt object and
    the command it has sent. -/
structure LoopGates (flights : TaskHarnessCommand → Prop) (db : Db) (attempt : TaskHarnessAttempt)
    (result : Db × TaskHarnessAttempt × Option InFlight) : Prop where
  gates : GatesOk none result.1
  frame : GateFrame flights db result.1
  attemptId : result.2.1.attemptId = attempt.attemptId
  taskId : result.2.1.taskId = attempt.taskId
  sent : ∀ flight, result.2.2 = some flight → flight.command.attemptId = attempt.attemptId ∧
    ∀ a ∈ result.1.attempts, a.attemptId = attempt.attemptId →
      a.pendingFollowUpCommandId = some flight.command.commandId →
        result.2.1.pendingFollowUpNativeId = some (nativeRequestIdOf flight.command)

theorem loopGates_refl (h : GatesOk none db) (flights : TaskHarnessCommand → Prop)
    (attempt : TaskHarnessAttempt) : LoopGates flights db attempt (db, attempt, none) where
  gates := h
  frame := GateFrame.refl flights db
  attemptId := rfl
  taskId := rfl
  sent := by simp

theorem failPendingFollowUp_attempt (attempt : TaskHarnessAttempt) (command : TaskHarnessCommand)
    (reason : String) (now : DateTime) (db : Db) :
    (failPendingFollowUp attempt command reason now db).2.attemptId = attempt.attemptId ∧
      (failPendingFollowUp attempt command reason now db).2.taskId = attempt.taskId := by
  unfold failPendingFollowUp
  split
  · split <;> exact ⟨rfl, rfl⟩
  · exact ⟨rfl, rfl⟩

theorem recordUnknown_attempt
    (hrec : recordUnknown attempt command message reason occurredAt now db =
      some (db', attempt')) :
    attempt'.attemptId = attempt.attemptId ∧ attempt'.taskId = attempt.taskId := by
  unfold recordUnknown at hrec
  split at hrec
  · cases hrec
  next db₁ _ _ _ =>
  obtain ⟨-, rfl⟩ := Prod.ext_iff.mp (Option.some.inj hrec)
  exact failPendingFollowUp_attempt attempt command reason now db₁

/-- The pump loop keeps the gates consistent, provided the pump knows the follow-up of a
    dispatching queue front. -/
theorem GatesOk.pumpLoop {history : List SendEvent} (now : DateTime) (budget : Nat)
    (h : GatesOk none db) (hplane : Plane db flights history)
    (hknown : 0 < budget → ∀ c ∈ db.commands, c.attemptId = attempt.attemptId →
      c.status = .dispatching → KnowsPending db attempt c) :
    LoopGates flights db attempt (pumpLoop now budget attempt db) := by
  induction budget with
  | zero => exact loopGates_refl h flights attempt
  | succ budget ih =>
    unfold Commands.pumpLoop
    split
    · exact loopGates_refl h flights attempt
    next head hload =>
    obtain ⟨hmem, hattempt, hlive, hfirst⟩ := loadHeadCommand_eq_some hplane.wf hload
    split
    · next hdisp =>
      split
      · next db₁ attempt₁ hrec =>
        obtain ⟨h₁, hframe⟩ := h.recordUnknown hplane.wf (flightOk_of_row hplane.wf hmem hdisp)
          flights hattempt (hknown (Nat.succ_pos budget) head hmem hattempt hdisp) hrec
        obtain ⟨hid, htask⟩ := recordUnknown_attempt hrec
        exact ⟨h₁, hframe, hid, htask, by simp⟩
      · exact loopGates_refl h flights attempt
    · next hnot =>
      have hqueued : head.status = .queued := by
        cases hst : head.status <;> simp_all [live]
      have hflights : ∀ c, flights c → c.commandId ≠ head.commandId := by
        intro c hc hid
        rcases (hplane.flight c hc).not_queued hplane.wf hmem hid.symm with hd | hd <;>
          simp [hqueued] at hd
      split
      · next db₁ attempt₁ claimed hbegin =>
        obtain ⟨h₁, hframe, hca, hid, htask, harmed⟩ :=
          h.beginDispatch hplane.wf hmem hattempt hflights hbegin
        refine ⟨h₁, hframe, hid, htask, ?_⟩
        intro flight hflight
        cases hflight
        exact ⟨hca, harmed⟩
      · exact ih fun hpos => hknown (Nat.succ_pos budget)

/-- The attempt object has the gate columns of the row. -/
def Fresh (db : Db) (attempt : TaskHarnessAttempt) : Prop :=
  ∀ a ∈ db.attempts, a.attemptId = attempt.attemptId →
    a.taskId = attempt.taskId ∧ a.controlState = attempt.controlState ∧
    a.awaitingFollowUpTurn = attempt.awaitingFollowUpTurn ∧
    a.pendingFollowUpCommandId = attempt.pendingFollowUpCommandId ∧
    a.pendingFollowUpNativeId = attempt.pendingFollowUpNativeId

theorem fresh_updateAttempt (hfresh : Fresh db attempt) {f : TaskHarnessAttempt → TaskHarnessAttempt}
    (hid : ∀ a, (f a).attemptId = a.attemptId)
    (hf : ∀ a, a.taskId = attempt.taskId → a.controlState = attempt.controlState →
      a.awaitingFollowUpTurn = attempt.awaitingFollowUpTurn →
      a.pendingFollowUpCommandId = attempt.pendingFollowUpCommandId →
      a.pendingFollowUpNativeId = attempt.pendingFollowUpNativeId →
      (f a).taskId = (f attempt).taskId ∧ (f a).controlState = (f attempt).controlState ∧
      (f a).awaitingFollowUpTurn = (f attempt).awaitingFollowUpTurn ∧
      (f a).pendingFollowUpCommandId = (f attempt).pendingFollowUpCommandId ∧
      (f a).pendingFollowUpNativeId = (f attempt).pendingFollowUpNativeId) :
    Fresh (db.updateAttempt attempt.attemptId f) (f attempt) := by
  intro a' ha' haid
  obtain ⟨a, ha, rfl⟩ := mem_map.mp ha'
  rw [hid attempt] at haid
  split at haid
  · next heq =>
    rw [if_pos heq]
    obtain ⟨htask, hstate, hawait, hpend, hnative⟩ := hfresh a ha heq
    exact hf a htask hstate hawait hpend hnative
  · next hne => exact absurd haid hne

theorem recordUnknown_fresh (hfresh : Fresh db attempt)
    (hrec : recordUnknown attempt command message reason occurredAt now db =
      some (db', attempt')) : Fresh db' attempt' := by
  unfold recordUnknown at hrec
  split at hrec
  · cases hrec
  next db₁ _ _ hwrite =>
  obtain ⟨rfl, rfl⟩ := Prod.ext_iff.mp (Option.some.inj hrec)
  have hattempts : db₁.attempts = db.attempts := by
    rcases writeThrough_cases hwrite with ⟨-, rfl, -⟩ | ⟨-, hsave, -⟩
    · rfl
    · obtain ⟨rfl, -⟩ := saveCommand_eq_some hsave
      rfl
  have hfresh₁ : Fresh db₁ attempt := by
    intro a ha
    exact hfresh a (hattempts ▸ ha)
  unfold failPendingFollowUp requestForceCloseAfterUnknownFollowUp
  split
  · split
    · next db₂ hsome =>
      split at hsome
      · cases hsome
        have := fresh_updateAttempt hfresh₁ (f := forceClose) (fun _ => rfl)
          (fun a htask hstate _ _ _ => ⟨htask, hstate, rfl, rfl, rfl⟩)
        exact this
      · cases hsome
    · exact hfresh₁
  · exact hfresh₁

theorem pumpLoop_fresh (now : DateTime) (budget : Nat) (hfresh : Fresh db attempt)
    (hnone : (pumpLoop now budget attempt db).2.2 = none) :
    Fresh (pumpLoop now budget attempt db).1 (pumpLoop now budget attempt db).2.1 := by
  induction budget with
  | zero => exact hfresh
  | succ budget ih =>
    unfold pumpLoop at hnone ⊢
    split
    · exact hfresh
    next head hload =>
    simp only [hload] at hnone
    split
    · split
      · next hrec => exact recordUnknown_fresh hfresh hrec
      · exact hfresh
    · next hnot =>
      simp only [hnot, if_false] at hnone
      split
      · next hbegin => simp [hbegin] at hnone
      next hbegin =>
      simp only [hbegin] at hnone
      exact ih hnone

/-! ### Replies -/

/-- No command is dispatching that was not before. -/
def NoNewDispatch (db db' : Db) : Prop :=
  ∀ c' ∈ db'.commands, c'.status = .dispatching →
    ∃ c ∈ db.commands, SameCommand c c' ∧ c.status = .dispatching

theorem NoNewDispatch.of_commands_eq (h : db'.commands = db.commands) : NoNewDispatch db db' :=
  fun c hc hst => ⟨c, h ▸ hc, SameCommand.refl c, hst⟩

theorem NoNewDispatch.trans {db'' : Db} (h : NoNewDispatch db db') (h' : NoNewDispatch db' db'') :
    NoNewDispatch db db'' := by
  intro c₂ hc₂ hst
  obtain ⟨c₁, hc₁, hsame₁, hst₁⟩ := h' c₂ hc₂ hst
  obtain ⟨c, hc, hsame, hst₀⟩ := h c₁ hc₁ hst₁
  exact ⟨c, hc, hsame.trans hsame₁, hst₀⟩

theorem NoNewDispatch.still (h : NoNewDispatch db db') {id : String}
    (hstill : StillDispatching db' id) : StillDispatching db id := by
  obtain ⟨c', hc', hid, hst⟩ := hstill
  obtain ⟨c, hc, hsame, hst₀⟩ := h c' hc' hst
  exact ⟨c, hc, hsame.commandId.symm.trans hid, hst₀⟩

theorem clearPendingFollowUp_noNew (attempt : TaskHarnessAttempt) (command : TaskHarnessCommand)
    (db : Db) : NoNewDispatch db (clearPendingFollowUp attempt command db).1 := by
  unfold clearPendingFollowUp
  split
  · exact NoNewDispatch.of_commands_eq rfl
  · exact NoNewDispatch.of_commands_eq rfl

theorem failPendingFollowUp_noNew (attempt : TaskHarnessAttempt) (command : TaskHarnessCommand)
    (reason : String) (now : DateTime) (db : Db) :
    NoNewDispatch db (failPendingFollowUp attempt command reason now db).1 := by
  unfold failPendingFollowUp requestForceCloseAfterUnknownFollowUp
  split
  · split
    · next db' hsome =>
      split at hsome
      · cases hsome
        intro c' hc' hst
        obtain ⟨c, hc, rfl⟩ := mem_map.mp hc'
        rcases rejectQueued_cases attempt.attemptId reason now c with ⟨heq, -⟩ | ⟨-, -, hrej⟩
        · rw [heq] at hst ⊢
          exact ⟨c, hc, SameCommand.refl c, hst⟩
        · simp [hrej] at hst
      · cases hsome
    · exact NoNewDispatch.of_commands_eq rfl
  · exact NoNewDispatch.of_commands_eq rfl

/-- Flushing a command object starts no dispatch. A status other than the object's own ends the
    dispatch, and one other than unknown needs a row that is still dispatching. -/
theorem saveCommand_noNew (hwf : db.WF) (hok : FlightOk db command)
    (hw : WrittenFrom command current) (hsave : saveCommand command current db = some db') :
    NoNewDispatch db db' ∧ (current.status ≠ .dispatching →
      ¬ StillDispatching db' command.commandId ∧
      (current.status ≠ .outcomeUnknown → StillDispatching db command.commandId)) := by
  have hcases := fun c hc => hok.saveRow_cases False hwf hw hsave (c := c) hc
  obtain ⟨rfl, hchk⟩ := saveCommand_eq_some hsave
  refine ⟨?_, fun hnot => ⟨?_, ?_⟩⟩
  · intro c' hc' hst
    obtain ⟨c, hc, rfl⟩ := mem_map.mp hc'
    refine ⟨c, hc, saveRow_same command current c, ?_⟩
    rcases hcases c hc with ⟨-, heq⟩ | ⟨rfl, -⟩ | ⟨-, -, hnew, -⟩
    · rw [heq] at hst
      exact hst
    · exact hok.status
    · simp [hnew] at hst
  · rintro ⟨c', hc', hid, hst⟩
    obtain ⟨c, hc, rfl⟩ := mem_map.mp hc'
    rw [(saveRow_same command current c).commandId] at hid
    rcases hcases c hc with ⟨hne, -⟩ | ⟨rfl, heq⟩ | ⟨-, -, hnew, -⟩
    · exact hne hid
    · rw [heq] at hst
      exact hnot hst
    · simp [hnew] at hst
  · intro hknown
    obtain ⟨row, hrow, hsame, hrowcases⟩ := hok.row
    rcases hrowcases with rfl | hunknown
    · exact ⟨row, hrow, rfl, hok.status⟩
    · -- the constraints refuse the status over an unknown outcome
      obtain ⟨hnew, -⟩ := saveRow_over_unknown False hw hok.status hsame.commandId
        (hwf.checked row hrow) hunknown (hchk row hrow)
      rw [saveRow, if_pos hsame.commandId] at hnew
      simp only [flushCommand, hok.status] at hnew
      rw [flushColumn_touched hnot] at hnew
      exact absurd hnew hknown

/-- What a reply leaves of the commands in flight: nothing new, and when the loop goes on the
    command is not dispatching any more. Only an ambiguous reply can be recorded on a command
    that was not dispatching any more. -/
structure ReplyRows (command : TaskHarnessCommand) (ambiguous : Bool) (db : Db) (r : Recorded) :
    Prop where
  noNew : NoNewDispatch db r.db
  ended : r.again = true → ¬ StillDispatching r.db command.commandId
  still : r.again = true → ambiguous = false → StillDispatching db command.commandId

theorem recordUnknown_rows (hwf : db.WF) (hok : FlightOk db command)
    (hrec : recordUnknown attempt command message reason occurredAt now db =
      some (db', attempt')) :
    NoNewDispatch db db' ∧ ¬ StillDispatching db' command.commandId := by
  unfold recordUnknown at hrec
  split at hrec
  · cases hrec
  next db₁ _ _ hwrite =>
  obtain ⟨rfl, rfl⟩ := Prod.ext_iff.mp (Option.some.inj hrec)
  rcases writeThrough_cases hwrite with ⟨hnone, -⟩ | ⟨hcurrent, hsave, -⟩
  · simp [writeCommandOutcomeUnknown, hok.status] at hnone
  obtain ⟨hw, -, hunknown⟩ := writeCommandOutcomeUnknown_spec hcurrent
  obtain ⟨hno, hend⟩ := saveCommand_noNew hwf hok hw hsave
  have hfail := failPendingFollowUp_noNew attempt command reason now db₁
  exact ⟨hno.trans hfail, fun hst => (hend (by simp [hunknown])).1 (hfail.still hst)⟩

theorem recordStatus_rows (hwf : db.WF) (hok : FlightOk db command)
    (hrec : recordStatus attempt command startedAt now answer db = some r) :
    ReplyRows command (answer.status == .other) db r := by
  unfold recordStatus at hrec
  split at hrec
  · next hack =>
    obtain ⟨⟨db₁, c₁, b₁⟩, hwrite, rfl⟩ := Option.map_eq_some_iff.mp hrec
    rcases writeThrough_cases hwrite with ⟨hnone, -⟩ | ⟨hcurrent, hsave, -⟩
    · simp [writeCommandDelivery, hok.status] at hnone
    obtain ⟨hw, -, hdel⟩ := writeCommandDelivery_spec hcurrent
    obtain ⟨hno, hend⟩ := saveCommand_noNew hwf hok hw hsave
    obtain ⟨hended, hstill⟩ := hend (by simp [hdel])
    exact ⟨hno, fun _ => hended, fun _ _ => hstill (by simp [hdel])⟩
  · next hreject =>
    obtain ⟨⟨db₁, c₁, b₁⟩, hwrite, rfl⟩ := Option.map_eq_some_iff.mp hrec
    rcases writeThrough_cases hwrite with ⟨hnone, -⟩ | ⟨hcurrent, hsave, -⟩
    · simp [writeCommandRejection, hok.status] at hnone
    obtain ⟨hw, -, hrej⟩ := writeCommandRejection_spec hcurrent
    obtain ⟨hno, hend⟩ := saveCommand_noNew hwf hok hw hsave
    obtain ⟨hended, hstill⟩ := hend (by simp [hrej])
    have hclear := clearPendingFollowUp_noNew attempt command db₁
    exact ⟨hno.trans hclear, fun _ hst => hended (hclear.still hst),
      fun _ _ => hstill (by simp [hrej])⟩
  · next hretry =>
    obtain ⟨⟨db₁, c₁, b₁⟩, hwrite, rfl⟩ := Option.map_eq_some_iff.mp hrec
    have hclear := clearPendingFollowUp_noNew attempt command db₁
    refine ⟨NoNewDispatch.trans ?_ hclear, by simp, by simp⟩
    rcases writeThrough_cases hwrite with ⟨-, rfl, -⟩ | ⟨hcurrent, hsave, -⟩
    · exact NoNewDispatch.of_commands_eq rfl
    exact (saveCommand_noNew hwf hok (requeuePreSendFailure_spec hcurrent).1 hsave).1
  · next hother =>
    obtain ⟨⟨db₁, a₁⟩, hunknown, rfl⟩ := Option.map_eq_some_iff.mp hrec
    obtain ⟨hno, hended⟩ := recordUnknown_rows hwf hok hunknown
    exact ⟨hno, fun _ => hended, by simp [hother]⟩

/-- What a reply leaves of the gates. -/
structure ReplyGates (flights : TaskHarnessCommand → Prop) (db : Db)
    (attempt : TaskHarnessAttempt) (r : Recorded) : Prop where
  gates : GatesOk none r.db
  frame : GateFrame flights db r.db
  attemptId : r.attempt.attemptId = attempt.attemptId
  taskId : r.attempt.taskId = attempt.taskId

theorem clearPendingFollowUp_attempt (attempt : TaskHarnessAttempt) (command : TaskHarnessCommand)
    (db : Db) : (clearPendingFollowUp attempt command db).2.attemptId = attempt.attemptId ∧
      (clearPendingFollowUp attempt command db).2.taskId = attempt.taskId := by
  unfold clearPendingFollowUp
  split <;> exact ⟨rfl, rfl⟩

theorem GatesOk.recordStatus (h : GatesOk none db) (hwf : db.WF) (hok : FlightOk db command)
    (flights : TaskHarnessCommand → Prop) (hattempt : command.attemptId = attempt.attemptId)
    (hknown : answer.status = .other → KnowsPending db attempt command)
    (hrec : recordStatus attempt command startedAt now answer db = some r) :
    ReplyGates flights db attempt r := by
  unfold Commands.recordStatus at hrec
  split at hrec
  · obtain ⟨⟨db₁, c₁, b₁⟩, hwrite, rfl⟩ := Option.map_eq_some_iff.mp hrec
    obtain ⟨h₁, hframe, -⟩ := h.writeThrough (x := none) hwf hok flights (by
      intro current hcurrent
      obtain ⟨hw, -, hdel⟩ := writeCommandDelivery_spec hcurrent
      exact ⟨hw, .inr (.inr hdel)⟩) hwrite
    exact ⟨h₁, hframe, rfl, rfl⟩
  · obtain ⟨⟨db₁, c₁, b₁⟩, hwrite, rfl⟩ := Option.map_eq_some_iff.mp hrec
    obtain ⟨h₁, hframe₁, -, -, hkeyed, row, hrow, hsame⟩ :=
      h.writeThrough (x := some command.commandId) hwf hok flights (by
        intro current hcurrent
        exact ⟨(writeCommandRejection_spec hcurrent).1, .inl rfl⟩) hwrite
    obtain ⟨h₂, hframe₂⟩ := h₁.clearPendingFollowUp hkeyed flights hrow hsame hattempt
    obtain ⟨hid, htask⟩ := clearPendingFollowUp_attempt attempt command db₁
    exact ⟨h₂, hframe₁.trans hframe₂, hid, htask⟩
  · obtain ⟨⟨db₁, c₁, b₁⟩, hwrite, rfl⟩ := Option.map_eq_some_iff.mp hrec
    obtain ⟨h₁, hframe₁, -, -, hkeyed, row, hrow, hsame⟩ :=
      h.writeThrough (x := some command.commandId) hwf hok flights (by
        intro current hcurrent
        exact ⟨(requeuePreSendFailure_spec hcurrent).1, .inl rfl⟩) hwrite
    obtain ⟨h₂, hframe₂⟩ := h₁.clearPendingFollowUp hkeyed flights hrow hsame hattempt
    obtain ⟨hid, htask⟩ := clearPendingFollowUp_attempt attempt command db₁
    exact ⟨h₂, hframe₁.trans hframe₂, hid, htask⟩
  · next hother =>
    obtain ⟨⟨db₁, a₁⟩, hunknown, rfl⟩ := Option.map_eq_some_iff.mp hrec
    obtain ⟨h₁, hframe⟩ := h.recordUnknown hwf hok flights hattempt (hknown hother) hunknown
    obtain ⟨hid, htask⟩ := recordUnknown_attempt hunknown
    exact ⟨h₁, hframe, hid, htask⟩

/-- The gates after the reply to a command is recorded. -/
theorem GatesOk.recordReply (h : GatesOk none db) (hwf : db.WF) (hok : FlightOk db command)
    (flights : TaskHarnessCommand → Prop) (hattempt : command.attemptId = attempt.attemptId)
    {reply : Reply}
    (hknown : reply.ambiguous = true → KnowsPending db attempt command)
    (hrec : recordReply attempt command startedAt now reply db = some r) :
    ReplyGates flights db attempt r ∧ ReplyRows command reply.ambiguous db r := by
  unfold Commands.recordReply at hrec
  split at hrec
  · obtain ⟨⟨db₁, a₁⟩, hunknown, rfl⟩ := Option.map_eq_some_iff.mp hrec
    obtain ⟨h₁, hframe⟩ := h.recordUnknown hwf hok flights hattempt (hknown rfl) hunknown
    obtain ⟨hid, htask⟩ := recordUnknown_attempt hunknown
    obtain ⟨hno, hended⟩ := recordUnknown_rows hwf hok hunknown
    exact ⟨⟨h₁, hframe, hid, htask⟩, hno, fun _ => hended, by simp [Reply.ambiguous]⟩
  next answer =>
  split at hrec
  · cases hrec
  next db₁ command₁ sent hmark =>
  have hknown' : answer.status = .other → KnowsPending db attempt command := by
    intro hstatus
    exact hknown (by simp [Reply.ambiguous, hstatus])
  obtain ⟨rfl, hcases⟩ := markSent_cases hok hmark
  rcases hcases with ⟨rfl, rfl⟩ | ⟨hw, hdisp, hsave⟩
  · exact ⟨h.recordStatus hwf hok flights hattempt hknown' hrec, recordStatus_rows hwf hok hrec⟩
  · obtain ⟨h₁, hframe₁⟩ := h.saveFlight (x := none) hwf hok hw flights (.inr (.inl hdisp)) hsave
    obtain ⟨hok₁, -⟩ := hok.mark hw hdisp hsave
    obtain ⟨hno₁, -⟩ := saveCommand_noNew hwf hok hw hsave
    -- the mark changes no attempt, and the command is still the same one
    have hwf₁ : db₁.WF := by
      obtain ⟨rfl, hchk⟩ := saveCommand_eq_some hsave
      have hstatus : ∀ c, (saveRow command command₁ c).status = c.status := by
        intro c
        unfold saveRow
        split
        · simp [flushCommand, hdisp, hok.status]
        · rfl
      apply hwf.mapCommands (saveRow_same command command₁) hchk
      · intro c _ ht
        rw [hstatus c]
        exact ht
      · intro c _ hd
        rw [hstatus c] at hd
        exact .inl hd
    have hknown₁ : answer.status = .other → KnowsPending db₁ attempt command₁ := by
      intro hstatus
      obtain ⟨rfl, -⟩ := saveCommand_eq_some hsave
      intro a ha haid hp
      rw [hw.same.commandId] at hp
      obtain ⟨hrunning, hnative⟩ := hknown' hstatus a ha haid hp
      refine ⟨hrunning, ?_⟩
      rw [hnative, nativeRequestIdOf, nativeRequestIdOf, hw.same.sequenceNo]
    have hgates := h₁.recordStatus hwf₁ hok₁ flights (hw.same.attemptId.trans hattempt) hknown₁ hrec
    have hrows := recordStatus_rows hwf₁ hok₁ hrec
    refine ⟨⟨hgates.gates, hframe₁.trans hgates.frame, hgates.attemptId, hgates.taskId⟩,
      hno₁.trans hrows.noNew, ?_, ?_⟩
    · intro hagain
      rw [← hw.same.commandId]
      exact hrows.ended hagain
    · intro hagain hamb
      have := hno₁.still (hrows.still hagain hamb)
      rwa [hw.same.commandId] at this

end Pump

end Codify.Harness.Commands

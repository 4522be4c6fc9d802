import Codify.Harness.CommandPump

/-! # The Invariant of the Command Rows

    The invariant is stated over the committed rows, the commands in flight
    and the history of sends (`Plane`):

    * the tables are well formed: unique keys, numbered commands, satisfied
      constraints, and no command in flight behind a live one (`Db.WF`);
    * the row of a command in flight is as its pump knows it, unless somebody
      else has terminalized it (`FlightOk`);
    * a queued command may be sent: every send of it was put back.

    Every operation writes the command rows by a map that keeps the identity of
    a row, so one lemma about such maps (`Plane.mapCommands`) carries all of
    them. Along with the invariant each lemma says that commands that have ended
    keep their end (`Keeps`).
-/

namespace Codify.Harness.Commands

open Codify Codify.Framework List CommandStatus TaskHarnessCommand

/-! ### Rows -/

/-- The columns that identify a command never change. -/
structure SameCommand (c c' : TaskHarnessCommand) : Prop where
  commandId : c'.commandId = c.commandId
  taskId : c'.taskId = c.taskId
  attemptId : c'.attemptId = c.attemptId
  sequenceNo : c'.sequenceNo = c.sequenceNo
  commandType : c'.commandType = c.commandType

theorem SameCommand.refl (c : TaskHarnessCommand) : SameCommand c c := ⟨rfl, rfl, rfl, rfl, rfl⟩

theorem SameCommand.trans {c c' c'' : TaskHarnessCommand} (h : SameCommand c c')
    (h' : SameCommand c' c'') : SameCommand c c'' :=
  ⟨h'.1.trans h.1, h'.2.trans h.2, h'.3.trans h.3, h'.4.trans h.4, h'.5.trans h.5⟩

/-- A command that has ended keeps its status and, where `stamps` asks for it, its terminal
    timestamps. -/
structure SameEnd (stamps : Prop) (c c' : TaskHarnessCommand) : Prop where
  status : c'.status = c.status
  timestamps : stamps → c'.deliveredAt = c.deliveredAt ∧ c'.rejectedAt = c.rejectedAt ∧
    c'.outcomeUnknownAt = c.outcomeUnknownAt

theorem SameEnd.refl (stamps : Prop) (c : TaskHarnessCommand) : SameEnd stamps c c :=
  ⟨rfl, fun _ => ⟨rfl, rfl, rfl⟩⟩

/-- Every command that has ended is still there with the same end. -/
def Keeps (stamps : Prop) (db db' : Db) : Prop :=
  ∀ c ∈ db.commands, c.status.terminal = true →
    ∃ c' ∈ db'.commands, c'.commandId = c.commandId ∧ SameEnd stamps c c'

theorem Keeps.refl (stamps : Prop) (db : Db) : Keeps stamps db db := by
  intro c hc _
  exact ⟨c, hc, rfl, SameEnd.refl stamps c⟩

theorem Keeps.trans {stamps : Prop} {db db' db'' : Db} (h : Keeps stamps db db')
    (h' : Keeps stamps db' db'') : Keeps stamps db db'' := by
  intro c hc hterm
  obtain ⟨c₁, hc₁, hid₁, hend₁⟩ := h c hc hterm
  obtain ⟨c₂, hc₂, hid₂, hend₂⟩ := h' c₁ hc₁ (by rw [hend₁.status]; exact hterm)
  refine ⟨c₂, hc₂, hid₂.trans hid₁, hend₂.status.trans hend₁.status, ?_⟩
  intro hst
  obtain ⟨hd₁, hr₁, hu₁⟩ := hend₁.timestamps hst
  obtain ⟨hd₂, hr₂, hu₂⟩ := hend₂.timestamps hst
  exact ⟨hd₂.trans hd₁, hr₂.trans hr₁, hu₂.trans hu₁⟩

theorem Keeps.of_commands_eq {stamps : Prop} {db db' : Db} (h : db'.commands = db.commands) :
    Keeps stamps db db' := by
  intro c hc _
  exact ⟨c, h ▸ hc, rfl, SameEnd.refl stamps c⟩

/-! ### Tables -/

/-- The tables are well formed. -/
structure Db.WF (db : Db) : Prop where
  attemptIds : Table.KeyUnique (·.attemptId) db.attempts
  commandIds : Table.KeyUnique (·.commandId) db.commands
  /-- The commands of an attempt are numbered from 1, and the next number is free. -/
  numbered : ∀ a ∈ db.attempts, ∃ n,
    (db.commandsOf a.attemptId).map (·.sequenceNo) = List.range' 1 n ∧
      a.nextCommandSequence = n + 1
  owned : ∀ c ∈ db.commands, ∃ a ∈ db.attempts, a.attemptId = c.attemptId ∧ a.taskId = c.taskId
  checked : ∀ c ∈ db.commands, c.checks = true
  /-- A command in flight has no live predecessor. -/
  ordered : ∀ c ∈ db.commands, c.status = .dispatching →
    ∀ c' ∈ db.commands, c'.attemptId = c.attemptId → c'.sequenceNo < c.sequenceNo →
      c'.status.terminal = true

variable {attemptId commandId reason : String} {c c' head : TaskHarnessCommand}
  {f : TaskHarnessCommand → TaskHarnessCommand} {now : DateTime} {taskId : Nat}
  {attempt attempt' a : TaskHarnessAttempt} {env : CommandEnv} {request : CreateRequest}
  {result : CommandCreateResult}

theorem mem_commandsOf {db : Db} :
    c ∈ db.commandsOf attemptId ↔ c ∈ db.commands ∧ c.attemptId = attemptId := by
  simp [Db.commandsOf]

theorem commandsOf_mapCommands
    (hid : ∀ c, SameCommand c (f c)) (db : Db) (attemptId : String) :
    (db.mapCommands f).commandsOf attemptId = (db.commandsOf attemptId).map f := by
  have hpred : (fun c => decide (c.attemptId = attemptId)) ∘ f =
      fun c : TaskHarnessCommand => decide (c.attemptId = attemptId) := by
    funext c
    simp [(hid c).attemptId]
  simp only [Db.commandsOf, Db.mapCommands, filter_map, hpred]

theorem Db.WF.eq_of_sequenceNo {db : Db} (hwf : db.WF)
    (hc : c ∈ db.commands) (hc' : c' ∈ db.commands) (hattempt : c'.attemptId = c.attemptId)
    (hseq : c'.sequenceNo = c.sequenceNo) : c' = c := by
  obtain ⟨a, ha, haid, _⟩ := hwf.owned c hc
  obtain ⟨n, hnum, _⟩ := hwf.numbered a ha
  have hnodup : ((db.commandsOf a.attemptId).map (·.sequenceNo)).Nodup := by
    rw [hnum]
    exact nodup_range'
  apply inj_on_of_nodup_map hnodup
  · exact mem_commandsOf.mpr ⟨hc', hattempt.trans haid.symm⟩
  · exact mem_commandsOf.mpr ⟨hc, haid.symm⟩
  · exact hseq

attribute [local simp] terminal

theorem Db.WF.dispatching_unique {db : Db} (hwf : db.WF)
    (hc : c ∈ db.commands) (hc' : c' ∈ db.commands) (hattempt : c'.attemptId = c.attemptId)
    (hst : c.status = .dispatching) (hst' : c'.status = .dispatching) : c' = c := by
  rcases Nat.lt_trichotomy c'.sequenceNo c.sequenceNo with hlt | heq | hgt
  · have hterm := hwf.ordered c hc hst c' hc' hattempt hlt
    simp [hst', live] at hterm
  · exact hwf.eq_of_sequenceNo hc hc' hattempt heq
  · have hterm := hwf.ordered c' hc' hst' c hc hattempt.symm hgt
    simp [hst, live] at hterm

theorem Db.WF.mapCommands {db : Db} (hwf : db.WF)
    (hid : ∀ c, SameCommand c (f c)) (hchk : ∀ c ∈ db.commands, (f c).checks = true)
    (hterm : ∀ c ∈ db.commands, c.status.terminal = true → (f c).status.terminal = true)
    (hdisp : ∀ c ∈ db.commands, (f c).status = .dispatching → c.status = .dispatching ∨
      ∀ c' ∈ db.commands, c'.attemptId = c.attemptId → c'.sequenceNo < c.sequenceNo →
        c'.status.terminal = true) :
    (db.mapCommands f).WF where
  attemptIds := hwf.attemptIds
  commandIds := hwf.commandIds.map fun c => (hid c).commandId
  numbered := by
    intro a ha
    obtain ⟨n, hnum, hnext⟩ := hwf.numbered a ha
    refine ⟨n, ?_, hnext⟩
    rw [commandsOf_mapCommands hid, map_map, ← hnum]
    exact map_congr_left fun c _ => (hid c).sequenceNo
  owned := by
    intro c' hc'
    obtain ⟨c, hc, rfl⟩ := mem_map.mp hc'
    obtain ⟨a, ha, haid, hatask⟩ := hwf.owned c hc
    exact ⟨a, ha, haid.trans (hid c).attemptId.symm, hatask.trans (hid c).taskId.symm⟩
  checked := by
    intro c' hc'
    obtain ⟨c, hc, rfl⟩ := mem_map.mp hc'
    exact hchk c hc
  ordered := by
    intro c₁ hc₁ hst c₂ hc₂ hattempt hlt
    obtain ⟨c, hc, rfl⟩ := mem_map.mp hc₁
    obtain ⟨c', hc', rfl⟩ := mem_map.mp hc₂
    rw [(hid c).attemptId, (hid c').attemptId] at hattempt
    rw [(hid c).sequenceNo, (hid c').sequenceNo] at hlt
    apply hterm c' hc'
    rcases hdisp c hc hst with hold | hnew
    · exact hwf.ordered c hc hold c' hc' hattempt hlt
    · exact hnew c' hc' hattempt hlt

theorem Db.WF.updateAttempt {db : Db} (hwf : db.WF) (attemptId : String)
    {f : TaskHarnessAttempt → TaskHarnessAttempt} (hid : ∀ a, (f a).attemptId = a.attemptId)
    (htask : ∀ a, (f a).taskId = a.taskId)
    (hnext : ∀ a, (f a).nextCommandSequence = a.nextCommandSequence) :
    (db.updateAttempt attemptId f).WF where
  attemptIds := by
    apply hwf.attemptIds.map
    intro a
    split
    · exact hid a
    · rfl
  commandIds := hwf.commandIds
  numbered := by
    intro a' ha'
    obtain ⟨a, ha, rfl⟩ := mem_map.mp ha'
    obtain ⟨n, hnum, hn⟩ := hwf.numbered a ha
    refine ⟨n, ?_, ?_⟩
    · split
      · rw [hid a]; exact hnum
      · exact hnum
    · split
      · rw [hnext a]; exact hn
      · exact hn
  owned := by
    intro c hc
    obtain ⟨a, ha, haid, hatask⟩ := hwf.owned c hc
    refine ⟨_, mem_map_of_mem ha, ?_, ?_⟩
    · split
      · rw [hid a]; exact haid
      · exact haid
    · split
      · rw [htask a]; exact hatask
      · exact hatask
  checked := hwf.checked
  ordered := hwf.ordered

/-! ### Sends -/

/-- Every send of a command in the history (newest first) was put back afterwards. -/
def Resendable (commandId : String) (history : List SendEvent) : Prop :=
  ∀ newer older, history = newer ++ .sent commandId :: older → .requeued commandId ∈ newer

/-- Between two sends of one command it was put back. -/
def NoResend (history : List SendEvent) : Prop :=
  ∀ newer between older commandId,
    history = newer ++ .sent commandId :: between ++ .sent commandId :: older →
      .requeued commandId ∈ between

theorem Resendable.cons {history : List SendEvent} {e : SendEvent}
    (h : Resendable commandId history) (he : e ≠ .sent commandId) :
    Resendable commandId (e :: history) := by
  intro newer older heq
  cases newer with
  | nil => exact absurd (List.cons.inj heq).1 he
  | cons e' newer =>
    obtain ⟨rfl, hrest⟩ := List.cons.inj heq
    exact mem_cons_of_mem _ (h newer older hrest)

theorem resendable_requeued (commandId : String) (history : List SendEvent) :
    Resendable commandId (.requeued commandId :: history) := by
  intro newer older heq
  cases newer with
  | nil => exact absurd (List.cons.inj heq).1 (by simp)
  | cons e newer =>
    obtain ⟨rfl, _⟩ := List.cons.inj heq
    exact mem_cons_self

theorem resendable_of_not_sent {history : List SendEvent}
    (h : .sent commandId ∉ history) : Resendable commandId history := by
  intro newer older heq
  exact absurd (by rw [heq]; simp) h

theorem NoResend.requeued {history : List SendEvent} (h : NoResend history)
    (commandId : String) : NoResend (.requeued commandId :: history) := by
  intro newer between older id heq
  cases newer with
  | nil => exact absurd (List.cons.inj heq).1 (by simp)
  | cons e newer => exact h newer between older id (List.cons.inj heq).2

theorem NoResend.sent {history : List SendEvent} (h : NoResend history)
    (hr : Resendable commandId history) : NoResend (.sent commandId :: history) := by
  intro newer between older id heq
  cases newer with
  | nil =>
    obtain ⟨hid, hrest⟩ := List.cons.inj heq
    obtain rfl : commandId = id := by simpa using hid
    exact hr between older hrest
  | cons e newer => exact h newer between older id (List.cons.inj heq).2

/-! ### The Invariant -/

/-- A command object in flight: its row is as the session knows it, unless somebody else has
    terminalized it, and no predecessor is live. -/
structure FlightOk (db : Db) (command : TaskHarnessCommand) : Prop where
  status : command.status = .dispatching
  checked : command.checks = true
  row : ∃ row ∈ db.commands, SameCommand command row ∧
    (row = command ∨ row.status = .outcomeUnknown)
  first : ∀ c ∈ db.commands, c.attemptId = command.attemptId →
    c.sequenceNo < command.sequenceNo → c.status.terminal = true

/-- The invariant of the committed rows, the commands in flight and the history. -/
structure Plane (db : Db) (flights : TaskHarnessCommand → Prop) (history : List SendEvent) :
    Prop where
  wf : db.WF
  flight : ∀ command, flights command → FlightOk db command
  resendable : ∀ c ∈ db.commands, c.status = .queued → Resendable c.commandId history
  known : ∀ commandId, .sent commandId ∈ history → ∃ c ∈ db.commands, c.commandId = commandId
  once : NoResend history

variable {db db' : Db} {flights : TaskHarnessCommand → Prop} {history : List SendEvent}
variable {stamps : Prop}

theorem FlightOk.not_queued (hwf : db.WF) {command c : TaskHarnessCommand}
    (h : FlightOk db command) (hc : c ∈ db.commands) (hid : c.commandId = command.commandId) :
    c.status = .dispatching ∨ c.status = .outcomeUnknown := by
  obtain ⟨row, hrow, hsame, hcases⟩ := h.row
  obtain rfl : c = row := hwf.commandIds.eq_of_key_eq hc hrow (hid.trans hsame.commandId.symm)
  rcases hcases with rfl | hunknown
  · exact .inl h.status
  · exact .inr hunknown

theorem Plane.mono {flights' : TaskHarnessCommand → Prop} (h : Plane db flights history)
    (hsub : ∀ c, flights' c → flights c) : Plane db flights' history :=
  { h with flight := fun c hc => h.flight c (hsub c hc) }

theorem Plane.mapCommands (h : Plane db flights history)
    (hid : ∀ c, SameCommand c (f c))
    (hchk : ∀ c ∈ db.commands, (f c).checks = true)
    (hend : ∀ c ∈ db.commands, c.status.terminal = true → SameEnd stamps c (f c))
    (hdisp : ∀ c ∈ db.commands, (f c).status = .dispatching → c.status = .dispatching ∨
      ∀ c' ∈ db.commands, c'.attemptId = c.attemptId → c'.sequenceNo < c.sequenceNo →
        c'.status.terminal = true)
    (hflight : ∀ command, flights command → ∀ c ∈ db.commands,
      c.commandId = command.commandId → f c = c ∨ (f c).status = .outcomeUnknown)
    (hqueued : ∀ c ∈ db.commands, (f c).status = .queued → Resendable c.commandId history) :
    Plane (db.mapCommands f) flights history ∧ Keeps stamps db (db.mapCommands f) := by
  have hterm : ∀ c ∈ db.commands, c.status.terminal = true → (f c).status.terminal = true := by
    intro c hc ht
    rw [(hend c hc ht).status]
    exact ht
  refine ⟨⟨h.wf.mapCommands hid hchk hterm hdisp, ?_, ?_, ?_, h.once⟩, ?_⟩
  · intro command hcommand
    have hok := h.flight command hcommand
    obtain ⟨row, hrow, hsame, hcases⟩ := hok.row
    refine ⟨hok.status, hok.checked, ⟨f row, mem_map_of_mem hrow, hsame.trans (hid row), ?_⟩, ?_⟩
    · -- an untouched row stays what it was, a touched one is unknown
      rcases hflight command hcommand row hrow hsame.commandId with heq | hunknown
      · rw [heq]; exact hcases
      · exact .inr hunknown
    · intro c' hc' hattempt hlt
      obtain ⟨c, hc, rfl⟩ := mem_map.mp hc'
      rw [(hid c).attemptId] at hattempt
      rw [(hid c).sequenceNo] at hlt
      exact hterm c hc (hok.first c hc hattempt hlt)
  · intro c' hc' hst
    obtain ⟨c, hc, rfl⟩ := mem_map.mp hc'
    rw [(hid c).commandId]
    exact hqueued c hc hst
  · intro commandId hsent
    obtain ⟨c, hc, hcid⟩ := h.known commandId hsent
    exact ⟨f c, mem_map_of_mem hc, (hid c).commandId.trans hcid⟩
  · intro c hc ht
    exact ⟨f c, mem_map_of_mem hc, (hid c).commandId, hend c hc ht⟩

/-- Terminalizing rows: a queued command is rejected, one in flight becomes unknown. -/
theorem Plane.terminalize (h : Plane db flights history)
    (hid : ∀ c, SameCommand c (f c))
    (hchk : ∀ c ∈ db.commands, (f c).checks = true)
    (hcases : ∀ c ∈ db.commands, f c = c ∨ (c.status = .queued ∧ (f c).status = .rejected) ∨
      (c.status = .dispatching ∧ (f c).status = .outcomeUnknown)) :
    Plane (db.mapCommands f) flights history ∧ Keeps stamps db (db.mapCommands f) := by
  apply h.mapCommands hid hchk
  · intro c hc ht
    rcases hcases c hc with heq | ⟨hst, _⟩ | ⟨hst, _⟩
    · rw [heq]; exact SameEnd.refl stamps c
    · simp [hst, live] at ht
    · simp [hst, live] at ht
  · intro c hc hst
    rcases hcases c hc with heq | ⟨_, hnew⟩ | ⟨hold, _⟩
    · rw [heq] at hst; exact .inl hst
    · simp [hnew] at hst
    · exact .inl hold
  · intro command hcommand c hc hcid
    rcases hcases c hc with heq | ⟨hst, _⟩ | ⟨_, hnew⟩
    · exact .inl heq
    · rcases (h.flight command hcommand).not_queued h.wf hc hcid with hd | hu
      · simp [hst] at hd
      · simp [hst] at hu
    · exact .inr hnew
  · intro c hc hst
    rcases hcases c hc with heq | ⟨_, hnew⟩ | ⟨_, hnew⟩
    · rw [heq] at hst; exact h.resendable c hc hst
    · simp [hnew] at hst
    · simp [hnew] at hst

theorem Plane.updateAttempt (h : Plane db flights history) (attemptId : String)
    {f : TaskHarnessAttempt → TaskHarnessAttempt} (hid : ∀ a, (f a).attemptId = a.attemptId)
    (htask : ∀ a, (f a).taskId = a.taskId)
    (hnext : ∀ a, (f a).nextCommandSequence = a.nextCommandSequence) :
    Plane (db.updateAttempt attemptId f) flights history where
  wf := h.wf.updateAttempt attemptId hid htask hnext
  flight := fun c hc =>
    let hok := h.flight c hc
    ⟨hok.status, hok.checked, hok.row, hok.first⟩
  resendable := h.resendable
  known := h.known
  once := h.once

theorem Plane.requeued (h : Plane db flights history) (commandId : String) :
    Plane db flights (.requeued commandId :: history) where
  wf := h.wf
  flight := h.flight
  resendable := fun c hc hst => (h.resendable c hc hst).cons (by simp)
  known := by
    intro id hsent
    exact h.known id (by simpa using hsent)
  once := h.once.requeued commandId

/-- The transport is invoked for a command that was queued and is not any more. -/
theorem Plane.sent (h : Plane db flights history) {command : TaskHarnessCommand}
    (hok : FlightOk db command) (hr : Resendable command.commandId history) :
    Plane db (fun c => flights c ∨ c = command) (.sent command.commandId :: history) where
  wf := h.wf
  flight := by
    rintro c (hc | rfl)
    · exact h.flight c hc
    · exact hok
  resendable := by
    intro c hc hst
    refine (h.resendable c hc hst).cons ?_
    intro heq
    have hcid : c.commandId = command.commandId := by simpa using heq.symm
    rcases hok.not_queued h.wf hc hcid with hd | hu
    · simp [hst] at hd
    · simp [hst] at hu
  known := by
    intro id hsent
    rcases mem_cons.mp hsent with heq | hold
    · obtain rfl : id = command.commandId := by simpa using heq
      obtain ⟨row, hrow, hsame, _⟩ := hok.row
      exact ⟨row, hrow, hsame.commandId⟩
    · exact h.known id hold
  once := h.once.sent hr

/-! ### Constraints -/

theorem checks_live (h : c.checks = true) (hlive : c.status.live = true) :
    c.deliveredAt = none ∧ c.rejectedAt = none ∧ c.outcomeUnknownAt = none := by
  simp only [checks, Bool.and_eq_true, beq_iff_eq] at h
  obtain ⟨⟨⟨hnone, -⟩, -⟩, hunknown⟩ := h
  rw [hlive, Bool.true_or, eq_comm, Bool.and_eq_true] at hnone
  refine ⟨by simpa using hnone.1, by simpa using hnone.2, ?_⟩
  have hne : c.status ≠ .outcomeUnknown := by
    intro hst
    simp [hst, live] at hlive
  rw [beq_false_of_ne hne] at hunknown
  simpa using hunknown.symm

theorem checks_outcomeUnknown (h : c.checks = true) :
    c.status = .outcomeUnknown ↔ c.outcomeUnknownAt.isSome = true := by
  simp only [checks, Bool.and_eq_true, beq_iff_eq] at h
  rw [← h.2]
  simp

theorem rejectQueued_same (attemptId reason : String) (now : DateTime) (c : TaskHarnessCommand) :
    SameCommand c (rejectQueued attemptId reason now c) := by
  unfold rejectQueued writeCommandRejection
  split
  · split <;> exact ⟨rfl, rfl, rfl, rfl, rfl⟩
  · exact SameCommand.refl c

theorem abandonDispatching_same (attemptId : String) (now : DateTime) (c : TaskHarnessCommand) :
    SameCommand c (abandonDispatching attemptId now c) := by
  unfold abandonDispatching writeCommandOutcomeUnknown
  split
  · split <;> exact ⟨rfl, rfl, rfl, rfl, rfl⟩
  · exact SameCommand.refl c

theorem rejectQueued_cases (attemptId reason : String) (now : DateTime) (c : TaskHarnessCommand) :
    rejectQueued attemptId reason now c = c ∧ ¬ (c.attemptId = attemptId ∧ c.status = .queued) ∨
      c.attemptId = attemptId ∧ c.status = .queued ∧
        (rejectQueued attemptId reason now c).status = .rejected := by
  unfold rejectQueued writeCommandRejection
  split
  · next hc => simp [hc, live]
  · next hc => exact .inl ⟨rfl, hc⟩

theorem abandonDispatching_cases (attemptId : String) (now : DateTime) (c : TaskHarnessCommand) :
    abandonDispatching attemptId now c = c ∧
        ¬ (c.attemptId = attemptId ∧ c.status = .dispatching) ∨
      c.attemptId = attemptId ∧ c.status = .dispatching ∧
        (abandonDispatching attemptId now c).status = .outcomeUnknown := by
  unfold abandonDispatching writeCommandOutcomeUnknown
  split
  · next hc => simp [hc]
  · next hc => exact .inl ⟨rfl, hc⟩

theorem rejectQueued_of_terminal (h : c.status.terminal = true) :
    rejectQueued attemptId reason now c = c := by
  rcases rejectQueued_cases attemptId reason now c with ⟨heq, -⟩ | ⟨-, hst, -⟩
  · exact heq
  · simp [hst, live] at h

theorem abandonDispatching_of_terminal (h : c.status.terminal = true) :
    abandonDispatching attemptId now c = c := by
  rcases abandonDispatching_cases attemptId now c with ⟨heq, -⟩ | ⟨-, hst, -⟩
  · exact heq
  · simp [hst, live] at h

theorem rejectQueued_checks
    (h : c.checks = true) : (rejectQueued attemptId reason now c).checks = true := by
  unfold rejectQueued writeCommandRejection
  split
  · next hc =>
    obtain ⟨hd, -, hu⟩ := checks_live h (by simp [hc.2, live])
    simp [hc.2, live, checks, hd, hu]
  · exact h

theorem abandonDispatching_checks
    (h : c.checks = true) : (abandonDispatching attemptId now c).checks = true := by
  unfold abandonDispatching writeCommandOutcomeUnknown
  split
  · next hc =>
    obtain ⟨hd, hr, -⟩ := checks_live h (by simp [hc.2, live])
    simp [hc.2, live, checks, hd, hr]
  · exact h

/-! ### Gate Transitions -/

variable (stamps)

theorem Plane.rejectQueued (h : Plane db flights history) (attemptId reason : String)
    (now : DateTime) :
    Plane (db.mapCommands (rejectQueued attemptId reason now)) flights history ∧
      Keeps stamps db (db.mapCommands (rejectQueued attemptId reason now)) := by
  apply h.terminalize (rejectQueued_same attemptId reason now)
  · exact fun c hc => rejectQueued_checks (h.wf.checked c hc)
  · intro c _
    rcases rejectQueued_cases attemptId reason now c with ⟨heq, _⟩ | ⟨_, hst, hnew⟩
    · exact .inl heq
    · exact .inr (.inl ⟨hst, hnew⟩)

theorem Plane.abandonDispatching (h : Plane db flights history) (attemptId : String)
    (now : DateTime) :
    Plane (db.mapCommands (abandonDispatching attemptId now)) flights history ∧
      Keeps stamps db (db.mapCommands (abandonDispatching attemptId now)) := by
  apply h.terminalize (abandonDispatching_same attemptId now)
  · exact fun c hc => abandonDispatching_checks (h.wf.checked c hc)
  · intro c _
    rcases abandonDispatching_cases attemptId now c with ⟨heq, _⟩ | ⟨_, hst, hnew⟩
    · exact .inl heq
    · exact .inr (.inr ⟨hst, hnew⟩)

theorem Plane.closeControlGate (h : Plane db flights history) (attemptId reason : String)
    (now : DateTime) :
    Plane (closeControlGate attemptId reason now db) flights history ∧
      Keeps stamps db (closeControlGate attemptId reason now db) := by
  have h₀ := h.updateAttempt attemptId (f := TaskHarnessAttempt.closeGate)
    (fun _ => rfl) (fun _ => rfl) (fun _ => rfl)
  obtain ⟨h₁, hk₁⟩ := h₀.rejectQueued stamps attemptId reason now
  obtain ⟨h₂, hk₂⟩ := h₁.abandonDispatching stamps attemptId now
  exact ⟨h₂, Keeps.trans hk₁ hk₂⟩

theorem Plane.closeControlGates (attempts : List TaskHarnessAttempt) (reason : String)
    (now : DateTime) (h : Plane db flights history) :
    let db' := attempts.foldl (fun db a => Commands.closeControlGate a.attemptId reason now db) db
    Plane db' flights history ∧ Keeps stamps db db' := by
  induction attempts generalizing db with
  | nil => exact ⟨h, Keeps.refl stamps db⟩
  | cons a attempts ih =>
    obtain ⟨h₁, hk₁⟩ := h.closeControlGate stamps a.attemptId reason now
    obtain ⟨h₂, hk₂⟩ := ih h₁
    exact ⟨h₂, hk₁.trans hk₂⟩

/-- `request_force_close_after_unknown_follow_up` and what it leaves of the commands. -/
theorem Plane.failPendingFollowUp (h : Plane db flights history) (attempt : TaskHarnessAttempt)
    (command : TaskHarnessCommand) (reason : String) (now : DateTime) :
    Plane (failPendingFollowUp attempt command reason now db).1 flights history ∧
      Keeps stamps db (failPendingFollowUp attempt command reason now db).1 := by
  unfold Commands.failPendingFollowUp requestForceCloseAfterUnknownFollowUp
  split
  · split
    · next db' hsome =>
      split at hsome
      · cases hsome
        have h₀ := h.updateAttempt attempt.attemptId (f := TaskHarnessAttempt.forceClose)
          (fun _ => rfl) (fun _ => rfl) (fun _ => rfl)
        exact h₀.rejectQueued stamps attempt.attemptId reason now
      · cases hsome
    · exact ⟨h, Keeps.refl stamps db⟩
  · exact ⟨h, Keeps.refl stamps db⟩

theorem Plane.clearPendingFollowUp (h : Plane db flights history) (attempt : TaskHarnessAttempt)
    (command : TaskHarnessCommand) :
    Plane (clearPendingFollowUp attempt command db).1 flights history ∧
      Keeps stamps db (clearPendingFollowUp attempt command db).1 := by
  unfold Commands.clearPendingFollowUp
  split
  · refine ⟨h.updateAttempt attempt.attemptId ?_ ?_ ?_, Keeps.of_commands_eq rfl⟩ <;>
      (intro a; split <;> rfl)
  · exact ⟨h, Keeps.refl stamps db⟩

/-! ### Saving a Command Object -/

def saveRow (loaded current c : TaskHarnessCommand) : TaskHarnessCommand :=
  if c.commandId = loaded.commandId then flushCommand loaded current c else c

theorem saveRow_same (loaded current c : TaskHarnessCommand) :
    SameCommand c (saveRow loaded current c) := by
  unfold saveRow
  split
  · exact ⟨rfl, rfl, rfl, rfl, rfl⟩
  · exact SameCommand.refl c

theorem saveRow_of_ne {loaded current c : TaskHarnessCommand} (h : c.commandId ≠ loaded.commandId) :
    saveRow loaded current c = c := if_neg h

theorem saveCommand_eq_some {loaded current : TaskHarnessCommand}
    (h : saveCommand loaded current db = some db') :
    db' = db.mapCommands (saveRow loaded current) ∧
      ∀ c ∈ db.commands, (saveRow loaded current c).checks = true := by
  simp only [saveCommand] at h
  split at h
  · next hall =>
    refine ⟨(Option.some.inj h).symm, ?_⟩
    intro c hc
    exact all_eq_true.mp hall _ (mem_map_of_mem hc)
  · cases h

/-- A writer either refuses, and nothing is written, or its object is flushed. -/
theorem writeThrough_cases {command current : TaskHarnessCommand}
    {written : Option TaskHarnessCommand} {wrote : Bool}
    (h : writeThrough command written db = some (db', current, wrote)) :
    written = none ∧ db' = db ∧ wrote = false ∨
      written = some current ∧ saveCommand command current db = some db' ∧ wrote = true := by
  unfold writeThrough at h
  split at h
  · obtain ⟨rfl, rfl, rfl⟩ : db = db' ∧ command = current ∧ false = wrote := by simpa using h
    exact .inl ⟨rfl, rfl, rfl⟩
  · obtain ⟨_, hsave, heq⟩ := Option.map_eq_some_iff.mp h
    obtain ⟨rfl, rfl, rfl⟩ := Prod.mk.injEq .. ▸ heq
    exact .inr ⟨rfl, hsave, rfl⟩

/-- The object that a writer leaves differs from its argument in status, timestamps and
    delivery columns only. -/
structure WrittenFrom (command current : TaskHarnessCommand) : Prop where
  flushed : flushCommand command current command = current
  unknownAt : current.status ≠ .outcomeUnknown →
    current.outcomeUnknownAt = command.outcomeUnknownAt
  marked : current.status = .dispatching → command.status = .dispatching →
    current.deliveredAt = command.deliveredAt ∧ current.rejectedAt = command.rejectedAt

theorem WrittenFrom.same {command current : TaskHarnessCommand} (h : WrittenFrom command current) :
    SameCommand command current := by
  rw [← h.flushed]
  exact ⟨rfl, rfl, rfl, rfl, rfl⟩

theorem WrittenFrom.saveRow_self {command current : TaskHarnessCommand}
    (h : WrittenFrom command current) : saveRow command current command = current := by
  unfold saveRow
  rw [if_pos rfl]
  exact h.flushed

section WriterSpecs

variable {command current : TaskHarnessCommand}

theorem beginCommandDispatch_spec {startedAt : DateTime}
    (h : beginCommandDispatch command startedAt = some current) :
    WrittenFrom command current ∧ command.status = .queued ∧ current.status = .dispatching := by
  unfold beginCommandDispatch at h
  split at h
  · next hst =>
    cases h
    refine ⟨⟨by simp [flushCommand], by simp, ?_⟩, hst, rfl⟩
    intro _ hd
    simp [hst] at hd
  · cases h

theorem markCommandNativeSent_spec {nativeRequestId : Option String} {sentAt : DateTime}
    (h : markCommandNativeSent command nativeRequestId sentAt = some current) :
    WrittenFrom command current ∧ command.status = .dispatching ∧
      current.status = .dispatching := by
  unfold markCommandNativeSent at h
  split at h
  · next hst =>
    cases h
    exact ⟨⟨by simp [flushCommand], by simp, by simp⟩, hst, hst⟩
  · cases h

theorem writeCommandDelivery_spec {deliveredAt : DateTime}
    (h : writeCommandDelivery command deliveredAt = some current) :
    WrittenFrom command current ∧ command.status = .dispatching ∧
      current.status = .delivered := by
  unfold writeCommandDelivery at h
  split at h
  · next hst =>
    cases h
    exact ⟨⟨by simp [flushCommand], by simp, by simp⟩, hst, rfl⟩
  · cases h

theorem writeCommandRejection_spec {code message : String} {rejectedAt : DateTime}
    (h : writeCommandRejection command code message rejectedAt = some current) :
    WrittenFrom command current ∧ command.status.live = true ∧ current.status = .rejected := by
  unfold writeCommandRejection at h
  split at h
  · next hst =>
    cases h
    exact ⟨⟨by simp [flushCommand], by simp, by simp⟩, hst, rfl⟩
  · cases h

theorem requeuePreSendFailure_spec (h : requeuePreSendFailure command = some current) :
    WrittenFrom command current ∧ command.status = .dispatching ∧ current.status = .queued := by
  unfold requeuePreSendFailure at h
  split at h
  · next hst =>
    cases h
    exact ⟨⟨by simp [flushCommand], by simp, by simp⟩, hst.1, rfl⟩
  · cases h

theorem writeCommandOutcomeUnknown_spec {message : String} {occurredAt : DateTime}
    (h : writeCommandOutcomeUnknown command message occurredAt = some current) :
    WrittenFrom command current ∧ command.status = .dispatching ∧
      current.status = .outcomeUnknown := by
  unfold writeCommandOutcomeUnknown at h
  split at h
  · next hst =>
    cases h
    exact ⟨⟨by simp [flushCommand], by simp, by simp⟩, hst, rfl⟩
  · cases h

end WriterSpecs

/-- A stale write over an unknown outcome: either the constraints refuse it, or the outcome
    stays unknown. -/
theorem saveRow_over_unknown {command current row : TaskHarnessCommand}
    (hw : WrittenFrom command current) (hdisp : command.status = .dispatching)
    (hid : row.commandId = command.commandId) (hrow : row.checks = true)
    (hunknown : row.status = .outcomeUnknown) (hchk : (saveRow command current row).checks = true) :
    (saveRow command current row).status = .outcomeUnknown ∧
      (current.status ≠ .outcomeUnknown → SameEnd stamps row (saveRow command current row)) := by
  have hrow_at := (checks_outcomeUnknown hrow).mp hunknown
  have hnew := checks_outcomeUnknown hchk
  have hsave : saveRow command current row = flushCommand command current row := if_pos hid
  rw [hsave] at hnew ⊢
  by_cases hcur : current.status = .outcomeUnknown
  · have hstatus : (flushCommand command current row).status = .outcomeUnknown := by
      simp [flushCommand, flushColumn, hdisp, hcur]
    exact ⟨hstatus, fun hne => absurd hcur hne⟩
  · -- the timestamp of the other writer is still there, so the status has to be too
    have hat : (flushCommand command current row).outcomeUnknownAt = row.outcomeUnknownAt := by
      simp [flushCommand, hw.unknownAt hcur]
    have hstatus : (flushCommand command current row).status = .outcomeUnknown := by
      apply hnew.mpr
      rw [hat]
      exact hrow_at
    have hmark : current.status = .dispatching := by
      by_contra hne
      have : (flushCommand command current row).status = current.status := by
        simp [flushCommand, flushColumn, hdisp, hne]
      exact hcur (this.symm.trans hstatus)
    obtain ⟨hdel, hrej⟩ := hw.marked hmark hdisp
    refine ⟨hstatus, fun _ => ⟨hstatus.trans hunknown.symm, fun _ => ⟨?_, ?_, hat⟩⟩⟩
    · simp [flushCommand, hdel]
    · simp [flushCommand, hrej]

/-- The row of a command is still dispatching. -/
def StillDispatching (db : Db) (commandId : String) : Prop :=
  ∃ row ∈ db.commands, row.commandId = commandId ∧ row.status = .dispatching

/-- What a flush of a command in flight does to each row: other rows stay, the command's row
    becomes the object, and an outcome that somebody else made unknown stays unknown. -/
theorem FlightOk.saveRow_cases {command current : TaskHarnessCommand} (hok : FlightOk db command)
    (hwf : db.WF) (hw : WrittenFrom command current)
    (hsave : saveCommand command current db = some db')
    (hc : c ∈ db.commands) :
    (c.commandId ≠ command.commandId ∧ saveRow command current c = c) ∨
    (c = command ∧ saveRow command current c = current) ∨
    (c.commandId = command.commandId ∧ c.status = .outcomeUnknown ∧
      (saveRow command current c).status = .outcomeUnknown ∧
      (current.status ≠ .outcomeUnknown → SameEnd stamps c (saveRow command current c))) := by
  obtain ⟨-, hchk⟩ := saveCommand_eq_some hsave
  by_cases hid : c.commandId = command.commandId
  · obtain ⟨row, hrow, hsame, hcases⟩ := hok.row
    obtain rfl : c = row :=
      hwf.commandIds.eq_of_key_eq hc hrow (hid.trans hsame.commandId.symm)
    rcases hcases with heq | hunknown
    · exact .inr (.inl ⟨heq, heq ▸ hw.saveRow_self⟩)
    · exact .inr (.inr ⟨hid, hunknown, saveRow_over_unknown stamps hw hok.status hid
        (hwf.checked c hc) hunknown (hchk c hc)⟩)
  · exact .inl ⟨hid, saveRow_of_ne hid⟩

/-- Recording something about a command in flight: the invariant stays for all the other
    commands in flight, and so do the ends of commands, as long as an unknown outcome is
    recorded on a row that is still dispatching. -/
theorem Plane.saveFlight (h : Plane db flights history) {command current : TaskHarnessCommand}
    (hok : FlightOk db command) (hw : WrittenFrom command current)
    (hother : ∀ c, flights c → c.commandId ≠ command.commandId)
    (hres : current.status = .queued → Resendable command.commandId history)
    (hst : stamps → current.status = .outcomeUnknown → StillDispatching db command.commandId)
    (hsave : saveCommand command current db = some db') :
    Plane db' flights history ∧ Keeps stamps db db' := by
  obtain ⟨rfl, hchk⟩ := saveCommand_eq_some hsave
  apply h.mapCommands (saveRow_same command current) hchk
  · intro c hc ht
    rcases hok.saveRow_cases stamps h.wf hw hsave hc with
      ⟨-, heq⟩ | ⟨rfl, -⟩ | ⟨hid, hunknown, hnew, hend⟩
    · rw [heq]
      exact SameEnd.refl stamps c
    · simp [hok.status, live] at ht
    · by_cases hcur : current.status = .outcomeUnknown
      · refine ⟨hnew.trans hunknown.symm, fun hs => ?_⟩
        obtain ⟨c', hc', hid', hd⟩ := hst hs hcur
        obtain rfl := h.wf.commandIds.eq_of_key_eq hc' hc (hid'.trans hid.symm)
        simp [hunknown] at hd
      · exact hend hcur
  · intro c hc hd
    rcases hok.saveRow_cases stamps h.wf hw hsave hc with
      ⟨-, heq⟩ | ⟨rfl, -⟩ | ⟨-, -, hnew, -⟩
    · rw [heq] at hd
      exact .inl hd
    · exact .inl hok.status
    · simp [hnew] at hd
  · intro fl hfl c hc hid
    left
    apply saveRow_of_ne
    rw [hid]
    exact hother fl hfl
  · intro c hc hq
    rcases hok.saveRow_cases stamps h.wf hw hsave hc with
      ⟨-, heq⟩ | ⟨rfl, heq⟩ | ⟨-, -, hnew, -⟩
    · rw [heq] at hq
      exact h.resendable c hc hq
    · rw [heq] at hq
      exact hres hq
    · simp [hnew] at hq

theorem FlightOk.mark {command current : TaskHarnessCommand} (hok : FlightOk db command)
    (hw : WrittenFrom command current) (hst : current.status = .dispatching)
    (hsave : saveCommand command current db = some db') :
    FlightOk db' current ∧
      (StillDispatching db command.commandId → StillDispatching db' current.commandId) := by
  obtain ⟨rfl, hchk⟩ := saveCommand_eq_some hsave
  obtain ⟨row, hrow, hsame, hcases⟩ := hok.row
  have hstatus : ∀ c ∈ db.commands, (saveRow command current c).status = c.status := by
    intro c _
    unfold saveRow
    split
    · simp [flushCommand, hst, hok.status]
    · rfl
  refine ⟨⟨hst, ?_, ⟨_, mem_map_of_mem hrow, ?_, ?_⟩, ?_⟩, ?_⟩
  · obtain ⟨hdel, hrej⟩ := hw.marked hst hok.status
    have hat := hw.unknownAt (by simp [hst])
    have hc := hok.checked
    simp only [checks, hok.status, hst, hdel, hrej, hat] at hc ⊢
    exact hc
  · have hcs := hw.same
    have hrs := hsame.trans (saveRow_same command current row)
    exact ⟨hrs.1.trans hcs.1.symm, hrs.2.trans hcs.2.symm, hrs.3.trans hcs.3.symm,
      hrs.4.trans hcs.4.symm, hrs.5.trans hcs.5.symm⟩
  · rcases hcases with rfl | hunknown
    · exact .inl hw.saveRow_self
    · exact .inr ((hstatus row hrow).trans hunknown)
  · intro c' hc' hattempt hlt
    obtain ⟨c, hc, rfl⟩ := mem_map.mp hc'
    rw [(saveRow_same command current c).attemptId, hw.same.attemptId] at hattempt
    rw [(saveRow_same command current c).sequenceNo, hw.same.sequenceNo] at hlt
    rw [hstatus c hc]
    exact hok.first c hc hattempt hlt
  · rintro ⟨c, hc, hid, hd⟩
    refine ⟨_, mem_map_of_mem hc, ?_, (hstatus c hc).trans hd⟩
    rw [(saveRow_same command current c).commandId, hw.same.commandId]
    exact hid

/-! ### The Pump Loop -/

theorem loadHeadCommand_eq_some (hwf : db.WF)
    (h : loadHeadCommand taskId attemptId db = some head) :
    head ∈ db.commands ∧ head.attemptId = attemptId ∧ head.status.live = true ∧
      ∀ c ∈ db.commands, c.attemptId = head.attemptId → c.sequenceNo < head.sequenceNo →
        c.status.terminal = true := by
  obtain ⟨hmem, hpred⟩ := mem_filter.mp (argmin_mem h)
  simp only [Bool.and_eq_true, decide_eq_true_eq] at hpred
  obtain ⟨⟨htask, hattempt⟩, hlive⟩ := hpred
  refine ⟨hmem, hattempt, hlive, ?_⟩
  intro c hc hca hlt
  by_contra hterm
  have hclive : c.status.live = true := by simpa using hterm
  -- the commands of one attempt belong to its Task
  have hctask : c.taskId = taskId := by
    obtain ⟨a, ha, haid, hatask⟩ := hwf.owned c hc
    obtain ⟨a', ha', haid', hatask'⟩ := hwf.owned head hmem
    obtain rfl : a = a' :=
      hwf.attemptIds.eq_of_key_eq ha ha' (haid.trans (hca.trans haid'.symm))
    exact hatask.symm.trans (hatask'.trans htask)
  have hle : head.sequenceNo ≤ c.sequenceNo := by
    apply le_of_mem_argmin _ h
    exact mem_filter.mpr ⟨hc, by simp [hctask, hca, hattempt, hclive]⟩
  omega

/-- A dispatch that begins has armed a follow-up and flushed the started command. -/
theorem beginDispatch_cases {head claimed : TaskHarnessCommand}
    (hbegin : beginDispatch attempt head now db = some (db', attempt', claimed)) :
    ∃ db₁, armFollowUp attempt head db = some (db₁, attempt') ∧
      beginCommandDispatch head now = some claimed ∧ saveCommand head claimed db₁ = some db' := by
  unfold Commands.beginDispatch at hbegin
  split at hbegin
  · cases hbegin
  next db₁ attempt₁ harm =>
  split at hbegin
  · cases hbegin
  next current hcurrent =>
  obtain ⟨db₂, hsave, heq⟩ := Option.map_eq_some_iff.mp hbegin
  obtain ⟨rfl, rfl, rfl⟩ : db₂ = db' ∧ attempt₁ = attempt' ∧ current = claimed := by
    simpa using heq
  exact ⟨_, harm, hcurrent, hsave⟩

/-- The claimed command is in flight, and the history has it as sent. -/
theorem Plane.beginDispatch (h : Plane db flights history)
    {head claimed : TaskHarnessCommand} (hhead : head ∈ db.commands)
    (hfirst : ∀ c ∈ db.commands, c.attemptId = head.attemptId →
      c.sequenceNo < head.sequenceNo → c.status.terminal = true)
    (hbegin : beginDispatch attempt head now db = some (db', attempt', claimed)) :
    Plane db' (fun c => flights c ∨ c = claimed) (.sent claimed.commandId :: history) ∧
      Keeps stamps db db' ∧ ∀ c, flights c → c.commandId ≠ claimed.commandId := by
  obtain ⟨db₁, harm, hcurrent, hsave⟩ := beginDispatch_cases hbegin
  obtain ⟨hw, hqueued, hdisp⟩ := beginCommandDispatch_spec hcurrent
  -- arming touches the attempt row only
  obtain ⟨h₁, hcommands⟩ : Plane db₁ flights history ∧ db₁.commands = db.commands := by
    unfold armFollowUp at harm
    split at harm
    · split at harm
      · obtain ⟨rfl, -⟩ := Prod.mk.inj (Option.some.inj harm)
        exact ⟨h.updateAttempt _ (fun _ => rfl) (fun _ => rfl) (fun _ => rfl), rfl⟩
      · cases harm
    · obtain ⟨rfl, -⟩ := Prod.mk.inj (Option.some.inj harm)
      exact ⟨h, rfl⟩
  rw [← hcommands] at hhead hfirst
  obtain ⟨rfl, hchk⟩ := saveCommand_eq_some hsave
  have honly : ∀ c ∈ db₁.commands, c.commandId = head.commandId → c = head := by
    intro c hc hid
    exact h₁.wf.commandIds.eq_of_key_eq hc hhead hid
  have hnotflight : ∀ c, flights c → c.commandId ≠ head.commandId := by
    intro c hc hid
    rcases (h₁.flight c hc).not_queued h₁.wf hhead hid.symm with hd | hu
    · simp [hqueued] at hd
    · simp [hqueued] at hu
  have hmap : Plane (db₁.mapCommands (saveRow head claimed)) flights history ∧
      Keeps stamps db₁ (db₁.mapCommands (saveRow head claimed)) := by
    apply h₁.mapCommands (saveRow_same head claimed) hchk
    · intro c hc ht
      rw [saveRow_of_ne]
      · exact SameEnd.refl stamps c
      · intro hid
        obtain rfl := honly c hc hid
        simp [hqueued, live] at ht
    · intro c hc hd
      by_cases hid : c.commandId = head.commandId
      · obtain rfl := honly c hc hid
        exact .inr hfirst
      · rw [saveRow_of_ne hid] at hd
        exact .inl hd
    · intro fl hfl c hc hid
      left
      exact saveRow_of_ne (hid ▸ hnotflight fl hfl)
    · intro c hc hq
      by_cases hid : c.commandId = head.commandId
      · obtain rfl := honly c hc hid
        rw [hw.saveRow_self, hdisp] at hq
        cases hq
      · rw [saveRow_of_ne hid] at hq
        exact h₁.resendable c hc hq
  obtain ⟨h₂, hkeeps⟩ := hmap
  have hmem : claimed ∈ (db₁.mapCommands (saveRow head claimed)).commands :=
    mem_map.mpr ⟨head, hhead, hw.saveRow_self⟩
  have hflight : FlightOk (db₁.mapCommands (saveRow head claimed)) claimed :=
    { status := hdisp
      checked := h₂.wf.checked claimed hmem
      row := ⟨claimed, hmem, SameCommand.refl claimed, .inl rfl⟩
      first := fun c hc hattempt hlt => h₂.wf.ordered claimed hmem hdisp c hc hattempt hlt }
  have hresend : Resendable claimed.commandId history := by
    rw [hw.same.commandId]
    exact h₁.resendable head hhead hqueued
  refine ⟨h₂.sent hflight hresend, ?_, ?_⟩
  · exact (Keeps.of_commands_eq hcommands).trans hkeeps
  · rw [hw.same.commandId]
    exact hnotflight

theorem Plane.recover (h : Plane db flights history)
    {message reason : String} {occurredAt now : DateTime}
    (hhead : head ∈ db.commands)
    (hrec : recordUnknown attempt head message reason occurredAt now db = some (db', attempt')) :
    Plane db' flights history ∧ Keeps stamps db db' := by
  unfold recordUnknown at hrec
  split at hrec
  · cases hrec
  next db₁ current _ hwrite =>
  obtain ⟨rfl, rfl⟩ := Prod.ext_iff.mp (Option.some.inj hrec)
  have h₁ : Plane db₁ flights history ∧ Keeps stamps db db₁ := by
    rcases writeThrough_cases hwrite with ⟨-, rfl, -⟩ | ⟨hcurrent, hsave, -⟩
    · exact ⟨h, Keeps.refl stamps db₁⟩
    obtain ⟨hw, hdisp, hunknown⟩ := writeCommandOutcomeUnknown_spec hcurrent
    obtain ⟨rfl, hchk⟩ := saveCommand_eq_some hsave
    apply h.terminalize (saveRow_same head current) hchk
    intro c hc
    by_cases hid : c.commandId = head.commandId
    · obtain rfl := h.wf.commandIds.eq_of_key_eq hc hhead hid
      rw [hw.saveRow_self]
      exact .inr (.inr ⟨hdisp, hunknown⟩)
    · exact .inl (saveRow_of_ne hid)
  obtain ⟨h₂, hk₂⟩ := h₁.1.failPendingFollowUp stamps attempt head reason now
  exact ⟨h₂, h₁.2.trans hk₂⟩

/-- What the pump loop leaves: either a new command in flight, or nothing new. -/
def LoopPost (flights : TaskHarnessCommand → Prop) (history : List SendEvent)
    (db : Db) : Option InFlight → Prop
  | none => Plane db flights history
  | some flight =>
    Plane db (fun c => flights c ∨ c = flight.command)
        (.sent flight.command.commandId :: history) ∧
      ∀ c, flights c → c.commandId ≠ flight.command.commandId

theorem Plane.pumpLoop (now : DateTime) (budget : Nat) (attempt : TaskHarnessAttempt)
    (h : Plane db flights history) :
    LoopPost flights history (pumpLoop now budget attempt db).1
        (pumpLoop now budget attempt db).2.2 ∧
      Keeps stamps db (pumpLoop now budget attempt db).1 := by
  induction budget with
  | zero => exact ⟨h, Keeps.refl stamps db⟩
  | succ budget ih =>
    unfold Commands.pumpLoop
    split
    · exact ⟨h, Keeps.refl stamps db⟩
    next head hload =>
    obtain ⟨hmem, _, _, hfirst⟩ := loadHeadCommand_eq_some h.wf hload
    split
    · split
      · next hrec => exact h.recover stamps hmem hrec
      · exact ⟨h, Keeps.refl stamps db⟩
    · split
      · next hbegin =>
        obtain ⟨h₁, hk₁, hne⟩ := h.beginDispatch stamps hmem hfirst hbegin
        exact ⟨⟨h₁, hne⟩, hk₁⟩
      · exact ih

/-! ### Outcomes -/

section Outcomes

variable {command : TaskHarnessCommand}

theorem Plane.writeThrough (h : Plane db flights history) (hok : FlightOk db command)
    (hother : ∀ c, flights c → c.commandId ≠ command.commandId)
    {written : Option TaskHarnessCommand} {current : TaskHarnessCommand} {wrote : Bool}
    (hwritten : ∀ current, written = some current → WrittenFrom command current ∧
      (current.status = .queued → Resendable command.commandId history) ∧
      (stamps → current.status = .outcomeUnknown → StillDispatching db command.commandId))
    (hwrite : writeThrough command written db = some (db', current, wrote)) :
    Plane db' flights history ∧ Keeps stamps db db' := by
  rcases writeThrough_cases hwrite with ⟨-, rfl, -⟩ | ⟨rfl, hsave, -⟩
  · exact ⟨h, Keeps.refl stamps db'⟩
  obtain ⟨hw, hres, hst⟩ := hwritten current rfl
  exact h.saveFlight stamps hok hw hother hres hst hsave

theorem Plane.recordUnknown (h : Plane db flights history) (hok : FlightOk db command)
    (hother : ∀ c, flights c → c.commandId ≠ command.commandId)
    {attempt attempt' : TaskHarnessAttempt} {message reason : String} {occurredAt now : DateTime}
    (hst : stamps → StillDispatching db command.commandId)
    (hrec : recordUnknown attempt command message reason occurredAt now db = some (db', attempt')) :
    Plane db' flights history ∧ Keeps stamps db db' := by
  unfold Commands.recordUnknown at hrec
  split at hrec
  · cases hrec
  next db₁ _ _ hwrite =>
  obtain ⟨rfl, rfl⟩ := Prod.ext_iff.mp (Option.some.inj hrec)
  obtain ⟨h₁, hk₁⟩ := h.writeThrough stamps hok hother (by
    intro current hcurrent
    obtain ⟨hw, -, hunknown⟩ := writeCommandOutcomeUnknown_spec hcurrent
    exact ⟨hw, by simp [hunknown], fun hs _ => hst hs⟩) hwrite
  obtain ⟨h₂, hk₂⟩ := h₁.failPendingFollowUp stamps attempt command reason now
  exact ⟨h₂, hk₁.trans hk₂⟩

/-- The history after a reply: a requeue is recorded. -/
def historyAfter (history : List SendEvent) (commandId : String) (requeued : Bool) :
    List SendEvent :=
  if requeued then .requeued commandId :: history else history

variable {answer : Answer} {attempt : TaskHarnessAttempt} {r : Recorded} {startedAt now : DateTime}

theorem Plane.recordStatus (h : Plane db flights history) (hok : FlightOk db command)
    (hother : ∀ c, flights c → c.commandId ≠ command.commandId)
    (hst : stamps → answer.status = .other → StillDispatching db command.commandId)
    (hrec : recordStatus attempt command startedAt now answer db = some r) :
    Plane r.db flights (historyAfter history command.commandId r.requeued) ∧
      Keeps stamps db r.db := by
  unfold Commands.recordStatus at hrec
  split at hrec
  · -- ack
    obtain ⟨⟨db₁, c₁, b₁⟩, hwrite, rfl⟩ := Option.map_eq_some_iff.mp hrec
    refine h.writeThrough stamps hok hother ?_ hwrite
    intro current hcurrent
    obtain ⟨hw, -, hdel⟩ := writeCommandDelivery_spec hcurrent
    exact ⟨hw, by simp [hdel], by simp [hdel]⟩
  · -- reject
    obtain ⟨⟨db₁, c₁, b₁⟩, hwrite, rfl⟩ := Option.map_eq_some_iff.mp hrec
    obtain ⟨h₁, hk₁⟩ := h.writeThrough stamps hok hother (by
      intro current hcurrent
      obtain ⟨hw, -, hrej⟩ := writeCommandRejection_spec hcurrent
      exact ⟨hw, by simp [hrej], by simp [hrej]⟩) hwrite
    obtain ⟨h₂, hk₂⟩ := h₁.clearPendingFollowUp stamps attempt command
    exact ⟨h₂, hk₁.trans hk₂⟩
  · -- retry: the requeue is in the history before the row is queued again
    obtain ⟨⟨db₁, c₁, requeued⟩, hwrite, rfl⟩ := Option.map_eq_some_iff.mp hrec
    have h₁ : Plane db₁ flights (historyAfter history command.commandId requeued) ∧
        Keeps stamps db db₁ := by
      cases requeued with
      | false =>
        obtain ⟨-, rfl, -⟩ := (writeThrough_cases hwrite).resolve_right (by simp)
        exact ⟨h, Keeps.refl stamps db₁⟩
      | true =>
        refine (h.requeued command.commandId).writeThrough stamps hok hother ?_ hwrite
        intro current hcurrent
        obtain ⟨hw, -, hqueued⟩ := requeuePreSendFailure_spec hcurrent
        exact ⟨hw, fun _ => resendable_requeued _ _, by simp [hqueued]⟩
    obtain ⟨h₂, hk₂⟩ := h₁.1.clearPendingFollowUp stamps attempt command
    exact ⟨h₂, h₁.2.trans hk₂⟩
  · -- unknown or unrecognized
    next hother_status =>
    obtain ⟨⟨db₁, a₁⟩, hunknown, rfl⟩ := Option.map_eq_some_iff.mp hrec
    exact h.recordUnknown stamps hok hother (fun hs => hst hs hother_status) hunknown

theorem markSent_cases {current : TaskHarnessCommand}
    {sent : Bool} (hok : FlightOk db command)
    (hmark : markSent answer now command db = some (db', current, sent)) :
    sent = true ∧ (db' = db ∧ current = command ∨
      WrittenFrom command current ∧ current.status = .dispatching ∧
        saveCommand command current db = some db') := by
  unfold markSent at hmark
  split at hmark
  · rcases writeThrough_cases hmark with ⟨hnone, -⟩ | ⟨hcurrent, hsave, rfl⟩
    · simp [markCommandNativeSent, hok.status] at hnone
    · obtain ⟨hw, -, hdisp⟩ := markCommandNativeSent_spec hcurrent
      exact ⟨rfl, .inr ⟨hw, hdisp, hsave⟩⟩
  · obtain ⟨rfl, rfl, rfl⟩ : db = db' ∧ command = current ∧ true = sent := by
      simpa using hmark
    exact ⟨rfl, .inl ⟨rfl, rfl⟩⟩

theorem Plane.recordReply (h : Plane db flights history) (hok : FlightOk db command)
    (hother : ∀ c, flights c → c.commandId ≠ command.commandId)
    {reply : Reply}
    (hst : stamps → reply.ambiguous = true → StillDispatching db command.commandId)
    (hrec : recordReply attempt command startedAt now reply db = some r) :
    Plane r.db flights (historyAfter history command.commandId r.requeued) ∧
      Keeps stamps db r.db := by
  unfold Commands.recordReply at hrec
  split at hrec
  · obtain ⟨⟨db₁, a₁⟩, hunknown, rfl⟩ := Option.map_eq_some_iff.mp hrec
    exact h.recordUnknown stamps hok hother (fun hs => hst hs rfl) hunknown
  next answer =>
  split at hrec
  · cases hrec
  next db₁ command₁ sent hmark =>
  have hst' : stamps → answer.status = .other → StillDispatching db command.commandId := by
    intro hs hstatus
    exact hst hs (by simp [Reply.ambiguous, hstatus])
  obtain ⟨rfl, hcases⟩ := markSent_cases hok hmark
  rcases hcases with ⟨rfl, rfl⟩ | ⟨hw, hdisp, hsave⟩
  · exact h.recordStatus stamps hok hother hst' hrec
  · -- the mark leaves the command in flight
    obtain ⟨h₁, hk₁⟩ := h.saveFlight stamps hok hw hother (by simp [hdisp]) (by simp [hdisp]) hsave
    obtain ⟨hok₁, hstill⟩ := hok.mark hw hdisp hsave
    have hid := hw.same.commandId
    obtain ⟨h₂, hk₂⟩ := h₁.recordStatus stamps hok₁ (hid ▸ hother)
      (fun hs hstatus => hstill (hst' hs hstatus)) hrec
    rw [hid] at h₂
    exact ⟨h₂, hk₁.trans hk₂⟩

end Outcomes

/-! ### Creating Rows -/

/-- What a successful `create_command` did: the gate was accepting, the id is new, and one
    queued row took the next number of the current attempt. -/
theorem createCommand_eq_ok
    (h : createCommand env request now db = .ok (result, db')) :
    ∃ commandId commandType, ∃ attempt ∈ db.attempts,
      attempt.taskId = request.taskId ∧ attempt.controlState = .accepting ∧
      db.taskRunning request.taskId = true ∧ db.command? commandId = none ∧
      db' = { db.updateAttempt attempt.attemptId (fun a =>
          { a with nextCommandSequence := attempt.nextCommandSequence + 1 }) with
        commands := db.commands ++
          [newCommand env request commandType commandId attempt now] } := by
  obtain ⟨⟨commandId, commandType⟩, -, h⟩ := bind_eq_ok_iff.mp h
  simp only [checkTask, checkAttempt, bind_eq_ok_iff, orStop_eq_ok_iff, unlessRejected_eq_ok_iff,
    pure_eq_ok, Except.ok.injEq] at h
  obtain ⟨_, hnew, _, ⟨status, hstatus, hrunning⟩,
    _, ⟨attempt, hattempt, -, -, -, -, -, haccepting, rfl⟩, heq⟩ := h
  obtain ⟨hmem, htask⟩ := mem_filter.mp (argmax_mem hattempt)
  obtain rfl : status = .running := by simpa using hrunning
  refine ⟨commandId, commandType, attempt, hmem, by simpa using htask, by simpa using haccepting,
    by simp [Db.taskRunning, hstatus], ?_, ?_⟩
  · unfold checkNewId at hnew
    split at hnew
    · next hnone => exact hnone
    · cases hnew
  · exact (Prod.mk.inj heq).2.symm

theorem Db.WF.sequenceNo_lt (hwf : db.WF) (ha : a ∈ db.attempts)
    (hc : c ∈ db.commands) (hattempt : c.attemptId = a.attemptId) :
    c.sequenceNo < a.nextCommandSequence := by
  obtain ⟨n, hnum, hnext⟩ := hwf.numbered a ha
  have hmem : c.sequenceNo ∈ (db.commandsOf a.attemptId).map (·.sequenceNo) :=
    mem_map_of_mem (mem_commandsOf.mpr ⟨hc, hattempt⟩)
  rw [hnum, mem_range'_1] at hmem
  omega

/-- A new command takes the next number of its attempt. -/
theorem Db.WF.createCommand (hwf : db.WF) (ha : a ∈ db.attempts)
    {new : TaskHarnessCommand} (hid : ∀ c ∈ db.commands, c.commandId ≠ new.commandId)
    (hattempt : new.attemptId = a.attemptId) (htask : new.taskId = a.taskId)
    (hseq : new.sequenceNo = a.nextCommandSequence) (hchk : new.checks = true)
    (hst : new.status = .queued) :
    ({ db.updateAttempt a.attemptId (fun b =>
        { b with nextCommandSequence := a.nextCommandSequence + 1 }) with
      commands := db.commands ++ [new] } : Db).WF where
  attemptIds := by
    apply hwf.attemptIds.map
    intro b
    split <;> rfl
  commandIds := hwf.commandIds.append hid
  numbered := by
    intro b' hb'
    obtain ⟨b, hb, rfl⟩ := mem_map.mp hb'
    -- the numbers of the other attempts stay
    by_cases hba : b.attemptId = a.attemptId
    · obtain rfl := hwf.attemptIds.eq_of_key_eq hb ha hba
      obtain ⟨n, hnum, hnext⟩ := hwf.numbered b hb
      refine ⟨n + 1, ?_, by simp [hnext]⟩
      rw [if_pos rfl]
      show ((db.commands ++ [new]).filter _).map (·.sequenceNo) = _
      rw [filter_append, map_append, range'_concat, ← hnum]
      simp [Db.commandsOf, hattempt, hseq, hnext, Nat.add_comm]
    · obtain ⟨n, hnum, hnext⟩ := hwf.numbered b hb
      rw [if_neg hba]
      refine ⟨n, ?_, hnext⟩
      show ((db.commands ++ [new]).filter _).map (·.sequenceNo) = _
      rw [filter_append, map_append, ← hnum]
      simp [Db.commandsOf, hattempt, Ne.symm hba]
  owned := by
    intro c hc
    rcases mem_append.mp hc with hold | hnew
    · obtain ⟨b, hb, hbid, hbtask⟩ := hwf.owned c hold
      refine ⟨_, mem_map_of_mem hb, ?_, ?_⟩
      · split <;> exact hbid
      · split <;> exact hbtask
    · obtain rfl : c = new := by simpa using hnew
      refine ⟨_, mem_map_of_mem ha, ?_, ?_⟩
      · simp [hattempt]
      · simp [htask]
  checked := by
    intro c hc
    rcases mem_append.mp hc with hold | hnew
    · exact hwf.checked c hold
    · obtain rfl : c = new := by simpa using hnew
      exact hchk
  ordered := by
    intro c hc hdisp c' hc' hca hlt
    rcases mem_append.mp hc with hold | hnew
    · rcases mem_append.mp hc' with hold' | hnew'
      · exact hwf.ordered c hold hdisp c' hold' hca hlt
      · -- the new command has the largest number
        obtain rfl : c' = new := by simpa using hnew'
        have := hwf.sequenceNo_lt ha hold (hca.symm.trans hattempt)
        omega
    · obtain rfl : c = new := by simpa using hnew
      simp [hst] at hdisp

theorem Plane.createCommand (h : Plane db flights history)
    (hcreate : createCommand env request now db = .ok (result, db')) :
    Plane db' flights history ∧ Keeps stamps db db' := by
  obtain ⟨commandId, commandType, a, ha, htask, -, -, hnone, rfl⟩ := createCommand_eq_ok hcreate
  have hid := Table.row?_eq_none_iff.mp hnone
  refine ⟨⟨h.wf.createCommand ha hid rfl htask.symm rfl ?_ rfl, ?_, ?_, ?_, h.once⟩, ?_⟩
  · rfl
  · intro command hcommand
    have hok := h.flight command hcommand
    obtain ⟨row, hrow, hsame, hcases⟩ := hok.row
    refine ⟨hok.status, hok.checked, ⟨row, mem_append_left _ hrow, hsame, hcases⟩, ?_⟩
    intro c hc hattempt hlt
    rcases mem_append.mp hc with hold | hnew
    · exact hok.first c hold hattempt hlt
    · obtain rfl : c = newCommand env request commandType commandId a now := by
        simpa using hnew
      have hrowlt := h.wf.sequenceNo_lt ha hrow (hsame.attemptId.trans hattempt.symm)
      rw [hsame.sequenceNo] at hrowlt
      have : a.nextCommandSequence < command.sequenceNo := hlt
      omega
  · intro c hc hst
    rcases mem_append.mp hc with hold | hnew
    · exact h.resendable c hold hst
    · obtain rfl : c = newCommand env request commandType commandId a now := by
        simpa using hnew
      apply resendable_of_not_sent
      intro hsent
      obtain ⟨c', hc', hcid⟩ := h.known _ hsent
      exact hid c' hc' hcid
  · intro id hsent
    obtain ⟨c, hc, hcid⟩ := h.known id hsent
    exact ⟨c, mem_append_left _ hc, hcid⟩
  · intro c hc _
    exact ⟨c, mem_append_left _ hc, rfl, SameEnd.refl stamps c⟩

theorem Plane.createAttempt (h : Plane db flights history)
    (hnew : ∀ b ∈ db.attempts, b.attemptId ≠ a.attemptId) (hnext : a.nextCommandSequence = 1) :
    Plane { db with attempts := db.attempts ++ [a] } flights history where
  wf :=
    { attemptIds := h.wf.attemptIds.append hnew
      commandIds := h.wf.commandIds
      numbered := by
        intro b hb
        rcases mem_append.mp hb with hold | hb
        · exact h.wf.numbered b hold
        obtain rfl : b = a := by simpa using hb
        refine ⟨0, ?_, hnext⟩
        have hnone : db.commandsOf b.attemptId = [] := by
          apply filter_eq_nil_iff.mpr
          intro c hc
          obtain ⟨b', hb', hbid, -⟩ := h.wf.owned c hc
          simpa [← hbid] using hnew b' hb'
        show (db.commandsOf b.attemptId).map (·.sequenceNo) = _
        rw [hnone]
        rfl
      owned := by
        intro c hc
        obtain ⟨b, hb, hbid, hbtask⟩ := h.wf.owned c hc
        exact ⟨b, mem_append_left _ hb, hbid, hbtask⟩
      checked := h.wf.checked
      ordered := h.wf.ordered }
  flight := fun c hc => ⟨(h.flight c hc).1, (h.flight c hc).2, (h.flight c hc).3, (h.flight c hc).4⟩
  resendable := h.resendable
  known := h.known
  once := h.once

theorem Plane.setTaskStatus (h : Plane db flights history)
    (taskStatus : Nat → Option TaskStatus) : Plane { db with taskStatus } flights history where
  wf := ⟨h.wf.1, h.wf.2, h.wf.3, h.wf.4, h.wf.5, h.wf.6⟩
  flight := fun c hc => ⟨(h.flight c hc).1, (h.flight c hc).2, (h.flight c hc).3, (h.flight c hc).4⟩
  resendable := h.resendable
  known := h.known
  once := h.once

theorem claimOrPromote_eq_some {owner : String}
    {locked : List String} {probeAck : Bool}
    (h : claimOrPromote taskId owner now locked probeAck db = some (db', attempt')) :
    ∃ attempt ∈ db.attempts, ∃ f : TaskHarnessAttempt → TaskHarnessAttempt,
      db' = db.updateAttempt attempt.attemptId f ∧ attempt' = f attempt ∧
      db.taskRunning attempt.taskId = true ∧
      ((claimable taskId owner now db attempt = true ∧ f = (·.lease owner now)) ∨
        (attempt.controlState = .starting ∧ f = (·.promote owner now probeAck))) := by
  rcases Option.or_eq_some_iff.mp h with hclaim | ⟨-, hpromote⟩
  · unfold claimNextAttempt selectAttempt at hclaim
    obtain ⟨a, hsel, heq⟩ := Option.map_eq_some_iff.mp hclaim
    obtain ⟨hmem, hel⟩ := mem_filter.mp (argmin_mem hsel)
    have hcl : claimable taskId owner now db a = true := (Bool.and_eq_true_iff.mp hel).1
    obtain ⟨rfl, rfl⟩ := Prod.mk.inj heq
    refine ⟨a, hmem, _, rfl, rfl, ?_, .inl ⟨hcl, rfl⟩⟩
    simp only [claimable, Bool.and_eq_true, decide_eq_true_eq] at hcl
    exact hcl.1.1.1.1 ▸ hcl.1.1.1.2
  · unfold promoteStartingAttempt selectAttempt at hpromote
    obtain ⟨a, hsel, heq⟩ := Option.map_eq_some_iff.mp hpromote
    obtain ⟨hmem, hel⟩ := mem_filter.mp (argmin_mem hsel)
    have hpr : promotable taskId owner now db a = true := (Bool.and_eq_true_iff.mp hel).1
    obtain ⟨rfl, rfl⟩ := Prod.mk.inj heq
    simp only [promotable, Bool.and_eq_true, decide_eq_true_eq, beq_iff_eq] at hpr
    exact ⟨a, hmem, _, rfl, rfl, hpr.1.1.1 ▸ hpr.1.1.2, .inr ⟨hpr.1.2, rfl⟩⟩

end Codify.Harness.Commands

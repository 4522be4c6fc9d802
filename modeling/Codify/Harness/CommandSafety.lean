import Codify.Harness.CommandPlane

/-! # Safety of the Command Rows

    What every interleaving of the control plane keeps:

    * **Numbering**: the commands of an attempt are numbered `1..n`.
    * **Order**: a command is in flight only while every earlier command of its
      attempt has ended, so at most one command is `dispatching`.
    * **Ends**: a command that has ended keeps its status. Its timestamps stay
      too, unless a pump records an unknown outcome for a command that somebody
      else has terminalized in the meantime.
    * **At most once**: a command is sent again only after it was put back.
-/

namespace Codify.Harness.Commands

open Codify Codify.Framework System

variable {db db' : Db} {history : List SendEvent} (stamps : Prop)

/-! ### The Invariant Along Runs -/

/-- The commands that a pump other than `pump` has in flight. -/
def State.othersFlights (s : State) (pump : Nat) (c : TaskHarnessCommand) : Prop :=
  ∃ q, q ≠ pump ∧ ∃ attempt flight, s.pumps q = .sending attempt flight ∧ flight.command = c

def State.inFlight (s : State) (c : TaskHarnessCommand) : Prop :=
  ∃ q attempt flight, s.pumps q = .sending attempt flight ∧ flight.command = c

/-- The invariant of the control plane. -/
structure Inv (s : State) : Prop where
  plane : Plane s.db s.inFlight s.history
  /-- No two pumps have one command in flight. -/
  distinct : ∀ p q a b fl fl', s.pumps p = .sending a fl → s.pumps q = .sending b fl' →
    fl.command.commandId = fl'.command.commandId → p = q

variable {s s' : State}

theorem Inv.others (h : Inv s) (pump : Nat) : Plane s.db (s.othersFlights pump) s.history := by
  apply h.plane.mono
  intro c hc
  obtain ⟨q, _, attempt, flight, hq, hflight⟩ := hc
  exact ⟨q, attempt, flight, hq, hflight⟩

theorem Inv.of_pumps_eq (h : Inv s) (hpumps : s'.pumps = s.pumps)
    (hplane : Plane s'.db s.inFlight s'.history) : Inv s' := by
  refine ⟨?_, ?_⟩
  · apply hplane.mono
    intro c hc
    simpa [State.inFlight, hpumps] using hc
  · rw [hpumps]
    exact h.distinct

variable {pump : Nat} {result : Db × TaskHarnessAttempt × Option InFlight} {env : CommandEnv}
  {guard : State → Label → Prop}

theorem Inv.setPump (h : Inv s) {phase : PumpPhase} {db : Db}
    {history : List SendEvent} (hphase : ∀ a fl, phase ≠ .sending a fl)
    (hplane : Plane db (s.othersFlights pump) history) :
    Inv { ({ s with db := db }).setPump pump phase with history := history } := by
  have hpumps : ∀ q a fl, (({ s with db := db }).setPump pump phase).pumps q = .sending a fl →
      q ≠ pump ∧ s.pumps q = .sending a fl := by
    intro q a fl hq
    by_cases hqp : q = pump
    · simp [State.setPump, hqp, hphase] at hq
    · exact ⟨hqp, by simpa [State.setPump, hqp] using hq⟩
  refine ⟨?_, ?_⟩
  · apply hplane.mono
    intro c hc
    obtain ⟨q, a, fl, hq, hfl⟩ := hc
    obtain ⟨hne, hold⟩ := hpumps q a fl hq
    exact ⟨q, hne, a, fl, hold, hfl⟩
  · intro p q a b fl fl' hp hq
    exact h.distinct p q a b fl fl' (hpumps p a fl hp).2 (hpumps q b fl' hq).2

@[simp] theorem State.afterLoop_db (s : State) (pump : Nat)
    (result : Db × TaskHarnessAttempt × Option InFlight) (atEnd : TaskHarnessAttempt → PumpPhase) :
    (s.afterLoop pump result atEnd).db = result.1 := by
  obtain ⟨db, attempt, flight⟩ := result
  cases flight <;> rfl

theorem Inv.afterLoop (h : Inv s) {history : List SendEvent}
    {atEnd : TaskHarnessAttempt → PumpPhase}
    (hend : ∀ a b fl, atEnd a ≠ .sending b fl)
    (hpost : LoopPost (s.othersFlights pump) history result.1 result.2.2) :
    Inv (({ s with history := history }).afterLoop pump result atEnd) := by
  obtain ⟨db, attempt, flight⟩ := result
  cases flight with
  | none => exact h.setPump (hend attempt) hpost
  | some flight =>
    obtain ⟨hplane, hne⟩ := hpost
    have hpumps : ∀ q a fl,
        (({ s with history := history }).afterLoop pump (db, attempt, some flight) atEnd).pumps q =
          .sending a fl → q = pump ∧ fl = flight ∨ q ≠ pump ∧ s.pumps q = .sending a fl := by
      intro q a fl hq
      by_cases hqp : q = pump
      · left
        have hq' : PumpPhase.sending attempt flight = .sending a fl := by
          simpa [State.afterLoop, State.setPump, hqp] using hq
        injection hq' with _ hfl
        exact ⟨hqp, hfl.symm⟩
      · right
        exact ⟨hqp, by simpa [State.afterLoop, State.setPump, hqp] using hq⟩
    refine ⟨?_, ?_⟩
    · apply Plane.mono hplane
      intro c hc
      obtain ⟨q, a, fl, hq, hfl⟩ := hc
      rcases hpumps q a fl hq with ⟨-, rfl⟩ | ⟨hne, hold⟩
      · exact .inr hfl.symm
      · exact .inl ⟨q, hne, a, fl, hold, hfl⟩
    · intro p q a b fl fl' hp hq hid
      rcases hpumps p a fl hp with ⟨rfl, rfl⟩ | ⟨hpne, hpold⟩ <;>
        rcases hpumps q b fl' hq with ⟨rfl, rfl⟩ | ⟨hqne, hqold⟩
      · rfl
      · exact absurd hid.symm (hne fl'.command ⟨q, hqne, b, fl', hqold, rfl⟩)
      · exact absurd hid (hne fl.command ⟨p, hpne, a, fl, hpold, rfl⟩)
      · exact h.distinct p q a b fl fl' hpold hqold hid

/-- The condition on a step under which the timestamps of ended commands are safe: a pump that
    records an unknown outcome finds the command's row still dispatching. -/
def RecordsOnDispatching (s : State) : Label → Prop
  | .pumpReply pump reply _ => ∀ attempt flight, s.pumps pump = .sending attempt flight →
      reply.ambiguous = true → StillDispatching s.db flight.command.commandId
  | _ => True

theorem closeLocked_spec (closeAck : Bool) {flights : TaskHarnessCommand → Prop}
    (h : LoopPost flights history result.1 result.2.2) :
    LoopPost flights history (closeLocked closeAck result).1 (closeLocked closeAck result).2.2 ∧
      (closeLocked closeAck result).1.commands = result.1.commands := by
  obtain ⟨db, attempt, flight⟩ := result
  cases flight with
  | some flight => exact ⟨h, rfl⟩
  | none =>
    unfold closeLocked
    simp only
    split
    · exact ⟨Plane.updateAttempt h _ (fun _ => rfl) (fun _ => rfl) (fun _ => rfl), rfl⟩
    · exact ⟨h, rfl⟩

theorem Inv.pumpCycle {taskId : Nat} {owner : String} {now : DateTime} {locked : List String}
    {probeAck closeAck : Bool} (h : Inv s)
    (hnext : next env s (.pumpCycle pump taskId owner now locked probeAck closeAck) = some s') :
    Inv s' ∧ Keeps stamps s.db s'.db := by
  simp only [next] at hnext
  split at hnext
  · next db attempt hidle hclaim =>
    cases hnext
    obtain ⟨a, -, f, rfl, -, -, hf⟩ := claimOrPromote_eq_some hclaim
    have h₁ : Plane (s.db.updateAttempt a.attemptId f) (s.othersFlights pump) s.history := by
      rcases hf with ⟨-, rfl⟩ | ⟨-, rfl⟩
      · exact (h.others pump).updateAttempt _ (fun _ => rfl) (fun _ => rfl) (fun _ => rfl)
      · apply (h.others pump).updateAttempt <;>
          (intro b; unfold TaskHarnessAttempt.promote; cases probeAck <;> rfl)
    obtain ⟨h₂, hk₂⟩ := h₁.pumpLoop stamps now maxCommandsPerAttempt attempt
    obtain ⟨h₃, hcommands⟩ := closeLocked_spec closeAck h₂
    refine ⟨h.afterLoop (by simp) h₃, ?_⟩
    have hk₁ : Keeps stamps s.db (s.db.updateAttempt a.attemptId f) := Keeps.of_commands_eq rfl
    refine (hk₁.trans hk₂).trans (Keeps.of_commands_eq ?_)
    rw [State.afterLoop_db]
    exact hcommands
  · cases hnext

theorem Inv.pumpReply {reply : Reply} {now : DateTime} (h : Inv s)
    (hnext : next env s (.pumpReply pump reply now) = some s')
    (hguard : stamps → RecordsOnDispatching s (.pumpReply pump reply now)) :
    Inv s' ∧ Keeps stamps s.db s'.db := by
  simp only [next] at hnext
  split at hnext
  · next attempt flight hpump =>
    have hown : s.inFlight flight.command := ⟨pump, attempt, flight, hpump, rfl⟩
    have hother : ∀ c, s.othersFlights pump c → c.commandId ≠ flight.command.commandId := by
      intro c hc hid
      obtain ⟨q, hne, b, fl, hq, rfl⟩ := hc
      exact hne (h.distinct q pump b attempt fl flight hq hpump hid)
    split at hnext
    · -- the session rolls back
      cases hnext
      exact ⟨h.setPump (by simp) (h.others pump), Keeps.refl stamps s.db⟩
    next r hrec =>
    cases hnext
    obtain ⟨h₁, hk₁⟩ := (h.others pump).recordReply stamps (h.plane.flight _ hown) hother
      (fun hs hamb => hguard hs attempt flight hpump hamb) hrec
    have hloop : LoopPost (s.othersFlights pump)
        (historyAfter s.history flight.command.commandId r.requeued)
        (if r.again then pumpLoop now flight.budget r.attempt r.db else (r.db, r.attempt, none)).1
        (if r.again then pumpLoop now flight.budget r.attempt r.db
          else (r.db, r.attempt, none)).2.2 ∧
        Keeps stamps r.db (if r.again then pumpLoop now flight.budget r.attempt r.db
          else (r.db, r.attempt, none)).1 := by
      split
      · exact h₁.pumpLoop stamps now flight.budget r.attempt
      · exact ⟨h₁, Keeps.refl stamps r.db⟩
    have hhistory : (if r.requeued then
        { s with history := .requeued flight.command.commandId :: s.history } else s) =
        { s with history := historyAfter s.history flight.command.commandId r.requeued } := by
      unfold historyAfter
      split <;> rfl
    rw [hhistory]
    refine ⟨h.afterLoop (by simp) hloop.1, hk₁.trans ?_⟩
    rw [State.afterLoop_db]
    exact hloop.2
  · cases hnext

/-- **One step** keeps the invariant and the ends of commands. -/
theorem Inv.step {l : Label} (h : Inv s) (hnext : next env s l = some s')
    (hguard : stamps → RecordsOnDispatching s l) : Inv s' ∧ Keeps stamps s.db s'.db := by
  cases l with
  | createTaskAttempt attemptId taskId eventSchema harnessKey controlSupported =>
    simp only [next] at hnext
    split at hnext
    · next hfresh =>
      cases hnext
      refine ⟨h.of_pumps_eq rfl (h.plane.createAttempt ?_ rfl), Keeps.of_commands_eq rfl⟩
      intro b hb
      have := List.all_eq_true.mp (Bool.and_eq_true_iff.mp hfresh).2 b hb
      simpa using this
    · cases hnext
  | setTaskStatus taskId status =>
    cases hnext
    exact ⟨h.of_pumps_eq rfl (h.plane.setTaskStatus _), Keeps.of_commands_eq rfl⟩
  | createCommand request now =>
    simp only [next] at hnext
    split at hnext
    · next result db hcreate =>
      cases hnext
      obtain ⟨h₁, hk₁⟩ := h.plane.createCommand stamps hcreate
      exact ⟨h.of_pumps_eq rfl h₁, hk₁⟩
    · cases hnext
  | pumpCycle pump taskId owner now locked probeAck closeAck => exact h.pumpCycle stamps hnext
  | pumpReply pump reply now => exact h.pumpReply stamps hnext hguard
  | pumpClose pump =>
    simp only [next] at hnext
    split at hnext
    · next attempt hpump =>
      cases hnext
      refine ⟨h.setPump ?_ (h.others pump), Keeps.refl stamps s.db⟩
      intro a fl
      split <;> simp
    · cases hnext
  | pumpClosed pump ack =>
    simp only [next] at hnext
    split at hnext
    · next attempt hpump =>
      cases hnext
      cases ack with
      | true =>
        refine ⟨h.setPump (by simp) ?_, Keeps.of_commands_eq rfl⟩
        exact (h.others pump).updateAttempt _ (fun _ => rfl) (fun _ => rfl) (fun _ => rfl)
      | false => exact ⟨h.setPump (by simp) (h.others pump), Keeps.refl stamps s.db⟩
    · cases hnext
  | crash pump =>
    cases hnext
    exact ⟨h.setPump (by simp) (h.others pump), Keeps.refl stamps s.db⟩
  | beginControlDrain attemptId | reopenControl attemptId commandId nativeId =>
    cases hnext
    refine ⟨h.of_pumps_eq rfl (h.plane.updateAttempt attemptId ?_ ?_ ?_),
      Keeps.of_commands_eq rfl⟩ <;> (intro a; split <;> rfl)
  | closeControlGate attemptId reason now =>
    cases hnext
    obtain ⟨h₁, hk₁⟩ := h.plane.closeControlGate stamps attemptId reason now
    exact ⟨h.of_pumps_eq rfl h₁, hk₁⟩
  | closeTaskControlGates taskId reason now =>
    cases hnext
    obtain ⟨h₁, hk₁⟩ := Plane.closeControlGates stamps
      (s.db.attempts.filter fun a => decide (a.taskId = taskId) && a.gateOpen) reason now h.plane
    exact ⟨h.of_pumps_eq rfl h₁, hk₁⟩

theorem inv_init (h : (controlPlane env).init s) : Inv s := by
  obtain ⟨hattempts, hcommands, hhistory, hidle⟩ := h
  refine ⟨⟨⟨?_, ?_, ?_, ?_, ?_, ?_⟩, ?_, ?_, ?_, ?_⟩, ?_⟩
  · simp [hattempts, Table.KeyUnique]
  · simp [hcommands, Table.KeyUnique]
  · simp [hattempts]
  · simp [hcommands]
  · simp [hcommands]
  · simp [hcommands]
  · intro command hflight
    obtain ⟨q, a, fl, hq, -⟩ := hflight
    simp [hidle] at hq
  · simp [hcommands]
  · simp [hhistory]
  · intro newer between older id heq
    simp [hhistory] at heq
  · intro p q a b fl fl' hp
    simp [hidle] at hp

theorem inv_reachable
    (h : (controlPlane env).Reachable guard s) : Inv s := by
  apply h.invariant (fun s₀ => inv_init)
  intro s l s' hs _ hnext
  exact (hs.step False hnext (fun hf => hf.elim)).1

/-- Along a run the ends of commands are kept, with their timestamps where every step meets
    the condition. -/
theorem keeps_run (hs : Inv s)
    (hguard : ∀ s l, guard s l → stamps → RecordsOnDispatching s l)
    (hrun : (controlPlane env).Run guard s s') : Keeps stamps s.db s'.db := by
  refine hrun.relates (P := Inv) (R := fun s t => Keeps stamps s.db t.db) ?_ ?_ ?_ ?_ hs
  · intro s l s' hs _ hnext
    exact (hs.step False hnext (fun hf => hf.elim)).1
  · intro s
    exact Keeps.refl stamps s.db
  · intro s t u hst htu
    exact hst.trans htu
  · intro s l s' hs hg hnext
    exact (hs.step stamps hnext (hguard s l hg)).2

variable {stamps}

/-! ### The Command Contract -/

/-- In every reachable state of every interleaving: the commands of an attempt are numbered
    `1..n` and the next number is `n + 1`; at most one command of an attempt is dispatching,
    and while the transport holds a command all its predecessors have ended; and between two
    sends of one command it was put back. From there on a command that has ended keeps its
    status in every run, and its terminal timestamps in every run in which a pump records an
    unknown outcome only while the command's row is still dispatching. -/
theorem command_rows_safe (env : CommandEnv) {s : State}
    (hs : (controlPlane env).Reachable anyStep s) :
    (∀ a ∈ s.db.attempts, ∃ n, (s.db.commandsOf a.attemptId).map (·.sequenceNo) = List.range' 1 n ∧
        a.nextCommandSequence = n + 1) ∧
    (∀ c ∈ s.db.commands, ∀ c' ∈ s.db.commands, c'.attemptId = c.attemptId →
      c.status = .dispatching → c'.status = .dispatching → c' = c) ∧
    (∀ pump attempt flight, s.pumps pump = .sending attempt flight →
      ∀ c ∈ s.db.commands, c.attemptId = flight.command.attemptId →
        c.sequenceNo < flight.command.sequenceNo → c.status.terminal = true) ∧
    NoResend s.history ∧
    (∀ t, (controlPlane env).Run anyStep s t →
      ∀ c ∈ s.db.commands, c.status.terminal = true →
        ∃ c' ∈ t.db.commands, c'.commandId = c.commandId ∧ c'.status = c.status) ∧
    (∀ t, (controlPlane env).Run RecordsOnDispatching s t →
      ∀ c ∈ s.db.commands, c.status.terminal = true →
        ∃ c' ∈ t.db.commands, c'.commandId = c.commandId ∧ c'.status = c.status ∧
          c'.deliveredAt = c.deliveredAt ∧ c'.rejectedAt = c.rejectedAt ∧
          c'.outcomeUnknownAt = c.outcomeUnknownAt) := by
  have hinv := inv_reachable hs
  refine ⟨hinv.plane.wf.numbered, ?_, ?_, hinv.plane.once, ?_, ?_⟩
  · intro c hc c' hc' hattempt hst hst'
    exact hinv.plane.wf.dispatching_unique hc hc' hattempt hst hst'
  · intro pump attempt flight hpump
    exact (hinv.plane.flight _ ⟨pump, attempt, flight, hpump, rfl⟩).first
  · intro t hrun c hc hterm
    obtain ⟨c', hc', hid, hend⟩ := keeps_run False hinv (fun _ _ _ hf => hf.elim) hrun c hc hterm
    exact ⟨c', hc', hid, hend.status⟩
  · intro t hrun c hc hterm
    obtain ⟨c', hc', hid, hend⟩ := keeps_run True hinv (fun _ _ hg _ => hg) hrun c hc hterm
    exact ⟨c', hc', hid, hend.status, hend.timestamps trivial⟩

def sampleEnv : CommandEnv where
  canonicalDigest := fun _ _ _ _ => "digest"
  bundleSupportsCommand := fun _ _ _ => true

def sampleRequest (commandId commandType : String) : CreateRequest where
  taskId := 1
  commandId := commandId
  commandType := commandType
  payload := [("text", .str "go on")]
  createdBy := "user"

/-- Task 1 is RUNNING and its gate was promoted. -/
def openGate : List Label :=
  [.createTaskAttempt "a1" 1 canonicalEventSchemaV2 "pi" true,
   .setTaskStatus 1 .running,
   .pumpCycle 0 1 "p" 0 [] true false]

/-- A steer is delivered while a later one waits, then the later one is put back once. -/
theorem command_rows_safe_run :
    ∃ s, (controlPlane sampleEnv).Reachable anyStep s ∧
      s.db.commands.map (fun c => (c.sequenceNo, c.status)) =
        [(1, .delivered), (2, .dispatching)] ∧
      (∀ a ∈ s.db.attempts, ∃ n,
        (s.db.commandsOf a.attemptId).map (·.sequenceNo) = List.range' 1 n ∧
          a.nextCommandSequence = n + 1) ∧
      NoResend s.history := by
  have hinit : (controlPlane sampleEnv).init ({} : State) := ⟨rfl, rfl, rfl, fun _ => rfl⟩
  have hreach := reachable_of_exec hinit (show (controlPlane sampleEnv).exec {} (openGate ++
      [.createCommand (sampleRequest "01ARZ3NDEKTSV4RRFFQ69G5FA1" "steer") 1,
       .pumpCycle 0 1 "p" 2 [] false false,
       .createCommand (sampleRequest "01ARZ3NDEKTSV4RRFFQ69G5FA2" "follow_up") 3,
       .pumpReply 0 (.answered { status := .ack, nativeSent := true }) 4,
       .pumpReply 0 (.answered { status := .retry }) 5,
       .pumpClose 0,
       .pumpCycle 0 1 "p" 6 [] false false]) = some _ from rfl)
  have hsafe := command_rows_safe sampleEnv hreach
  exact ⟨_, hreach, rfl, hsafe.1, hsafe.2.2.2.1⟩

/-- The gate is closed while a command is in flight, which makes its outcome unknown at 20;
    the transport then answers without a recognizable outcome, and the pump moves the
    timestamp of the ended command to the dispatch start at 10. -/
theorem late_unknown_outcome_moves_timestamp :
    ∃ s t, (controlPlane sampleEnv).Reachable anyStep s ∧
      (controlPlane sampleEnv).Run anyStep s t ∧
      s.db.commands.map (fun c => (c.commandId, c.status, c.outcomeUnknownAt)) =
        [("01ARZ3NDEKTSV4RRFFQ69G5FA1", .outcomeUnknown, some 20)] ∧
      t.db.commands.map (fun c => (c.commandId, c.status, c.outcomeUnknownAt)) =
        [("01ARZ3NDEKTSV4RRFFQ69G5FA1", .outcomeUnknown, some 10)] := by
  have hinit : (controlPlane sampleEnv).init ({} : State) := ⟨rfl, rfl, rfl, fun _ => rfl⟩
  have hreach := reachable_of_exec hinit (show (controlPlane sampleEnv).exec {} (openGate ++
      [.createCommand (sampleRequest "01ARZ3NDEKTSV4RRFFQ69G5FA1" "steer") 1,
       .pumpCycle 0 1 "p" 10 [] false false,
       .closeControlGate "a1" "harness reached terminal event" 20]) = some _ from rfl)
  refine ⟨_, _, hreach, run_of_exec (show (controlPlane sampleEnv).exec _
      [.pumpReply 0 (.answered { status := .other }) 30] = some _ from rfl), rfl, rfl⟩

end Codify.Harness.Commands

import Codify.Harness.Replay

/-! # A Rejected Event

    `CanonicalEventReplay.ingest` statement by statement: the replay as it is left when
    one of the checks raises. All checks of a phase come before the flag of that phase,
    but the identity of the first event is adopted before its place in the order is
    checked.

    * **Agreement**: it returns and raises what `Replay.ingest` does
      (`ingestInPlace_fst`), and an accepted event leaves the same replay.
    * **Result**: `rejected_event_iff`.
-/

namespace Codify.Harness.Replay

open Codify.Framework

/-! ### Statements -/

/-- What a statement raises or returns, and the replay behind it. -/
abbrev Outcome (α : Type) : Type := Except EventError α × Replay

/-- The next statement, when nothing was raised. -/
def Outcome.next {α : Type} (o : Outcome Unit) (rest : Replay → Outcome α) : Outcome α :=
  match o.1 with
  | .error e => (.error e, o.2)
  | .ok () => rest o.2

variable (seq : Int) (eventType : String) (self : Replay)

def check (condition : Except EventError Unit) : Outcome Unit := (condition, self)

def checkThen (condition : Except EventError Unit) (update : Replay → Replay) : Outcome Unit :=
  (self.check condition).next fun self => (.ok (), update self)

/-- The first event is adopted, every other one is compared. -/
def adoptIdentity (event : JsonObject) : Outcome Unit :=
  match self.checkIdentity event with
  | .error e => (.error e, self)
  | .ok identity => (.ok (), { self with identity := some identity })

/-- The branch on `run.started`. -/
def enterStart : Outcome Unit :=
  if eventType = "run.started" then
    self.checkThen (self.toLifecycle.checkStart seq eventType) fun self => { self with started := true }
  else self.check (self.toLifecycle.checkStart seq eventType)

def enterHarness : Outcome Unit :=
  if isHarnessTerminal eventType then
    self.checkThen
      (require (!self.harnessEnded) (protocolError "harness terminal appears more than once"))
      fun self => { self with harnessEnded := true }
  else (.ok (), self)

def enterFinalization : Outcome Unit :=
  if eventType = "worker.finalization" then
    (self.check (require self.harnessEnded
        (protocolError "worker.finalization appears before harness terminal"))).next fun self =>
      self.checkThen (require (!self.finalizationSeen)
        (protocolError "worker.finalization appears more than once"))
        fun self => { self with finalizationSeen := true }
  else (.ok (), self)

def enterTerminal : Outcome Unit :=
  if isTaskTerminal eventType then
    (self.check (require self.harnessEnded
        (protocolError "task terminal appears before harness terminal"))).next fun self =>
      self.checkThen (require self.finalizationSeen
        (protocolError "task terminal appears before worker.finalization"))
        fun self => { self with terminalType := some eventType }
  else (.ok (), self)

/-- The branches behind the start of the attempt. -/
def enterRest : Outcome Unit :=
  (((enterHarness eventType self).next
    fun self => self.check (requireIf (isDelivery eventType) self.harnessEnded
      (protocolError "delivery event appears before harness terminal"))).next
    (enterFinalization eventType)).next
    (enterTerminal eventType)

/-- The statements from the sequence number on. -/
def enterOrder : Outcome Unit :=
  let expected := self.lastSeq + 1
  (((self.check (require (seq == expected)
      (.protocol s!"sequence gap: expected {expected}, received {seq}" "sequence_gap"))).next
    fun self => self.check (requireIf self.finalizationSeen (isTaskTerminal eventType)
      (.protocol "only the Task terminal may follow worker.finalization" "after_finalization"))).next
    (enterStart seq eventType)).next
    (enterRest eventType)

/-- `ingest`, with the replay that it leaves. -/
def ingestInPlace (py : Python) (self : Replay) (rawEvent : JsonObject) : Outcome JsonObject :=
  match validateEventBySchema py rawEvent with
  | .error e => (.error e, self)
  | .ok event =>
    let eventId := Event.eventId event
    ((((self.check (require (eventId ∉ self.seenEventIds)
        (.protocol s!"duplicate event_id: {eventId}" "duplicate_event"))).next
      fun self => self.check (require self.terminalType.isNone
        (.protocol "canonical event appears after task terminal" "after_terminal"))).next
      fun self => self.adoptIdentity event).next
      (enterOrder (Event.seq event) (Event.type event))).next
      fun self => (.ok event, { self with
        lastSeq := Event.seq event, seenEventIds := eventId :: self.seenEventIds })

/-! ### The Order -/

variable {py : Python} {self s : Replay} {event raw : JsonObject} {seq : Int} {eventType : String}
  {e : EventError}

@[simp] theorem next_error {α : Type} (self : Replay) (rest : Replay → Outcome α) :
    Outcome.next (.error e, self) rest = (.error e, self) := rfl

@[simp] theorem next_ok {α : Type} (self : Replay) (rest : Replay → Outcome α) :
    Outcome.next (.ok (), self) rest = rest self := rfl

theorem next_check {α : Type} (condition : Except EventError Unit) (rest : Replay → Outcome α) :
    (self.check condition).next rest =
      match condition with
      | .error e => (.error e, self)
      | .ok () => rest self := by
  cases condition with
  | error e => rfl
  | ok u => rfl

/-- The branch on `run.started`: an update only when the attempt starts with this event. -/
theorem enterStart_spec (seq : Int) (eventType : String) (self : Replay) :
    self.enterStart seq eventType =
      match self.toLifecycle.checkStart seq eventType with
      | .error e => (.error e, self)
      | .ok () => (.ok (), { self with started := true }) := by
  by_cases hstart : eventType = "run.started"
  · simp only [enterStart, if_pos hstart, checkThen, next_check]
  · rw [enterStart, if_neg hstart]
    cases hcheck : self.toLifecycle.checkStart seq eventType with
    | error e => simp only [check]
    | ok u =>
      have hrun : self.started = true := (Lifecycle.checkStart_eq_ok_iff.mp hcheck).2 hstart
      simp only [check]
      rw [← hrun]

attribute [local simp] enterFinalization require enterTerminal

/-- Past the first `raise` of a boundary event no later one can be reached: the classes of
    the boundary events exclude each other. -/
theorem enterRest_spec (eventType : String) (self : Replay) :
    enterRest eventType self =
      match self.toLifecycle.checkRest eventType with
      | .error e => (.error e, self)
      | .ok () => (.ok (), { self with
          harnessEnded := self.harnessEnded || isHarnessTerminal eventType
          finalizationSeen := self.finalizationSeen || eventType == "worker.finalization"
          terminalType := if isTaskTerminal eventType then some eventType else self.terminalType }) := by
  obtain ⟨⟨lastSeq, started, harnessEnded, finalizationSeen, terminalType⟩, identity, seen⟩ := self
  by_cases hharness : isHarnessTerminal eventType = true
  · have hdelivery := not_delivery_of_boundary (.inl hharness)
    have hterminal := not_taskTerminal_of_boundary (.inl hharness)
    have hfinal := ne_finalization_of_harnessTerminal hharness
    cases harnessEnded <;>
      simp [enterRest, enterHarness, Lifecycle.checkRest, checkThen, check, requireIf, hharness,
        hdelivery, hterminal, hfinal]
  by_cases hfinal : eventType = "worker.finalization"
  · have hdelivery := not_delivery_of_boundary (.inr (.inl hfinal))
    have hterminal := not_taskTerminal_of_boundary (.inr (.inl hfinal))
    cases harnessEnded <;> cases finalizationSeen <;>
      simp [enterRest, enterHarness, Lifecycle.checkRest, checkThen, check, requireIf, hharness,
        hdelivery, hterminal, ← hfinal]
  by_cases hterminal : isTaskTerminal eventType = true
  · have hdelivery := not_delivery_of_boundary (.inr (.inr (.inl hterminal)))
    cases harnessEnded <;> cases finalizationSeen <;>
      simp [enterRest, enterHarness, Lifecycle.checkRest, checkThen, check, requireIf, hharness,
        hdelivery, hterminal, hfinal]
  · cases harnessEnded <;> cases hdelivery : isDelivery eventType <;>
      simp [enterRest, enterHarness, Lifecycle.checkRest, check, requireIf, hharness, hdelivery,
        hterminal, hfinal]

theorem checkRest_start (lc : Lifecycle) : lc.checkRest "run.started" = .ok () := by
  have hharness : isHarnessTerminal "run.started" = false := by decide
  have hterminal := not_taskTerminal_of_boundary (.inr (.inr (rfl : "run.started" = _)))
  have hdelivery := not_delivery_of_boundary (.inr (.inr (.inr (rfl : "run.started" = _))))
  simp [Lifecycle.checkRest, requireIf, hharness, hterminal, hdelivery]

theorem checkRest_started (eventType : String) (lc : Lifecycle) (started : Bool) :
    { lc with started := started }.checkRest eventType = lc.checkRest eventType := rfl

/-- The checks of the order are `Lifecycle.check`, and on success the flags are those of
    `Lifecycle.advance`; the sequence number is set behind them. -/
theorem enterOrder_spec (seq : Int) (eventType : String) (self : Replay) :
    self.enterOrder seq eventType =
      match self.toLifecycle.check seq eventType with
      | .error e => (.error e, self)
      | .ok () => (.ok (), { self with
          toLifecycle := { self.toLifecycle.advance seq eventType with lastSeq := self.lastSeq } }) := by
  have hcheck : self.toLifecycle.check seq eventType = (do
      require (seq == self.lastSeq + 1)
        (.protocol s!"sequence gap: expected {self.lastSeq + 1}, received {seq}" "sequence_gap")
      requireIf self.finalizationSeen (isTaskTerminal eventType)
        (.protocol "only the Task terminal may follow worker.finalization" "after_finalization")
      self.toLifecycle.checkStart seq eventType
      self.toLifecycle.checkRest eventType) := rfl
  rw [hcheck]
  simp only [enterOrder, next_check]
  cases require (seq == self.lastSeq + 1)
      (.protocol s!"sequence gap: expected {self.lastSeq + 1}, received {seq}" "sequence_gap") with
  | error e => simp only [next_error, error_bind]
  | ok u =>
  cases u
  cases requireIf self.finalizationSeen (isTaskTerminal eventType)
      (.protocol "only the Task terminal may follow worker.finalization" "after_finalization") with
  | error e => simp only [next_error, error_bind, ok_bind, check]
  | ok u =>
  cases u
  simp only [check, next_ok, enterStart_spec, ok_bind]
  cases hstart : self.toLifecycle.checkStart seq eventType with
  | error e => simp only [next_error, error_bind]
  | ok u =>
  cases u
  simp only [next_ok, ok_bind, enterRest_spec, checkRest_started]
  cases hrest : self.toLifecycle.checkRest eventType with
  | error e =>
    -- only behind a start that was entered before
    have hne : eventType ≠ "run.started" := by
      rintro rfl
      rw [checkRest_start] at hrest
      cases hrest
    have hrun : self.started = true := (Lifecycle.checkStart_eq_ok_iff.mp hstart).2 hne
    simp only [Prod.mk.injEq, true_and]
    rw [← hrun]
  | ok u => simp only [Lifecycle.advance]

/-! ### The Replay Behind an Event -/

/-- The replay behind a rejected event: an event that is valid, new and before the end of the
    attempt is adopted, if it is the first. -/
def behindRejected (py : Python) (self : Replay) (rawEvent : JsonObject) : Replay :=
  match validateEventBySchema py rawEvent with
  | .error _ => self
  | .ok event =>
    if Event.eventId event ∉ self.seenEventIds ∧ self.terminalType.isNone then
      { self with identity := some (self.identity.getD (Identity.of event)) }
    else self

theorem ingestInPlace_spec (py : Python) (self : Replay) (rawEvent : JsonObject) :
    self.ingestInPlace py rawEvent =
      match self.ingest py rawEvent with
      | .error e => (.error e, self.behindRejected py rawEvent)
      | .ok (replay, event) => (.ok event, replay) := by
  rw [ingestInPlace, ingest, behindRejected]
  cases hvalid : validateEventBySchema py rawEvent with
  | error e => simp only [error_bind]
  | ok event =>
  simp only [ok_bind, next_check]
  by_cases hfresh : Event.eventId event ∈ self.seenEventIds
  · simp [hfresh]
  by_cases hopen : self.terminalType.isNone = true
  · simp only [require, hfresh, not_false_eq_true, decide_true, if_true, hopen, next_check,
      and_self, ok_bind, adoptIdentity]
    cases hid : self.checkIdentity event with
    | error e =>
      -- a first event has nothing to be compared with
      cases hself : self.identity with
      | none => simp [checkIdentity, hself] at hid
      | some i =>
        simp only [next_error, error_bind, Option.getD_some]
        rw [← hself]
    | ok i =>
      obtain ⟨rfl, _⟩ := checkIdentity_eq_ok_iff.mp hid
      simp only [next_ok, ok_bind, enterOrder_spec]
      cases self.toLifecycle.check (Event.seq event) (Event.type event) with
      | error e => simp only [next_error, error_bind]
      | ok u => simp only [next_ok, ok_bind, pure_eq_ok]; rfl
  · simp [hfresh, hopen, check]

theorem ingestInPlace_fst (py : Python) (self : Replay) (rawEvent : JsonObject) :
    (self.ingestInPlace py rawEvent).1 = (self.ingest py rawEvent).map Prod.snd := by
  rw [ingestInPlace_spec]
  cases self.ingest py rawEvent with
  | error e => rfl
  | ok r => rfl

theorem ingestInPlace_rejected (h : (s.ingestInPlace py raw).1 = .error e) :
    (s.ingestInPlace py raw).2 = s.behindRejected py raw := by
  rw [ingestInPlace_spec] at h ⊢
  cases hingest : s.ingest py raw with
  | error e' => rfl
  | ok r =>
    rw [hingest] at h
    cases h

theorem ingestInPlace_accepted (h : (s.ingestInPlace py raw).1 = .ok event) :
    (s.ingestInPlace py raw).2 = s.record event := by
  rw [ingestInPlace_spec] at h ⊢
  cases hingest : s.ingest py raw with
  | error e' =>
    rw [hingest] at h
    cases h
  | ok r =>
    rw [hingest] at h
    cases h
    exact (ingest_eq_ok_iff.mp hingest).2.2

/-! ### Reachable Replays -/

/-- The replays that a caller can hold, one that goes on after a rejection included. -/
inductive Reachable (py : Python) : Replay → Prop where
  | fresh : Reachable py {}
  | ingest {s : Replay} (raw : JsonObject) : Reachable py s →
      Reachable py (s.ingestInPlace py raw).2

/-- A replay without an identity has accepted nothing. -/
def Unused (s : Replay) : Prop := s.identity = none → s.seenEventIds = [] ∧ s.terminalType = none

theorem Reachable.unused (h : Reachable py s) : s.Unused := by
  induction h with
  | fresh => exact fun _ => ⟨rfl, rfl⟩
  | @ingest s raw _ ih =>
    intro hnone
    cases hres : (s.ingestInPlace py raw).1 with
    | error e =>
      rw [ingestInPlace_rejected hres] at hnone ⊢
      unfold behindRejected at hnone ⊢
      split at hnone
      · exact ih hnone
      · split at hnone
        · cases hnone
        · next hguard => simpa only [if_neg hguard] using ih hnone
    | ok event =>
      rw [ingestInPlace_accepted hres] at hnone
      cases hnone

/-- The results that the events of a list have one after the other. -/
def outcomes (py : Python) : Replay → List JsonObject → List (Except EventError JsonObject)
  | _, [] => []
  | s, raw :: later =>
    let (result, s') := s.ingestInPlace py raw
    result :: outcomes py s' later

/-- A rejected event leaves the replay as it was, and so every later one has the result that it
    has when the rejected event is never offered, exactly when the replay has its identity or the
    event is not even valid: the first valid event of a replay is adopted whatever becomes of it. -/
theorem rejected_event_iff (hs : Reachable py s) (hrej : (s.ingestInPlace py raw).1 = .error e) :
    ((s.ingestInPlace py raw).2 = s ∧
        ∀ later, outcomes py (s.ingestInPlace py raw).2 later = outcomes py s later) ↔
      s.identity ≠ none ∨ ∀ event, validateEventBySchema py raw ≠ .ok event := by
  have hsame : (s.ingestInPlace py raw).2 = s ↔
      s.identity ≠ none ∨ ∀ event, validateEventBySchema py raw ≠ .ok event := by
    rw [ingestInPlace_rejected hrej, behindRejected]
    cases hvalid : validateEventBySchema py raw with
    | error e' => simp
    | ok event =>
      cases hid : s.identity with
      | none =>
        obtain ⟨hseen, hterminal⟩ := hs.unused hid
        have hguard : Event.eventId event ∉ s.seenEventIds ∧ s.terminalType.isNone = true := by
          simp [hseen, hterminal]
        simp only [if_pos hguard]
        constructor
        · intro h
          have := congrArg Replay.identity h
          rw [hid] at this
          cases this
        · rintro (h | h)
          · exact absurd rfl h
          · exact absurd rfl (h event)
      | some i =>
        simp only [Option.getD_some, ne_eq, reduceCtorEq, not_false_eq_true, true_or, iff_true]
        rw [← hid]
        split <;> rfl
  constructor
  · rintro ⟨h, _⟩
    exact hsame.mp h
  · intro h
    have heq := hsame.mpr h
    exact ⟨heq, fun later => by rw [heq]⟩

/-! ### A Stray First Event -/

/-- A first event with a number of its own. -/
def startEvent (attempt : String) (seq : Int) : JsonObject :=
  [("schema", .str canonicalEventSchema), ("event_id", .str attempt), ("attempt_id", .str attempt),
    ("seq", .int seq), ("occurred_at", .str "2026-01-01T00:00:00Z"), ("type", .str "run.started"),
    ("task_id", .int 1),
    ("harness", .obj [("key", .str "pi"), ("adapter_version", .str "1"), ("cli_version", .str "1")]),
    ("payload", .obj [])]

/-- The results of a list, as accepted or rejected. -/
def accepts (s : Replay) (events : List JsonObject) : List Bool :=
  (outcomes zonedPython s events).map Except.isOk

/-- A started replay refuses its first event a second time and stays as it is. -/
theorem repeated_start_kept :
    let s := (ingestInPlace zonedPython {} (startEvent "a1" 1)).2
    (s.ingestInPlace zonedPython (startEvent "a1" 1)).2 = s ∧
      ∀ later, outcomes zonedPython (s.ingestInPlace zonedPython (startEvent "a1" 1)).2 later =
        outcomes zonedPython s later := by
  intro s
  have hrejected : (s.ingestInPlace zonedPython (startEvent "a1" 1)).1.isOk = false := by
    decide +kernel
  have hadopted : s.identity.isSome = true := by decide +kernel
  have hidentity : s.identity ≠ none := by
    intro hnone
    rw [hnone] at hadopted
    cases hadopted
  cases hres : (s.ingestInPlace zonedPython (startEvent "a1" 1)).1 with
  | error e => exact (rejected_event_iff (.ingest (startEvent "a1" 1) .fresh) hres).mpr (.inl hidentity)
  | ok event =>
    rw [hres] at hrejected
    cases hrejected

/-- A stray event of another attempt is refused for its number, and the attempt that the replay
    is for can no longer start. -/
theorem stray_event_adopted : ∃ message code,
    (ingestInPlace zonedPython {} (startEvent "a2" 2)).1 = .error (.protocol message code) ∧
    (ingestInPlace zonedPython {} (startEvent "a2" 2)).2 ≠ {} ∧
    accepts {} [startEvent "a1" 1] = [true] ∧
    accepts (ingestInPlace zonedPython {} (startEvent "a2" 2)).2 [startEvent "a1" 1] = [false] := by
  have hrejected : (match (ingestInPlace zonedPython {} (startEvent "a2" 2)).1 with
      | .error (.protocol _ code) => code == "sequence_gap"
      | _ => false) = true := by decide +kernel
  have hadopted : (ingestInPlace zonedPython {} (startEvent "a2" 2)).2.identity.isSome = true := by
    decide +kernel
  have hresults : accepts {} [startEvent "a1" 1] = [true] ∧
      accepts (ingestInPlace zonedPython {} (startEvent "a2" 2)).2 [startEvent "a1" 1] = [false] := by
    decide +kernel
  have hchanged : (ingestInPlace zonedPython {} (startEvent "a2" 2)).2 ≠ {} := by
    intro h
    rw [h] at hadopted
    cases hadopted
  generalize (ingestInPlace zonedPython {} (startEvent "a2" 2)).1 = result at hrejected ⊢
  split at hrejected
  · exact ⟨_, _, rfl, hchanged, hresults⟩
  · cases hrejected

end Codify.Harness.Replay

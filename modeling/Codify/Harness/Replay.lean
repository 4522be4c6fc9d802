import Codify.Harness.Protocol

/-! # Event Replay

    `CanonicalEventReplay`: the state machine that checks the events of one
    complete attempt. Its flags form the `Lifecycle` of the attempt; besides
    them the replay remembers the identity of the first event and the event ids
    it has seen.

    Two other components decide the same order without these flags: the ingest
    (Attempts) from point queries on stored receipts and the Worker's writer
    (WorkerEvents) from the lines of its own file. What they share is the
    abstract description of a lifecycle by the list of event types so far,
    `Lifecycle.ofTypes`.
-/

namespace Codify.Harness

open Codify.Framework

/-! ### Lifecycle -/

/-- The ordering flags of `CanonicalEventReplay`. -/
structure Lifecycle where
  lastSeq : Int := 0
  started : Bool := false
  harnessEnded : Bool := false
  finalizationSeen : Bool := false
  terminalType : Option String := none
  deriving DecidableEq, Repr

namespace Lifecycle

/-- `run.started` comes once and first; everything else comes after it. -/
def checkStart (lc : Lifecycle) (seq : Int) (eventType : String) : Except EventError Unit :=
  if eventType = "run.started" then do
    require (!lc.started) (protocolError "run.started appears more than once")
    require (seq == firstSequence)
      (protocolError "run.started must be the first canonical event")
  else
    require lc.started (.protocol "canonical attempt is missing run.started" "missing_init")

/-- What the boundaries ask for: one harness terminal, deliveries and one finalization behind it,
    and the Task terminal last. -/
def checkRest (lc : Lifecycle) (eventType : String) : Except EventError Unit := do
  requireIf (isHarnessTerminal eventType) (!lc.harnessEnded)
    (protocolError "harness terminal appears more than once")
  requireIf (isDelivery eventType) lc.harnessEnded
    (protocolError "delivery event appears before harness terminal")
  requireIf (eventType == "worker.finalization") lc.harnessEnded
    (protocolError "worker.finalization appears before harness terminal")
  requireIf (eventType == "worker.finalization") (!lc.finalizationSeen)
    (protocolError "worker.finalization appears more than once")
  requireIf (isTaskTerminal eventType) lc.harnessEnded
    (protocolError "task terminal appears before harness terminal")
  requireIf (isTaskTerminal eventType) lc.finalizationSeen
    (protocolError "task terminal appears before worker.finalization")

/-- The ordering checks of `ingest`, from the sequence number on. A harness terminal is
    no delivery event, so the flag before the event decides both. -/
def check (lc : Lifecycle) (seq : Int) (eventType : String) : Except EventError Unit := do
  let expected := lc.lastSeq + 1
  require (seq == expected)
    (.protocol s!"sequence gap: expected {expected}, received {seq}" "sequence_gap")
  requireIf lc.finalizationSeen (isTaskTerminal eventType)
    (.protocol "only the Task terminal may follow worker.finalization" "after_finalization")
  lc.checkStart seq eventType
  lc.checkRest eventType

def advance (lc : Lifecycle) (seq : Int) (eventType : String) : Lifecycle where
  lastSeq := seq
  started := true
  harnessEnded := lc.harnessEnded || isHarnessTerminal eventType
  finalizationSeen := lc.finalizationSeen || eventType == "worker.finalization"
  terminalType := if isTaskTerminal eventType then some eventType else lc.terminalType

/-- What `check` demands of an event that follows `lc`. -/
structure Admits (lc : Lifecycle) (seq : Int) (eventType : String) : Prop where
  next : seq = lc.lastSeq + 1
  final : lc.finalizationSeen = true → isTaskTerminal eventType = true
  start : eventType = "run.started" → lc.started = false ∧ seq = firstSequence
  running : eventType ≠ "run.started" → lc.started = true
  harness : isHarnessTerminal eventType = true → lc.harnessEnded = false
  delivery : isDelivery eventType = true → lc.harnessEnded = true
  finalization : eventType = "worker.finalization" →
    lc.harnessEnded = true ∧ lc.finalizationSeen = false
  terminal : isTaskTerminal eventType = true →
    lc.harnessEnded = true ∧ lc.finalizationSeen = true

end Lifecycle

namespace Lifecycle

variable {eventType : String} {lc : Lifecycle} {seq : Int} {types : List String}

theorem checkStart_eq_ok_iff {u : Unit} :
    lc.checkStart seq eventType = .ok u ↔
      (eventType = "run.started" → lc.started = false ∧ seq = firstSequence) ∧
      (eventType ≠ "run.started" → lc.started = true) := by
  by_cases h : eventType = "run.started"
  · simp [checkStart, h]
  · simp [checkStart, h]

theorem check_eq_ok_iff {u : Unit} :
    lc.check seq eventType = .ok u ↔ lc.Admits seq eventType := by
  simp only [check, checkRest, unit_bind_eq_ok_iff, require_eq_ok_iff, requireIf_eq_ok_iff,
    checkStart_eq_ok_iff, beq_iff_eq, Bool.not_eq_true']
  constructor
  · rintro ⟨hnext, hfinal, ⟨hstart, hrun⟩, hharness, hdel, hfin, hfin', hterm, hterm'⟩
    exact ⟨hnext, hfinal, hstart, hrun, hharness, hdel, fun h => ⟨hfin h, hfin' h⟩,
      fun h => ⟨hterm h, hterm' h⟩⟩
  · intro h
    exact ⟨h.next, h.final, ⟨h.start, h.running⟩, h.harness, h.delivery,
      fun e => (h.finalization e).1, fun e => (h.finalization e).2,
      fun e => (h.terminal e).1, fun e => (h.terminal e).2⟩

/-- The flags after a list of event types. -/
def ofTypes (types : List String) : Lifecycle :=
  types.foldl (fun lc eventType => lc.advance (lc.lastSeq + 1) eventType) {}

theorem ofTypes_append (types : List String) (eventType : String) :
    ofTypes (types ++ [eventType]) =
      (ofTypes types).advance ((ofTypes types).lastSeq + 1) eventType := by
  simp [ofTypes]

@[simp] theorem ofTypes_lastSeq (types : List String) :
    (ofTypes types).lastSeq = types.length := by
  induction types using List.reverseRecOn with
  | nil => rfl
  | append_singleton types t ih => simp [ofTypes_append, advance, ih]

@[simp] theorem ofTypes_started (types : List String) :
    (ofTypes types).started = !types.isEmpty := by
  induction types using List.reverseRecOn with
  | nil => rfl
  | append_singleton types t ih => simp [ofTypes_append, advance]

@[simp] theorem ofTypes_harnessEnded (types : List String) :
    (ofTypes types).harnessEnded = types.any isHarnessTerminal := by
  induction types using List.reverseRecOn with
  | nil => rfl
  | append_singleton types t ih => simp [ofTypes_append, advance, ih]

@[simp] theorem ofTypes_finalizationSeen (types : List String) :
    (ofTypes types).finalizationSeen = decide ("worker.finalization" ∈ types) := by
  induction types using List.reverseRecOn with
  | nil => rfl
  | append_singleton types t ih =>
    simp only [ofTypes_append, advance, ih, List.mem_append, List.mem_singleton, Bool.decide_or]
    rw [beq_eq_decide, decide_eq_decide.mpr (eq_comm : t = "worker.finalization" ↔ _)]

/-- The type lists a replay can accept. -/
inductive Valid : List String → Prop where
  | nil : Valid []
  | snoc {types : List String} {eventType : String} : Valid types →
      (ofTypes types).terminalType = none →
      (ofTypes types).Admits (types.length + 1) eventType → Valid (types ++ [eventType])

theorem Valid.terminal_last (h : Valid types)
    (ht : (ofTypes types).terminalType = some eventType) :
    types.getLast? = some eventType ∧ isTaskTerminal eventType = true := by
  cases h with
  | nil => cases ht
  | @snoc types t _ hnone _ =>
    simp only [ofTypes_append, advance, hnone] at ht
    split at ht
    · cases ht
      exact ⟨by simp, by assumption⟩
    · cases ht

/-- Before the task terminal, a finalization was seen exactly when it is the last
    event: only the terminal may follow it. -/
theorem Valid.finalization_last (h : Valid types)
    (hnone : (ofTypes types).terminalType = none) :
    (ofTypes types).finalizationSeen = (types.getLast? == some "worker.finalization") := by
  cases h with
  | nil => rfl
  | @snoc types t _ hprev hadmits =>
    have hterm : isTaskTerminal t = false := by
      by_contra hne
      simp only [Bool.not_eq_false] at hne
      simp [ofTypes_append, advance, hne] at hnone
    have hunseen : (ofTypes types).finalizationSeen = false := by
      by_contra hne
      simp only [Bool.not_eq_false] at hne
      simp [hadmits.final hne] at hterm
    simp only [ofTypes_append, advance, hunseen, Bool.false_or, List.getLast?_append,
      List.getLast?_singleton, Option.some_or]
    rfl

theorem Valid.harnessEnded_of_terminal (h : Valid types)
    (ht : (ofTypes types).terminalType = some eventType) :
    (ofTypes types).harnessEnded = true := by
  cases h with
  | nil => cases ht
  | @snoc types t _ hnone hadmits =>
    simp only [ofTypes_append, advance, hnone] at ht ⊢
    split at ht
    · rename_i hterm
      rw [(hadmits.terminal hterm).1, Bool.true_or]
    · cases ht

theorem Valid.harnessEnded_of_finalization (h : Valid types)
    (hlast : types.getLast? = some "worker.finalization") :
    (ofTypes types).harnessEnded = true := by
  cases h with
  | nil => exact nomatch hlast
  | @snoc types t _ _ hadmits =>
    rw [List.getLast?_concat] at hlast
    simp only [ofTypes_append, advance]
    rw [(hadmits.finalization (Option.some.inj hlast)).1, Bool.true_or]

theorem Valid.terminalType_isSome_iff (h : Valid types) :
    (ofTypes types).terminalType.isSome = types.any isTaskTerminal := by
  induction h with
  | nil => rfl
  | @snoc types t _ hnone _ ih =>
    rw [hnone] at ih
    simp only [ofTypes_append, advance, hnone, List.any_append, ← ih]
    cases hterm : isTaskTerminal t <;> simp [hterm]

end Lifecycle

/-! ### Replay -/

/-- What the first event of a replay fixes. -/
structure Identity where
  attemptId : String
  taskId : Int
  harnessKey : String
  adapterVersion : String
  cliVersion : String
  controlTransport : Json
  modelProtocols : Json

def Identity.of (event : JsonObject) : Identity where
  attemptId := Event.attemptId event
  taskId := Event.taskId event
  harnessKey := Event.harnessKey event
  adapterVersion := Event.adapterVersion event
  cliVersion := Event.cliVersion event
  controlTransport := Event.controlTransport event
  modelProtocols := Event.modelProtocols event

/-- An event belongs to an identity. -/
structure Identity.Matches (identity : Identity) (event : JsonObject) : Prop where
  attemptId : Event.attemptId event = identity.attemptId
  taskId : Event.taskId event = identity.taskId
  harnessKey : Event.harnessKey event = identity.harnessKey
  adapterVersion : Event.adapterVersion event = identity.adapterVersion
  cliVersion : Event.cliVersion event = identity.cliVersion
  controlTransport : (Event.controlTransport event).pyEq identity.controlTransport = true
  modelProtocols : (Event.modelProtocols event).pyEq identity.modelProtocols = true

/-- `CanonicalEventReplay`; the identity fields are set together by the first event. -/
structure Replay extends Lifecycle where
  identity : Option Identity := none
  seenEventIds : List String := []

namespace Replay

variable (py : Python) (self : Replay)

/-- The identity checks of `ingest`, with the identity that holds after them. -/
def checkIdentity (event : JsonObject) : Except EventError Identity :=
  match self.identity with
  | none => .ok (Identity.of event)
  | some identity => do
    require (Event.attemptId event == identity.attemptId)
      (protocolError "attempt_id changed inside one replay")
    require (Event.taskId event == identity.taskId)
      (protocolError "task_id changed inside one replay")
    require (Event.harnessKey event == identity.harnessKey)
      (protocolError "harness key changed inside one replay")
    require (Event.adapterVersion event == identity.adapterVersion)
      (protocolError "Adapter version changed inside one replay")
    require (Event.cliVersion event == identity.cliVersion)
      (protocolError "CLI version changed inside one replay")
    require ((Event.controlTransport event).pyEq identity.controlTransport)
      (protocolError "control transport changed inside one replay")
    require ((Event.modelProtocols event).pyEq identity.modelProtocols)
      (protocolError "model_protocols changed inside one replay")
    return identity

/-- `ingest`: the replay after the event, and the event as normalized. -/
def ingest (rawEvent : JsonObject) : Except EventError (Replay × JsonObject) := do
  let event ← validateEventBySchema py rawEvent
  let eventId := Event.eventId event
  require (eventId ∉ self.seenEventIds)
    (.protocol s!"duplicate event_id: {eventId}" "duplicate_event")
  require self.terminalType.isNone
    (.protocol "canonical event appears after task terminal" "after_terminal")
  let identity ← self.checkIdentity event
  self.toLifecycle.check (Event.seq event) (Event.type event)
  return ({ toLifecycle := self.toLifecycle.advance (Event.seq event) (Event.type event)
            identity := some identity
            seenEventIds := eventId :: self.seenEventIds }, event)

/-- `finish`. -/
def finish : Except EventError String := do
  require self.started
    (.protocol "canonical attempt is missing run.started" "missing_init")
  require self.harnessEnded
    (.protocol "canonical attempt is missing harness terminal" "missing_harness_terminal")
  match self.terminalType with
  | none =>
    throw (.protocol "canonical attempt is missing task terminal" "missing_task_terminal")
  | some terminal => return terminal

def ofEvents (events : List JsonObject) : Except EventError Replay :=
  events.foldlM (fun replay event => do return (← replay.ingest py event).1) {}

/-! ### What a Replay Accepts -/

/-- What `ingest` demands of a normalized event. -/
structure Accepts (replay : Replay) (event : JsonObject) : Prop where
  fresh : Event.eventId event ∉ replay.seenEventIds
  unfinished : replay.terminalType = none
  identity : ∀ i, replay.identity = some i → i.Matches event
  order : replay.toLifecycle.Admits (Event.seq event) (Event.type event)

def record (event : JsonObject) : Replay where
  toLifecycle := self.toLifecycle.advance (Event.seq event) (Event.type event)
  identity := some (self.identity.getD (Identity.of event))
  seenEventIds := Event.eventId event :: self.seenEventIds

variable {event : JsonObject} {self replay : Replay} {py : Python}

theorem checkIdentity_eq_ok_iff {i : Identity} :
    self.checkIdentity event = .ok i ↔
      i = self.identity.getD (Identity.of event) ∧
      ∀ j, self.identity = some j → j.Matches event := by
  cases hid : self.identity with
  | none => simp [checkIdentity, hid, eq_comm]
  | some j =>
    simp only [checkIdentity, hid, unit_bind_eq_ok_iff, require_eq_ok_iff, beq_iff_eq,
      pure_eq_ok, Except.ok.injEq, Option.getD_some]
    constructor
    · rintro ⟨h1, h2, h3, h4, h5, h6, h7, rfl⟩
      refine ⟨rfl, ?_⟩
      rintro i hi
      cases hi
      exact ⟨h1, h2, h3, h4, h5, h6, h7⟩
    · rintro ⟨rfl, hmatch⟩
      obtain ⟨h1, h2, h3, h4, h5, h6, h7⟩ := hmatch i rfl
      exact ⟨h1, h2, h3, h4, h5, h6, h7, rfl⟩

theorem ingest_eq_ok_iff {rawEvent : JsonObject} :
    self.ingest py rawEvent = .ok (replay, event) ↔
      validateEventBySchema py rawEvent = .ok event ∧ self.Accepts event ∧
      replay = self.record event := by
  constructor
  · intro h
    obtain ⟨e, hvalid, h⟩ := bind_eq_ok_iff.mp h
    simp only [unit_bind_eq_ok_iff, require_eq_ok_iff, decide_eq_true_eq] at h
    obtain ⟨hfresh, hopen, h⟩ := h
    obtain ⟨i, hid, h⟩ := bind_eq_ok_iff.mp h
    simp only [unit_bind_eq_ok_iff, Lifecycle.check_eq_ok_iff, pure_eq_ok, Except.ok.injEq,
      Prod.mk.injEq] at h
    obtain ⟨horder, rfl, rfl⟩ := h
    obtain ⟨rfl, hmatch⟩ := checkIdentity_eq_ok_iff.mp hid
    exact ⟨hvalid, ⟨hfresh, by simpa using hopen, hmatch, horder⟩, rfl⟩
  · rintro ⟨hvalid, hacc, rfl⟩
    have hid := checkIdentity_eq_ok_iff.mpr ⟨rfl, hacc.identity⟩
    have horder : self.toLifecycle.check (Event.seq event) (Event.type event) = .ok () :=
      Lifecycle.check_eq_ok_iff.mpr hacc.order
    have hopen : self.terminalType.isNone = true := by simp [hacc.unfinished]
    simp [ingest, hvalid, require, hacc.fresh, hopen, hid, horder, record]

/-- The normalized events a fresh replay has accepted, and its state after them. -/
inductive Accepted : List JsonObject → Replay → Prop where
  | nil : Accepted [] {}
  | snoc {events : List JsonObject} {replay : Replay} {event : JsonObject} :
      Accepted events replay → replay.Accepts event →
      Accepted (events ++ [event]) (replay.record event)

/-- The state of a replay is a function of the events it has accepted. -/
structure Summary (events : List JsonObject) (replay : Replay) : Prop where
  lifecycle : replay.toLifecycle = Lifecycle.ofTypes (events.map Event.type)
  valid : Lifecycle.Valid (events.map Event.type)
  identity : replay.identity = events.head?.map Identity.of
  seen : ∀ id, id ∈ replay.seenEventIds ↔ id ∈ events.map Event.eventId
  seqs : ∀ i (hi : i < events.length), Event.seq events[i] = i + 1

theorem Accepted.summary {events : List JsonObject}
    (h : Accepted events replay) : Summary events replay := by
  induction h with
  | nil => exact ⟨rfl, .nil, rfl, by simp, by simp⟩
  | @snoc events replay event hacc haccepts ih =>
    have hseq : Event.seq event = (Lifecycle.ofTypes (events.map Event.type)).lastSeq + 1 := by
      rw [← ih.lifecycle]
      exact haccepts.order.next
    refine ⟨?_, ?_, ?_, ?_, ?_⟩
    · simp only [record, List.map_append, List.map_cons, List.map_nil,
        Lifecycle.ofTypes_append, ih.lifecycle, hseq]
    · rw [List.map_append, List.map_cons, List.map_nil]
      refine .snoc ih.valid ?_ ?_
      · rw [← ih.lifecycle]
        exact haccepts.unfinished
      · have := haccepts.order
        rwa [ih.lifecycle, hseq, Lifecycle.ofTypes_lastSeq] at this
    · cases events with
      | nil => simp [record, ih.identity]
      | cons first rest => simp [record, ih.identity]
    · intro id
      simp only [record, List.mem_cons, ih.seen, List.map_append, List.map_cons, List.map_nil,
        List.mem_append, List.not_mem_nil, or_false]
      exact or_comm
    · intro i hi
      rw [List.length_append, List.length_singleton] at hi
      by_cases hlast : i < events.length
      · rw [List.getElem_append_left hlast]
        exact ih.seqs i hlast
      · obtain rfl : i = events.length := by omega
        simp [hseq]

theorem ofEvents_append (py : Python) (events : List JsonObject) (event : JsonObject) :
    ofEvents py (events ++ [event]) =
      (ofEvents py events >>= fun replay => do return (← replay.ingest py event).1) := by
  simp only [ofEvents, List.foldlM_append, List.foldlM_cons, List.foldlM_nil, bind_pure]

theorem Accepted.ofEvents_eq (normalize : JsonObject → JsonObject)
    {raws : List JsonObject}
    (hvalid : ∀ raw ∈ raws, validateEventBySchema py raw = .ok (normalize raw))
    (h : Accepted (raws.map normalize) replay) : ofEvents py raws = .ok replay := by
  induction raws using List.reverseRecOn generalizing replay with
  | nil =>
    generalize hevents : ([] : List JsonObject).map normalize = events at h
    cases h with
    | nil => rfl
    | snoc => simp at hevents
  | append_singleton raws raw ih =>
    generalize hevents : (raws ++ [raw]).map normalize = events at h
    cases h with
    | nil => simp at hevents
    | @snoc events replay event hacc haccepts =>
      rw [List.map_append, List.map_cons, List.map_nil] at hevents
      obtain ⟨rfl, hlast⟩ := List.append_inj' hevents rfl
      obtain rfl : normalize raw = event := by simpa using hlast
      have hprev := ih (fun r hr => hvalid r (by simp [hr])) hacc
      have hlast := ingest_eq_ok_iff.mpr ⟨hvalid raw (by simp), haccepts, rfl⟩
      simp [ofEvents_append, hprev, hlast]

end Replay

end Codify.Harness

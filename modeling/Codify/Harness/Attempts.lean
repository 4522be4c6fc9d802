import Codify.Framework.System
import Codify.Models
import Codify.Harness.Replay

/-! # Event Ingest

    `ingest_canonical_event` (app/core/harness_attempts.py) accepts one event at
    a time into the receipts of an attempt. It replaces the full replay by point
    queries (last event type, first receipt, existence of boundary types) and by
    three caches kept on the ORM object: a new session starts without them, a
    raised error keeps them while the transaction is rolled back.

    Of the receipts table the model holds the rows of this one attempt, and of the
    others their event ids, which the flush of a new row must not repeat.
    `contentDigest` hashes an event, `takesJson` says what the JSON column takes;
    both stay parameters.
-/

namespace Codify.Harness

open Codify Codify.Framework List Lifecycle Event

/-! ### Rows -/

/-- `TaskHarnessAttempt`: the frozen identity and the ingest state. -/
structure Attempt where
  attemptId : String
  taskId : Int
  eventSchema : String
  harnessKey : String
  adapterVersion : String
  /-- NULL until the first event names it. -/
  cliVersion : Option String := none
  lastSeq : Int := 0
  terminalEventId : Option String := none
  terminalEventType : Option String := none
  terminalAt : Option DateTime := none
  deriving DecidableEq, Repr

/-- `TaskHarnessEventReceipt`. -/
structure Receipt where
  seq : Int
  eventId : String
  eventType : String
  eventDigest : String
  event : JsonObject

/-- The three attributes the ingest keeps on the loaded attempt object. -/
structure Cache where
  /-- `_canonical_finalization_seen`. -/
  finalizationSeen : Option Bool := none
  /-- `_canonical_harness_metadata`. -/
  harnessMetadata : Option (Json × Json) := none
  /-- `_canonical_event_ids`. -/
  eventIds : Option (List String) := none

/-- An attempt, its receipts and the loaded object's caches. -/
structure IngestState where
  attempt : Attempt
  receipts : List Receipt := []
  cache : Cache := {}
  /-- The event ids in the receipts of the other attempts. -/
  otherIds : List String := []

/-! ### Point Queries -/

variable (py : Python) (attempt : Attempt) (receipts : List Receipt)

/-- `db.get(TaskHarnessEventReceipt, (attempt_id, seq))`. -/
def receiptAt (seq : Int) : Option Receipt := receipts.find? (·.seq == seq)

/-- `_load_replay`. -/
def loadReplay : Except EventError Replay :=
  Replay.ofEvents py ((receipts.insertionSort fun a b => a.seq ≤ b.seq).map (·.event))

/-- `_existing_event_types`: the requested types among the stored ones. -/
def existingEventTypes (eventTypes : List String) : List String :=
  (receipts.map (·.eventType)).filter (· ∈ eventTypes)

/-- `_first_event_harness_metadata`. -/
def firstEventHarnessMetadata : Option (Json × Json) := do
  let first ← receiptAt receipts 1
  let harness ← (first.event.get "harness").asObject
  return (harness.get "control_transport", harness.get "model_protocols")

/-- `_last_event_type`. -/
def lastEventType : Option String :=
  if attempt.lastSeq ≤ 0 then none
  else (receiptAt receipts attempt.lastSeq).map (·.eventType)

/-! ### Incremental Order Checks -/

/-- The checks on the attempt's summary columns. -/
def checkSummary (event : JsonObject) : Except EventError Unit := do
  require attempt.terminalEventType.isNone
    (.protocol "canonical event appears after task terminal" "after_terminal")
  let expected := attempt.lastSeq + 1
  let seq := Event.seq event
  require (seq == expected)
    (.protocol s!"sequence gap: expected {expected}, received {seq}" "sequence_gap")

/-- The check against the metadata of the first receipt, for events after it. -/
def checkMetadata (metadata : Option (Json × Json)) (event : JsonObject) :
    Except EventError Unit :=
  if 1 < Event.seq event then
    match metadata with
    | none =>
      .error (.protocol "canonical attempt is missing run.started" "missing_init")
    | some (controlTransport, modelProtocols) => do
      require ((Event.controlTransport event).pyEq controlTransport)
        (protocolError "control transport changed inside one replay")
      require ((Event.modelProtocols event).pyEq modelProtocols)
        (protocolError "model_protocols changed inside one replay")
  else
    .ok ()

/-- `run.started` exactly at the start of the attempt. -/
def checkFirst (eventType : String) : Except EventError Unit :=
  if attempt.lastSeq = 0 then
    require (eventType == "run.started")
      (.protocol "canonical attempt is missing run.started" "missing_init")
  else
    require (eventType != "run.started") (protocolError "run.started appears more than once")

/-- `boundary_types`. -/
def boundaryTypes : List String := harnessTerminalTypes ++ ["worker.finalization"]

/-- The checks around lifecycle boundaries, from the existence of prior types. -/
def checkBoundary (eventType : String) : Except EventError Unit :=
  if isHarnessTerminal eventType then
    require (existingEventTypes receipts harnessTerminalTypes).isEmpty
      (protocolError "harness terminal appears more than once")
  else if isDelivery eventType then
    require (!(existingEventTypes receipts harnessTerminalTypes).isEmpty)
      (protocolError "delivery event appears before harness terminal")
  else if eventType = "worker.finalization" then do
    let priorTypes := existingEventTypes receipts boundaryTypes
    require (priorTypes.any (· ∈ harnessTerminalTypes))
      (protocolError "worker.finalization appears before harness terminal")
    require ("worker.finalization" ∉ priorTypes)
      (protocolError "worker.finalization appears more than once")
  else if isTaskTerminal eventType then do
    let priorTypes := existingEventTypes receipts boundaryTypes
    require (priorTypes.any (· ∈ harnessTerminalTypes))
      (protocolError "task terminal appears before harness terminal")
    require ("worker.finalization" ∈ priorTypes)
      (protocolError "task terminal appears before worker.finalization")
  else
    .ok ()

/-- `_validate_incremental_event_order`: the verdict and the caches it leaves. -/
def validateIncrementalEventOrder (cache : Cache) (event : JsonObject) : Except EventError Unit ×
    Cache :=
  match checkSummary attempt event with
  | .error e => (.error e, cache)
  | .ok () =>
    let eventType := type event
    let finalizationSeen := cache.finalizationSeen.getD
      (lastEventType attempt receipts == some "worker.finalization")
    let cache := { cache with finalizationSeen := some finalizationSeen }
    if finalizationSeen && !isTaskTerminal eventType then
      (.error (.protocol "only the Task terminal may follow worker.finalization"
        "after_finalization"), cache)
    else
      let metadata := cache.harnessMetadata.or (firstEventHarnessMetadata receipts)
      let cache :=
        if 1 < Event.seq event then { cache with harnessMetadata := metadata } else cache
      (do checkMetadata metadata event
          checkFirst attempt eventType
          checkBoundary receipts eventType,
       cache)

/-! ### Ingest -/

/-- The checks against the frozen attempt; the attempt with its CLI version filled in. -/
def checkFrozenAttempt (event : JsonObject) : Except EventError Attempt := do
  require (attempt.attemptId == Event.attemptId event)
    (protocolError "canonical event references an unknown attempt")
  require (attempt.taskId == Event.taskId event)
    (protocolError "canonical event task does not own its attempt")
  require (attempt.harnessKey == Event.harnessKey event)
    (protocolError "canonical event Harness does not match the frozen attempt")
  require (attempt.adapterVersion == Event.adapterVersion event)
    (protocolError "canonical event Adapter does not match the frozen attempt")
  require (attempt.cliVersion.all (· == Event.cliVersion event))
    (protocolError "canonical event CLI does not match the frozen attempt")
  require (attempt.eventSchema == schema event)
    (protocolError "canonical event schema does not match the frozen attempt")
  return { attempt with cliVersion := some (Event.cliVersion event) }

section Ingest

variable (py : Python) (contentDigest : JsonObject → String) (takesJson : JsonObject → Bool)

/-- A column `String(width)` takes the text. -/
def fitsColumn (width : Nat) (text : String) : Bool :=
  decide (text.length ≤ width) && !text.toList.contains '\x00'

/-- `db.flush()` writes the receipt of the event and the summary columns. -/
def flushes (otherIds : List String) (event : JsonObject) : Bool :=
  fitsColumn 64 (Event.eventId event) && decide (Event.eventId event ∉ otherIds) &&
    decide (Event.seq event < 0x80000000) && fitsColumn 128 (Event.cliVersion event) &&
    takesJson event

def receiptFor (event : JsonObject) : Receipt where
  seq := Event.seq event
  eventId := Event.eventId event
  eventType := type event
  eventDigest := contentDigest event
  event := event

/-- The summary columns after an accepted event. -/
def recordEvent (attempt : Attempt) (now : DateTime) (event : JsonObject) : Attempt :=
  if isTaskTerminal (type event) then
    { attempt with
      lastSeq := Event.seq event
      terminalEventId := some (Event.eventId event)
      terminalEventType := some (type event)
      terminalAt := some now }
  else
    { attempt with lastSeq := Event.seq event }

/-- The part of `ingest_canonical_event` that stores a new receipt: `attempt` has passed
    the identity checks and no receipt has the event's sequence number. -/
def storeEvent (s : IngestState) (attempt : Attempt) (now : DateTime) (event : JsonObject) :
    Except EventError Bool × IngestState :=
  let eventId := Event.eventId event
  let eventIds := s.cache.eventIds.getD (s.receipts.map (·.eventId))
  let cache := { s.cache with eventIds := some eventIds }
  if eventId ∈ eventIds then
    (.error (.protocol s!"duplicate event_id: {eventId}" "duplicate_event"), { s with cache })
  else
    match validateIncrementalEventOrder attempt s.receipts cache event with
    | (.error e, cache) => (.error e, { s with cache })
    | (.ok (), cache) =>
      if isTaskTerminal (type event) && attempt.terminalEventId.isSome then
        (.error (protocolError "attempt already has a Task terminal"), { s with cache })
      else if !flushes takesJson s.otherIds event then (.error .databaseError, { s with cache })
      else
        (.ok false,
          { s with
            attempt := recordEvent attempt now event
            receipts := s.receipts ++ [receiptFor contentDigest event]
            cache :=
              { cache with
                eventIds := some (eventId :: eventIds)
                finalizationSeen :=
                  if type event = "worker.finalization" then some true
                  else cache.finalizationSeen } })

/-- `ingest_canonical_event`: whether the event was a duplicate, or the error raised. An
    error rolls the rows back and leaves the caches. -/
def ingestCanonicalEvent (s : IngestState) (now : DateTime) (rawEvent : JsonObject) :
    Except EventError Bool × IngestState :=
  match validateEventBySchema py rawEvent with
  | .error e => (.error e, s)
  | .ok event =>
    match checkFrozenAttempt s.attempt event with
    | .error e => (.error e, s)
    | .ok attempt =>
      match receiptAt s.receipts (Event.seq event) with
      | some existing =>
        if existing.eventId ≠ Event.eventId event ∨
            existing.eventDigest ≠ contentDigest event then
          let seq := Event.seq event
          (.error (.protocol s!"divergent duplicate at sequence {seq}" "duplicate_conflict"),
            s)
        else
          (.ok true, { s with attempt })
      | none => storeEvent contentDigest takesJson s attempt now event

/-- `assert_attempt_complete`. -/
def assertAttemptComplete (s : IngestState) : Except EventError Attempt := do
  let replay ← loadReplay py s.receipts
  let terminal ← replay.finish
  require (s.attempt.terminalEventType == some terminal)
    (protocolError "attempt terminal receipt and summary state disagree")
  return s.attempt

end Ingest

/-! ### The System -/

/-- One call of the ingest, a new session that loads the attempt again, or a commit after which
    the other attempts hold the given event ids. -/
inductive IngestLabel where
  | ingest (event : JsonObject) (now : DateTime)
  | newSession
  | elsewhere (otherIds : List String)

/-- Ingest calls on one attempt that starts without receipts. -/
def ingestSystem (py : Python) (contentDigest : JsonObject → String)
    (takesJson : JsonObject → Bool) : System IngestState IngestLabel where
  init := fun s =>
    s.receipts = [] ∧ s.cache = {} ∧ s.attempt.lastSeq = 0 ∧
    s.attempt.terminalEventId = none ∧ s.attempt.terminalEventType = none
  next := fun s l =>
    match l with
    | .ingest event now => some (ingestCanonicalEvent py contentDigest takesJson s now event).2
    | .newSession => some { s with cache := {} }
    | .elsewhere otherIds =>
      -- the index on `event_id` spans all attempts
      if s.receipts.any (·.eventId ∈ otherIds) then none else some { s with otherIds }

/-- The identity fields of an event match the frozen attempt. -/
structure FrozenMatch (attempt : Attempt) (event : JsonObject) : Prop where
  attemptId : attempt.attemptId = Event.attemptId event
  taskId : attempt.taskId = Event.taskId event
  harnessKey : attempt.harnessKey = Event.harnessKey event
  adapterVersion : attempt.adapterVersion = Event.adapterVersion event
  cliVersion : ∀ cli, attempt.cliVersion = some cli → cli = Event.cliVersion event
  eventSchema : attempt.eventSchema = schema event

/-- An already-normalized event of the attempt. -/
structure Admissible (py : Python) (attempt : Attempt) (event : JsonObject) : Prop where
  normalized : validateEventBySchema py event = .ok event
  identity : FrozenMatch attempt event

/-- The calls under consideration: normalized events of this attempt. -/
def admissibleCalls (py : Python) (s : IngestState) : IngestLabel → Prop
  | .ingest event _ => Admissible py s.attempt event
  | .newSession => True
  | .elsewhere _ => True

/-- A stored receipt has the event's sequence number, id and digest. -/
def ExactDuplicate (contentDigest : JsonObject → String) (receipts : List Receipt)
    (event : JsonObject) : Prop :=
  ∃ r ∈ receipts, r.seq = Event.seq event ∧ r.eventId = Event.eventId event ∧
    r.eventDigest = contentDigest event

theorem checkFrozenAttempt_of_match {attempt : Attempt} {event : JsonObject}
    (h : FrozenMatch attempt event) : checkFrozenAttempt attempt event =
      .ok { attempt with cliVersion := some (Event.cliVersion event) } := by
  have hcli : attempt.cliVersion.all (· == Event.cliVersion event) = true := by
    rw [Option.all_eq_true]
    intro cli hc
    simpa using h.cliVersion cli hc
  simp [checkFrozenAttempt, require, h.attemptId, h.taskId, h.harnessKey, h.adapterVersion,
    h.eventSchema, hcli]

/-! ### Boundary Queries -/

variable {receipts : List Receipt}

theorem existingEventTypes_isEmpty_iff {types : List String} :
    (existingEventTypes receipts types).isEmpty = true ↔
      ∀ t ∈ receipts.map (·.eventType), t ∉ types := by
  rw [List.isEmpty_iff, existingEventTypes, filter_eq_nil_iff]
  simp

/-- The check of the boundary in terms of the stored types. -/
theorem checkBoundary_eq_ok_iff {eventType : String} :
    checkBoundary receipts eventType = .ok () ↔
      (isHarnessTerminal eventType = true →
        (receipts.map (·.eventType)).any isHarnessTerminal = false) ∧
      (isDelivery eventType = true →
        (receipts.map (·.eventType)).any isHarnessTerminal = true) ∧
      (eventType = "worker.finalization" →
        (receipts.map (·.eventType)).any isHarnessTerminal = true ∧
        "worker.finalization" ∉ receipts.map (·.eventType)) ∧
      (isTaskTerminal eventType = true →
        (receipts.map (·.eventType)).any isHarnessTerminal = true ∧
        "worker.finalization" ∈ receipts.map (·.eventType)) := by
  set types := receipts.map (·.eventType) with htypes
  have hnone : (existingEventTypes receipts harnessTerminalTypes).isEmpty = true ↔
      types.any isHarnessTerminal = false := by
    rw [existingEventTypes_isEmpty_iff, any_eq_false]
    simp [isHarnessTerminal, htypes]
  have hsome : (existingEventTypes receipts boundaryTypes).any (· ∈ harnessTerminalTypes) =
      types.any isHarnessTerminal := by
    rw [Bool.eq_iff_iff, any_eq_true, any_eq_true]
    constructor
    · rintro ⟨t, ht, hmem⟩
      exact ⟨t, (mem_filter.mp ht).1, by simpa [isHarnessTerminal] using hmem⟩
    · rintro ⟨t, ht, hmem⟩
      have hmem : t ∈ harnessTerminalTypes := by simpa [isHarnessTerminal] using hmem
      refine ⟨t, mem_filter.mpr ⟨ht, ?_⟩, by simpa using hmem⟩
      simp [boundaryTypes, hmem]
  have hfinal : "worker.finalization" ∈ existingEventTypes receipts boundaryTypes ↔
      "worker.finalization" ∈ types := by
    simp only [existingEventTypes, mem_filter, ← htypes]
    have : ("worker.finalization" ∈ boundaryTypes) := by decide
    simp [this]
  unfold checkBoundary
  by_cases hh : isHarnessTerminal eventType = true
  · have hd := not_delivery_of_boundary (.inl hh)
    have ht := not_taskTerminal_of_boundary (.inl hh)
    simp [hh, hd, ht, hnone, ne_finalization_of_harnessTerminal hh]
  · by_cases hd : isDelivery eventType = true
    · have hf : eventType ≠ "worker.finalization" := by
        rintro rfl
        simp [not_delivery_of_boundary (.inr (.inl rfl))] at hd
      have ht : isTaskTerminal eventType = false := by
        by_contra hne
        simp only [Bool.not_eq_false] at hne
        simp [not_delivery_of_boundary (.inr (.inr (.inl hne)))] at hd
      have hnone' : (existingEventTypes receipts harnessTerminalTypes).isEmpty = false ↔
          types.any isHarnessTerminal = true := by
        rw [← Bool.not_eq_true, hnone, Bool.not_eq_false]
      simp [hh, hd, hf, ht, hnone']
    · by_cases hf : eventType = "worker.finalization"
      · have ht := not_taskTerminal_of_boundary (.inr (.inl hf))
        subst hf
        simp [hh, hd, ht, hsome, hfinal]
      · by_cases ht : isTaskTerminal eventType = true
        · simp [hh, hd, hf, ht, hsome, hfinal]
        · simp [hh, hd, hf, ht]

/-! ### Invariants -/

def IngestState.events (s : IngestState) : List JsonObject := s.receipts.map (·.event)

/-- The types of the stored events, in order. -/
def IngestState.types (s : IngestState) : List String := s.events.map type

/-- How the receipts, the summary columns and the caches hang together. -/
structure IngestInv (py : Python) (contentDigest : JsonObject → String) (s : IngestState) :
    Prop where
  replays : ∃ replay, Replay.Accepted s.events replay
  stored : ∀ r ∈ s.receipts, r = receiptFor contentDigest r.event
  admissible : ∀ r ∈ s.receipts, Admissible py s.attempt r.event ∧
    s.attempt.cliVersion = some (Event.cliVersion r.event)
  lastSeq : s.attempt.lastSeq = s.receipts.length
  terminalType : s.attempt.terminalEventType = (ofTypes s.types).terminalType
  terminalId : s.attempt.terminalEventType = none → s.attempt.terminalEventId = none
  cachedFinalization : ∀ b, s.cache.finalizationSeen = some b →
    s.attempt.terminalEventType = none → b = (ofTypes s.types).finalizationSeen
  cachedMetadata : ∀ m, s.cache.harnessMetadata = some m →
    firstEventHarnessMetadata s.receipts = some m
  cachedIds : ∀ ids, s.cache.eventIds = some ids →
    ∀ id, id ∈ ids ↔ id ∈ s.receipts.map (·.eventId)

section

variable {py : Python} {contentDigest : JsonObject → String} {takesJson : JsonObject → Bool}
  {s : IngestState}

theorem IngestInv.eventTypes (h : IngestInv py contentDigest s) :
    s.receipts.map (·.eventType) = s.types := by
  simp only [IngestState.types, IngestState.events, map_map]
  refine map_congr_left fun r hr => ?_
  rw [h.stored r hr]
  rfl

theorem IngestInv.eventIds (h : IngestInv py contentDigest s) :
    s.receipts.map (·.eventId) = s.events.map Event.eventId := by
  simp only [IngestState.events, map_map]
  refine map_congr_left fun r hr => ?_
  rw [h.stored r hr]
  rfl

theorem IngestInv.seq_getElem (h : IngestInv py contentDigest s) {i : Nat}
    (hi : i < s.receipts.length) : s.receipts[i].seq = i + 1 := by
  obtain ⟨replay, hacc⟩ := h.replays
  have hlen : i < s.events.length := by simpa [IngestState.events] using hi
  have hseq := hacc.summary.seqs i hlen
  rw [h.stored _ (getElem_mem hi)]
  simpa [IngestState.events, receiptFor] using hseq

variable {r : Receipt} {replay : Replay} {attempt : Attempt} {event e : JsonObject} {cache : Cache}
  {receipts : List Receipt}

theorem IngestInv.seq_bounds (h : IngestInv py contentDigest s)
    (hr : r ∈ s.receipts) : 1 ≤ r.seq ∧ r.seq ≤ s.receipts.length := by
  obtain ⟨i, hi, rfl⟩ := getElem_of_mem hr
  rw [h.seq_getElem hi]
  omega

/-- The stored order is the order of the sequence numbers, so the replay is rebuilt from
    the events as stored. -/
theorem IngestInv.loadReplay_eq (h : IngestInv py contentDigest s)
    (hacc : Replay.Accepted s.events replay) : loadReplay py s.receipts = .ok replay := by
  have hsorted : s.receipts.Pairwise fun a b => a.seq ≤ b.seq := by
    rw [pairwise_iff_getElem]
    intro i j hi hj hij
    rw [h.seq_getElem hi, h.seq_getElem hj]
    omega
  rw [loadReplay, hsorted.insertionSort_eq]
  refine Replay.Accepted.ofEvents_eq id ?_ (by simpa [IngestState.events] using hacc)
  intro event hevent
  obtain ⟨r, hr, rfl⟩ := mem_map.mp hevent
  exact (h.admissible r hr).1.normalized

theorem IngestInv.lastEventType_eq (h : IngestInv py contentDigest s) :
    lastEventType s.attempt s.receipts = s.types.getLast? := by
  rw [← h.eventTypes, getLast?_map]
  by_cases hempty : s.receipts = []
  · simp [lastEventType, h.lastSeq, hempty]
  · have hpos : 0 < s.receipts.length := length_pos_iff.mpr hempty
    have hnot : ¬ s.attempt.lastSeq ≤ 0 := by
      rw [h.lastSeq]
      omega
    rw [lastEventType, if_neg hnot]
    congr 1
    rw [receiptAt, getLast?_eq_getElem?]
    cases hfind : s.receipts.find? (·.seq == s.attempt.lastSeq) with
    | none =>
      have hlt : s.receipts.length - 1 < s.receipts.length := by omega
      have hne := find?_eq_none.mp hfind _ (getElem_mem hlt)
      rw [h.seq_getElem hlt, h.lastSeq, beq_iff_eq] at hne
      omega
    | some r =>
      obtain ⟨i, hi, rfl⟩ := getElem_of_mem (mem_of_find?_eq_some hfind)
      have hseq : (s.receipts[i]).seq = s.attempt.lastSeq := by
        simpa using find?_some hfind
      rw [h.seq_getElem hi, h.lastSeq] at hseq
      obtain rfl : i = s.receipts.length - 1 := by omega
      rw [getElem?_eq_getElem hi]

theorem IngestInv.firstEventHarnessMetadata_eq (h : IngestInv py contentDigest s) :
    firstEventHarnessMetadata s.receipts =
      s.events.head?.map fun e => (Event.controlTransport e, Event.modelProtocols e) := by
  cases hrec : s.receipts with
  | nil => simp [firstEventHarnessMetadata, receiptAt, IngestState.events, hrec]
  | cons first rest =>
    have hseq : first.seq = 1 := by
      have := h.seq_getElem (i := 0) (by simp [hrec])
      simpa [hrec] using this
    have hmem : first ∈ s.receipts := by simp [hrec]
    obtain ⟨harness, hharness⟩ :=
      (validateEventBySchema_normalForm (h.admissible first hmem).1.normalized).harness
    simp [firstEventHarnessMetadata, receiptAt, hseq, IngestState.events, hrec, hharness,
      Json.asObject, Event.controlTransport, Event.modelProtocols, Event.harness]

theorem checkSummary_eq_ok_iff :
    checkSummary attempt event = .ok () ↔
      attempt.terminalEventType = none ∧ Event.seq event = attempt.lastSeq + 1 := by
  simp [checkSummary]

theorem checkMetadata_eq_ok_iff {metadata : Option (Json × Json)} :
    checkMetadata metadata event = .ok () ↔
      (1 < Event.seq event → ∃ m, metadata = some m ∧
        (Event.controlTransport event).pyEq m.1 = true ∧
        (Event.modelProtocols event).pyEq m.2 = true) := by
  unfold checkMetadata
  by_cases hseq : 1 < Event.seq event
  · cases metadata with
    | none => simp [hseq]
    | some m => simp [hseq]
  · simp [hseq]

theorem checkFirst_eq_ok_iff {eventType : String} :
    checkFirst attempt eventType = .ok () ↔
      (attempt.lastSeq = 0 ↔ eventType = "run.started") := by
  unfold checkFirst
  by_cases hseq : attempt.lastSeq = 0
  · simp [hseq]
  · simp [hseq]

theorem validateIncrementalEventOrder_ok_iff :
    (validateIncrementalEventOrder attempt receipts cache event).1 = .ok () ↔
      checkSummary attempt event = .ok () ∧
      (cache.finalizationSeen.getD
          (lastEventType attempt receipts == some "worker.finalization") = true →
        isTaskTerminal (type event) = true) ∧
      checkMetadata (cache.harnessMetadata.or (firstEventHarnessMetadata receipts)) event =
        .ok () ∧
      checkFirst attempt (type event) = .ok () ∧
      checkBoundary receipts (type event) = .ok () := by
  unfold validateIncrementalEventOrder
  cases checkSummary attempt event with
  | error e => simp
  | ok u =>
    cases cache.finalizationSeen.getD
        (lastEventType attempt receipts == some "worker.finalization") with
    | false => simp
    | true => cases hterm : isTaskTerminal (type event) <;> simp [hterm]

theorem IngestInv.finalizationFlag_eq (h : IngestInv py contentDigest s)
    (hnone : s.attempt.terminalEventType = none) :
    s.cache.finalizationSeen.getD
        (lastEventType s.attempt s.receipts == some "worker.finalization") =
      (ofTypes s.types).finalizationSeen := by
  obtain ⟨replay, hacc⟩ := h.replays
  cases hcache : s.cache.finalizationSeen with
  | some b => exact h.cachedFinalization b hcache hnone
  | none =>
    rw [Option.getD_none, h.lastEventType_eq]
    refine (hacc.summary.valid.finalization_last ?_).symm
    exact h.terminalType.symm.trans hnone

theorem IngestInv.metadata_eq (h : IngestInv py contentDigest s) :
    s.cache.harnessMetadata.or (firstEventHarnessMetadata s.receipts) =
      s.events.head?.map fun e => (Event.controlTransport e, Event.modelProtocols e) := by
  rw [← h.firstEventHarnessMetadata_eq]
  cases hcache : s.cache.harnessMetadata with
  | none => rfl
  | some m => exact (h.cachedMetadata m hcache).symm

/-- The identity of the first event against a further event of the attempt: only the
    transport and the model protocols are left to compare. -/
theorem IngestInv.identity_matches_iff (h : IngestInv py contentDigest s) {first e : JsonObject}
    (hfirst : s.events.head? = some first) (hmatch : FrozenMatch s.attempt e) :
    (Identity.of first).Matches e ↔
      (Event.controlTransport e).pyEq (Event.controlTransport first) = true ∧
      (Event.modelProtocols e).pyEq (Event.modelProtocols first) = true := by
  have hmem : first ∈ s.events := mem_of_mem_head? hfirst
  obtain ⟨r, hr, rfl⟩ := mem_map.mp hmem
  obtain ⟨⟨-, hid⟩, hcli⟩ := h.admissible r hr
  constructor
  · intro hm
    exact ⟨hm.controlTransport, hm.modelProtocols⟩
  · rintro ⟨htransport, hprotocols⟩
    exact ⟨hmatch.attemptId.symm.trans hid.attemptId, hmatch.taskId.symm.trans hid.taskId,
      hmatch.harnessKey.symm.trans hid.harnessKey,
      hmatch.adapterVersion.symm.trans hid.adapterVersion,
      (hmatch.cliVersion _ hcli).symm, htransport, hprotocols⟩

/-- **Agreement of the order checks**: the incremental checks accept an event of the
    attempt exactly when the replay would, its event id apart. -/
theorem IngestInv.order_ok_iff (h : IngestInv py contentDigest s)
    (hacc : Replay.Accepted s.events replay)
    (hmatch : FrozenMatch s.attempt e) (cli : Option String) (ids : Option (List String)) :
    (validateIncrementalEventOrder { s.attempt with cliVersion := cli } s.receipts
        { s.cache with eventIds := ids } e).1 = .ok () ↔
      replay.terminalType = none ∧ (∀ i, replay.identity = some i → i.Matches e) ∧
      replay.toLifecycle.Admits (Event.seq e) (type e) := by
  have hsum := hacc.summary
  have hlc : replay.toLifecycle = ofTypes s.types := hsum.lifecycle
  have hlen : s.types.length = s.receipts.length := by
    simp [IngestState.types, IngestState.events]
  have hterm := h.terminalType
  rw [validateIncrementalEventOrder_ok_iff, checkSummary_eq_ok_iff, checkFirst_eq_ok_iff,
    checkBoundary_eq_ok_iff, checkMetadata_eq_ok_iff]
  change (s.attempt.terminalEventType = none ∧ Event.seq e = s.attempt.lastSeq + 1) ∧
    (s.cache.finalizationSeen.getD
        (lastEventType s.attempt s.receipts == some "worker.finalization") = true → _) ∧
    (1 < Event.seq e → ∃ m,
      s.cache.harnessMetadata.or (firstEventHarnessMetadata s.receipts) = some m ∧ _) ∧
    (s.attempt.lastSeq = 0 ↔ _) ∧ _ ↔ _
  rw [h.metadata_eq, h.eventTypes, hsum.identity, hlc, hterm, h.lastSeq]
  constructor
  · rintro ⟨⟨hnone, hseq⟩, hfinal, hmeta, hfirst, hharness, hdel, hfin, hterminal⟩
    rw [h.finalizationFlag_eq (hterm.trans hnone)] at hfinal
    refine ⟨hnone, ?_, ?_⟩
    · intro i hi
      obtain ⟨first, hf, rfl⟩ := Option.map_eq_some_iff.mp hi
      have hpos : s.receipts ≠ [] := by
        rintro hempty
        simp [IngestState.events, hempty] at hf
      have hlt : 1 < Event.seq e := by
        have := length_pos_iff.mpr hpos
        omega
      obtain ⟨m, hm, htransport, hprotocols⟩ := hmeta hlt
      rw [hf, Option.map_some, Option.some.injEq] at hm
      subst hm
      exact (h.identity_matches_iff hf hmatch).mpr ⟨htransport, hprotocols⟩
    · refine ⟨?_, hfinal, ?_, ?_, ?_, ?_, ?_, ?_⟩
      · rw [hseq, ofTypes_lastSeq, hlen]
      · intro ht
        have hzero := hfirst.mpr ht
        have hnil : s.types = [] := length_eq_zero_iff.mp (by omega)
        refine ⟨by simp [hnil], ?_⟩
        rw [hseq, hzero]
        rfl
      · intro ht
        have hzero : ¬ (s.receipts.length : Int) = 0 := fun hz => ht (hfirst.mp hz)
        have hne : s.types ≠ [] := by
          rintro hnil
          rw [hnil] at hlen
          simp at hlen
          omega
        simpa using hne
      · simpa using hharness
      · simpa using hdel
      · intro ht
        have := hfin ht
        simpa using this
      · intro ht
        have := hterminal ht
        simpa using this
  · rintro ⟨hnone, hid, hadm⟩
    rw [h.finalizationFlag_eq (hterm.trans hnone)]
    have hseq : Event.seq e = s.receipts.length + 1 := by
      rw [hadm.next, ofTypes_lastSeq, hlen]
    refine ⟨⟨hnone, hseq⟩, hadm.final, ?_, ?_, ?_, ?_, ?_, ?_⟩
    · intro hlt
      have hne : s.events ≠ [] := by
        intro hempty
        have hrec : s.receipts = [] := by simpa [IngestState.events] using hempty
        simp [hrec] at hseq
        omega
      obtain ⟨first, hf⟩ : ∃ first, s.events.head? = some first := by
        cases hev : s.events with
        | nil => exact absurd hev hne
        | cons first rest => exact ⟨first, rfl⟩
      refine ⟨(Event.controlTransport first, Event.modelProtocols first), by simp [hf], ?_⟩
      exact (h.identity_matches_iff hf hmatch).mp (hid _ (by simp [hf]))
    · constructor
      · intro hzero
        by_contra ht
        have hstarted := hadm.running ht
        have hnil : s.types = [] := length_eq_zero_iff.mp (by omega)
        simp [hnil] at hstarted
      · intro ht
        have := (hadm.start ht).2
        rw [hseq, firstSequence] at this
        omega
    · simpa using hadm.harness
    · simpa using hadm.delivery
    · intro ht
      have := hadm.finalization ht
      simpa using this
    · intro ht
      have := hadm.terminal ht
      simpa using this

/-- The caches the incremental checks leave hold what they used. -/
structure CacheLeft (attempt : Attempt) (receipts : List Receipt) (before after : Cache) :
    Prop where
  finalization : ∀ b, after.finalizationSeen = some b →
    b = before.finalizationSeen.getD
      (lastEventType attempt receipts == some "worker.finalization")
  metadata : ∀ m, after.harnessMetadata = some m →
    before.harnessMetadata.or (firstEventHarnessMetadata receipts) = some m
  eventIds : after.eventIds = before.eventIds

theorem CacheLeft.refl (attempt : Attempt) (receipts : List Receipt) (cache : Cache) :
    CacheLeft attempt receipts cache cache where
  finalization := by
    intro b hb
    simp [hb]
  metadata := by
    intro m hm
    simp [hm]
  eventIds := rfl

theorem validateIncrementalEventOrder_cache (attempt : Attempt) (receipts : List Receipt)
    (cache : Cache) (event : JsonObject) :
    CacheLeft attempt receipts cache
      (validateIncrementalEventOrder attempt receipts cache event).2 := by
  unfold validateIncrementalEventOrder
  cases checkSummary attempt event with
  | error e => exact CacheLeft.refl attempt receipts cache
  | ok u =>
    have hleft := (CacheLeft.refl attempt receipts cache).metadata
    simp only
    split
    · exact ⟨fun b hb => (Option.some.inj hb).symm, hleft, rfl⟩
    · split
      · exact ⟨fun b hb => (Option.some.inj hb).symm, fun m hm => hm, rfl⟩
      · exact ⟨fun b hb => (Option.some.inj hb).symm, hleft, rfl⟩

theorem IngestInv.with_cache (h : IngestInv py contentDigest s)
    {ids : Option (List String)}
    (hleft : CacheLeft s.attempt s.receipts { s.cache with eventIds := ids } cache)
    (hids : ∀ l, ids = some l → ∀ id, id ∈ l ↔ id ∈ s.receipts.map (·.eventId)) :
    IngestInv py contentDigest { s with cache } where
  replays := h.replays
  stored := h.stored
  admissible := h.admissible
  lastSeq := h.lastSeq
  terminalType := h.terminalType
  terminalId := h.terminalId
  cachedFinalization := by
    intro b hb hnone
    exact (hleft.finalization b hb).trans (h.finalizationFlag_eq hnone)
  cachedMetadata := by
    intro m hm
    rw [h.firstEventHarnessMetadata_eq, ← h.metadata_eq]
    exact hleft.metadata m hm
  cachedIds := by
    intro l hl
    exact hids l (hleft.eventIds.symm.trans hl)

theorem firstEventHarnessMetadata_append {m : Json × Json}
    (h : firstEventHarnessMetadata receipts = some m) (r : Receipt) :
    firstEventHarnessMetadata (receipts ++ [r]) = some m := by
  obtain ⟨first, hfirst, hm⟩ := Option.bind_eq_some_iff.mp h
  have hfirst' : receiptAt (receipts ++ [r]) 1 = some first := by
    rw [receiptAt] at hfirst
    simp [receiptAt, find?_append, hfirst]
  exact Option.bind_eq_some_iff.mpr ⟨first, hfirst', hm⟩

theorem recordEvent_frozen (attempt : Attempt) (now : DateTime) (event : JsonObject) :
    (recordEvent attempt now event).attemptId = attempt.attemptId ∧
    (recordEvent attempt now event).taskId = attempt.taskId ∧
    (recordEvent attempt now event).harnessKey = attempt.harnessKey ∧
    (recordEvent attempt now event).adapterVersion = attempt.adapterVersion ∧
    (recordEvent attempt now event).cliVersion = attempt.cliVersion ∧
    (recordEvent attempt now event).eventSchema = attempt.eventSchema ∧
    (recordEvent attempt now event).lastSeq = Event.seq event := by
  unfold recordEvent
  split <;> exact ⟨rfl, rfl, rfl, rfl, rfl, rfl, rfl⟩

/-- A receipt for an accepted event keeps the invariant. -/
theorem IngestInv.record (h : IngestInv py contentDigest s)
    (hacc : Replay.Accepted s.events replay) (hadm : Admissible py s.attempt e)
    (haccepts : replay.Accepts e) (now : DateTime) {ids : List String}
    (hleft : CacheLeft s.attempt s.receipts { s.cache with eventIds := some ids } cache)
    (hids : ∀ id, id ∈ ids ↔ id ∈ s.receipts.map (·.eventId)) :
    IngestInv py contentDigest
      { s with
        attempt := recordEvent { s.attempt with cliVersion := some (Event.cliVersion e) } now e
        receipts := s.receipts ++ [receiptFor contentDigest e]
        cache :=
          { cache with
            eventIds := some (Event.eventId e :: ids)
            finalizationSeen :=
              if type e = "worker.finalization" then some true
              else cache.finalizationSeen } } := by
  obtain ⟨ha, ht, hk, hv, hc, hs, hseq⟩ :=
    recordEvent_frozen { s.attempt with cliVersion := some (Event.cliVersion e) } now e
  have hlc : replay.toLifecycle = ofTypes s.types := hacc.summary.lifecycle
  have hopen : s.attempt.terminalEventType = none := by
    rw [h.terminalType, ← hlc]
    exact haccepts.unfinished
  have hnext : Event.seq e = (ofTypes s.types).lastSeq + 1 := by
    rw [← hlc]
    exact haccepts.order.next
  refine ⟨⟨replay.record e, ?_⟩, ?_, ?_, ?_, ?_, ?_, ?_, ?_, ?_⟩
  · simp only [IngestState.events, map_append, map_cons, map_nil, receiptFor]
    exact .snoc hacc haccepts
  · intro r hr
    rcases mem_append.mp hr with hr | hr
    · exact h.stored r hr
    · obtain rfl : r = receiptFor contentDigest e := by simpa using hr
      rfl
  · intro r hr
    rcases mem_append.mp hr with hr | hr
    · obtain ⟨⟨hnorm, hid⟩, hcli⟩ := h.admissible r hr
      -- an older receipt fixed the version, so the event does not change it
      have hsame : Event.cliVersion r.event = Event.cliVersion e :=
        hadm.identity.cliVersion _ hcli
      refine ⟨⟨hnorm, ?_⟩, hc.trans (by rw [hsame])⟩
      refine ⟨ha.trans hid.attemptId, ht.trans hid.taskId, hk.trans hid.harnessKey,
        hv.trans hid.adapterVersion, ?_, hs.trans hid.eventSchema⟩
      intro cli hcli'
      rw [hsame]
      exact Option.some.inj (hcli'.symm.trans hc)
    · obtain rfl : r = receiptFor contentDigest e := by simpa using hr
      have hid := hadm.identity
      refine ⟨⟨hadm.normalized, ?_⟩, hc⟩
      refine ⟨ha.trans hid.attemptId, ht.trans hid.taskId, hk.trans hid.harnessKey,
        hv.trans hid.adapterVersion, ?_, hs.trans hid.eventSchema⟩
      intro cli hcli'
      exact Option.some.inj (hcli'.symm.trans hc)
  · rw [hseq, hnext]
    simp [IngestState.types, IngestState.events]
  · simp only [IngestState.types, IngestState.events, map_append, map_cons,
      map_nil, ofTypes_append, advance, receiptFor, recordEvent]
    split
    · rfl
    · exact h.terminalType
  · unfold recordEvent
    split
    · intro hnone
      cases hnone
    · exact h.terminalId
  · intro b hb _
    simp only [IngestState.types, IngestState.events, map_append, map_cons,
      map_nil, ofTypes_append, advance, receiptFor]
    simp only at hb
    split at hb
    · rename_i hfinal
      rw [hfinal, ← Option.some.inj hb]
      simp
    -- another type leaves the flag, so what the cache knew still holds
    · rename_i hfinal
      rw [beq_false_of_ne hfinal, Bool.or_false]
      exact (hleft.finalization b hb).trans (h.finalizationFlag_eq hopen)
  · intro m hm
    refine firstEventHarnessMetadata_append ?_ _
    rw [h.firstEventHarnessMetadata_eq, ← h.metadata_eq]
    exact hleft.metadata m hm
  · intro l hl id
    cases hl
    simp only [mem_cons, hids, map_append, map_cons, map_nil,
      mem_append, receiptFor, not_mem_nil, or_false]
    exact or_comm

/-- Storing an event of the attempt succeeds exactly when the replay accepts it and the database
    takes its rows, and keeps the invariant either way. -/
theorem IngestInv.storeEvent_spec (h : IngestInv py contentDigest s)
    (hacc : Replay.Accepted s.events replay) (hadm : Admissible py s.attempt e)
    (now : DateTime) :
    ((∃ b, (storeEvent contentDigest takesJson s
        { s.attempt with cliVersion := some (Event.cliVersion e) } now e).1 = .ok b) ↔
      replay.Accepts e ∧ flushes takesJson s.otherIds e) ∧
    IngestInv py contentDigest (storeEvent contentDigest takesJson s
      { s.attempt with cliVersion := some (Event.cliVersion e) } now e).2 := by
  have hids : ∀ id, id ∈ s.cache.eventIds.getD (s.receipts.map (·.eventId)) ↔
      id ∈ s.receipts.map (·.eventId) := by
    intro id
    cases hc : s.cache.eventIds with
    | none => rfl
    | some ids => exact h.cachedIds ids hc id
  have hfresh : Event.eventId e ∈ s.cache.eventIds.getD (s.receipts.map (·.eventId)) ↔
      Event.eventId e ∈ replay.seenEventIds := by
    rw [hids, h.eventIds, hacc.summary.seen]
  have hids' : ∀ l, some (s.cache.eventIds.getD (s.receipts.map (·.eventId))) = some l →
      ∀ id, id ∈ l ↔ id ∈ s.receipts.map (·.eventId) := by
    intro l hl
    cases hl
    exact hids
  unfold storeEvent
  by_cases hmem : Event.eventId e ∈ s.cache.eventIds.getD (s.receipts.map (·.eventId))
  · simp only [hmem, if_true]
    refine ⟨⟨by simp, fun ⟨hacc', _⟩ => absurd (hfresh.mp hmem) hacc'.fresh⟩, ?_⟩
    exact h.with_cache (CacheLeft.refl _ _ _) hids'
  · simp only [hmem, if_false]
    have hverdict := h.order_ok_iff hacc hadm.identity (some (Event.cliVersion e))
      (some (s.cache.eventIds.getD (s.receipts.map (·.eventId))))
    have hleft := validateIncrementalEventOrder_cache
      { s.attempt with cliVersion := some (Event.cliVersion e) } s.receipts
      { s.cache with eventIds := some (s.cache.eventIds.getD (s.receipts.map (·.eventId))) } e
    generalize validateIncrementalEventOrder
      { s.attempt with cliVersion := some (Event.cliVersion e) } s.receipts
      { s.cache with eventIds := some (s.cache.eventIds.getD (s.receipts.map (·.eventId))) } e =
        out at hverdict hleft
    obtain ⟨verdict, cache⟩ := out
    have hleft' : CacheLeft s.attempt s.receipts
        { s.cache with eventIds := some (s.cache.eventIds.getD (s.receipts.map (·.eventId))) }
        cache := ⟨hleft.finalization, hleft.metadata, hleft.eventIds⟩
    cases verdict with
    | error err =>
      refine ⟨⟨by simp, ?_⟩, h.with_cache hleft' hids'⟩
      rintro ⟨hacc', -⟩
      have := hverdict.mpr ⟨hacc'.unfinished, hacc'.identity, hacc'.order⟩
      simp at this
    | ok u =>
      obtain ⟨hopen, hid, horder⟩ := hverdict.mp rfl
      have haccepts : replay.Accepts e := ⟨fun hin => hmem (hfresh.mpr hin), hopen, hid, horder⟩
      have hnone : s.attempt.terminalEventId = none := by
        apply h.terminalId
        have hlc : replay.toLifecycle = ofTypes s.types := hacc.summary.lifecycle
        rw [h.terminalType, ← hlc]
        exact hopen
      have hfirst : ¬ (isTaskTerminal (type e) && s.attempt.terminalEventId.isSome) =
          true := by
        simp [hnone]
      simp only [hfirst]
      cases hflush : flushes takesJson s.otherIds e with
      | false => exact ⟨by simp, h.with_cache hleft' hids'⟩
      | true =>
        exact ⟨⟨fun _ => ⟨haccepts, rfl⟩, fun _ => ⟨false, rfl⟩⟩,
          h.record hacc hadm haccepts now hleft' hids⟩

/-- Filling in the CLI version of an attempt that has receipts changes nothing. -/
theorem IngestInv.cliVersion_eq (h : IngestInv py contentDigest s)
    (hr : r ∈ s.receipts) (hmatch : FrozenMatch s.attempt e) :
    { s.attempt with cliVersion := some (Event.cliVersion e) } = s.attempt := by
  have hcli := (h.admissible r hr).2
  rw [← hmatch.cliVersion _ hcli, ← hcli]

/-- One call of the ingest: unless the event is an exact duplicate, it is accepted exactly when the
    rebuilt replay accepts it and the database takes its rows; the invariant is kept. -/
theorem IngestInv.ingest_spec (h : IngestInv py contentDigest s)
    (hacc : Replay.Accepted s.events replay) (hadm : Admissible py s.attempt e)
    (now : DateTime) :
    (¬ ExactDuplicate contentDigest s.receipts e →
      ((∃ b, (ingestCanonicalEvent py contentDigest takesJson s now e).1 = .ok b) ↔
        replay.Accepts e ∧ flushes takesJson s.otherIds e)) ∧
    IngestInv py contentDigest (ingestCanonicalEvent py contentDigest takesJson s now e).2 := by
  unfold ingestCanonicalEvent
  simp only [hadm.normalized, checkFrozenAttempt_of_match hadm.identity]
  cases hfind : receiptAt s.receipts (Event.seq e) with
  | none =>
    obtain ⟨haccepts, hinv⟩ := h.storeEvent_spec hacc hadm now
    exact ⟨fun _ => haccepts, hinv⟩
  | some existing =>
    have hmem : existing ∈ s.receipts := mem_of_find?_eq_some hfind
    have hseq : existing.seq = Event.seq e := by simpa using find?_some hfind
    have hold : ¬ replay.Accepts e := by
      intro haccepts
      have hnext := haccepts.order.next
      rw [hacc.summary.lifecycle, ofTypes_lastSeq] at hnext
      have hbound := (h.seq_bounds hmem).2
      simp only [IngestState.events, length_map] at hnext
      omega
    by_cases hdiv : existing.eventId ≠ Event.eventId e ∨
        existing.eventDigest ≠ contentDigest e
    · simp only [hdiv, if_true]
      exact ⟨fun _ => ⟨by simp, fun haccepts => absurd haccepts.1 hold⟩, h⟩
    · simp only [hdiv, if_false]
      rw [h.cliVersion_eq hmem hadm.identity]
      refine ⟨fun hdup => absurd ⟨existing, hmem, hseq, ?_⟩ hdup, h⟩
      simpa [not_or] using hdiv

theorem ingestInv_reachable
    (hs : (ingestSystem py contentDigest takesJson).Reachable (admissibleCalls py) s) :
    IngestInv py contentDigest s := by
  refine hs.invariant ?_ ?_
  · rintro s ⟨hrec, hcache, hseq, hid, htype⟩
    refine ⟨⟨{}, ?_⟩, ?_, ?_, ?_, ?_, fun _ => hid, ?_, ?_, ?_⟩
    · simpa [IngestState.events, hrec] using Replay.Accepted.nil
    all_goals simp [hrec, hcache, hseq, htype, IngestState.types, IngestState.events,
      ofTypes]
  · intro s l s' h hcall hstep
    cases l with
    | ingest event now =>
      cases hstep
      obtain ⟨replay, hacc⟩ := h.replays
      exact (h.ingest_spec hacc hcall now).2
    | newSession =>
      cases hstep
      exact ⟨h.replays, h.stored, h.admissible, h.lastSeq, h.terminalType, h.terminalId,
        by simp, by simp, by simp⟩
    | elsewhere otherIds =>
      obtain ⟨-, hsame⟩ := Option.ite_none_left_eq_some.mp hstep
      cases hsame
      exact ⟨h.replays, h.stored, h.admissible, h.lastSeq, h.terminalType, h.terminalId,
        h.cachedFinalization, h.cachedMetadata, h.cachedIds⟩

/-- `finish` returns the task terminal; a terminal comes after the harness terminal. -/
theorem finish_eq_ok_iff {events : List JsonObject}
    (hacc : Replay.Accepted events replay) {t : String} :
    replay.finish = .ok t ↔ replay.terminalType = some t := by
  have hsum := hacc.summary
  cases hterm : replay.terminalType with
  | none => simp [Replay.finish, hterm]
  | some terminal =>
    have hlast := hsum.valid.terminal_last (by rw [← hsum.lifecycle]; exact hterm)
    have hne : events.map type ≠ [] := by
      intro hnil
      simp [hnil] at hlast
    have hstarted : replay.started = true := by
      rw [hsum.lifecycle, ofTypes_started]
      simpa using hne
    have hended : replay.harnessEnded = true := by
      rw [hsum.lifecycle]
      exact hsum.valid.harnessEnded_of_terminal (by rw [← hsum.lifecycle]; exact hterm)
    simp [Replay.finish, hterm, hstarted, hended]

end

/-! ### A Run -/

/-- A V1 event of attempt `a-1`. -/
def sampleEvent (seq : Int) (eventId eventType : String) (payload : JsonObject) : JsonObject :=
  [("schema", .str canonicalEventSchema), ("event_id", .str eventId),
   ("attempt_id", .str "a-1"), ("seq", .int seq),
   ("occurred_at", .str "2025-01-01T00:00:00Z"), ("type", .str eventType),
   ("task_id", .int 7),
   ("harness", .obj [("key", .str "claude"), ("adapter_version", .str "1"),
     ("cli_version", .str "2")]),
   ("payload", .obj payload)]

/-- The attempt of `sampleEvent`, before its first event. -/
def sampleAttempt : Attempt where
  attemptId := "a-1"
  taskId := 7
  eventSchema := canonicalEventSchema
  harnessKey := "claude"
  adapterVersion := "1"

/-- The ingest of these events into a database whose JSON column takes everything. -/
abbrev sampleSystem : System IngestState IngestLabel :=
  ingestSystem zonedPython (fun _ => "") fun _ => true

def sampleIngest (s : IngestState) (event : JsonObject) : Except EventError Bool × IngestState :=
  ingestCanonicalEvent zonedPython (fun _ => "") (fun _ => true) s 0 event

/-- Two events are stored, with a new session between them, and another attempt holds `e9`. -/
def sampleState : IngestState :=
  let started := (sampleIngest { attempt := sampleAttempt } (sampleEvent 1 "e1" "run.started" [])).2
  (sampleIngest { started with cache := {}, otherIds := ["e9"] }
    (sampleEvent 2 "e2" "message.delta" [("text", .str "hi")])).2

theorem sampleSystem_init : sampleSystem.init { attempt := sampleAttempt } :=
  ⟨rfl, rfl, rfl, rfl, rfl⟩

end Codify.Harness

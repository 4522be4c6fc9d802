import Codify.Harness.CodexEvents
import Codify.Harness.PiEventsFrame

/-! # Balanced Rows and Blocks of Codex

    The Codex translator ends its open blocks at the end of a turn and at a
    request error, in the name of the agent that is current then, and it settles
    the delegations that are still running only when a turn has completed.

    * **Guard**: a block is ended by the agent that started it, and at a turn that
      fails and at a request error no delegation is running.
    * **Invariant**: `StreamOk`, which ties the tables to the log.
    * **Result**: `guarded_codex_stream_balanced`, and a stream of which a
      delegation is never ended.
-/

namespace Codify.Harness.CodexEvents

open Codify.Framework Codify.Harness List Option State Brackets
open Codify.Harness.PiEvents (Event asText attributed dictOr)

variable {env : Env} {record item params : JsonObject} {rawLine : Nat} {s s' : State}

/-! ### Events That Open or Close -/

/-- The id of `payload["agent"]`. -/
def writtenAgent (e : Event) : Option String :=
  (e.payload.get "agent").asObject.bind fun agent => (agent.get "id").asString

/-- Reasoning blocks, by reasoning id and agent. -/
def agentBlocks : Brackets Event (String × Option String) where
  opens e :=
    if e.type = "reasoning_summary.started" then e.reasoningId.map (·, writtenAgent e) else none
  closes e :=
    if e.type = "reasoning_summary.completed" ∨ e.type = "reasoning_summary.interrupted" then
      e.reasoningId.map (·, writtenAgent e)
    else none

/-- An event about no block. -/
structure NoBlock (e : Event) : Prop where
  opens : agentBlocks.opens e = none
  closes : agentBlocks.closes e = none

def blockTypes : List String :=
  ["reasoning_summary.started", "reasoning_summary.completed", "reasoning_summary.interrupted"]

/-- The types of the events that open or close. -/
def markedTypes : List String := "tool.started" :: "tool.completed" :: blockTypes

theorem noBlock_of_type {e : Event} (h : e.type ∉ blockTypes) : NoBlock e := by
  simp only [blockTypes, mem_cons, not_mem_nil, or_false, not_or] at h
  obtain ⟨h₁, h₂, h₃⟩ := h
  exact ⟨by simp [agentBlocks, h₁], by simp [agentBlocks, h₂, h₃]⟩

/-- `payload["subagent"]["id"]`. -/
def childOf (e : Event) : Option String := e.subagent.bind fun sub => (sub.get "id").asString

/-- Delegation rows, by the id of the child. -/
def childRows : Brackets Event String where
  opens e := if e.type = "tool.started" then childOf e else none
  closes e := if e.type = "tool.completed" then childOf e else none

/-- An event about no delegation. -/
structure NoRow (e : Event) : Prop where
  opens : childRows.opens e = none
  closes : childRows.closes e = none

variable {e : Event} {events new : List Event} {payload : JsonObject}
  {type reasoningId childId toolId key root : String} {d : OrderedDict String String}
  {prompt : Json}

attribute [local simp] childRows

theorem noRow_of_child (h : childOf e = none) : NoRow e :=
  ⟨by simp [h], by simp [h]⟩

theorem noRow_of_type (hstarted : e.type ≠ "tool.started")
    (hcompleted : e.type ≠ "tool.completed") : NoRow e :=
  ⟨by simp [hstarted], by simp [hcompleted]⟩

theorem noBlock_of_row (h : e.type = "tool.started" ∨ e.type = "tool.completed") :
    NoBlock e := by
  apply noBlock_of_type
  rcases h with h | h
  · rw [h]
    decide
  · rw [h]
    decide

/-- The agent under which a block was started last. -/
def blockAgent (events : List Event) (reasoningId : String) : Option (Option String) :=
  (((events.filterMap agentBlocks.opens).filter (·.1 = reasoningId)).getLast?).map (·.2)

theorem blockAgent_append (h : ∀ e ∈ new, agentBlocks.opens e = none)
    (reasoningId : String) : blockAgent (events ++ new) reasoningId = blockAgent events reasoningId := by
  have hnone : new.filterMap agentBlocks.opens = [] := filterMap_eq_nil_iff.mpr h
  simp only [blockAgent, filterMap_append, hnone, append_nil]

theorem blockAgent_started {k : String × Option String}
    (h : agentBlocks.opens e = some k) (reasoningId : String) :
    blockAgent (events ++ [e]) reasoningId =
      if k.1 = reasoningId then some k.2 else blockAgent events reasoningId := by
  have hone : [e].filterMap agentBlocks.opens = [k] := by simp [h]
  simp only [blockAgent, filterMap_append, hone, filter_append]
  by_cases hk : k.1 = reasoningId
  · simp [hk]
  · simp [hk]

/-! ### The Event of the Current Agent -/

/-- The event that `_emit` writes. -/
def eventOf (s : State) (type : String) (payload : JsonObject) (rawLine : Nat) : Event :=
  ⟨type, payloadFor s.currentAgent type payload, rawLine⟩

theorem events_emit (s : State) (type : String) (payload : JsonObject) (rawLine : Nat) :
    (s.emit type payload rawLine).events = s.events ++ [eventOf s type payload rawLine] := rfl

theorem get_payloadFor {currentAgent : Option String} {type field : String}
    (h : field ≠ "agent") : (payloadFor currentAgent type payload).get field = payload.get field := by
  unfold payloadFor attributed
  cases currentAgent with
  | none => rfl
  | some agent =>
    dsimp only
    split
    · exact JsonObject.get_set_ne payload h _
    · rfl

theorem writtenAgent_eventOf
    (htype : type ∈ agentAttributedEventTypes) (hpayload : payload.get "agent" = .null) :
    writtenAgent (eventOf s type payload rawLine) = s.currentAgent := by
  unfold writtenAgent eventOf payloadFor
  cases s.currentAgent with
  | none => simp [hpayload, Json.asObject]
  | some agent =>
    simp [attributed, htype, JsonObject.get_set_self, Json.asObject]
    rfl

theorem blockEvent
    (htype : type ∈ agentAttributedEventTypes) (hagent : payload.get "agent" = .null)
    (hid : payload.get "reasoning_id" = .str reasoningId) :
    (eventOf s type payload rawLine).reasoningId.map
      (·, writtenAgent (eventOf s type payload rawLine)) =
        some (reasoningId, s.currentAgent) := by
  rw [writtenAgent_eventOf htype hagent, PiEvents.Event.reasoningId, eventOf,
    get_payloadFor (by decide), hid]
  rfl

theorem childOf_eventOf {payload sub : JsonObject}
    (hsub : payload.get "subagent" = .obj sub) (hid : sub.get "id" = .str childId) :
    childOf (eventOf s type payload rawLine) = some childId := by
  rw [childOf, PiEvents.Event.subagent, eventOf, get_payloadFor (by decide), hsub]
  show (sub.get "id").asString = _
  rw [hid]
  rfl

theorem childOf_eventOf_none
    (h : payload.get "subagent" = .null) : childOf (eventOf s type payload rawLine) = none := by
  rw [childOf, PiEvents.Event.subagent, eventOf, get_payloadFor (by decide), h]
  rfl

/-! ### Inert Steps -/

/-- The step opens and closes nothing and leaves the tables of blocks and delegations. -/
structure Inert (s s' : State) : Prop where
  events : ∃ new, s'.events = s.events ++ new ∧ ∀ e ∈ new, NoBlock e ∧ NoRow e
  openReasoning : s'.openReasoning = s.openReasoning
  delegations : s'.delegationToolByChild = s.delegationToolByChild
  closed : s'.closedDelegations = s.closedDelegations
  agents : ∀ c ∈ s.agents, c ∈ s'.agents

namespace Inert

variable {s'' : State}

theorem silent (hevents : s'.events = s.events) (hopen : s'.openReasoning = s.openReasoning)
    (hdelegations : s'.delegationToolByChild = s.delegationToolByChild)
    (hclosed : s'.closedDelegations = s.closedDelegations) (hagents : s'.agents = s.agents) :
    Inert s s' :=
  ⟨⟨[], by simp [hevents], by simp⟩, hopen, hdelegations, hclosed, by simp [hagents]⟩

theorem refl (s : State) : Inert s s := silent rfl rfl rfl rfl rfl

theorem trans (h : Inert s s') (h' : Inert s' s'') : Inert s s'' := by
  obtain ⟨new, hnew, hinert⟩ := h.events
  obtain ⟨new', hnew', hinert'⟩ := h'.events
  refine ⟨⟨new ++ new', by rw [hnew', hnew, append_assoc], ?_⟩,
    h'.openReasoning.trans h.openReasoning, h'.delegations.trans h.delegations,
    h'.closed.trans h.closed, fun c hc => h'.agents c (h.agents c hc)⟩
  intro e he
  rcases mem_append.mp he with he | he
  · exact hinert e he
  · exact hinert' e he

variable {payload : JsonObject} {type : String}

theorem emit_event (s : State)
    (hblock : NoBlock (eventOf s type payload rawLine))
    (hrow : NoRow (eventOf s type payload rawLine)) : Inert s (s.emit type payload rawLine) :=
  ⟨⟨_, events_emit s type payload rawLine, by simpa using ⟨hblock, hrow⟩⟩, rfl, rfl, rfl,
    fun _ hc => hc⟩

theorem emit (s : State) (payload : JsonObject) (rawLine : Nat)
    (h : type ∉ markedTypes) : Inert s (s.emit type payload rawLine) := by
  simp only [markedTypes, mem_cons, not_or] at h
  obtain ⟨hstarted, hcompleted, hblock⟩ := h
  exact emit_event s (noBlock_of_type hblock) (noRow_of_type hstarted hcompleted)

theorem then_emit {t : State} (h : Inert s t) (payload : JsonObject) (rawLine : Nat)
    (htype : type ∉ markedTypes) : Inert s (t.emit type payload rawLine) :=
  h.trans (emit t payload rawLine htype)

theorem emit_tool (s : State) (rawLine : Nat)
    (htype : type ∉ blockTypes) (h : payload.get "subagent" = .null) :
    Inert s (s.emit type payload rawLine) :=
  emit_event s (noBlock_of_type htype) (noRow_of_child (childOf_eventOf_none h))

end Inert

theorem inert_registerChildThread (s : State) (threadId : String) :
    Inert s (s.registerChildThread threadId) := by
  unfold registerChildThread
  split
  · exact .refl s
  · refine ⟨⟨[], by simp, by simp⟩, rfl, rfl, rfl, ?_⟩
    intro c hc
    exact mem_append_left _ hc

theorem inert_enterThread (s : State) (threadId : Json) : Inert s (s.enterThread threadId) := by
  unfold enterThread
  split
  · next child hchild =>
    exact (inert_registerChildThread s child).trans (.silent rfl rfl rfl rfl rfl)
  · exact .silent rfl rfl rfl rfl rfl

theorem inert_setThreadIdentity (thread : JsonObject) (s : State) :
    Inert s (setThreadIdentity thread s) := by
  unfold setThreadIdentity
  split
  · exact .silent rfl rfl rfl rfl rfl
  · exact .refl s

theorem inert_captureThread (s : State) (thread : JsonObject) : Inert s (captureThread s thread) := by
  unfold captureThread
  split
  · exact .silent rfl rfl rfl rfl rfl
  · exact .refl s

theorem inert_captureRealThreadId {raw : Option Json} (h : captureRealThreadId raw s = some s') :
    Inert s s' := by
  unfold captureRealThreadId at h
  split at h
  · exact some.inj h ▸ .refl s
  · simp only [Option.some.injEq] at h
    subst h
    refine .trans ?_ (.trans (inert_captureThread _ _) (inert_captureThread _ _))
    split
    · exact .silent rfl rfl rfl rfl rfl
    · exact .refl s
  · cases h

theorem inert_emitModelResolved (env : Env) (rawLine : Nat) (s : State) :
    Inert s (emitModelResolved env rawLine s) := by
  unfold emitModelResolved
  split
  · exact .refl s
  · have hresolved : Inert s { s with modelResolved := true } := .silent rfl rfl rfl rfl rfl
    exact hresolved.then_emit _ _ (by decide)

theorem inert_emitRetry (message : String) (rawLine : Nat) (s : State) :
    Inert s (emitRetry message rawLine s) := by
  have hcounted : Inert s { s with retryCount := s.retryCount + 1 } := .silent rfl rfl rfl rfl rfl
  exact hcounted.then_emit _ _ (by decide)

theorem inert_startThread (env : Env) (record : JsonObject) (rawLine : Nat) (s : State) :
    Inert s (startThread env record rawLine s) := by
  have hreport : ∀ t, Inert s t → Inert s (if t.modelResolved then
      t.emit "diagnostic" [("code", .str "session_resumed"),
        ("session_id", PiEvents.optStr (threadIdOf t record))] rawLine
      else emitModelResolved env rawLine t) := by
    intro t ht
    split
    · exact ht.then_emit _ _ (by decide)
    · exact ht.trans (inert_emitModelResolved env rawLine t)
  apply hreport
  split
  · split
    · exact .silent rfl rfl rfl rfl rfl
    · exact .refl s
  · exact .refl s

theorem inert_completeError (env : Env) (item : JsonObject) (rawLine : Nat) (s : State) :
    Inert s (completeError env item rawLine s) := by
  unfold completeError
  dsimp only
  split
  · exact .emit s _ _ (by decide)
  · exact .emit s _ _ (by decide)

theorem inert_completeMessage (h : completeMessage item rawLine s = some s') : Inert s s' := by
  obtain ⟨text, -, rfl⟩ := map_eq_some_iff.mp h
  refine Inert.then_emit ?_ _ _ (by decide)
  split
  · exact .silent rfl rfl rfl rfl rfl
  · exact .refl s

theorem inert_handleTokenUsage (params : JsonObject) (s : State) :
    Inert s (handleTokenUsage params s) := by
  unfold handleTokenUsage recordChildUsage
  split
  · exact .refl s
  · split
    · exact .silent rfl rfl rfl rfl rfl
    · split
      · exact .silent rfl rfl rfl rfl rfl
      · exact .refl s

theorem inert_handleErrorNotification (env : Env) (params : JsonObject) (rawLine : Nat)
    (s : State) : Inert s (handleErrorNotification env params rawLine s) := by
  unfold handleErrorNotification
  split
  · exact inert_emitRetry _ rawLine s
  · exact .emit s _ _ (by decide)

theorem inert_handleCompacted (params : JsonObject) (rawLine : Nat) (s : State) :
    Inert s (handleCompacted params rawLine s) := by
  have hemit : Inert s ((s.enterThread (params.get "threadId")).emit "context.compacted"
      [("evidence", .str "codex_app_server")] rawLine) :=
    (inert_enterThread s _).then_emit _ _ (by decide)
  exact hemit.trans (.silent rfl rfl rfl rfl rfl)

theorem inert_reportLine (line : Line) (s : State) : Inert s (reportLine line s) := by
  unfold reportLine
  split
  · exact .emit s _ _ (by decide)
  · exact .emit s _ _ (by decide)
  · exact .emit s _ _ (by decide)

theorem inert_emitTerminalAtEof (s : State) : Inert s (emitTerminalAtEof s) := by
  unfold emitTerminalAtEof
  split
  · exact .emit s _ _ (by decide)
  · exact .emit s _ _ (by decide)
  · exact .refl s

/-! ### The Invariant -/

def State.heldBlocks (s : State) : Set (String × Option String) :=
  {k | k.1 ∈ s.openReasoning ∧ blockAgent s.events k.1 = some k.2}

/-- The children whose delegations are running. -/
def State.openRows (s : State) : Set String :=
  {childId | childId ∈ s.delegationToolByChild.keys ∧ childId ∉ s.closedDelegations}

/-- The tables and the log agree. -/
structure StreamOk (s : State) : Prop where
  blocks : agentBlocks.Holds s.events s.heldBlocks
  closes : agentBlocks.ClosesOpened s.events
  ids : s.openReasoning.Nodup
  rows : childRows.Holds s.events s.openRows
  opened : ∀ childId, childRows.Opened s.events childId → childId ∈ s.delegationToolByChild.keys
  tools : ∀ childId toolId, s.delegationToolByChild.lookup childId = some toolId →
    toolId ≠ "" ∧ childId ∈ s.agents

theorem streamOk_init : StreamOk {} where
  blocks := by
    have hnone : ({} : State).heldBlocks = ∅ := by
      ext k
      simp [heldBlocks]
    rw [hnone]
    exact holds_nil
  closes := closesOpened_nil
  ids := nodup_nil
  rows := by
    have hnone : ({} : State).openRows = ∅ := by
      ext childId
      simp [openRows, OrderedDict.keys]
    rw [hnone]
    exact holds_nil
  opened := by
    rintro childId ⟨e, he, -⟩
    cases he
  tools := by
    intro childId toolId h
    cases h

theorem StreamOk.of_inert (h : StreamOk s) (hinert : Inert s s') : StreamOk s' := by
  obtain ⟨⟨new, hevents, hnew⟩, hopen, hdelegations, hclosed, hagents⟩ := hinert
  have hheld : s'.heldBlocks = s.heldBlocks := by
    ext k
    simp only [heldBlocks, Set.mem_ofPred_eq, hopen, hevents,
      blockAgent_append fun e he => (hnew e he).1.opens]
  have hrows : s'.openRows = s.openRows := by simp only [openRows, hdelegations, hclosed]
  constructor
  · rw [hheld, hevents]
    exact h.blocks.others fun e he => ⟨(hnew e he).1.opens, (hnew e he).1.closes⟩
  · rw [hevents]
    exact h.closes.others fun e he => (hnew e he).1.closes
  · rw [hopen]
    exact h.ids
  · rw [hrows, hevents]
    exact h.rows.others fun e he => ⟨(hnew e he).2.opens, (hnew e he).2.closes⟩
  · intro childId hchild
    rw [hevents, opened_append_others fun e he => (hnew e he).2.opens] at hchild
    rw [hdelegations]
    exact h.opened childId hchild
  · intro childId toolId htool
    rw [hdelegations] at htool
    obtain ⟨hne, hagent⟩ := h.tools childId toolId htool
    exact ⟨hne, hagents childId hagent⟩

theorem StreamOk.of_blocks (h : StreamOk s)
    (hevents : s'.events = s.events ++ new) (hnew : ∀ e ∈ new, NoRow e)
    (hblocks : agentBlocks.Holds s'.events s'.heldBlocks)
    (hcloses : agentBlocks.ClosesOpened s'.events) (hids : s'.openReasoning.Nodup)
    (hdelegations : s'.delegationToolByChild = s.delegationToolByChild)
    (hclosed : s'.closedDelegations = s.closedDelegations) (hagents : s'.agents = s.agents) :
    StreamOk s' := by
  have hrows : s'.openRows = s.openRows := by simp only [openRows, hdelegations, hclosed]
  refine ⟨hblocks, hcloses, hids, ?_, ?_, ?_⟩
  · rw [hrows, hevents]
    exact h.rows.others fun e he => ⟨(hnew e he).opens, (hnew e he).closes⟩
  · intro childId hchild
    rw [hevents, opened_append_others fun e he => (hnew e he).opens] at hchild
    rw [hdelegations]
    exact h.opened childId hchild
  · rw [hdelegations, hagents]
    exact h.tools

theorem StreamOk.of_rows (h : StreamOk s) (hevents : s'.events = s.events ++ [e])
    (hblock : NoBlock e) (hopen : s'.openReasoning = s.openReasoning)
    (hrows : childRows.Holds s'.events s'.openRows)
    (hopened : ∀ childId, childRows.Opened s'.events childId →
      childId ∈ s'.delegationToolByChild.keys)
    (htools : ∀ childId toolId, s'.delegationToolByChild.lookup childId = some toolId →
      toolId ≠ "" ∧ childId ∈ s'.agents) : StreamOk s' := by
  have hnew : ∀ e' ∈ [e], NoBlock e' := by simpa using hblock
  have hheld : s'.heldBlocks = s.heldBlocks := by
    ext k
    simp only [heldBlocks, Set.mem_ofPred_eq, hopen, hevents,
      blockAgent_append fun e' he' => (hnew e' he').opens]
  refine ⟨?_, ?_, ?_, hrows, hopened, htools⟩
  · rw [hheld, hevents]
    exact h.blocks.others fun e' he' => ⟨(hnew e' he').opens, (hnew e' he').closes⟩
  · rw [hevents]
    exact h.closes.others fun e' he' => (hnew e' he').closes
  · rw [hopen]
    exact h.ids

/-! ### Blocks -/

/-- The block that a reasoning item is about. -/
def blockOf (env : Env) (item : JsonObject) (s : State) : String :=
  reasoningIdOf s (strOr env (item.get "id") "")

theorem opens_started (reasoningId : String) :
    agentBlocks.opens (eventOf s "reasoning_summary.started" [("reasoning_id", .str reasoningId)]
      rawLine) = some (reasoningId, s.currentAgent) :=
  blockEvent (by decide) rfl rfl

attribute [local simp] eventOf

theorem StreamOk.start_block (h : StreamOk s)
    (hclosed : reasoningId ∉ s.openReasoning)
    (hfresh : ¬ agentBlocks.Opened s.events (reasoningId, s.currentAgent)) :
    StreamOk ({ s with openReasoning := s.openReasoning ++ [reasoningId] }.emit
      "reasoning_summary.started" [("reasoning_id", .str reasoningId)] rawLine) := by
  have hopens : agentBlocks.opens (eventOf s "reasoning_summary.started"
      [("reasoning_id", .str reasoningId)] rawLine) = some (reasoningId, s.currentAgent) :=
    opens_started reasoningId
  have hevents : ({ s with openReasoning := s.openReasoning ++ [reasoningId] }.emit
      "reasoning_summary.started" [("reasoning_id", .str reasoningId)] rawLine).events =
      s.events ++ [eventOf s "reasoning_summary.started"
        [("reasoning_id", .str reasoningId)] rawLine] := rfl
  have hcloses : agentBlocks.closes (eventOf s "reasoning_summary.started"
      [("reasoning_id", .str reasoningId)] rawLine) = none := by simp [agentBlocks]
  have hheld : ({ s with openReasoning := s.openReasoning ++ [reasoningId] }.emit
      "reasoning_summary.started" [("reasoning_id", .str reasoningId)] rawLine).heldBlocks =
      insert (reasoningId, s.currentAgent) s.heldBlocks := by
    ext ⟨id, agent⟩
    simp only [heldBlocks, Set.mem_ofPred_eq, hevents, blockAgent_started hopens,
      Set.mem_insert_iff, Prod.mk.injEq]
    by_cases hid : reasoningId = id
    · subst hid
      simp [State.emit, hclosed, eq_comm]
    · simp [State.emit, hid, Ne.symm hid]
  refine h.of_blocks hevents ?_ ?_ ?_ ?_ rfl rfl rfl
  · intro e he
    rw [mem_singleton.mp he]
    exact noRow_of_type (by simp) (by simp)
  · rw [hheld, hevents]
    exact h.blocks.opening hopens hcloses (absurd · hfresh)
  · rw [hevents]
    apply h.closes.append
    intro k hk
    cases hk
  · apply nodup_append.mpr
    refine ⟨h.ids, by simp, ?_⟩
    intro a ha b hb hab
    rw [hab, mem_singleton.mp hb] at ha
    exact hclosed ha

theorem streamOk_startReasoning (h : StreamOk s)
    (hnew : blockOf env item s ∉ s.openReasoning → blockOf env item s ∉ s.closedReasoning →
      ¬ agentBlocks.Opened s.events (blockOf env item s, s.currentAgent)) :
    StreamOk (startReasoning env item rawLine s) := by
  unfold startReasoning
  simp only
  split
  · exact h
  next hknown =>
  rw [not_or] at hknown
  exact h.start_block hknown.1 (hnew hknown.1 hknown.2)

theorem StreamOk.end_block (h : StreamOk s)
    {agent : Option String} (hopen : reasoningId ∈ s.openReasoning)
    (hagent : blockAgent s.events reasoningId = some agent) (hopens : agentBlocks.opens e = none)
    (hcloses : agentBlocks.closes e = some (reasoningId, agent)) (hrow : NoRow e)
    (hevents : s'.events = s.events ++ [e])
    (hrest : s'.openReasoning = s.openReasoning.filter (· ≠ reasoningId))
    (hdelegations : s'.delegationToolByChild = s.delegationToolByChild)
    (hclosed : s'.closedDelegations = s.closedDelegations) (hagents : s'.agents = s.agents) :
    StreamOk s' := by
  have hmem : (reasoningId, agent) ∈ s.heldBlocks := ⟨hopen, hagent⟩
  have hsame : ∀ id, blockAgent s'.events id = blockAgent s.events id := by
    intro id
    rw [hevents]
    exact blockAgent_append (by simpa using hopens) id
  have hheld : s'.heldBlocks = s.heldBlocks \ {(reasoningId, agent)} := by
    ext ⟨id, other⟩
    simp only [heldBlocks, Set.mem_ofPred_eq, hsame, hrest, Set.mem_sdiff,
      Set.mem_singleton_iff, Prod.mk.injEq, mem_filter, decide_eq_true_eq]
    constructor
    · rintro ⟨⟨hid, hne⟩, hother⟩
      exact ⟨⟨hid, hother⟩, fun heq => hne heq.1⟩
    · rintro ⟨⟨hid, hother⟩, hne⟩
      refine ⟨⟨hid, ?_⟩, hother⟩
      rintro rfl
      rw [hagent] at hother
      exact hne ⟨rfl, (some.inj hother).symm⟩
  refine h.of_blocks hevents (by simpa using hrow) ?_ ?_ ?_ hdelegations hclosed hagents
  · rw [hheld, hevents]
    exact h.blocks.closing hopens hcloses hmem
  · rw [hevents]
    apply h.closes.append
    intro k hk
    cases hcloses.symm.trans hk
    exact h.blocks.opened _ hmem
  · rw [hrest]
    exact h.ids.filter _

theorem get_completedPayload (reasoningId summary : String) :
    (completedPayload reasoningId summary).get "agent" = .null ∧
      (completedPayload reasoningId summary).get "reasoning_id" = .str reasoningId := by
  unfold completedPayload
  simp only
  split
  · exact ⟨rfl, rfl⟩
  · exact ⟨rfl, rfl⟩

theorem streamOk_completeReasoning (h : StreamOk s)
    (hagent : blockOf env item s ∈ s.openReasoning →
      blockAgent s.events (blockOf env item s) = some s.currentAgent) :
    StreamOk (completeReasoning env item rawLine s) := by
  unfold completeReasoning
  simp only
  split
  · next hopen =>
    refine h.end_block hopen (hagent hopen)
      (e := eventOf s "reasoning_summary.completed" (completedPayload _ _) rawLine) ?_ ?_ ?_
      rfl rfl rfl rfl rfl
    · simp [agentBlocks]
    · obtain ⟨hnone, hid⟩ := get_completedPayload (blockOf env item s) _
      exact blockEvent (by decide) hnone hid
    · exact noRow_of_type (by simp) (by simp)
  · split
    · exact h
    · apply h.of_inert
      have herased : Inert s { s with
          reasoningSummaryText := s.reasoningSummaryText.erase (strOr env (item.get "id") "") } :=
        .silent rfl rfl rfl rfl rfl
      exact herased.then_emit _ _ (by decide)

def interruption (reason : String) (rawLine : Nat) (s : State) (reasoningId : String) : Event :=
  eventOf s "reasoning_summary.interrupted"
    [("reasoning_id", .str reasoningId), ("reason", .str reason)] rawLine

theorem closes_interruption (reason reasoningId : String) :
    agentBlocks.closes (interruption reason rawLine s reasoningId) =
      some (reasoningId, s.currentAgent) :=
  blockEvent (by decide) rfl rfl

theorem closeOpenReasoning_eq (reason : String) (rawLine : Nat) (s : State) :
    closeOpenReasoning reason rawLine s = { s with
      events := s.events ++ s.openReasoning.map (interruption reason rawLine s)
      openReasoning := [] } := by
  have hfold : ∀ (ids : List String) (t : State), t.currentAgent = s.currentAgent →
      ids.foldl (interruptBlock reason rawLine) t = { t with
        events := t.events ++ ids.map (interruption reason rawLine s) } := by
    intro ids
    induction ids with
    | nil => simp
    | cons id rest ih =>
      intro t ht
      have hfirst : interruptBlock reason rawLine t id = { t with
          events := t.events ++ [interruption reason rawLine s id] } := by
        unfold interruptBlock interruption eventOf State.emit
        rw [ht]
      rw [foldl_cons, hfirst, ih]
      · simp
      · exact ht
  unfold closeOpenReasoning
  rw [hfold s.openReasoning s rfl]

/-- Every open block belongs to the current agent. -/
def OwnBlocks (s : State) : Prop :=
  ∀ reasoningId ∈ s.openReasoning, blockAgent s.events reasoningId = some s.currentAgent

instance (s : State) : Decidable (OwnBlocks s) :=
  inferInstanceAs (Decidable (∀ reasoningId ∈ s.openReasoning, _ = _))

theorem streamOk_closeOpenReasoning (rawLine : Nat) (h : StreamOk s) (hown : OwnBlocks s)
    (reason : String) :
    StreamOk (closeOpenReasoning reason rawLine s) := by
  rw [closeOpenReasoning_eq]
  have hopens : ∀ e ∈ s.openReasoning.map (interruption reason rawLine s),
      agentBlocks.opens e = none := by
    intro e he
    obtain ⟨id, -, rfl⟩ := List.mem_map.mp he
    simp [agentBlocks, interruption]
  have hcloses : (s.openReasoning.map (interruption reason rawLine s)).map agentBlocks.closes =
      (s.openReasoning.map fun id => (id, s.currentAgent)).map some := by
    rw [List.map_map, List.map_map]
    exact map_congr_left fun id _ => closes_interruption reason id
  have hnodup : (s.openReasoning.map fun id => (id, s.currentAgent)).Nodup :=
    h.ids.map fun a b hab => (Prod.mk.inj hab).1
  have hkeys : ∀ k ∈ s.openReasoning.map fun id => (id, s.currentAgent), k ∈ s.heldBlocks := by
    intro k hk
    obtain ⟨id, hid, rfl⟩ := List.mem_map.mp hk
    exact ⟨hid, hown id hid⟩
  refine h.of_blocks rfl ?_ ?_ ?_ nodup_nil rfl rfl rfl
  · intro e he
    obtain ⟨id, -, rfl⟩ := List.mem_map.mp he
    exact noRow_of_type (by simp [interruption]) (by simp [interruption])
  · have hlog := h.blocks.closingAll hopens hcloses hnodup hkeys
    have hnone : {k | k ∈ s.heldBlocks ∧ k ∉ s.openReasoning.map fun id => (id, s.currentAgent)} =
        heldBlocks { s with
          events := s.events ++ s.openReasoning.map (interruption reason rawLine s)
          openReasoning := [] } := by
      ext ⟨id, agent⟩
      simp only [heldBlocks, Set.mem_ofPred_eq, not_mem_nil, false_and, iff_false]
      rintro ⟨⟨hid, hagent⟩, hnot⟩
      have hsame := (hown id hid).symm.trans hagent
      exact hnot (List.mem_map.mpr ⟨id, hid, by rw [some.inj hsame]⟩)
    rw [hnone] at hlog
    exact hlog
  · apply h.closes.append_all
    intro e he k hk
    obtain ⟨id, hid, rfl⟩ := List.mem_map.mp he
    cases (closes_interruption reason id).symm.trans hk
    exact h.blocks.opened _ ⟨hid, hown id hid⟩

/-! ### Delegations -/

theorem delegationTool_eq_some (h : delegationTool s childId = some toolId) :
    s.delegationToolByChild.lookup childId = some toolId := by
  obtain ⟨hsome, -⟩ := filter_eq_some_iff.mp h
  exact (filter_eq_some_iff.mp hsome).1

theorem mem_keys_of_lookup {key value : String}
    (h : d.lookup key = some value) : key ∈ d.keys :=
  List.mem_map.mpr ⟨(key, value), OrderedDict.mem_of_lookup h, rfl⟩

theorem lookup_of_mem_keys (h : key ∈ d.keys) :
    ∃ value, d.lookup key = some value := by
  cases hlookup : d.lookup key with
  | some value => exact ⟨value, rfl⟩
  | none =>
    obtain ⟨p, hp, rfl⟩ := List.mem_map.mp h
    have hne := List.lookup_eq_none_iff.mp hlookup p hp
    simp at hne

theorem StreamOk.delegationTool_isSome (h : StreamOk s)
    (hkey : childId ∈ s.delegationToolByChild.keys) : (delegationTool s childId).isSome := by
  obtain ⟨toolId, htool⟩ := lookup_of_mem_keys hkey
  obtain ⟨hne, hagent⟩ := h.tools childId toolId htool
  simp [delegationTool, htool, hne, hagent]

theorem closes_settled {toolId childId status : String} {message : Json} :
    childRows.closes (eventOf s "tool.completed" (settledPayload env toolId childId status message)
      rawLine) = some childId := by
  have hchild : childOf (eventOf s "tool.completed"
      (settledPayload env toolId childId status message) rawLine) = some childId := by
    unfold settledPayload
    split
    · exact childOf_eventOf rfl rfl
    · exact childOf_eventOf rfl rfl
  simpa using hchild

/-- What settling leaves alone. -/
structure Settling (s s' : State) : Prop where
  delegations : s'.delegationToolByChild = s.delegationToolByChild
  agents : s'.agents = s.agents
  openReasoning : s'.openReasoning = s.openReasoning
  usage : s'.usage = s.usage
  closed : ∀ childId ∈ s.closedDelegations, childId ∈ s'.closedDelegations

theorem Settling.refl (s : State) : Settling s s := ⟨rfl, rfl, rfl, rfl, fun _ h => h⟩

theorem Settling.trans {s'' : State} (h : Settling s s') (h' : Settling s' s'') : Settling s s'' :=
  ⟨h'.delegations.trans h.delegations, h'.agents.trans h.agents,
    h'.openReasoning.trans h.openReasoning, h'.usage.trans h.usage,
    fun childId hc => h'.closed childId (h.closed childId hc)⟩

theorem streamOk_closeDelegation (env : Env) (rawLine : Nat) (h : StreamOk s) (status : String)
    (message : Json) (childId : String) :
    StreamOk (closeDelegation env status message rawLine s childId) ∧
      Settling s (closeDelegation env status message rawLine s childId) ∧
      (childId ∈ s.delegationToolByChild.keys →
        childId ∈ (closeDelegation env status message rawLine s childId).closedDelegations) := by
  unfold closeDelegation
  split
  · next hnone =>
    refine ⟨h, .refl s, fun hkey => ?_⟩
    have hsome := h.delegationTool_isSome hkey
    rw [hnone] at hsome
    cases hsome
  · next toolId htool =>
    split
    · next hclosed => exact ⟨h, .refl s, fun _ => hclosed⟩
    next hclosed =>
    have hkey := mem_keys_of_lookup (delegationTool_eq_some htool)
    have hcloses : childRows.closes (eventOf s "tool.completed"
        (settledPayload env toolId childId status message) rawLine) = some childId :=
      closes_settled
    refine ⟨?_, ⟨rfl, rfl, rfl, rfl, fun c hc => mem_cons_of_mem _ hc⟩, fun _ => mem_cons_self⟩
    have hopens : childRows.opens (eventOf s "tool.completed"
        (settledPayload env toolId childId status message) rawLine) = none := by
      simp
    refine h.of_rows (e := eventOf s "tool.completed" _ rawLine) rfl
      (noBlock_of_row (.inr rfl)) rfl ?_ ?_ h.tools
    · have hheld : ({ s with closedDelegations := childId :: s.closedDelegations }.emit
          "tool.completed" (settledPayload env toolId childId status message) rawLine).openRows =
          s.openRows \ {childId} := by
        ext c
        simp only [openRows, State.emit, Set.mem_ofPred_eq, mem_cons, not_or,
          Set.mem_sdiff, Set.mem_singleton_iff]
        exact ⟨fun hc => ⟨⟨hc.1, hc.2.2⟩, hc.2.1⟩, fun hc => ⟨hc.1.1, hc.2, hc.1.2⟩⟩
      rw [hheld]
      exact h.rows.closing hopens hcloses ⟨hkey, hclosed⟩
    · intro c hc
      apply h.opened c
      rcases opened_append_singleton.mp hc with hc | hc
      · exact hc
      · exact absurd (hopens.symm.trans hc) (by simp)

theorem streamOk_applyChildStates (h : StreamOk s) (states : Json) :
    StreamOk (applyChildStates env states rawLine s) := by
  have hfold : ∀ (entries : List (String × Json)) (t : State), StreamOk t →
      StreamOk (entries.foldl (applyChildState env rawLine) t) := by
    intro entries
    induction entries with
    | nil => exact fun t ht => ht
    | cons p rest ih =>
      intro t ht
      apply ih
      unfold applyChildState
      split
      · exact ht
      · split
        · exact ht
        · exact (streamOk_closeDelegation env rawLine ht _ _ p.1).1
  exact hfold _ s h

def AllSettled (s : State) : Prop :=
  ∀ childId ∈ s.delegationToolByChild.keys, childId ∈ s.closedDelegations

instance (s : State) : Decidable (AllSettled s) :=
  inferInstanceAs (Decidable (∀ childId ∈ s.delegationToolByChild.keys, _))

theorem streamOk_closeAll (env : Env) (rawLine : Nat) (h : StreamOk s) :
    let s' := s.delegationToolByChild.keys.foldl (closeDelegation env "cancelled" .null rawLine) s
    StreamOk s' ∧ Settling s s' ∧ AllSettled s' := by
  have hfold : ∀ (children : List String) (t : State), StreamOk t →
      (∀ c ∈ children, c ∈ t.delegationToolByChild.keys) →
      let t' := children.foldl (closeDelegation env "cancelled" .null rawLine) t
      StreamOk t' ∧ Settling t t' ∧ ∀ c ∈ children, c ∈ t'.closedDelegations := by
    intro children
    induction children with
    | nil => exact fun t ht _ => ⟨ht, .refl t, by simp⟩
    | cons child rest ih =>
      intro t ht hkeys
      obtain ⟨hok, hsettling, hclosed⟩ :=
        streamOk_closeDelegation env rawLine ht "cancelled" .null child
      have hrest : ∀ c ∈ rest, c ∈
          (closeDelegation env "cancelled" .null rawLine t child).delegationToolByChild.keys := by
        intro c hc
        rw [hsettling.delegations]
        exact hkeys c (mem_cons_of_mem _ hc)
      obtain ⟨hok', hsettling', hclosed'⟩ := ih _ hok hrest
      refine ⟨hok', hsettling.trans hsettling', ?_⟩
      intro c hc
      rcases mem_cons.mp hc with rfl | hc
      · exact hsettling'.closed c (hclosed (hkeys c mem_cons_self))
      · exact hclosed' c hc
  obtain ⟨hok, hsettling, hclosed⟩ := hfold s.delegationToolByChild.keys s h fun _ hc => hc
  refine ⟨hok, hsettling, ?_⟩
  intro c hc
  rw [hsettling.delegations] at hc
  exact hclosed c hc

/-! ### Spawns -/

/-- No receiver of the item has been settled, unless the item has opened its row before. -/
def FreshReceivers (toolId : String) (receivers : List Json) (s : State) : Prop :=
  ∀ receiver ∈ receivers, ∀ childId ∈ s.childThread receiver,
    childId ∈ s.closedDelegations → s.delegationToolByChild.lookup childId = some toolId

theorem opens_spawned :
    childRows.opens (eventOf s "tool.started" (startedPayload env toolId childId prompt) rawLine) =
      some childId := by
  have hchild : childOf (eventOf s "tool.started" (startedPayload env toolId childId prompt)
      rawLine) = some childId := childOf_eventOf rfl rfl
  simpa using hchild

theorem registerChildThread_delegations (s : State) (childId : String) :
    (s.registerChildThread childId).delegationToolByChild = s.delegationToolByChild ∧
      (s.registerChildThread childId).closedDelegations = s.closedDelegations ∧
      (s.registerChildThread childId).threadId = s.threadId ∧
      childId ∈ (s.registerChildThread childId).agents := by
  unfold registerChildThread
  split
  · next hmem => exact ⟨rfl, rfl, rfl, hmem⟩
  · exact ⟨rfl, rfl, rfl, mem_append_right _ mem_cons_self⟩

/-- A row opens for an agent whose delegation is not closed. -/
theorem streamOk_openRow (h : StreamOk s)
    (htool : toolId ≠ "") (hagent : childId ∈ s.agents) (hclosed : childId ∉ s.closedDelegations) :
    StreamOk ({ s with delegationToolByChild := s.delegationToolByChild.set childId toolId }.emit
      "tool.started" (startedPayload env toolId childId prompt) rawLine) := by
  have hopens : childRows.opens (eventOf s "tool.started" (startedPayload env toolId childId prompt)
      rawLine) = some childId := opens_spawned
  have hcloses : childRows.closes (eventOf s "tool.started"
      (startedPayload env toolId childId prompt) rawLine) = none := by simp
  have hkeys : ∀ c, c ∈ (s.delegationToolByChild.set childId toolId).keys ↔
      c = childId ∨ c ∈ s.delegationToolByChild.keys := by
    intro c
    rw [OrderedDict.keys_set]
    split
    · next hmem =>
      constructor
      · exact .inr
      · rintro (rfl | hc)
        · exact hmem
        · exact hc
    · rw [mem_append, mem_singleton, or_comm]
  refine h.of_rows (e := eventOf s "tool.started" _ rawLine) rfl (noBlock_of_row (.inl rfl)) rfl
    ?_ ?_ ?_
  · have hheld : ({ s with delegationToolByChild := s.delegationToolByChild.set childId toolId
        }.emit "tool.started" (startedPayload env toolId childId prompt) rawLine).openRows =
        insert childId s.openRows := by
      ext c
      simp only [openRows, State.emit, Set.mem_ofPred_eq, hkeys, Set.mem_insert_iff]
      constructor
      · rintro ⟨rfl | hc, hnot⟩
        · exact .inl rfl
        · exact .inr ⟨hc, hnot⟩
      · rintro (rfl | hc)
        · exact ⟨.inl rfl, hclosed⟩
        · exact ⟨.inr hc.1, hc.2⟩
    rw [hheld]
    exact h.rows.opening hopens hcloses fun hopened => ⟨h.opened childId hopened, hclosed⟩
  · intro c hc
    rw [State.emit, hkeys]
    rcases opened_append_singleton.mp hc with hc | hc
    · exact .inr (h.opened c hc)
    · exact .inl (some.inj (hopens.symm.trans hc)).symm
  · intro c t ht
    rw [State.emit, OrderedDict.lookup_set] at ht
    split at ht
    · next heq =>
      cases ht
      exact ⟨htool, heq ▸ hagent⟩
    · exact h.tools c t ht

theorem streamOk_spawnReceiver (env : Env) (rawLine : Nat) (h : StreamOk s) (htool : toolId ≠ "")
    {receiver : Json} {receivers : List Json}
    (hfresh : FreshReceivers toolId (receiver :: receivers) s) :
    StreamOk (spawnReceiver env toolId rawLine s receiver) ∧
      FreshReceivers toolId receivers (spawnReceiver env toolId rawLine s receiver) := by
  have hrest : FreshReceivers toolId receivers s := fun r hr =>
    hfresh r (mem_cons_of_mem _ hr)
  unfold spawnReceiver
  split
  · exact ⟨h, hrest⟩
  next childId hchild =>
  obtain ⟨hdelegations, hclosed, hthread, hagent⟩ := registerChildThread_delegations s childId
  have hregistered := h.of_inert (inert_registerChildThread s childId)
  have hrest' : FreshReceivers toolId receivers (s.registerChildThread childId) := by
    intro r hr c hc hmem
    rw [hdelegations]
    unfold childThread at hc
    rw [hthread] at hc
    rw [hclosed] at hmem
    exact hrest r hr c hc hmem
  simp only
  split
  · exact ⟨hregistered, hrest'⟩
  next hnew =>
  have hopen : childId ∉ (s.registerChildThread childId).closedDelegations := by
    rw [hclosed]
    intro hmem
    have hsame := hfresh receiver mem_cons_self childId hchild hmem
    rw [hdelegations] at hnew
    exact hnew hsame
  refine ⟨streamOk_openRow hregistered htool hagent hopen, ?_⟩
  intro r hr c hc hmem
  show (OrderedDict.set _ childId toolId).lookup c = some toolId
  rw [OrderedDict.lookup_set]
  split
  · rfl
  · exact hrest' r hr c hc hmem

theorem streamOk_spawnReceivers (htool : toolId ≠ "") :
    ∀ (receivers : List Json) (s : State), StreamOk s → FreshReceivers toolId receivers s →
      StreamOk (receivers.foldl (spawnReceiver env toolId rawLine) s) := by
  intro receivers
  induction receivers with
  | nil => exact fun s h _ => h
  | cons receiver rest ih =>
    intro s h hfresh
    obtain ⟨hok, hrest⟩ := streamOk_spawnReceiver env rawLine h htool hfresh
    exact ih _ hok hrest

/-! ### The Guard -/

/-- A spawn of the root names receivers that can be read and that are not settled. -/
def CollabGuard (env : Env) (item : JsonObject) (s : State) : Prop :=
  s.currentAgent = none → ∀ toolId ∈ asText (item.get "id"),
    strOr env (item.get "tool") "" = "spawn_agent" →
      (iterate (item.get "receiver_thread_ids")).isSome ∧
        ∀ receivers ∈ iterate (item.get "receiver_thread_ids"), FreshReceivers toolId receivers s

def StartGuard (env : Env) (item : JsonObject) (s : State) : Prop :=
  ((item.get "type").isStr "reasoning" → blockOf env item s ∉ s.openReasoning →
    blockOf env item s ∉ s.closedReasoning →
      ¬ agentBlocks.Opened s.events (blockOf env item s, s.currentAgent)) ∧
  ((item.get "type").isStr "collab_agent_tool_call" → CollabGuard env item s)

/-- A block is ended by the agent that started it. -/
def CompleteGuard (env : Env) (item : JsonObject) (s : State) : Prop :=
  ((item.get "type").isStr "reasoning" → blockOf env item s ∈ s.openReasoning →
    blockAgent s.events (blockOf env item s) = some s.currentAgent) ∧
  ((item.get "type").isStr "agent_message" → (messageTextOf item s).isSome) ∧
  ((item.get "type").isStr "collab_agent_tool_call" → CollabGuard env item s)

/-- At the end of a turn the open blocks are the current agent's, and the usage can be read. -/
def EndGuard (record : JsonObject) (s : State) : Prop :=
  OwnBlocks s ∧ (usageSource record s).asObject.isSome

def RecordGuard (env : Env) (record : JsonObject) (s : State) : Prop :=
  let t := setCurrentAgent record s
  let type := record.get "type"
  let item := dictOr (record.get "item")
  (type.isStr "item.started" → StartGuard env item t) ∧
  (type.isStr "item.completed" → CompleteGuard env item t) ∧
  (type.isStr "turn.completed" → EndGuard record t) ∧
  (type.isStr "turn.failed" → EndGuard record t ∧ AllSettled t)

/-- What is asked of an item notification. -/
def ItemGuard (env : Env) (type : String) (params : JsonObject) (s : State) : Prop :=
  (appServerItem env (dictOr (params.get "item"))).isSome ∧
    ∀ item ∈ appServerItem env (dictOr (params.get "item")),
      RecordGuard env (itemRecord type item params) s

/-- The record that the end of a root turn is read as. -/
def turnRecord (env : Env) (params : JsonObject) (s : State) : JsonObject :=
  let turn := dictOr (params.get "turn")
  if (turn.get "status").isStr "completed" then turnCompletedRecord s
  else turnFailedRecord env turn s

/-- What is asked of a notification: the root's turns end while it is taken for the root. -/
def NotificationGuard (env : Env) (root method : String) (params : JsonObject) (s : State) :
    Prop :=
  (method = "item/started" → ItemGuard env "item.started" params s) ∧
  (method = "item/completed" → ItemGuard env "item.completed" params s) ∧
  (method = "turn/completed" →
    ((params.get "threadId").isStr root → s.threadId = root) ∧
    ((params.get "threadId").isStr s.threadId → RecordGuard env (turnRecord env params s) s))

/-- A message without a method that `_translate_app_server` takes. -/
def takenResponse (record : JsonObject) : Bool :=
  let result := dictOr (record.get "result")
  !(dictOr (result.get "thread")).isEmpty || !(dictOr (result.get "turn")).isEmpty ||
    record.has "result"

/-- What is asked of a message without a method. -/
def ResponseGuard (env : Env) (record : JsonObject) (s : State) : Prop :=
  let t := setThreadIdentity (dictOr ((dictOr (record.get "result")).get "thread")) s
  ((record.has "error" && record.has "id") = true → EndGuard record t ∧ AllSettled t) ∧
  ((record.has "error" && record.has "id") = false → takenResponse record = false →
    RecordGuard env record t)

def DictGuard (env : Env) (root : String) (record : JsonObject) (s : State) : Prop :=
  if record.has "method" || (record.has "error" && record.has "id") then
    match record.get "method" with
    | .str method => NotificationGuard env root method (dictOr (record.get "params")) s
    | _ => ResponseGuard env record s
  else RecordGuard env record s

def LineGuard (env : Env) (root : String) (s : State) (line : Line) : Prop :=
  (captureRealThreadId line.raw s).isSome ∧
    ∀ t ∈ captureRealThreadId line.raw s, line.text ≠ "" → ∀ record ∈ line.dict,
      DictGuard env root record { t with lineNo := t.lineNo + 1 }

/-- Every line meets the guard in the state it is read in. -/
def Guarded (env : Env) (root : String) : State → List Line → Prop
  | _, [] => True
  | s, line :: rest =>
    LineGuard env root s line ∧ ∀ s' ∈ stepLine env s line, Guarded env root s' rest

section Decidable

instance (toolId : String) (receivers : List Json) (s : State) :
    Decidable (FreshReceivers toolId receivers s) :=
  inferInstanceAs (Decidable (∀ receiver ∈ receivers, ∀ childId ∈ s.childThread receiver, _ → _))

instance (env : Env) (item : JsonObject) (s : State) : Decidable (CollabGuard env item s) :=
  inferInstanceAs (Decidable (_ → ∀ toolId ∈ asText (item.get "id"), _ → _ ∧
    ∀ receivers ∈ iterate (item.get "receiver_thread_ids"), FreshReceivers toolId receivers s))

instance (env : Env) (item : JsonObject) (s : State) : Decidable (StartGuard env item s) :=
  inferInstanceAs (Decidable ((_ → _ → _ → ¬ agentBlocks.Opened s.events _) ∧ (_ → CollabGuard _ _ _)))

instance (env : Env) (item : JsonObject) (s : State) : Decidable (CompleteGuard env item s) :=
  inferInstanceAs (Decidable ((_ → _ → _ = _) ∧ (_ → _ = true) ∧ (_ → CollabGuard _ _ _)))

instance (record : JsonObject) (s : State) : Decidable (EndGuard record s) :=
  inferInstanceAs (Decidable (OwnBlocks _ ∧ _ = true))

instance (env : Env) (record : JsonObject) (s : State) : Decidable (RecordGuard env record s) :=
  inferInstanceAs (Decidable ((_ → StartGuard _ _ _) ∧ (_ → CompleteGuard _ _ _) ∧
    (_ → EndGuard _ _) ∧ (_ → EndGuard _ _ ∧ AllSettled _)))

instance (env : Env) (type : String) (params : JsonObject) (s : State) :
    Decidable (ItemGuard env type params s) :=
  inferInstanceAs (Decidable (_ = true ∧
    ∀ item ∈ appServerItem env (dictOr (params.get "item")), RecordGuard _ _ _))

instance (env : Env) (root method : String) (params : JsonObject) (s : State) :
    Decidable (NotificationGuard env root method params s) :=
  inferInstanceAs (Decidable ((_ → ItemGuard _ _ _ _) ∧ (_ → ItemGuard _ _ _ _) ∧
    (_ → (_ → _ = _) ∧ (_ → RecordGuard _ _ _))))

instance (env : Env) (record : JsonObject) (s : State) : Decidable (ResponseGuard env record s) :=
  inferInstanceAs (Decidable ((_ = true → EndGuard _ _ ∧ AllSettled _) ∧
    (_ = false → _ = false → RecordGuard _ _ _)))

instance (env : Env) (root : String) (record : JsonObject) (s : State) :
    Decidable (DictGuard env root record s) := by
  unfold DictGuard
  split
  · split
    · infer_instance
    · infer_instance
  · infer_instance

instance (env : Env) (root : String) (s : State) (line : Line) :
    Decidable (LineGuard env root s line) :=
  inferInstanceAs (Decidable (_ = true ∧ ∀ t ∈ captureRealThreadId line.raw s, _ →
    ∀ record ∈ line.dict, DictGuard _ _ _ _))

instance guardedDecidable (env : Env) (root : String) :
    ∀ s lines, Decidable (Guarded env root s lines)
  | _, [] => inferInstanceAs (Decidable True)
  | s, line :: rest =>
    have (s' : State) : Decidable (Guarded env root s' rest) := guardedDecidable env root s' rest
    inferInstanceAs (Decidable (_ ∧ ∀ s' ∈ stepLine env s line, Guarded env root s' rest))

end Decidable

/-! ### One Record -/

/-- Nothing is open and nothing is running. -/
def Ended (s : State) : Prop := s.openReasoning = [] ∧ AllSettled s

/-- A guarded collaboration item leaves the stream in order. -/
theorem streamOk_handleCollabItem (h : StreamOk s) (hguard : CollabGuard env item s) :
    ∃ s', handleCollabItem env item rawLine s = some s' ∧ StreamOk s' := by
  unfold handleCollabItem
  cases hagent : s.currentAgent with
  | some agent => exact ⟨_, rfl, h.of_inert (.emit s _ _ (by decide))⟩
  | none =>
    simp only
    cases hid : asText (item.get "id") with
    | none => exact ⟨_, rfl, h.of_inert (.emit s _ _ (by decide))⟩
    | some toolId =>
      simp only
      by_cases hspawn : strOr env (item.get "tool") "" = "spawn_agent"
      · obtain ⟨hsome, hfresh⟩ := hguard hagent toolId hid hspawn
        obtain ⟨receivers, hreceivers⟩ := isSome_iff_exists.mp hsome
        have htool : toolId ≠ "" := by
          have hword := (filter_eq_some_iff.mp hid).2
          simpa using hword
        rw [if_pos hspawn]
        unfold handleSpawn
        simp only [hreceivers, map_some]
        refine ⟨_, rfl, ?_⟩
        apply streamOk_applyChildStates
        -- the prompt is kept first, then the receivers are spawned, then the line is dropped
        have hspawned : ∀ t, Inert s t → t.closedDelegations = s.closedDelegations →
            t.threadId = s.threadId → ∀ line,
            StreamOk (receivers.foldl (spawnReceiver env toolId line) t) := by
          intro t ht hclosed hthread line
          apply streamOk_spawnReceivers htool receivers t (h.of_inert ht)
          intro receiver hr childId hchild hmem
          unfold childThread at hchild
          rw [hthread] at hchild
          rw [hclosed] at hmem
          rw [ht.delegations]
          exact hfresh receivers hreceivers receiver hr childId hchild hmem
        split
        · refine StreamOk.of_inert (hspawned _ ?_ ?_ ?_ _) (.silent rfl rfl rfl rfl rfl)
          · split
            · exact .silent rfl rfl rfl rfl rfl
            · exact .refl s
          · split
            · rfl
            · rfl
          · split
            · rfl
            · rfl
        · refine hspawned _ ?_ ?_ ?_ _
          · split
            · exact .silent rfl rfl rfl rfl rfl
            · exact .refl s
          · split
            · rfl
            · rfl
          · split
            · rfl
            · rfl
      · rw [if_neg hspawn]
        exact ⟨_, rfl, streamOk_applyChildStates h _⟩

theorem streamOk_startItem (rawLine : Nat) (h : StreamOk s) (hguard : StartGuard env item s) :
    ∃ s', startItem env item rawLine s = some s' ∧ StreamOk s' := by
  unfold startItem
  simp only
  split
  · next htype => exact ⟨_, rfl, streamOk_startReasoning h (hguard.1 htype)⟩
  · split
    · exact ⟨_, rfl, h.of_inert (.emit_tool s _ (by decide) rfl)⟩
    · split
      · next htype =>
        have hcollab := hguard.2 htype
        unfold startCollabItem
        split
        · exact ⟨s, rfl, h⟩
        next itemId hid =>
        simp only
        have hpending : ∀ lines prompts, Inert s { s with
            pendingSpawnStartLine := lines, pendingSpawnPrompt := prompts } := fun _ _ =>
          .silent rfl rfl rfl rfl rfl
        split
        · exact streamOk_handleCollabItem (h.of_inert (hpending _ _)) hcollab
        · exact ⟨_, rfl, h.of_inert (hpending _ _)⟩
      · exact ⟨s, rfl, h⟩

theorem streamOk_completeItem (rawLine : Nat) (h : StreamOk s)
    (hguard : CompleteGuard env item s) :
    ∃ s', completeItem env item rawLine s = some s' ∧ StreamOk s' := by
  obtain ⟨hreasoning, hmessage, hcollab⟩ := hguard
  unfold completeItem
  simp only
  split
  · next htype => exact ⟨_, rfl, streamOk_completeReasoning h (hreasoning htype)⟩
  · split
    · exact ⟨_, rfl, h.of_inert (.emit_tool s _ (by decide) rfl)⟩
    · split
      · next htype =>
        obtain ⟨text, htext⟩ := isSome_iff_exists.mp (hmessage htype)
        have hrun : (completeMessage item rawLine s).isSome := by
          unfold completeMessage
          rw [htext]
          rfl
        obtain ⟨s', hs'⟩ := isSome_iff_exists.mp hrun
        exact ⟨s', hs', h.of_inert (inert_completeMessage hs')⟩
      · split
        · next htype => exact streamOk_handleCollabItem h (hcollab htype)
        · split
          · exact ⟨_, rfl, h.of_inert (inert_completeError env item rawLine s)⟩
          · exact ⟨s, rfl, h⟩

theorem usageSource_congr (h : s'.usage = s.usage) : usageSource record s' = usageSource record s := by
  unfold usageSource
  rw [h]

theorem usageOf_isSome (h : (usageSource record s).asObject.isSome) :
    ∃ usage, usageOf record s = some usage := by
  obtain ⟨source, hsource⟩ := isSome_iff_exists.mp h
  exact ⟨_, by rw [usageOf, hsource, map_some]⟩

theorem streamOk_completeTurn (env : Env) (rawLine : Nat) (h : StreamOk s) (hguard : EndGuard record s) :
    ∃ s', completeTurn env record rawLine s = some s' ∧ StreamOk s' ∧ Ended s' := by
  obtain ⟨hown, husage⟩ := hguard
  have hclosed := streamOk_closeOpenReasoning rawLine h hown "turn_completed_without_block_end"
  obtain ⟨hok, hsettling, hall⟩ := streamOk_closeAll env rawLine hclosed
  unfold completeTurn
  simp only
  have hopen := hsettling.openReasoning
  have hsame := hsettling.usage
  generalize List.foldl (closeDelegation env "cancelled" .null rawLine) _ _ = t at hok hall hopen hsame
  rw [closeOpenReasoning_eq] at hopen hsame
  have hsource : usageSource record t = usageSource record s := usageSource_congr hsame
  rw [← hsource] at husage
  obtain ⟨usage, hread⟩ := usageOf_isSome husage
  rw [hread, map_some]
  refine ⟨_, rfl, ?_, hopen, hall⟩
  have hinert : Inert t (t.emit "usage.final" [("usage", .obj usage)] rawLine) :=
    .emit t _ _ (by decide)
  exact (hok.of_inert hinert).of_inert (.silent rfl rfl rfl rfl rfl)

theorem streamOk_failTurn (env : Env) (rawLine : Nat) (h : StreamOk s)
    (husage : (usageSource record s).asObject.isSome) (message : String) :
    ∃ s', failTurn env record message rawLine s = some s' ∧ StreamOk s' ∧
      s'.openReasoning = s.openReasoning ∧ (AllSettled s → AllSettled s') := by
  unfold failTurn
  simp only
  obtain ⟨usage, hread⟩ := usageOf_isSome husage
  have hread' : usageOf record { s with
      terminalType := some .failed
      terminalLine := rawLine
      terminalFailure := some ⟨failureKind message, message⟩ } = some usage := hread
  rw [hread', map_some]
  exact ⟨_, rfl, h.of_inert (.silent rfl rfl rfl rfl rfl), rfl, fun hall => hall⟩

theorem streamOk_endFailed (env : Env) (rawLine : Nat) (h : StreamOk s)
    (hguard : EndGuard record s) (hall : AllSettled s) (reason message : String) :
    ∃ s', failTurn env record message rawLine (closeOpenReasoning reason rawLine s) = some s' ∧
      StreamOk s' ∧ Ended s' := by
  obtain ⟨hown, husage⟩ := hguard
  have hclosed := streamOk_closeOpenReasoning rawLine h hown reason
  have hshape := closeOpenReasoning_eq reason rawLine s
  have hsource : (usageSource record (closeOpenReasoning reason rawLine s)).asObject.isSome := by
    rw [hshape]
    exact husage
  obtain ⟨s', hs', hok, hopen, hkept⟩ :=
    streamOk_failTurn env rawLine hclosed hsource message
  refine ⟨s', hs', hok, ?_, hkept ?_⟩
  · rw [hopen, hshape]
  · rw [hshape]
    exact hall

/-- **One record**: a guarded record is read and keeps the invariant; an end of a turn ends
    everything. -/
theorem streamOk_translateRecord (rawLine : Nat) (h : StreamOk s) (hguard : RecordGuard env record s) :
    ∃ s', translateRecord env record rawLine s = some s' ∧ StreamOk s' ∧
      ((record.get "type").isStr "turn.completed" ∨ (record.get "type").isStr "turn.failed" →
        Ended s') := by
  obtain ⟨hstart, hcomplete, hturn, hfail⟩ := hguard
  have hentered : StreamOk (setCurrentAgent record s) := h.of_inert (inert_enterThread s _)
  generalize hent : setCurrentAgent record s = t at hstart hcomplete hturn hfail hentered
  have hother : ∀ {type : String}, (record.get "type").isStr type →
      type ≠ "turn.completed" → type ≠ "turn.failed" →
      ¬ ((record.get "type").isStr "turn.completed" ∨ (record.get "type").isStr "turn.failed") := by
    rintro type htype hne hne' (hc | hf)
    · exact hne (Json.isStr_unique htype hc)
    · exact hne' (Json.isStr_unique htype hf)
  unfold translateRecord
  simp only [hent]
  split
  · next htype =>
    exact ⟨_, rfl, hentered.of_inert (inert_startThread env record rawLine t),
      fun hend => absurd hend (hother htype (by decide) (by decide))⟩
  split
  · next htype =>
    exact ⟨t, rfl, hentered, fun hend => absurd hend (hother htype (by decide) (by decide))⟩
  split
  · next htype =>
    exact ⟨_, rfl, hentered.of_inert (inert_emitRetry _ rawLine t),
      fun hend => absurd hend (hother htype (by decide) (by decide))⟩
  split
  · next htype =>
    obtain ⟨hguard, hall⟩ := hfail htype
    obtain ⟨s', hs', hok, hended⟩ := streamOk_endFailed env rawLine hentered hguard hall "turn_failed"
      (env.cleanMessage (strOr env ((dictOr (record.get "error")).get "message") "Codex turn failed"))
    exact ⟨s', hs', hok, fun _ => hended⟩
  split
  · next htype =>
    obtain ⟨s', hs', hok⟩ := streamOk_startItem rawLine hentered (hstart htype)
    exact ⟨s', hs', hok, fun hend => absurd hend (hother htype (by decide) (by decide))⟩
  split
  · next htype =>
    obtain ⟨s', hs', hok⟩ := streamOk_completeItem rawLine hentered (hcomplete htype)
    exact ⟨s', hs', hok, fun hend => absurd hend (hother htype (by decide) (by decide))⟩
  split
  · next htype =>
    obtain ⟨s', hs', hok, hended⟩ :=
      streamOk_completeTurn env rawLine hentered (hturn htype)
    exact ⟨s', hs', hok, fun _ => hended⟩
  · next hfailed _ _ hcompleted =>
    refine ⟨_, rfl, hentered.of_inert (.emit t _ _ (by decide)), ?_⟩
    rintro (hc | hf)
    · exact absurd hc hcompleted
    · exact absurd hf hfailed

/-! ### One Line -/

/-- A notification that ends a turn of the root, or a request error. -/
def endsRun (root : String) (record : JsonObject) : Bool :=
  match record.get "method" with
  | .str method =>
    method == "turn/completed" && ((dictOr (record.get "params")).get "threadId").isStr root
  | _ => record.has "error" && record.has "id"

theorem streamOk_handleItem (rawLine : Nat) (h : StreamOk s)
    (hguard : ItemGuard env type params s) :
    ∃ s', handleItem env type params rawLine s = some s' ∧ StreamOk s' := by
  obtain ⟨hsome, hitem⟩ := hguard
  obtain ⟨item, hread⟩ := isSome_iff_exists.mp hsome
  obtain ⟨s', hs', hok, -⟩ := streamOk_translateRecord rawLine h (hitem item hread)
  unfold handleItem
  rw [hread, bind_some]
  exact ⟨s', hs', hok⟩

theorem handleTurnCompleted_eq (env : Env) (params : JsonObject) (rawLine : Nat) (s : State) :
    handleTurnCompleted env params rawLine s =
      if (params.get "threadId").isStr s.threadId then
        translateRecord env (turnRecord env params s) rawLine s
      else some s := by
  unfold handleTurnCompleted turnRecord
  cases hroot : (params.get "threadId").isStr s.threadId with
  | false => rfl
  | true =>
    simp only [Bool.not_true, Bool.false_eq_true, if_false, if_true]
    split
    · rfl
    · rfl

theorem turnRecord_type (env : Env) (params : JsonObject) (s : State) :
    ((turnRecord env params s).get "type").isStr "turn.completed" ∨
      ((turnRecord env params s).get "type").isStr "turn.failed" := by
  unfold turnRecord
  simp only
  split
  · exact .inl rfl
  · exact .inr rfl

/-- A guarded notification is handled and leaves the stream in order. -/
theorem streamOk_handleNotification (rawLine : Nat) (h : StreamOk s) {root method : String}
    (hguard : NotificationGuard env root method params s) :
    ∃ s', handleNotification env method params rawLine s = some s' ∧ StreamOk s' ∧
      (method = "turn/completed" → (params.get "threadId").isStr root → Ended s') := by
  obtain ⟨hstarted, hcompleted, hturn⟩ := hguard
  have hother : ∀ {t : State} {other : String}, method = other → other ≠ "turn/completed" →
      method = "turn/completed" → (params.get "threadId").isStr root → Ended t :=
    fun heq hne hend => absurd (heq.symm.trans hend) hne
  unfold handleNotification
  by_cases heq : method = "thread/started"
  · rw [if_pos heq]
    have hidentity := h.of_inert (inert_setThreadIdentity (dictOr (params.get "thread")) s)
    exact ⟨_, rfl, hidentity.of_inert (inert_emitModelResolved env rawLine _),
      hother heq (by decide)⟩
  rw [if_neg heq]
  by_cases heq : method = "item/started"
  · rw [if_pos heq]
    obtain ⟨s', hs', hok⟩ := streamOk_handleItem rawLine h (hstarted heq)
    exact ⟨s', hs', hok, hother heq (by decide)⟩
  rw [if_neg heq]
  by_cases heq : method = "item/completed"
  · rw [if_pos heq]
    obtain ⟨s', hs', hok⟩ := streamOk_handleItem rawLine h (hcompleted heq)
    exact ⟨s', hs', hok, hother heq (by decide)⟩
  rw [if_neg heq]
  by_cases heq : method = "item/agentMessage/delta"
  · rw [if_pos heq]
    exact ⟨_, rfl, h.of_inert (.silent rfl rfl rfl rfl rfl), hother heq (by decide)⟩
  rw [if_neg heq]
  by_cases heq : method = "item/reasoning/summaryTextDelta"
  · rw [if_pos heq]
    exact ⟨_, rfl, h.of_inert (.silent rfl rfl rfl rfl rfl), hother heq (by decide)⟩
  rw [if_neg heq]
  by_cases heq : method = "thread/tokenUsage/updated"
  · rw [if_pos heq]
    exact ⟨_, rfl, h.of_inert (inert_handleTokenUsage params s), hother heq (by decide)⟩
  rw [if_neg heq]
  by_cases heq : method = "turn/completed"
  · rw [if_pos heq]
    obtain ⟨hroot, hrecord⟩ := hturn heq
    rw [handleTurnCompleted_eq]
    split
    · next hthread =>
      obtain ⟨s', hs', hok, hended⟩ := streamOk_translateRecord rawLine h (hrecord hthread)
      exact ⟨s', hs', hok, fun _ _ => hended (turnRecord_type env params s)⟩
    · next hthread =>
      refine ⟨s, rfl, h, fun _ hr => ?_⟩
      rw [hroot hr] at hthread
      exact absurd hr hthread
  rw [if_neg heq]
  have hne := heq
  by_cases heq : method = "error"
  · rw [if_pos heq]
    exact ⟨_, rfl, h.of_inert (inert_handleErrorNotification env params rawLine s),
      hother heq (by decide)⟩
  rw [if_neg heq]
  by_cases heq : method = "thread/compacted"
  · rw [if_pos heq]
    exact ⟨_, rfl, h.of_inert (inert_handleCompacted params rawLine s), hother heq (by decide)⟩
  rw [if_neg heq]
  exact ⟨s, rfl, h, fun heq => absurd heq hne⟩

theorem streamOk_translateResponse (rawLine : Nat) (h : StreamOk s)
    (hmethod : (record.get "method").asString = none) (hguard : ResponseGuard env record s) :
    ∃ s' taken, translateAppServer env record rawLine s = some (s', taken) ∧ StreamOk s' ∧
      ((record.has "error" && record.has "id") = true → taken = true ∧ Ended s') ∧
      (taken = false → RecordGuard env record s') := by
  obtain ⟨hfail, hrest⟩ := hguard
  have hidentity := h.of_inert
    (inert_setThreadIdentity (dictOr ((dictOr (record.get "result")).get "thread")) s)
  unfold translateAppServer
  split
  · next method hstr =>
    rw [hstr] at hmethod
    cases hmethod
  · cases herror : (record.has "error" && record.has "id") with
    | true =>
      obtain ⟨hend, hall⟩ := hfail herror
      obtain ⟨s', hs', hok, hended⟩ :=
        streamOk_endFailed env rawLine hidentity hend hall "request_failed" (requestError env record)
      refine ⟨s', true, ?_, hok, fun _ => ⟨rfl, hended⟩, fun htaken => by cases htaken⟩
      unfold failRequest
      simp only [if_true, hs', map_some]
    | false =>
      refine ⟨_, _, rfl, hidentity, fun hnot => (by cases hnot), fun htaken => ?_⟩
      exact hrest herror htaken

/-- A guarded dict; the end of a root turn and a request error end everything. -/
theorem streamOk_translate (rawLine : Nat) (h : StreamOk s)
    (hguard : DictGuard env root record s) :
    ∃ s', translate env record rawLine s = some s' ∧ StreamOk s' ∧
      (endsRun root record → Ended s') := by
  unfold DictGuard at hguard
  unfold translate
  by_cases htaken : (record.has "method" || (record.has "error" && record.has "id")) = true
  · rw [if_pos htaken] at hguard ⊢
    cases hmethod : record.get "method" with
    | str method =>
      rw [hmethod] at hguard
      obtain ⟨s', hs', hok, hended⟩ := streamOk_handleNotification rawLine h hguard
      refine ⟨s', ?_, hok, ?_⟩
      · unfold translateAppServer
        simp only [hmethod, hs', map_some, bind_some, if_true]
      · intro hend
        simp only [endsRun, hmethod, Bool.and_eq_true, beq_iff_eq] at hend
        exact hended hend.1 hend.2
    | _ =>
      rw [hmethod] at hguard
      obtain ⟨s', taken, hs', hok, hended, hrecord⟩ := streamOk_translateResponse rawLine h
        (by rw [hmethod]; rfl) hguard
      rw [hs', bind_some]
      cases taken with
      | true =>
        refine ⟨s', rfl, hok, fun hend => ?_⟩
        simp only [endsRun, hmethod] at hend
        exact (hended hend).2
      | false =>
        obtain ⟨t, ht, hok', -⟩ := streamOk_translateRecord rawLine hok (hrecord rfl)
        refine ⟨t, ht, hok', fun hend => ?_⟩
        simp only [endsRun, hmethod] at hend
        exact nomatch (hended hend).1
  · rw [if_neg htaken] at hguard ⊢
    obtain ⟨s', hs', hok, -⟩ := streamOk_translateRecord rawLine h hguard
    refine ⟨s', hs', hok, fun hend => ?_⟩
    rw [Bool.or_eq_true, not_or] at htaken
    unfold endsRun at hend
    split at hend
    · next method hstr =>
      have hhas : record.has "method" = true := by
        unfold JsonObject.get at hstr
        unfold JsonObject.has
        cases hlookup : record.lookup "method" with
        | none =>
          rw [hlookup] at hstr
          cases hstr
        | some value => rfl
      exact absurd hhas htaken.1
    · exact absurd hend htaken.2

theorem streamOk_stepLine (h : StreamOk s) {line : Line}
    (hguard : LineGuard env root s line) :
    ∃ s', stepLine env s line = some s' ∧ StreamOk s' ∧
      (line.text ≠ "" → (∃ record ∈ line.dict, endsRun root record) → Ended s') := by
  obtain ⟨hcapture, hrecord⟩ := hguard
  obtain ⟨t, ht⟩ := isSome_iff_exists.mp hcapture
  have hcaptured := h.of_inert (inert_captureRealThreadId ht)
  unfold stepLine
  rw [ht, bind_some]
  split
  · next htext => exact ⟨t, rfl, hcaptured, fun hne => absurd htext hne⟩
  next htext =>
  have hnumbered : StreamOk { t with lineNo := t.lineNo + 1 } :=
    hcaptured.of_inert (.silent rfl rfl rfl rfl rfl)
  unfold readLine
  cases hdict : line.dict with
  | none =>
    refine ⟨_, rfl, hnumbered.of_inert (inert_reportLine line _), ?_⟩
    rintro - ⟨record, hnone, -⟩
    cases hnone
  | some record =>
    obtain ⟨s', hs', hok, hended⟩ :=
      streamOk_translate (t.lineNo + 1) hnumbered (hrecord t ht htext record hdict)
    refine ⟨s', hs', hok, ?_⟩
    rintro - ⟨record', hsame, hend⟩
    cases hsame
    exact hended hend

/-! ### The Stream -/

/-- The last line ends a turn of the root, or is a request error. -/
def EndsRun (root : String) (lines : List Line) : Prop :=
  ∃ line ∈ lines.getLast?, line.text ≠ "" ∧ ∃ record ∈ line.dict, endsRun root record

/-- What is asked of the events of a whole stream: every block is closed once and in the name of its
    agent, nothing else is closed, and every delegation is ended once. -/
structure BalancedOutput (events : List Event) : Prop where
  blocks : agentBlocks.Balanced events
  closes : agentBlocks.ClosesOpened events
  rows : childRows.Balanced events

theorem balanced_of_ended (h : StreamOk s) (hended : Ended s) : BalancedOutput s.events := by
  obtain ⟨hopen, hall⟩ := hended
  have hheld : s.heldBlocks = ∅ := by
    ext k
    simp [heldBlocks, hopen]
  have hrows : s.openRows = ∅ := by
    ext childId
    simp only [openRows, Set.mem_ofPred_eq, Set.mem_empty_iff_false, iff_false, not_and,
      not_not]
    exact hall childId
  refine ⟨?_, h.closes, ?_⟩
  · have hlog := h.blocks
    rw [hheld] at hlog
    exact hlog.balanced
  · have hlog := h.rows
    rw [hrows] at hlog
    exact hlog.balanced

/-- A guarded run keeps the invariant, and behind its last line nothing is open. -/
theorem guarded_from {lines : List Line} (h : StreamOk s)
    (hguard : Guarded env root s lines) :
    ∃ s', translateLines env s lines = some s' ∧ StreamOk s' ∧ (EndsRun root lines → Ended s') := by
  induction lines generalizing s with
  | nil =>
    refine ⟨s, rfl, h, ?_⟩
    rintro ⟨line, hline, -⟩
    cases hline
  | cons line rest ih =>
    obtain ⟨hline, hrest⟩ := hguard
    obtain ⟨t, ht, hok, hended⟩ := streamOk_stepLine h hline
    obtain ⟨s', hs', hok', hend⟩ := ih hok (hrest t ht)
    refine ⟨s', ?_, hok', ?_⟩
    · rw [translateLines, List.foldlM_cons, ht]
      exact hs'
    · rintro ⟨last, hlast, htext, hrecord⟩
      cases rest with
      | nil =>
        cases hlast
        cases hs'
        exact hended htext hrecord
      | cons next more =>
        exact hend ⟨last, hlast, htext, hrecord⟩

/-- **Balance**: the output of every guarded stream that ends with a turn of the root, whatever its
    status, or with a request error is balanced. -/
theorem guarded_codex_stream_balanced (env : Env) (root : String) (lines : List Line)
    (hend : EndsRun root lines) (hguard : Guarded env root {} lines) :
    ∃ s, main env lines = some s ∧ BalancedOutput s.events := by
  obtain ⟨s, hs, hok, hended⟩ := guarded_from streamOk_init hguard
  refine ⟨emitTerminalAtEof s, by rw [main, hs, map_some], ?_⟩
  have hinert := inert_emitTerminalAtEof s
  refine balanced_of_ended (hok.of_inert hinert) ⟨?_, ?_⟩
  · rw [hinert.openReasoning]
    exact (hended hend).1
  · intro childId hchild
    rw [hinert.delegations] at hchild
    rw [hinert.closed]
    exact (hended hend).2 childId hchild

/-! ### Two Streams -/

def plainEnv : Env where
  py := PiEvents.plainEnv.py
  sanitize := id
  cleanMessage := id
  loads := fun _ => none
  openaiModel := none

/-- A line that holds a message whose ids need no mask. -/
def plainLine (record : JsonObject) : Line :=
  { raw := some (.obj record), text := "record", record := some (.obj record) }

def notification (method : String) (params : JsonObject) : Line :=
  plainLine [("method", .str method), ("params", .obj params)]

def announceRoot : Line := notification "thread/started" [("thread", .obj [("id", .str "root-1")])]

def spawnChild : Line :=
  notification "item/completed" [("threadId", .str "root-1"), ("item", .obj
    [("type", .str "collabAgentToolCall"), ("id", .str "spawn-1"), ("tool", .str "spawnAgent"),
     ("receiverThreadIds", .arr [.str "child-1"])])]

def endTurn (status : String) : Line :=
  notification "turn/completed"
    [("threadId", .str "root-1"), ("turn", .obj [("status", .str status)])]

def rootReasoning (method : String) : Line :=
  notification method [("threadId", .str "root-1"),
    ("item", .obj [("type", .str "reasoning"), ("id", .str "item-1")])]

/-- A block that is cut off and a delegation that is still running when the turn completes. -/
def cutOffStream : List Line :=
  [announceRoot, spawnChild, rootReasoning "item/started", endTurn "completed"]

theorem cut_off_codex_stream_balanced :
    EndsRun "root-1" cutOffStream ∧ Guarded plainEnv "root-1" {} cutOffStream ∧
      ∃ s, main plainEnv cutOffStream = some s ∧ BalancedOutput s.events := by
  have hend : EndsRun "root-1" cutOffStream :=
    ⟨endTurn "completed", rfl, by decide, _, rfl, by decide⟩
  have hguard : Guarded plainEnv "root-1" {} cutOffStream := by decide +kernel
  exact ⟨hend, hguard, guarded_codex_stream_balanced plainEnv "root-1" cutOffStream hend hguard⟩

/-- The same delegation when the turn fails. -/
def failedStream : List Line := [announceRoot, spawnChild, endTurn "failed"]

/-- A delegation that is running when the turn fails is never ended. -/
theorem failed_turn_unbalanced :
    EndsRun "root-1" failedStream ∧
      ∃ s, main plainEnv failedStream = some s ∧ ¬ BalancedOutput s.events := by
  refine ⟨⟨endTurn "failed", rfl, by decide, _, rfl, by decide⟩, ?_⟩
  have hrun : (main plainEnv failedStream).map (fun s =>
      decide (∃ e ∈ s.events, childRows.opens e = some "child-1") &&
        decide (∀ e ∈ s.events, childRows.closes e ≠ some "child-1")) = some true := by
    decide +kernel
  obtain ⟨s, hs, hopen⟩ := map_eq_some_iff.mp hrun
  simp only [Bool.and_eq_true, decide_eq_true_eq] at hopen
  obtain ⟨⟨e, he, hopens⟩, hnever⟩ := hopen
  refine ⟨s, hs, fun hbalanced => ?_⟩
  obtain ⟨before, after, hsplit⟩ := append_of_mem he
  have hone := hbalanced.rows before e after "child-1" hsplit hopens
  have hzero : childRows.closings "child-1" after = 0 := by
    unfold closings
    rw [countP_eq_zero]
    intro e' he'
    simpa using hnever e' (by rw [hsplit]; exact mem_append_right _ (mem_cons_of_mem _ he'))
  rw [hzero] at hone
  cases hone

end Codify.Harness.CodexEvents

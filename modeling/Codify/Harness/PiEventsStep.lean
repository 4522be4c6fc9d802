import Codify.Harness.PiEventsFrame

/-! # One Record of the Pi Stream

    What `translate` does with a record, in one case analysis (`translate_cases`):
    most records are quiet up to the counters of the turn and the root's usage,
    some open or close a reasoning block, and the records of the delegation tool
    go to `handleSubagentTool`.

    `coreAfter` says what a record does to the counters, to the failure that is
    recorded and to the table of the generic tools.
-/

namespace Codify.Harness.PiEvents

open Codify.Framework Codify.Harness List Option Json

variable {env : Env} {record event : JsonObject} {rawLine : Nat} {s s' : State}

/-! ### Buffers -/

/-- What the handlers of messages and tool calls read besides the core. -/
structure Buffers where
  thinking : List Json
  textParts : List Json
  messageCompletedEmitted : Bool
  aborted : Bool
  pending : PendingCalls

def State.buffers (s : State) : Buffers where
  thinking := s.thinking
  textParts := s.textParts
  messageCompletedEmitted := s.messageCompletedEmitted
  aborted := s.aborted
  pending := s.pending

theorem buffers_beginRecord (record : JsonObject) (rawLine : Nat) (s : State) :
    (beginRecord record rawLine s).buffers = s.buffers := by
  have hresolved : ∀ (t : State) (line : Nat), (emitModelResolved t line).buffers = t.buffers := by
    intro t line
    unfold emitModelResolved
    split <;> rfl
  have hreopen : ∀ t : State, (emitReopen record rawLine t).buffers = t.buffers := by
    intro t
    unfold emitReopen
    split <;> rfl
  have hflush : ∀ t : State, (flushPendingModelResolved t).buffers = t.buffers := by
    intro t
    unfold flushPendingModelResolved
    split
    · split
      · rfl
      · exact hresolved t _
    · rfl
  unfold beginRecord
  rw [hreopen]
  unfold beginSession
  split
  · rfl
  · split
    · rfl
    · exact hflush _

theorem buffers_setUsage (record : JsonObject) (rawLine : Nat) (s : State) :
    (setUsage record rawLine s).buffers = s.buffers := by
  unfold setUsage
  split
  · rfl
  · dsimp only
    split <;> rfl

/-! ### Counters of a Turn -/

def recordUsage (record : JsonObject) (usage : JsonObject) : JsonObject :=
  let type := record.get "type"
  if type.isStr "message_update" then usageAfter record usage
  else if type.isStr "message_end" then usageAfter (endedMessage record) usage
  else if type.isStr "compaction_end" then usageAfter (dictOr (record.get "result")) usage
  else usage

/-- The event ends a text block that is not blank. -/
def endsText (event : JsonObject) (textParts : List Json) : Bool :=
  (event.get "type").isStr "text_end" &&
    ((asText (event.get "content")).or (joinParts textParts)).any (!blank ·)

/-- The message ends by itself and brings a text that has not been reported. -/
def stopsWithText (message : JsonObject) (reported : Bool) : Bool :=
  !isMessageError message && !(message.get "stopReason").isStr "aborted" &&
    isMessageStop message && messageText message != "" && !reported

/-- The record brings text of the assistant. -/
def bringsText (record : JsonObject) (b : Buffers) : Bool :=
  if (record.get "type").isStr "message_update" then endsText (messageEvent record) b.textParts
  else
    (record.get "type").isStr "message_end" &&
      stopsWithText (endedMessage record) b.messageCompletedEmitted

/-- The record is an `agent_end` without a retry, an error and an abort before it. -/
def endsAgent (record : JsonObject) (b : Buffers) : Bool :=
  (record.get "type").isStr "agent_end" && !b.aborted && isSuccessfulAgentEnd record

/-- The record is an `agent_settled`. -/
def settles (record : JsonObject) : Bool := (record.get "type").isStr "agent_settled"

/-- The record aborts the run. -/
def abortsRun (record : JsonObject) : Bool :=
  (record.get "type").isStr "message_end" && !isMessageError (endedMessage record) &&
    ((endedMessage record).get "stopReason").isStr "aborted"

/-- The record is an `agent_end` with an error. -/
def endsWithError (record : JsonObject) : Bool :=
  (record.get "type").isStr "agent_end" && (agentEndError record).truthy

/-- The call of a record of a generic tool. -/
def genericCall (env : Env) (record : JsonObject) (pending : PendingCalls) : Option String :=
  if toolTypes.any (record.get "type").isStr && toolCallIdOf env record != "" &&
      !isSubagentTool env (filledRecord env record { pending }) then
    some (toolCallIdOf env record)
  else none

/-- `tool_starts` after a record. -/
def toolsAfter (env : Env) (record : JsonObject) (s : State) : OrderedDict String Lifecycle :=
  match genericCall env record s.pending with
  | some callId => genericTools env (filledRecord env record s) callId s.toolStarts
  | none => s.toolStarts

/-- The core with the usage, the counters, the failure and the tools that a record leaves. -/
def coreAfter (env : Env) (record : JsonObject) (rawLine : Nat) (s : State) : Core :=
  { s.core with
    usage := recordUsage record s.usage
    assistantFinalLine :=
      if bringsText record s.buffers then some rawLine else s.assistantFinalLine
    agentEndSuccessLine :=
      if endsAgent record s.buffers && s.terminal.isNone then some rawLine
      else s.agentEndSuccessLine
    agentSettledLine := if settles record then some rawLine else s.agentSettledLine
    toolStarts := toolsAfter env record s
    failed := !startsRetry record && (s.core.failed || reportsFailure record ||
      (endsWithError record && !s.aborted && s.terminal.isNone))
    aborted := s.aborted || abortsRun record }

/-! ### Messages -/

/-- How a record opens or closes reasoning blocks. -/
inductive BlockStep (rawLine : Nat) (s : State) : State → Prop where
  | start : BlockStep rawLine s (thinkingStart rawLine s)
  | stop {s' : State} : thinkingEnd rawLine s = some s' → BlockStep rawLine s s'
  | interrupt (reason : String) : BlockStep rawLine s (closeOpenThinking reason rawLine s)

theorem endText_eq (event : JsonObject) (s : State) :
    endText event s = (asText (event.get "content")).or (joinParts s.textParts) := by
  unfold endText
  cases asText (event.get "content") <;> rfl

/-- A message event may end the text, or it moves one block. -/
theorem handleMessageEvent_cases (h : handleMessageEvent env event rawLine s = some s') :
    Leaves s s' { s.core with
        assistantFinalLine :=
          if endsText event s.textParts then some rawLine else s.assistantFinalLine } ∨
      (endsText event s.textParts = false ∧ BlockStep rawLine s s') := by
  unfold handleMessageEvent at h
  dsimp only at h
  by_cases hend : (event.get "type").isStr "text_end"
  · left
    have htype := isStr_iff.mp hend
    simp only [htype] at h
    have htext : textEnd event rawLine s = some s' := h
    obtain ⟨content, hcontent, hleaves⟩ := leaves_textEnd htext
    rw [endText_eq] at hcontent
    have hends : endsText event s.textParts = !blank content := by
      simp [endsText, hend, hcontent]
    rw [hends]
    by_cases hblank : blank content <;> simpa [hblank] using hleaves
  · have hends : endsText event s.textParts = false := by simp [endsText, hend]
    rw [hends]
    obtain ⟨_, h⟩ | ⟨_, h⟩ := ite_eq_iff.mp h
    · cases h
      exact .inr ⟨rfl, .start⟩
    obtain ⟨_, h⟩ | ⟨_, h⟩ := ite_eq_iff.mp h
    · cases h
      exact .inl (.silent rfl rfl)
    obtain ⟨_, h⟩ | ⟨_, h⟩ := ite_eq_iff.mp h
    · exact .inr ⟨rfl, .stop h⟩
    obtain ⟨_, h⟩ | ⟨_, h⟩ := ite_eq_iff.mp h
    · cases h
      exact .inl (.silent rfl rfl)
    obtain ⟨_, h⟩ | ⟨_, h⟩ := ite_eq_iff.mp h
    · cases h
      left
      have hparts : Quiet s { s with textParts := s.textParts ++
          [(event.get "delta").orElse (.str "")] } := .silent rfl rfl
      exact hparts.then_quiet (.emit _ _ _ (by decide))
    rw [if_neg hend] at h
    obtain ⟨_, h⟩ := ite_none_right_eq_some.mp h
    obtain ⟨_, h⟩ | ⟨_, h⟩ := ite_eq_iff.mp h
    · exact .inl (quiet_handleNestedToolcall h)
    obtain ⟨_, h⟩ | ⟨_, h⟩ := ite_eq_iff.mp h
    · cases h
      exact .inl (.emit s _ _ (by decide))
    · cases h
      exact .inl (.refl s)

attribute [local simp] stopsWithText State.core recordUsage bringsText endsAgent coreAfter settles
  startsRetry reportsFailure endsWithError abortsRun messageFails

theorem closeMessage_cases (env : Env) (message : JsonObject) (rawLine : Nat) (s : State) :
    (messageFails message = false ∧ Leaves s (closeMessage env message rawLine s) { s.core with
        assistantFinalLine :=
          if stopsWithText message s.messageCompletedEmitted then some rawLine
          else s.assistantFinalLine }) ∨
      (messageFails message ∧ stopsWithText message s.messageCompletedEmitted = false ∧
        ∃ t, Leaves s t { s.core with
            failed := true
            aborted := s.aborted || !isMessageError message } ∧
          BlockStep rawLine t (closeMessage env message rawLine s)) := by
  by_cases herror : isMessageError message
  · right
    have hclose : closeMessage env message rawLine s =
        closeOpenThinking "message_error" rawLine (s.fail (failureOf (failureMessage env
          (message.get "errorMessage") "Pi message ended with an error"))) := by
      simp only [closeMessage, herror, if_true]
    rw [hclose]
    refine ⟨by simp [herror], by simp [herror], _, ?_, .interrupt _⟩
    rw [herror, Bool.not_true, Bool.or_false]
    exact leaves_fail s _
  · by_cases haborted : (message.get "stopReason").isStr "aborted"
    · right
      have hclose : closeMessage env message rawLine s =
          closeOpenThinking "message_aborted" rawLine (s.abort ⟨"cancelled",
            failureMessage env (message.get "errorMessage") "Pi run aborted"⟩) := by
        simp only [closeMessage, herror, haborted, if_true, if_false, Bool.false_eq_true]
      rw [hclose]
      refine ⟨by simp [haborted], by simp [haborted], _, ?_, .interrupt _⟩
      rw [Bool.eq_false_iff.mpr herror, Bool.not_false, Bool.or_true]
      exact leaves_abort s _
    · left
      refine ⟨by simp [herror, haborted], ?_⟩
      unfold closeMessage
      dsimp only
      rw [if_neg herror, if_neg haborted]
      simp only [Bool.not_eq_true] at herror haborted
      split_ifs with hstop hends hends
      · have hleaves := leaves_finishMessage message rawLine s
        rwa [if_pos] at hleaves
        simpa [herror, haborted, hstop] using hends
      · have hleaves := leaves_finishMessage message rawLine s
        rwa [if_neg] at hleaves
        simpa [herror, haborted, hstop] using hends
      · simp [hstop] at hends
      · exact .refl s

/-! ### Delegations -/

/-- The types of the events of delegations. -/
def rowTypes : List String := ["tool.started", "tool.completed", "message.completed"]

/-- The step touches nothing but delegations and adds events of their types. -/
structure Delegates (s s' : State) : Prop where
  core : s'.core = { s.core with delegations := s'.delegations, childUsage := s'.childUsage }
  buffers : s'.buffers = s.buffers
  events : ∃ new, s'.events = s.events ++ new ∧ ∀ e ∈ new, e.type ∈ rowTypes

namespace Delegates

variable {s'' : State}

theorem refl (s : State) : Delegates s s := ⟨rfl, rfl, [], by simp, by simp⟩

theorem trans (h : Delegates s s') (h' : Delegates s' s'') : Delegates s s'' := by
  obtain ⟨new, hnew, hfree⟩ := h.events
  obtain ⟨new', hnew', hfree'⟩ := h'.events
  refine ⟨?_, h'.buffers.trans h.buffers, new ++ new', by simp [hnew', hnew], ?_⟩
  · rw [h'.core, h.core]
  · intro e he
    rcases mem_append.mp he with he | he
    · exact hfree e he
    · exact hfree' e he

theorem setDelegation (s : State) (callId : String) (d : JsonObject) :
    Delegates s (s.setDelegation callId d) :=
  ⟨rfl, rfl, [], by simp [State.setDelegation], by simp⟩

theorem setRow (s : State) (callId toolId : String) (flags : JsonObject) :
    Delegates s (s.setRow callId toolId flags) :=
  setDelegation s callId _

theorem emit (s : State) {type : String} (payload : JsonObject) (rawLine : Nat)
    (h : type ∈ rowTypes) : Delegates s (s.emit type payload rawLine) :=
  ⟨rfl, rfl, _, rfl, by simpa using h⟩

theorem emitFor (s : State) (agent : JsonObject) {type : String} (payload : JsonObject)
    (rawLine : Nat) (h : type ∈ rowTypes) :
    Delegates s (s.emitFor agent type payload rawLine) :=
  emit s _ rawLine h

theorem foldl {α : Type} {f : State → α → State} (hf : ∀ t a, Delegates t (f t a)) (l : List α)
    (s : State) : Delegates s (l.foldl f s) := by
  induction l generalizing s with
  | nil => exact refl s
  | cons a rest ih => exact (hf s a).trans (ih _)

theorem foldlM {α : Type} {f : State → α → Option State}
    (hf : ∀ t a t', f t a = some t' → Delegates t t') (l : List α) {s s' : State}
    (h : l.foldlM f s = some s') : Delegates s s' := by
  induction l generalizing s with
  | nil =>
    obtain rfl := some.inj h
    exact refl s
  | cons a rest ih =>
    obtain ⟨t, ht, hrest⟩ := bind_eq_some_iff.mp h
    exact (hf s a t ht).trans (ih hrest)

end Delegates

theorem delegates_recordChildUsage (childId : String) (usage : OrderedDict String Int)
    (s : State) : Delegates s (recordChildUsage childId usage s) := by
  unfold recordChildUsage
  split
  · exact .refl s
  · exact ⟨rfl, rfl, [], by simp, by simp⟩

theorem delegates_emitChildToolRow (env : Env) (toolId : String) (agent : JsonObject)
    (rawLine : Nat) (s : State) (p : JsonObject × Nat) :
    Delegates s (emitChildToolRow env toolId agent rawLine s p) :=
  (Delegates.emitFor s agent _ rawLine (by decide)).trans (.emitFor _ agent _ rawLine (by decide))

theorem delegates_completeChild (env : Env) (callId : String) (snap : Snapshot) (status : String)
    (rawLine : Nat) (s : State) :
    Delegates s (completeChild env callId snap status rawLine s) := by
  have hmark : Delegates s (markCompleted callId snap s) := .setRow s callId snap.toolId _
  have hanswer : ∀ t, Delegates t (reportAnswer env snap rawLine t) := by
    intro t
    unfold reportAnswer
    split
    · exact .emitFor t snap.agent _ rawLine (by decide)
    · exact .refl t
  have husage := hmark.trans (delegates_recordChildUsage snap.toolId (childUsageOf snap.result) _)
  have hrows := husage.trans (Delegates.foldl
    (delegates_emitChildToolRow env snap.toolId snap.agent rawLine)
    (childToolRows env snap.result).zipIdx _)
  exact (hrows.trans (hanswer _)).trans (.emit _ _ rawLine (by decide))

theorem delegates_openChild (env : Env) (callId : String) (snap : Snapshot) (rawLine : Nat)
    (s : State) : Delegates s (openChild env callId snap rawLine s) := by
  have hemit := @Delegates.emit s "tool.started" (startedPayload env snap) rawLine (by decide)
  have hmark : ∀ t, Delegates t (markStarted callId snap t) := fun t => .setRow t callId snap.toolId _
  exact hemit.trans ((hmark _).trans (.setDelegation _ callId _))

theorem delegates_projectChild (env : Env) (callId : String) (isFinal : Bool) (rawLine : Nat)
    (s : State) (snap : Snapshot) :
    Delegates s (projectChild env callId isFinal rawLine s snap) := by
  have hremember : Delegates s (rememberChild callId snap s) := .setRow s callId snap.toolId _
  have hopen : ∀ t, Delegates t (openUnlessStarted env callId snap rawLine t) := by
    intro t
    unfold openUnlessStarted
    split
    · exact .refl t
    · exact delegates_openChild env callId snap rawLine t
  have hdone : ∀ t, Delegates t (completeIfDone env callId isFinal snap rawLine t) := by
    intro t
    unfold completeIfDone
    split
    · exact .refl t
    · split
      · exact .refl t
      · exact delegates_completeChild env callId snap _ rawLine t
  unfold projectChild
  dsimp only
  split
  · exact hremember
  · exact hremember.trans ((hopen _).trans (hdone _))

theorem delegates_settleEntry (callId : String) (rawLine : Nat) (s : State) (p : String × Json)
    (s' : State) (h : settleEntry env callId rawLine s p = some s') : Delegates s s' := by
  unfold settleEntry at h
  split at h
  · obtain ⟨payload, -, rfl⟩ := map_eq_some_iff.mp h
    exact (Delegates.setDelegation s callId _).trans (.emit _ _ rawLine (by decide))
  · cases h
    exact .refl s

theorem delegates_settleDelegation (rawLine : Nat) (s : State) (callId : String) (s' : State)
    (h : settleDelegation env rawLine s callId = some s') : Delegates s s' :=
  .foldlM (delegates_settleEntry callId rawLine) _ h

theorem delegates_settleChildlessCall (env : Env) (record : JsonObject) (callId : String)
    (rawLine : Nat) (s : State) :
    Delegates s (settleChildlessCall env record callId rawLine s) := by
  unfold settleChildlessCall
  dsimp only
  split
  · exact .refl s
  · split
    · exact .refl s
    · have hchildless := Delegates.setDelegation s callId
        ((s.delegation callId).set "childless" (.bool true))
      exact (hchildless.trans (.emit _ _ rawLine (by decide))).trans (.emit _ _ rawLine (by decide))

theorem delegates_captureInput (env : Env) (record : JsonObject) (callId : String) (s : State) :
    Delegates s (captureInput env record callId s) := by
  unfold captureInput
  dsimp only
  split
  · exact (Delegates.setDelegation s callId _).trans (.setDelegation _ callId _)
  · exact .setDelegation s callId _

theorem delegates_handleSubagentTool {callId : String}
    (h : handleSubagentTool env record callId rawLine s = some s') : Delegates s s' := by
  unfold handleSubagentTool at h
  dsimp only at h
  obtain ⟨t, ht, rfl⟩ := map_eq_some_iff.mp h
  refine Delegates.trans ?_ (delegates_settleChildlessCall env record callId rawLine t)
  refine (delegates_captureInput env record callId s).trans ?_
  generalize captureInput env record callId s = u at ht ⊢
  refine (Delegates.foldl (delegates_projectChild env callId (isFinalRecord record) rawLine)
    (callSnapshots env record callId) u).trans ?_
  split at ht
  · exact delegates_settleDelegation rawLine _ callId t ht
  · cases ht
    exact .refl _

/-! ### The Case Analysis -/

/-- What a record does to the core, the events and the delegations. -/
inductive RecordStep (env : Env) (record : JsonObject) (rawLine : Nat) (s : State) :
    State → Prop where
  /-- Nothing changes but what `coreAfter` says. -/
  | quiet {s' : State} :
      Leaves s s' (coreAfter env record rawLine s) →
      NamesPlain s'.toolStarts → RecordStep env record rawLine s s'
  /-- After that, a block opens or closes. -/
  | block {t s' : State} : Leaves s t (coreAfter env record rawLine s) →
      NamesPlain t.toolStarts → BlockStep rawLine t s' → RecordStep env record rawLine s s'
  /-- The record belongs to the delegation tool. -/
  | delegation {t s' : State} : Leaves s t (coreAfter env record rawLine s) →
      NamesPlain t.toolStarts →
      toolTypes.any (record.get "type").isStr → toolCallIdOf env record ≠ "" →
      isSubagentTool env (filledRecord env record s) →
      handleSubagentTool env (filledRecord env record s) (toolCallIdOf env record) rawLine t =
        some s' →
      RecordStep env record rawLine s s'

theorem toolsAfter_of_type {type : String} (htype : record.get "type" = .str type)
    (h : type ∉ toolTypes) (s : State) : toolsAfter env record s = s.toolStarts := by
  have hnone : toolTypes.any (Json.str type).isStr = false := by
    simpa [toolTypes, isStr, Json.asString] using h
  simp [toolsAfter, genericCall, htype, hnone]

/-- The types of the records that change the usage, a counter or the failure. -/
def countedTypes : List String :=
  ["response", "message_update", "message_end", "compaction_end", "agent_end", "agent_settled",
   "auto_retry_start", "auto_retry_end", "summarization_retry_scheduled"]

theorem coreAfter_of_type {type : String} (htype : record.get "type" = .str type)
    (h : type ∉ countedTypes) (rawLine : Nat) (s : State) :
    coreAfter env record rawLine s = { s.core with toolStarts := toolsAfter env record s } := by
  simp only [countedTypes, mem_cons, not_mem_nil, or_false, not_or] at h
  obtain ⟨h₁, h₂, h₃, h₄, h₅, h₆, h₇, h₈, h₉⟩ := h
  simp [htype, isStr, Json.asString, h₁, h₂, h₃, h₆, h₈, beq_false_of_ne h₄,
    beq_false_of_ne h₅, beq_false_of_ne h₇, beq_false_of_ne h₉]

/-- The core after `s` and after a state with the same core and buffers agree. -/
theorem coreAfter_congr {t : State} (hcore : t.core = s.core) (hbuffers : t.buffers = s.buffers)
    (record : JsonObject) (rawLine : Nat) :
    coreAfter env record rawLine t = coreAfter env record rawLine s := by
  have husage := congrArg Core.usage hcore
  have hfinal := congrArg Core.assistantFinalLine hcore
  have hend := congrArg Core.agentEndSuccessLine hcore
  have hsettled := congrArg Core.agentSettledLine hcore
  have hterminal := congrArg Core.terminal hcore
  have htools := congrArg Core.toolStarts hcore
  have haborted := congrArg Core.aborted hcore
  have hpending : t.pending = s.pending := congrArg Buffers.pending hbuffers
  simp only [State.core] at husage hfinal hend hsettled hterminal htools haborted
  simp only [coreAfter, toolsAfter, filledRecord, hcore, hbuffers, husage, hfinal, hend, hsettled,
    hterminal, htools, haborted, hpending]

theorem RecordStep.after_quiet {t : State} (h : RecordStep env record rawLine t s')
    (hquiet : Quiet s t) (hbuffers : t.buffers = s.buffers) : RecordStep env record rawLine s s' := by
  have hcore : coreAfter env record rawLine t = coreAfter env record rawLine s :=
    coreAfter_congr hquiet.core hbuffers record rawLine
  cases h with
  | quiet hleaves hnames =>
    rw [hcore] at hleaves
    exact .quiet (hquiet.trans hleaves) hnames
  | block hleaves hnames hblock =>
    rw [hcore] at hleaves
    exact .block (hquiet.trans hleaves) hnames hblock
  | delegation hleaves hnames htype hid htool h =>
    have hfilled : filledRecord env record t = filledRecord env record s := by
      have hpending := congrArg Buffers.pending hbuffers
      simp only [State.buffers] at hpending
      rw [filledRecord, filledRecord, hpending]
    rw [hcore] at hleaves
    rw [hfilled] at htool h
    exact .delegation (hquiet.trans hleaves) hnames htype hid htool h

theorem names_of_leaves (hnames : NamesPlain s.toolStarts)
    (htools : toolsAfter env record s = s.toolStarts)
    (h : Leaves s s' (coreAfter env record rawLine s)) : NamesPlain s'.toolStarts := by
  have hsame : s'.toolStarts = s.toolStarts := (congrArg Core.toolStarts h.core).trans htools
  exact hsame ▸ hnames

theorem RecordStep.of_leaves (hnames : NamesPlain s.toolStarts)
    (htools : toolsAfter env record s = s.toolStarts)
    (h : Leaves s s' (coreAfter env record rawLine s)) : RecordStep env record rawLine s s' :=
  .quiet h (names_of_leaves hnames htools h)

theorem cases_handleMessageUpdate (htype : record.get "type" = .str "message_update")
    (hnames : NamesPlain s.toolStarts) (h : handleMessageUpdate env record rawLine s = some s') :
    RecordStep env record rawLine s s' := by
  have hset := leaves_setUsage record rawLine s
  have hparts : (setUsage record rawLine s).textParts = s.textParts :=
    congrArg Buffers.textParts (buffers_setUsage record rawLine s)
  have hfinal : (setUsage record rawLine s).assistantFinalLine = s.assistantFinalLine :=
    congrArg Core.assistantFinalLine hset.core
  have htools : toolsAfter env record s = s.toolStarts := toolsAfter_of_type htype (by decide) s
  have hcore : coreAfter env record rawLine s =
      { (setUsage record rawLine s).core with
        assistantFinalLine := if endsText (messageEvent record) s.textParts then some rawLine
          else s.assistantFinalLine } := by
    rw [hset.core]
    simp [htype, htools, isStr, Json.asString, State.buffers]
  rcases handleMessageEvent_cases h with hleaves | ⟨hends, hblock⟩
  · rw [hparts, hfinal, ← hcore] at hleaves
    exact .of_leaves hnames htools (hset.trans hleaves)
  · rw [hparts] at hends
    have hleaves : Leaves s (setUsage record rawLine s) (coreAfter env record rawLine s) := by
      refine ⟨hset.events, ?_⟩
      rw [hcore, hends]
      simp [hfinal]
    exact .block hleaves (names_of_leaves hnames htools hleaves) hblock

theorem cases_handleMessageEnd (env : Env) (htype : record.get "type" = .str "message_end")
    (hnames : NamesPlain s.toolStarts) :
    RecordStep env record rawLine s (handleMessageEnd env record rawLine s) := by
  have hset := leaves_setUsage (endedMessage record) rawLine s
  have hbuffers := buffers_setUsage (endedMessage record) rawLine s
  have hreported := congrArg Buffers.messageCompletedEmitted hbuffers
  have hfinal := congrArg Core.assistantFinalLine hset.core
  have haborted := congrArg Core.aborted hset.core
  simp only [State.core, State.buffers] at hreported hfinal haborted
  have htools : toolsAfter env record s = s.toolStarts := toolsAfter_of_type htype (by decide) s
  have hcore : coreAfter env record rawLine s =
      { (setUsage (endedMessage record) rawLine s).core with
        assistantFinalLine :=
          if stopsWithText (endedMessage record) s.messageCompletedEmitted then some rawLine
          else s.assistantFinalLine
        failed := s.core.failed || messageFails (endedMessage record)
        aborted := s.aborted || (!isMessageError (endedMessage record) &&
          ((endedMessage record).get "stopReason").isStr "aborted") } := by
    rw [hset.core]
    simp [-messageFails, htype, htools, isStr, Json.asString, State.buffers]
  unfold handleMessageEnd
  rcases closeMessage_cases env (endedMessage record) rawLine
    (setUsage (endedMessage record) rawLine s) with
    ⟨hfails, hleaves⟩ | ⟨hfails, hstops, t, hleaves, hblock⟩
  · have hnone : isMessageError (endedMessage record) = false ∧
        ((endedMessage record).get "stopReason").isStr "aborted" = false := by
      simpa only [messageFails, Bool.or_eq_false_iff] using hfails
    refine .of_leaves hnames htools (hset.trans ⟨hleaves.events, ?_⟩)
    rw [hleaves.core, hcore, hfails, hnone.2, hreported, hfinal, hset.core]
    simp
  · rw [hreported] at hstops
    have habort : (!isMessageError (endedMessage record) &&
        ((endedMessage record).get "stopReason").isStr "aborted") =
        !isMessageError (endedMessage record) := by
      simp only [messageFails, Bool.or_eq_true] at hfails
      rcases hfails with herror | hstop
      · simp only [herror, Bool.not_true, Bool.false_and]
      · rw [hstop, Bool.and_true]
    have hended : Leaves s t (coreAfter env record rawLine s) := by
      refine hset.trans ⟨hleaves.events, ?_⟩
      rw [hleaves.core, hcore, hstops, hfails, habort, haborted]
      simp [hfinal]
    exact .block hended (names_of_leaves hnames htools hended) hblock

theorem cases_handleTool (htype : toolTypes.any (record.get "type").isStr)
    (hcore : coreAfter env record rawLine s =
      { s.core with toolStarts := toolsAfter env record s })
    (hnames : NamesPlain s.toolStarts) (h : handleTool env record rawLine s = some s') :
    RecordStep env record rawLine s s' := by
  unfold handleTool at h
  dsimp only at h
  have hsame : genericCall env record s.pending = none → toolsAfter env record s = s.toolStarts := by
    intro hnone
    simp [toolsAfter, hnone]
  have hfilled : filledRecord env record { pending := s.pending } = filledRecord env record s := rfl
  have hpending : ∀ pending, Quiet s { s with pending } := fun _ => .silent rfl rfl
  split_ifs at h with hid htool
  · cases h
    have htools := hsame (by simp [genericCall, hid])
    refine .of_leaves hnames htools ?_
    rw [hcore, htools]
    exact .emit s _ _ (by decide)
  · have htools := hsame (by simp [genericCall, hfilled, htool])
    refine .delegation ?_ ?_ htype hid htool h
    · rw [hcore, htools]
      exact hpending _
    · exact hnames
  · cases h
    have hconsumed := hpending (consumePending record (toolCallIdOf env record) s.pending).2
    have hgeneric := changesTools_handleGenericTool (s := { s with
        pending := (consumePending record (toolCallIdOf env record) s.pending).2 })
      (Bool.not_eq_true _ ▸ htool) hnames (toolCallIdOf env record) rawLine
    have hcall : genericCall env record s.pending = some (toolCallIdOf env record) := by
      rw [genericCall, if_pos (by simp [htype, hid, hfilled, htool])]
    refine .quiet ?_ hgeneric.names
    refine hconsumed.trans ⟨hgeneric.leaves.events, ?_⟩
    rw [hgeneric.leaves.core, hcore, toolsAfter, hcall, toolStarts_handleGenericTool]
    rfl

/-- What one record does, for every type. -/
theorem translate_cases (hnames : NamesPlain s.toolStarts)
    (h : translate env record rawLine s = some s') : RecordStep env record rawLine s s' := by
  have hbegin := quiet_beginRecord record rawLine s
  have hbuffers := buffers_beginRecord record rawLine s
  have htools : (beginRecord record rawLine s).toolStarts = s.toolStarts :=
    congrArg Core.toolStarts hbegin.core
  refine RecordStep.after_quiet ?_ hbegin hbuffers
  rw [← htools] at hnames
  unfold translate at h
  generalize beginRecord record rawLine s = t at h hnames
  clear hbegin hbuffers htools
  dsimp only at h
  have hplain : ∀ {type : String} {u : State}, record.get "type" = .str type →
      type ∉ toolTypes ++ countedTypes → Quiet t u → RecordStep env record rawLine t u := by
    intro type u htype hother hquiet
    rw [mem_append, not_or] at hother
    have htools : toolsAfter env record t = t.toolStarts := toolsAfter_of_type htype hother.1 t
    refine .of_leaves hnames htools ?_
    rw [coreAfter_of_type htype hother.2, htools]
    exact hquiet
  -- a type with a handler of its own that changes the core
  have hcounted : ∀ {type : String} {u : State} {c : Core}, record.get "type" = .str type →
      type ∉ toolTypes → Leaves t u c →
      (toolsAfter env record t = t.toolStarts → c = coreAfter env record rawLine t) →
      RecordStep env record rawLine t u := by
    intro type u c htype hother hleaves hcore
    have htools : toolsAfter env record t = t.toolStarts := toolsAfter_of_type htype hother t
    exact .of_leaves hnames htools ⟨hleaves.events, hleaves.core.trans (hcore htools)⟩
  obtain ⟨hresponse, h⟩ | ⟨hresponse, h⟩ := ite_eq_iff.mp h
  · have htype := isStr_iff.mp hresponse
    refine hcounted htype (by decide) (leaves_handleResponse h) fun htools => ?_
    simp [htype, htools, isStr, Json.asString]
  obtain ⟨hsilent, h⟩ | ⟨_, h⟩ := ite_eq_iff.mp h
  · obtain rfl := some.inj h
    obtain ⟨type, hmem, htype⟩ := List.any_eq_true.mp hsilent
    refine hplain (isStr_iff.mp htype) ?_ (.refl t)
    clear htype
    revert type
    decide
  obtain ⟨hturn, h⟩ | ⟨_, h⟩ := ite_eq_iff.mp h
  · cases h
    exact hplain (isStr_iff.mp hturn) (by decide) (.silent rfl rfl)
  obtain ⟨hupdate, h⟩ | ⟨hupdate, h⟩ := ite_eq_iff.mp h
  · exact cases_handleMessageUpdate (isStr_iff.mp hupdate) hnames h
  obtain ⟨hend, h⟩ | ⟨hend, h⟩ := ite_eq_iff.mp h
  · cases h
    exact cases_handleMessageEnd env (isStr_iff.mp hend) hnames
  obtain ⟨hqueue, h⟩ | ⟨_, h⟩ := ite_eq_iff.mp h
  · cases h
    exact hplain (isStr_iff.mp hqueue) (by decide) (quiet_handleQueueUpdate record rawLine t)
  obtain ⟨htool, h⟩ | ⟨htool, h⟩ := ite_eq_iff.mp h
  · obtain ⟨type, hmem, htype⟩ := List.any_eq_true.mp htool
    refine cases_handleTool htool (coreAfter_of_type (isStr_iff.mp htype) ?_ rawLine t) hnames h
    clear htype
    revert type
    decide
  obtain ⟨hagent, h⟩ | ⟨hagent, h⟩ := ite_eq_iff.mp h
  · cases h
    have htype := isStr_iff.mp hagent
    refine hcounted htype (by decide) (leaves_handleAgentEnd env record rawLine t) fun htools => ?_
    simp [htype, htools, isStr, Json.asString, State.buffers]
  obtain ⟨hsettled, h⟩ | ⟨hsettled, h⟩ := ite_eq_iff.mp h
  · cases h
    have htype := isStr_iff.mp hsettled
    refine hcounted htype (by decide) (leaves_handleAgentSettled rawLine t) fun htools => ?_
    simp [htype, htools, isStr, Json.asString]
  obtain ⟨hhash, h⟩ := ite_none_right_eq_some.mp h
  cases h
  have htools : toolsAfter env record t = t.toolStarts := by simp [toolsAfter, genericCall, htool]
  have hleaves := leaves_handleOther env record rawLine t hresponse hend
  refine .of_leaves hnames htools ⟨hleaves.events, hleaves.core.trans ?_⟩
  simp [-startsRetry, -reportsFailure, htools, hupdate, hend, hagent, hsettled]

end Codify.Harness.PiEvents

import Codify.Framework.Brackets
import Codify.Harness.PiEvents

/-! # What the Pi Handlers Leave Alone

    Most handlers only add diagnostics, messages and rows of generic tools. Such
    a step is `Quiet`: its events open and close nothing, and the `Core` of the
    state, from which the turn, the delegations and the usage are decided, stays
    as it was. A handler that changes one field of the core is quiet up to it.
-/

namespace Codify.Harness.PiEvents

open Codify.Framework Codify.Harness List Option

/-! ### Events That Open or Close -/

namespace Event

/-- `payload["tool_id"]`. -/
def toolId (e : Event) : Option String := (e.payload.get "tool_id").asString

/-- `payload["reasoning_id"]`. -/
def reasoningId (e : Event) : Option String := (e.payload.get "reasoning_id").asString

/-- `payload["subagent"]`. -/
def subagent (e : Event) : Option JsonObject := (e.payload.get "subagent").asObject

/-- A `tool.completed` named `Subagent`. -/
def endsDelegation (e : Event) : Bool :=
  e.type == "tool.completed" && (e.payload.get "name").isStr "Subagent"

end Event

def reasoningBlocks : Brackets Event String where
  opens e := if e.type = "reasoning_summary.started" then e.reasoningId else none
  closes e :=
    if e.type = "reasoning_summary.completed" ∨ e.type = "reasoning_summary.interrupted" then
      e.reasoningId
    else none

def delegationRows : Brackets Event String where
  opens e := if e.type = "tool.started" ∧ e.subagent.isSome then e.toolId else none
  closes e :=
    if e.type = "tool.completed" ∧ e.subagent.any (fun sub => (sub.get "status").truthy) then
      e.toolId
    else none

/-- The types of the events that may open, close or end something. -/
def markedTypes : List String :=
  ["reasoning_summary.started", "reasoning_summary.completed", "reasoning_summary.interrupted",
   "tool.started", "tool.completed", "harness.completed", "harness.failed", "usage.final"]

/-- An event that opens, closes and ends nothing. -/
structure Event.Plain (e : Event) : Prop where
  opensBlock : reasoningBlocks.opens e = none
  closesBlock : reasoningBlocks.closes e = none
  opensRow : delegationRows.opens e = none
  closesRow : delegationRows.closes e = none
  noEnd : e.endsDelegation = false
  noTerminal : isHarnessTerminal e.type = false
  noTotal : e.type ≠ "usage.final"

attribute [local simp] reasoningBlocks delegationRows

theorem plain_of_type {e : Event} (h : e.type ∉ markedTypes) : e.Plain := by
  simp only [markedTypes, mem_cons, not_mem_nil, or_false, not_or] at h
  obtain ⟨h₁, h₂, h₃, h₄, h₅, h₆, h₇, h₈⟩ := h
  constructor
  · simp [h₁]
  · simp [h₂, h₃]
  · simp [h₄]
  · simp [h₅]
  · simp [Event.endsDelegation, h₅]
  · simp [isHarnessTerminal, harnessTerminalTypes, h₆, h₇]
  · exact h₈

theorem plain_of_tool {e : Event} (htype : e.type = "tool.started" ∨ e.type = "tool.completed")
    (hsubagent : e.subagent = none) (hname : (e.payload.get "name").isStr "Subagent" = false) :
    e.Plain := by
  constructor
  · rcases htype with h | h <;> simp [h]
  · rcases htype with h | h <;> simp [h]
  · simp [hsubagent]
  · simp [hsubagent]
  · simp [Event.endsDelegation, hname]
  · rcases htype with h | h <;> rw [h] <;> decide
  · rcases htype with h | h <;> simp [h]

/-! ### Quiet Steps -/

/-- What the terminal, the delegation rows, the reasoning blocks and the usage are decided from. -/
structure Core where
  thinkingReasoningId : Option String
  delegations : OrderedDict String JsonObject
  childUsage : OrderedDict String (OrderedDict String Int)
  usage : JsonObject
  assistantFinalLine : Option Nat
  agentEndSuccessLine : Option Nat
  agentSettledLine : Option Nat
  lineNo : Nat
  terminal : Option Terminal
  toolStarts : OrderedDict String Lifecycle
  failed : Bool
  aborted : Bool

def State.core (s : State) : Core where
  thinkingReasoningId := s.thinkingReasoningId
  delegations := s.delegations
  childUsage := s.childUsage
  usage := s.usage
  assistantFinalLine := s.assistantFinalLine
  agentEndSuccessLine := s.agentEndSuccessLine
  agentSettledLine := s.agentSettledLine
  lineNo := s.lineNo
  terminal := s.terminal
  toolStarts := s.toolStarts
  failed := s.terminalFailure.isSome
  aborted := s.aborted

/-- The events of `s'` are those of `s` and some plain ones. -/
def AddsPlain (s s' : State) : Prop := ∃ new, s'.events = s.events ++ new ∧ ∀ e ∈ new, e.Plain

namespace AddsPlain

variable {s s' s'' : State}

theorem of_eq (h : s'.events = s.events) : AddsPlain s s' := ⟨[], by simp [h], by simp⟩

theorem trans (h : AddsPlain s s') (h' : AddsPlain s' s'') : AddsPlain s s'' := by
  obtain ⟨new, hnew, hplain⟩ := h
  obtain ⟨new', hnew', hplain'⟩ := h'
  refine ⟨new ++ new', by simp [hnew', hnew], ?_⟩
  intro e he
  rcases mem_append.mp he with he | he
  · exact hplain e he
  · exact hplain' e he

end AddsPlain

/-- The step adds plain events and leaves the core `c`. -/
structure Leaves (s s' : State) (c : Core) : Prop where
  events : AddsPlain s s'
  core : s'.core = c

/-- The step adds plain events and leaves the core as it was. -/
abbrev Quiet (s s' : State) : Prop := Leaves s s' s.core

namespace Leaves

variable {s s' s'' : State} {c c' : Core}

theorem silent (hevents : s'.events = s.events) (hcore : s'.core = c) : Leaves s s' c :=
  ⟨.of_eq hevents, hcore⟩

theorem refl (s : State) : Quiet s s := silent rfl rfl

theorem trans (h : Leaves s s' c) (h' : Leaves s' s'' c') : Leaves s s'' c' :=
  ⟨h.events.trans h'.events, h'.core⟩

theorem then_quiet (h : Leaves s s' c) (h' : Quiet s' s'') : Leaves s s'' c :=
  ⟨h.events.trans h'.events, h'.core.trans h.core⟩

theorem emit_plain (s : State) {type : String} {payload : JsonObject} {rawLine : Nat}
    (h : Event.Plain ⟨type, payload, rawLine⟩) : Quiet s (s.emit type payload rawLine) :=
  ⟨⟨_, rfl, by simpa using h⟩, rfl⟩

theorem emit (s : State) {type : String} (payload : JsonObject) (rawLine : Nat)
    (h : type ∉ markedTypes) : Quiet s (s.emit type payload rawLine) :=
  emit_plain s (plain_of_type h)

end Leaves

/-! ### Session, Usage and Messages -/

section Handlers

variable {env : Env} {record event : JsonObject} {rawLine : Nat} {s s' : State}

theorem leaves_fail (s : State) (failure : Failure) :
    Leaves s (s.fail failure) { s.core with failed := true } := .silent rfl rfl

theorem leaves_abort (s : State) (failure : Failure) :
    Leaves s (s.abort failure) { s.core with failed := true, aborted := true } := .silent rfl rfl

theorem quiet_emitModelResolved (s : State) (rawLine : Nat) :
    Quiet s (emitModelResolved s rawLine) := by
  unfold emitModelResolved
  split
  · exact .refl s
  · refine Leaves.trans (.silent (c := s.core) ?_ ?_) (Leaves.emit _ _ _ (by decide)) <;> rfl

theorem quiet_flush (s : State) : Quiet s (flushPendingModelResolved s) := by
  unfold flushPendingModelResolved
  split
  · split
    · exact .refl s
    · exact quiet_emitModelResolved s _
  · exact .refl s

theorem quiet_emitReopen (record : JsonObject) (rawLine : Nat) (s : State) :
    Quiet s (emitReopen record rawLine s) := by
  unfold emitReopen
  split
  · exact .emit s _ _ (by decide)
  · exact .refl s

theorem quiet_beginSession (record : JsonObject) (s : State) : Quiet s (beginSession record s) := by
  unfold beginSession
  split
  · exact .silent rfl rfl
  · split
    · exact .refl s
    · exact quiet_flush s

theorem quiet_beginRecord (record : JsonObject) (rawLine : Nat) (s : State) :
    Quiet s (beginRecord record rawLine s) := by
  have hline : Quiet s { s with lastRawLine := rawLine } := .silent rfl rfl
  exact (hline.then_quiet (quiet_beginSession record _)).then_quiet
    (quiet_emitReopen record rawLine _)

/-- What the root's usage is after a record. -/
def usageAfter (record : JsonObject) (usage : JsonObject) : JsonObject :=
  if (record.get "usage").asObject.isSome then usageOf record else usage

theorem leaves_setUsage (record : JsonObject) (rawLine : Nat) (s : State) :
    Leaves s (setUsage record rawLine s) { s.core with usage := usageAfter record s.usage } := by
  cases h : (record.get "usage").asObject with
  | none =>
    have hset : setUsage record rawLine s = s := by simp [setUsage, h]
    rw [hset]
    exact .silent rfl (by simp [usageAfter, h, State.core])
  | some fields =>
    have hset : Leaves s { s with usage := usageOf record }
        { s.core with usage := usageAfter record s.usage } := by
      refine .silent rfl ?_
      simp [usageAfter, h, State.core]
    simp only [setUsage, h]
    split
    · exact hset.then_quiet (.emit _ _ _ (by decide))
    · exact hset

theorem quiet_keepText (content : String) (s : State) : Quiet s (keepText content s) := by
  unfold keepText
  split
  · exact .refl s
  · exact .silent rfl rfl

theorem quiet_reportMessage (content : String) (rawLine : Nat) (s : State) :
    Quiet s (reportMessage content rawLine s) := by
  unfold reportMessage
  split
  · exact (Leaves.emit s _ rawLine (by decide)).then_quiet (.silent rfl rfl)
  · exact .refl s

theorem leaves_textEnd (h : textEnd event rawLine s = some s') :
    ∃ content, endText event s = some content ∧
      Leaves s s' { s.core with
        assistantFinalLine := if blank content then s.assistantFinalLine else some rawLine } := by
  obtain ⟨content, hcontent, rfl⟩ := map_eq_some_iff.mp h
  refine ⟨content, hcontent, ?_⟩
  have hquiet := (quiet_keepText content s).then_quiet (quiet_reportMessage content rawLine _)
  refine hquiet.trans ?_
  rw [← hquiet.core]
  have hline := congrArg Core.assistantFinalLine hquiet.core
  simp only [State.core] at hline
  rw [← hline]
  unfold markText
  split
  · exact .refl _
  · exact .silent rfl rfl

theorem quiet_handleNestedToolcall (h : handleNestedToolcall env event rawLine s = some s') :
    Quiet s s' := by
  have hcall : ∀ (t : State) (code : String), Quiet t (callDiagnostic code event rawLine t) :=
    fun t _ => .emit t _ _ (by decide)
  have hregister : ∀ pending, Quiet s { s with pending } := fun _ => .silent rfl rfl
  unfold handleNestedToolcall at h
  dsimp only at h
  split at h
  · obtain ⟨pending, -, rfl⟩ := map_eq_some_iff.mp h
    exact (hregister pending).then_quiet (hcall _ _)
  · split at h
    · cases h
      exact (hregister (s.pending.register env event).2).then_quiet (hcall _ _)
    · cases h
      refine (hregister (s.pending.register env event).2).then_quiet ?_
      generalize ({ s with pending := (s.pending.register env event).2 } : State) = t
      unfold toolcallEnd
      dsimp only
      split
      · exact .silent rfl rfl
      · split
        · exact .silent rfl rfl
        · have hrelease : Quiet t { t with pending := t.pending.release env event } :=
            .silent rfl rfl
          exact hrelease.then_quiet (hcall _ _)

theorem leaves_finishMessage (message : JsonObject) (rawLine : Nat) (s : State) :
    Leaves s (finishMessage message rawLine s) { s.core with
      assistantFinalLine :=
        if messageText message ≠ "" ∧ s.messageCompletedEmitted = false then some rawLine
        else s.assistantFinalLine } := by
  unfold finishMessage
  dsimp only
  split
  · refine ⟨(Leaves.emit s _ rawLine (by decide)).events.trans (.of_eq rfl), rfl⟩
  · exact .silent rfl rfl

/-! ### Responses, the Queue and the End of a Turn -/

theorem quiet_handleCommandAck (env : Env) (record : JsonObject) (rawLine : Nat) (s : State) :
    Quiet s (handleCommandAck env record rawLine s) := by
  unfold handleCommandAck
  dsimp only
  split
  · split
    · exact .emit s _ _ (by decide)
    · exact .emit s _ _ (by decide)
  · exact .emit s _ _ (by decide)

theorem quiet_handleGetState (record : JsonObject) (rawLine : Nat) (s : State) :
    Quiet s (handleGetState record rawLine s) := by
  have hread : Quiet s (readState record s) := .silent rfl rfl
  refine hread.then_quiet ?_
  unfold handleGetState
  generalize readState record s = t
  dsimp only
  split
  · exact .emit t _ _ (by decide)
  · split
    · exact quiet_emitModelResolved t rawLine
    · exact .silent rfl rfl

/-- The response rejects the initial prompt. -/
def rejectsPrompt (record : JsonObject) : Bool :=
  (record.get "command").isStr "prompt" && !(record.get "success").truthy

theorem leaves_handleResponse (h : handleResponse env record rawLine s = some s') :
    Leaves s s' { s.core with failed := s.core.failed || rejectsPrompt record } := by
  have hquiet : rejectsPrompt record = false → Quiet s s' →
      Leaves s s' { s.core with failed := s.core.failed || rejectsPrompt record } := by
    intro hno hquiet
    rw [hno, Bool.or_false]
    exact hquiet
  have hother : ∀ {type : String}, (record.get "command").isStr type → type ≠ "prompt" →
      rejectsPrompt record = false := by
    intro type htype hne
    by_contra hrejects
    simp only [rejectsPrompt, Bool.not_eq_false, Bool.and_eq_true] at hrejects
    exact hne (Json.isStr_unique htype hrejects.1)
  unfold handleResponse at h
  dsimp only at h
  split_ifs at h with hnew hstate hhash hack habort hprompt hsuccess <;> obtain rfl := some.inj h
  · exact hquiet (hother (Bool.and_eq_true_iff.mp hnew).1 (by decide)) (.silent rfl rfl)
  · exact hquiet (hother (Bool.and_eq_true_iff.mp hstate).1 (by decide))
      (quiet_handleGetState record rawLine s)
  · refine hquiet ?_ (quiet_handleCommandAck env record rawLine s)
    rcases Bool.or_eq_true_iff.mp hack with hack | hack
    · exact hother hack (by decide)
    · exact hother hack (by decide)
  · exact hquiet (hother habort (by decide)) (.emit s _ _ (by decide))
  · have hrejects : rejectsPrompt record = true := hprompt
    rw [hrejects, Bool.or_true]
    exact leaves_fail s _
  · exact hquiet (Bool.not_eq_true _ ▸ hprompt) (.refl s)
  · exact hquiet (Bool.not_eq_true _ ▸ hprompt) (.emit s _ _ (by decide))

theorem quiet_handleQueueUpdate (record : JsonObject) (rawLine : Nat) (s : State) :
    Quiet s (handleQueueUpdate record rawLine s) :=
  .emit s _ _ (by decide)

theorem leaves_handleRetryStart (env : Env) (record : JsonObject) (rawLine : Nat)
    (source : Option String) (s : State) :
    Leaves s (handleRetryStart env record rawLine source s) { s.core with failed := false } := by
  have hfailure : Leaves s { s with terminalFailure := none } { s.core with failed := false } :=
    .silent rfl rfl
  exact hfailure.then_quiet (.emit _ _ _ (by decide))

theorem leaves_handleRetryEnd (env : Env) (record : JsonObject) (rawLine : Nat) (s : State) :
    Leaves s (handleRetryEnd env record rawLine s)
      { s.core with failed := s.core.failed || !(record.get "success").truthy } := by
  unfold handleRetryEnd
  dsimp only
  cases (record.get "success").truthy with
  | true =>
    rw [Bool.not_true, Bool.or_false]
    exact .emit s _ _ (by decide)
  | false =>
    rw [Bool.not_false, Bool.or_true]
    exact (leaves_fail s _).then_quiet (.emit _ _ _ (by decide))

/-- What the root's usage is after the end of a compaction. -/
def compactionUsage (record : JsonObject) (usage : JsonObject) : JsonObject :=
  if (record.get "type").isStr "compaction_start" then usage
  else usageAfter (dictOr (record.get "result")) usage

/-- The end of a compaction reports a failure. -/
def compactionFails (record : JsonObject) : Bool :=
  (record.get "errorMessage").truthy && !(record.get "aborted").truthy &&
    !(record.get "willRetry").truthy

theorem leaves_handleCompaction (env : Env) (record : JsonObject) (rawLine : Nat) (s : State) :
    Leaves s (handleCompaction env record rawLine s)
      { s.core with
        usage := compactionUsage record s.usage
        failed := s.core.failed ||
          !(record.get "type").isStr "compaction_start" && compactionFails record } := by
  unfold handleCompaction compactionUsage
  split
  · next hstart =>
    rw [hstart, Bool.not_true, Bool.false_and, Bool.or_false]
    exact .emit s _ _ (by decide)
  · next hend =>
    rw [Bool.not_eq_true] at hend
    have husage := leaves_setUsage (dictOr (record.get "result")) rawLine s
    rw [hend, Bool.not_false, Bool.true_and]
    generalize setUsage (dictOr (record.get "result")) rawLine s = t at husage
    have hemit : Quiet t (t.emit "context.compacted" (compactionPayload record t) rawLine) :=
      .emit t _ _ (by decide)
    have hcompacted := husage.then_quiet hemit
    dsimp only
    split
    · next hfails =>
      have hfails : compactionFails record = true := hfails
      rw [hfails, Bool.or_true]
      refine ⟨hcompacted.events.trans (leaves_fail _ _).events, ?_⟩
      rw [(leaves_fail _ _).core, hcompacted.core]
    · next hfails =>
      have hfails : compactionFails record = false := Bool.not_eq_true _ ▸ hfails
      rw [hfails, Bool.or_false]
      exact hcompacted

theorem leaves_handleAgentEnd (env : Env) (record : JsonObject) (rawLine : Nat) (s : State) :
    Leaves s (handleAgentEnd env record rawLine s)
      { s.core with
        agentEndSuccessLine :=
          if !s.aborted && isSuccessfulAgentEnd record && s.terminal.isNone then some rawLine
          else s.agentEndSuccessLine
        failed := s.core.failed ||
          ((agentEndError record).truthy && !s.aborted && s.terminal.isNone) } := by
  by_cases hsuccess : !s.aborted && isSuccessfulAgentEnd record && s.terminal.isNone
  · simp only [Bool.and_eq_true, Bool.not_eq_true'] at hsuccess
    obtain ⟨⟨haborted, hend⟩, hterminal⟩ := hsuccess
    have hleft : handleAgentEnd env record rawLine s = { s with agentEndSuccessLine := some rawLine } := by
      simp [handleAgentEnd, isNone_iff_eq_none.mp hterminal, haborted, hend]
    have herror : (agentEndError record).truthy = false := by
      simp only [isSuccessfulAgentEnd, Bool.and_eq_true, Bool.not_eq_true'] at hend
      exact hend.2
    rw [hleft, if_pos (by simp [haborted, hend, hterminal]), herror, Bool.false_and, Bool.false_and,
      Bool.or_false]
    exact .silent rfl rfl
  · rw [if_neg hsuccess]
    have hsilent : ((agentEndError record).truthy && !s.aborted && s.terminal.isNone) = false →
        Leaves s s { s.core with failed := s.core.failed ||
          ((agentEndError record).truthy && !s.aborted && s.terminal.isNone) } := by
      intro hno
      rw [hno, Bool.or_false]
      exact .refl s
    unfold handleAgentEnd
    split_ifs with hterminal haborted hend herror
    · exact hsilent (by simp [isNone_eq_false_iff.mpr hterminal])
    · exact hsilent (by simp [haborted])
    · refine absurd ?_ hsuccess
      simpa [haborted, hend] using hterminal
    · have hfails : ((agentEndError record).truthy && !s.aborted && s.terminal.isNone) = true := by
        simpa [herror, haborted] using hterminal
      rw [hfails, Bool.or_true]
      exact leaves_fail s _
    · exact hsilent (by simp [herror])

theorem leaves_handleAgentSettled (rawLine : Nat) (s : State) :
    Leaves s (handleAgentSettled rawLine s) { s.core with agentSettledLine := some rawLine } :=
  ⟨(Leaves.emit s _ rawLine (by decide)).events.trans (.of_eq rfl), rfl⟩

/-- The record starts a retry, which is the end of the failure before it. -/
def startsRetry (record : JsonObject) : Bool :=
  ["auto_retry_start", "summarization_retry_scheduled"].any (record.get "type").isStr

/-- The message ends with an error or an abort. -/
def messageFails (message : JsonObject) : Bool :=
  isMessageError message || (message.get "stopReason").isStr "aborted"

/-- The record reports a failure, whatever came before it. -/
def reportsFailure (record : JsonObject) : Bool :=
  let type := record.get "type"
  if type.isStr "response" then rejectsPrompt record
  else if type.isStr "message_end" then messageFails (endedMessage record)
  else if type.isStr "auto_retry_end" then !(record.get "success").truthy
  else type.isStr "compaction_end" && compactionFails record

attribute [local simp] startsRetry reportsFailure Json.isStr Json.asString

theorem leaves_handleOther (env : Env) (record : JsonObject) (rawLine : Nat) (s : State)
    (hresponse : ¬ (record.get "type").isStr "response")
    (hmessage : ¬ (record.get "type").isStr "message_end") :
    Leaves s (handleOther env record rawLine s)
      { s.core with
        usage := if (record.get "type").isStr "compaction_end" then
          usageAfter (dictOr (record.get "result")) s.usage else s.usage
        failed := !startsRetry record && (s.core.failed || reportsFailure record) } := by
  by_cases hstart : (record.get "type").isStr "compaction_start"
  · have htype := Json.isStr_iff.mp hstart
    have h := leaves_handleCompaction env record rawLine s
    simpa [compactionUsage, handleOther, htype] using h
  by_cases hend : (record.get "type").isStr "compaction_end"
  · have htype := Json.isStr_iff.mp hend
    have h := leaves_handleCompaction env record rawLine s
    simpa [compactionUsage, handleOther, htype] using h
  by_cases hretry : (record.get "type").isStr "auto_retry_start"
  · have htype := Json.isStr_iff.mp hretry
    have h := leaves_handleRetryStart env record rawLine none s
    simpa [handleOther, htype, State.core] using h
  by_cases hdone : (record.get "type").isStr "auto_retry_end"
  · have htype := Json.isStr_iff.mp hdone
    have h := leaves_handleRetryEnd env record rawLine s
    simpa [handleOther, htype, State.core] using h
  by_cases hsummary : (record.get "type").isStr "summarization_retry_scheduled"
  · have htype := Json.isStr_iff.mp hsummary
    have h := leaves_handleRetryStart env record rawLine (some "summarization") s
    simpa [handleOther, htype, State.core] using h
  -- the other types report nothing
  have hquiet : Quiet s (handleOther env record rawLine s) := by
    unfold handleOther
    simp only [hstart, hend, hretry, hdone, hsummary, Bool.or_self, Bool.false_eq_true, if_false]
    split_ifs
    · exact .emit s _ _ (by decide)
    · exact .emit s _ _ (by decide)
    · exact .emit s _ _ (by decide)
    · exact .emit s _ _ (by decide)
    · exact .emit s _ _ (by decide)
  have hno : startsRetry record = false ∧ reportsFailure record = false := by
    simp only [startsRetry, reportsFailure, any_cons, any_nil, hresponse, hmessage, hend, hretry,
      hdone, hsummary]
    simp
  rw [hno.1, hno.2, if_neg hend, Bool.or_false, Bool.not_false, Bool.true_and]
  exact hquiet

/-! ### Generic Tools -/

theorem displayToolName_cases (name : String) :
    (∃ p ∈ toolNameAliases, displayToolName name = p.2) ∨ displayToolName name = "unknown" ∨
      displayToolName name = strip name := by
  unfold displayToolName
  dsimp only
  generalize hraw : (if strip name = "" then "unknown" else strip name) = raw
  cases halias : toolNameAliases.lookup (lower raw) with
  | some value => exact .inl ⟨_, OrderedDict.mem_of_lookup halias, rfl⟩
  | none =>
    right
    rw [getD_none, ← hraw]
    split
    · exact .inl rfl
    · exact .inr rfl

theorem strip_of_displayToolName {name : String} (h : displayToolName name = "Subagent") :
    strip name = "Subagent" := by
  have hvalues : ∀ p ∈ toolNameAliases, p.2 ≠ "Subagent" := by decide
  rcases displayToolName_cases name with ⟨p, hp, hname⟩ | hname | hname
  · exact absurd (hname.symm.trans h) (hvalues p hp)
  · exact absurd (hname.symm.trans h) (by decide)
  · exact hname.symm.trans h

theorem displayToolName_ne {name : String} (h : displayToolName name ≠ "Subagent") :
    displayToolName (displayToolName name) ≠ "Subagent" := by
  have hvalues : ∀ p ∈ toolNameAliases, strip p.2 ≠ "Subagent" := by decide
  intro hsubagent
  have hstrip := strip_of_displayToolName hsubagent
  rcases displayToolName_cases name with ⟨p, hp, hname⟩ | hname | hname
  · rw [hname] at hstrip
    exact hvalues p hp hstrip
  · rw [hname] at hstrip
    exact absurd hstrip (by decide)
  · rw [hname, strip_strip] at hstrip
    exact h (hname.trans hstrip)

theorem recordToolName_ne (h : isSubagentTool env record = false) :
    recordToolName env record ≠ "Subagent" := by
  intro hname
  have hstrip := strip_of_displayToolName hname
  unfold strOr at hstrip
  split at hstrip
  · next htruthy =>
    have hsubagent : isSubagentTool env record = true := by
      unfold isSubagentTool strOr
      rw [if_pos htruthy, hstrip]
      decide
    rw [h] at hsubagent
    cases hsubagent
  · exact absurd hstrip (by decide)

/-- `tool_starts` has one entry for each call, and none is named like a delegation. -/
structure NamesPlain (toolStarts : OrderedDict String Lifecycle) : Prop where
  unique : toolStarts.keys.Nodup
  names : ∀ callId l name, toolStarts.lookup callId = some l → l.name = some name →
    displayToolName name ≠ "Subagent"

theorem namesPlain_nil : NamesPlain [] := by
  refine ⟨nodup_nil, ?_⟩
  intro callId l name hlookup
  cases hlookup

theorem NamesPlain.set {toolStarts : OrderedDict String Lifecycle} (h : NamesPlain toolStarts)
    {callId : String} {l : Lifecycle}
    (hl : ∀ name, l.name = some name → displayToolName name ≠ "Subagent") :
    NamesPlain (toolStarts.set callId l) := by
  refine ⟨OrderedDict.nodup_keys_set h.unique callId l, ?_⟩
  intro callId' l' name hlookup hname
  rw [OrderedDict.lookup_set] at hlookup
  split at hlookup
  · cases hlookup
    exact hl name hname
  · exact h.names callId' l' name hlookup hname

theorem NamesPlain.lifecycle (h : NamesPlain s.toolStarts) (callId : String) :
    ∀ name, (s.lifecycle callId).name = some name → displayToolName name ≠ "Subagent" := by
  intro name hname
  unfold State.lifecycle at hname
  cases hlookup : s.toolStarts.lookup callId with
  | none =>
    rw [hlookup] at hname
    cases hname
  | some l =>
    rw [hlookup] at hname
    exact h.names callId l name hlookup hname

theorem toolCompletion_subagent (callId : String) (l : Lifecycle) :
    (toolCompletion env record callId l).get "subagent" = .null := by
  unfold toolCompletion
  dsimp only
  split <;> split <;> simp [JsonObject.get, JsonObject.lookup_set, lookup_cons]

theorem toolCompletion_name (callId : String) (l : Lifecycle) :
    (toolCompletion env record callId l).get "name" = .str (displayToolName
      (strOr env ((record.get "toolName").orElse (optStr l.name)) "unknown")) := by
  unfold toolCompletion
  dsimp only
  split <;> split <;> simp [JsonObject.get, JsonObject.lookup_set, lookup_cons]

theorem completionName_ne (h : isSubagentTool env record = false) {l : Lifecycle}
    (hl : ∀ name, l.name = some name → displayToolName name ≠ "Subagent") :
    displayToolName (strOr env ((record.get "toolName").orElse (optStr l.name)) "unknown")
      ≠ "Subagent" := by
  unfold Json.orElse
  split
  · exact recordToolName_ne h
  · cases hname : l.name with
    | none =>
      have hstr : strOr env (optStr none) "unknown" = "unknown" := rfl
      rw [hstr]
      decide
    | some name =>
      by_cases hempty : (optStr (some name)).truthy
      · have hstr : strOr env (optStr (some name)) "unknown" = name := by
          rw [strOr, if_pos hempty]
          rfl
        rw [hstr]
        exact hl name hname
      · have hstr : strOr env (optStr (some name)) "unknown" = "unknown" := by
          rw [strOr, if_neg hempty]
        rw [hstr]
        decide

/-- The step leaves the core alone up to the entries of generic tools. -/
structure ChangesTools (s s' : State) : Prop where
  leaves : Leaves s s' { s.core with toolStarts := s'.toolStarts }
  names : NamesPlain s'.toolStarts

theorem changesTools_setLifecycle (hnames : NamesPlain s.toolStarts) (callId : String)
    {l : Lifecycle} (hl : ∀ name, l.name = some name → displayToolName name ≠ "Subagent") :
    ChangesTools s (s.setLifecycle callId l) :=
  ⟨.silent rfl rfl, hnames.set hl⟩

theorem ChangesTools.trans {s'' : State} (h : ChangesTools s s') (h' : ChangesTools s' s'') :
    ChangesTools s s'' := by
  refine ⟨⟨h.leaves.events.trans h'.leaves.events, ?_⟩, h'.names⟩
  rw [h'.leaves.core, h.leaves.core]

theorem ChangesTools.of_quiet (h : Quiet s s') (htools : s'.toolStarts = s.toolStarts)
    (hnames : NamesPlain s.toolStarts) : ChangesTools s s' := by
  refine ⟨⟨h.events, ?_⟩, htools ▸ hnames⟩
  rw [h.core, htools]
  rfl

theorem changesTools_startTool (h : isSubagentTool env record = false)
    (hnames : NamesPlain s.toolStarts) (callId : String) (rawLine : Nat) :
    ChangesTools s (startTool env record callId rawLine s) := by
  unfold startTool
  dsimp only
  split
  · exact .of_quiet (.refl s) rfl hnames
  · have hstarted : ChangesTools s (s.emit "tool.started"
        [("tool_id", .str callId), ("name", .str (recordToolName env record)),
         ("input", redactHiddenReasoning (.obj (toolInput env record)))] rawLine) := by
      refine .of_quiet (.emit_plain s (plain_of_tool (.inl rfl) rfl ?_)) rfl hnames
      simpa [JsonObject.get, lookup_cons, Json.isStr, Json.asString] using recordToolName_ne h
    refine hstarted.trans (changesTools_setLifecycle hstarted.names callId ?_)
    intro name hname
    obtain rfl := some.inj hname
    exact displayToolName_ne (recordToolName_ne h)

theorem changesTools_endTool (h : isSubagentTool env record = false)
    (hnames : NamesPlain s.toolStarts) (callId : String) (rawLine : Nat) :
    ChangesTools s (endTool env record callId rawLine s) := by
  have hl := hnames.lifecycle callId
  have hmissing : ChangesTools s (reportMissingStart env record callId rawLine s) := by
    unfold reportMissingStart
    split
    · exact .of_quiet (.refl s) rfl hnames
    · exact .of_quiet (.emit s _ _ (by decide)) rfl hnames
  unfold endTool
  dsimp only
  split
  · exact .of_quiet (.refl s) rfl hnames
  · have hcompleted : ChangesTools (reportMissingStart env record callId rawLine s)
        ((reportMissingStart env record callId rawLine s).emit "tool.completed"
          (toolCompletion env record callId (s.lifecycle callId)) rawLine) := by
      refine .of_quiet (.emit_plain _ (plain_of_tool (.inr rfl) ?_ ?_)) rfl hmissing.names
      · simp [Event.subagent, toolCompletion_subagent, Json.asObject]
      · simpa [toolCompletion_name, Json.isStr, Json.asString] using completionName_ne h hl
    have hstep := hmissing.trans hcompleted
    exact hstep.trans (changesTools_setLifecycle hstep.names callId hl)

/-- A record of a tool that is no delegation changes nothing but the entry of its call. -/
theorem changesTools_handleGenericTool (h : isSubagentTool env record = false)
    (hnames : NamesPlain s.toolStarts) (callId : String) (rawLine : Nat) :
    ChangesTools s (handleGenericTool env record callId rawLine s) := by
  have hentry := changesTools_setLifecycle hnames callId (hnames.lifecycle callId)
  unfold handleGenericTool
  dsimp only
  split_ifs
  · exact hentry.trans (changesTools_startTool h hentry.names callId rawLine)
  · exact hentry.trans (changesTools_endTool h hentry.names callId rawLine)
  · exact hentry

/-- `tool_starts` after a record of a generic tool. -/
def genericTools (env : Env) (record : JsonObject) (callId : String)
    (toolStarts : OrderedDict String Lifecycle) : OrderedDict String Lifecycle :=
  let l := (toolStarts.lookup callId).getD {}
  let entered := toolStarts.set callId l
  if (record.get "type").isStr "tool_execution_start" then
    if l.started then entered
    else entered.set callId { l with started := true, name := some (recordToolName env record) }
  else if (record.get "type").isStr "tool_execution_end" then
    if l.completed then entered else entered.set callId { l with completed := true }
  else entered

theorem toolStarts_handleGenericTool (env : Env) (record : JsonObject) (callId : String)
    (rawLine : Nat) (s : State) :
    (handleGenericTool env record callId rawLine s).toolStarts =
      genericTools env record callId s.toolStarts := by
  have hentry : (s.setLifecycle callId (s.lifecycle callId)).lifecycle callId =
      (s.toolStarts.lookup callId).getD {} := by
    simp [State.lifecycle, State.setLifecycle]
  have hmissing : ∀ t : State, (reportMissingStart env record callId rawLine t).toolStarts =
      t.toolStarts := by
    intro t
    unfold reportMissingStart
    split <;> rfl
  unfold handleGenericTool startTool endTool genericTools
  dsimp only
  rw [hentry]
  split_ifs
  · rfl
  · rfl
  · rfl
  · rw [State.setLifecycle, State.emit, hmissing]
    rfl
  · rfl

/-- A call is in the table from its first record on, and completed once it has ended. -/
theorem completed_genericTools (env : Env) (record : JsonObject) (callId c : String)
    (toolStarts : OrderedDict String Lifecycle) :
    ((genericTools env record callId toolStarts).lookup c).map (·.completed) =
      if c = callId then
        some ((toolStarts.lookup c).any (·.completed) ||
          (record.get "type").isStr "tool_execution_end")
      else (toolStarts.lookup c).map (·.completed) := by
  have hown : ∀ (tools : OrderedDict String Lifecycle) (l : Lifecycle),
      ((tools.set callId l).lookup callId).map (·.completed) = some l.completed := by simp
  have hentry : ((toolStarts.lookup callId).getD {}).completed =
      (toolStarts.lookup callId).any (·.completed) := by
    cases toolStarts.lookup callId <;> rfl
  unfold genericTools
  dsimp only
  by_cases hc : c = callId
  · subst hc
    rw [if_pos rfl, ← hentry]
    by_cases hstart : (record.get "type").isStr "tool_execution_start"
    · have hend : (record.get "type").isStr "tool_execution_end" = false := by
        simp [Json.isStr_iff.mp hstart]
      rw [if_pos hstart, hend, Bool.or_false]
      split_ifs
      · exact hown _ _
      · exact hown _ _
    · rw [if_neg hstart]
      split_ifs with hend hcompleted
      · rw [hown, hcompleted, Bool.true_or]
      · rw [hown, hend, Bool.or_true]
      · rw [hown, Bool.eq_false_iff.mpr hend, Bool.or_false]
  · rw [if_neg hc]
    split_ifs <;> simp [hc]

theorem quiet_reportLine (line : Line) (s : State) : Quiet s (reportLine line s) := by
  unfold reportLine
  dsimp only
  split
  · exact .emit _ _ _ (by decide)
  · exact .emit _ _ _ (by decide)
  · exact .emit _ _ _ (by decide)

end Handlers

end Codify.Harness.PiEvents

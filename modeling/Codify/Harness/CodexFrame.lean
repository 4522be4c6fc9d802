import Codify.Framework.Runs
import Codify.Harness.CodexBalance

/-! # What Codex Records Leave Alone

    The ids of the root, the usage tables and the outcome of the run are written by
    few branches of the translator: the ids by the announcements of a thread, the
    tables by the token usage, and the outcome by the end of a turn.

    * **Core**: these fields of the state (`State.core`).
    * **Result**: `core_translateRecord`, a record that ends no turn changes at
      most a missing id.
-/

namespace Codify.Harness.CodexEvents

open Codify.Framework Codify.Harness Option
open Codify.Harness.PiEvents (Event Failure Terminal asText dictOr)

variable {env : Env} {record item params : JsonObject} {rawLine : Nat} {line : Line}
  {lines : List Line} {s s' : State}

/-- The ids, the usage and the outcome of a run. -/
structure Core where
  threadId : String
  sessionId : String
  usage : Json
  childUsage : OrderedDict String (OrderedDict String Int)
  lineNo : Nat
  terminalType : Option Terminal
  terminalLine : Nat
  terminalFailure : Option Failure
  result : Option JsonObject

def State.core (s : State) : Core where
  threadId := s.threadId
  sessionId := s.sessionId
  usage := s.usage
  childUsage := s.childUsage
  lineNo := s.lineNo
  terminalType := s.terminalType
  terminalLine := s.terminalLine
  terminalFailure := s.terminalFailure
  result := s.result

@[simp] theorem core_emit (s : State) (type : String) (payload : JsonObject) (rawLine : Nat) :
    (s.emit type payload rawLine).core = s.core := rfl

theorem core_foldl {α : Type} {f : State → α → State} (h : ∀ s a, (f s a).core = s.core)
    (l : List α) (s : State) : (l.foldl f s).core = s.core := by
  induction l generalizing s with
  | nil => rfl
  | cons a rest ih => exact (ih _).trans (h s a)

/-! ### Agents and Blocks -/

@[simp] theorem core_registerChildThread (s : State) (threadId : String) :
    (s.registerChildThread threadId).core = s.core := by
  unfold State.registerChildThread
  split
  · rfl
  · rfl

@[simp] theorem core_enterThread (s : State) (threadId : Json) :
    (s.enterThread threadId).core = s.core := by
  unfold State.enterThread
  split
  · next child hchild => exact core_registerChildThread s child
  · rfl

@[simp] theorem core_setCurrentAgent (record : JsonObject) (s : State) :
    (setCurrentAgent record s).core = s.core := core_enterThread s _

@[simp] theorem core_handleCompacted (params : JsonObject) (rawLine : Nat) (s : State) :
    (handleCompacted params rawLine s).core = s.core := by
  have hreport : ∀ t : State, State.core { t.emit "context.compacted"
      [("evidence", .str "codex_app_server")] rawLine with currentAgent := s.currentAgent } =
        t.core := fun _ => rfl
  unfold handleCompacted
  rw [hreport, core_enterThread]

@[simp] theorem core_emitModelResolved (env : Env) (rawLine : Nat) (s : State) :
    (emitModelResolved env rawLine s).core = s.core := by
  unfold emitModelResolved
  split
  · rfl
  · rfl

@[simp] theorem core_closeOpenReasoning (reason : String) (rawLine : Nat) (s : State) :
    (closeOpenReasoning reason rawLine s).core = s.core := by
  rw [closeOpenReasoning_eq]
  rfl

theorem core_startReasoning (env : Env) (item : JsonObject) (rawLine : Nat) (s : State) :
    (startReasoning env item rawLine s).core = s.core := by
  unfold startReasoning
  dsimp only
  split
  · rfl
  · rfl

theorem core_completeReasoning (env : Env) (item : JsonObject) (rawLine : Nat) (s : State) :
    (completeReasoning env item rawLine s).core = s.core := by
  unfold completeReasoning
  dsimp only
  split
  · rfl
  · split
    · rfl
    · rfl

/-! ### Delegations -/

theorem core_closeDelegation (env : Env) (status : String) (message : Json) (rawLine : Nat)
    (s : State) (childId : String) :
    (closeDelegation env status message rawLine s childId).core = s.core := by
  unfold closeDelegation
  split
  · rfl
  · split
    · rfl
    · rfl

@[simp] theorem core_applyChildStates (env : Env) (states : Json) (rawLine : Nat) (s : State) :
    (applyChildStates env states rawLine s).core = s.core := by
  apply core_foldl
  intro t p
  unfold applyChildState
  split
  · rfl
  · split
    · rfl
    · exact core_closeDelegation env _ _ rawLine t p.1

theorem core_spawnReceiver (env : Env) (toolId : String) (startLine : Nat) (s : State)
    (receiver : Json) : (spawnReceiver env toolId startLine s receiver).core = s.core := by
  unfold spawnReceiver
  split
  · rfl
  · dsimp only
    split
    · exact core_registerChildThread s _
    · exact core_registerChildThread s _

theorem core_handleSpawn {toolId : String} (h : handleSpawn env item toolId rawLine s = some s') :
    s'.core = s.core := by
  unfold handleSpawn at h
  obtain ⟨items, -, rfl⟩ := map_eq_some_iff.mp h
  have hspawn := fun startLine t =>
    core_foldl (core_spawnReceiver env toolId startLine) items t
  dsimp only
  split
  · refine (hspawn _ _).trans ?_
    split
    · rfl
    · rfl
  · refine (hspawn _ _).trans ?_
    split
    · rfl
    · rfl

theorem core_handleCollabItem (h : handleCollabItem env item rawLine s = some s') :
    s'.core = s.core := by
  unfold handleCollabItem at h
  dsimp only at h
  split at h
  · cases h
    rfl
  · split at h
    · cases h
      rfl
    · obtain ⟨t, ht, rfl⟩ := map_eq_some_iff.mp h
      rw [core_applyChildStates]
      split at ht
      · exact core_handleSpawn ht
      · rw [← some.inj ht]

/-! ### Items -/

theorem core_startItem (h : startItem env item rawLine s = some s') : s'.core = s.core := by
  unfold startItem at h
  dsimp only at h
  split at h
  · cases h
    exact core_startReasoning env item rawLine s
  · split at h
    · cases h
      rfl
    · split at h
      · unfold startCollabItem at h
        split at h
        · rw [← some.inj h]
        · dsimp only at h
          split at h
          · exact (core_handleCollabItem h).trans rfl
          · rw [← some.inj h]
            rfl
      · rw [← some.inj h]

theorem core_completeItem (h : completeItem env item rawLine s = some s') : s'.core = s.core := by
  unfold completeItem at h
  dsimp only at h
  split at h
  · cases h
    exact core_completeReasoning env item rawLine s
  · split at h
    · cases h
      rfl
    · split at h
      · obtain ⟨text, -, rfl⟩ := map_eq_some_iff.mp h
        rw [core_emit]
        split
        · rfl
        · rfl
      · split at h
        · exact core_handleCollabItem h
        · split at h
          · cases h
            unfold completeError
            dsimp only
            split
            · rfl
            · rfl
          · rw [← some.inj h]

/-! ### Records -/

def Core.identified (c : Core) (threadId sessionId : String) : Core := { c with threadId, sessionId }

def FillsIdentity (s s' : State) : Prop :=
  s'.core = s.core ∨
    s.threadId = "" ∧ ∃ threadId, threadId ≠ "" ∧ s'.core = s.core.identified threadId threadId

theorem core_startThread (env : Env) (record : JsonObject) (rawLine : Nat) (s : State) :
    FillsIdentity s (startThread env record rawLine s) := by
  have hreport : ∀ t : State, (if t.modelResolved then
      t.emit "diagnostic" [("code", .str "session_resumed"),
        ("session_id", PiEvents.optStr (threadIdOf t record))] rawLine
      else emitModelResolved env rawLine t).core = t.core := by
    intro t
    split
    · rfl
    · exact core_emitModelResolved env rawLine t
  unfold startThread FillsIdentity
  dsimp only
  rw [hreport]
  split
  · next threadId htext =>
    split
    · next hmissing =>
      refine .inr ⟨hmissing, threadId, ?_, rfl⟩
      unfold PiEvents.asText at htext
      obtain ⟨-, hne⟩ := filter_eq_some_iff.mp htext
      simpa using hne
    · exact .inl rfl
  · exact .inl rfl

def endsTurn (record : JsonObject) : Bool :=
  (record.get "type").isStr "turn.completed" || (record.get "type").isStr "turn.failed"

theorem isStr_other {v : Json} {type other : String} (h : v.isStr type) (hne : other ≠ type) :
    v.isStr other = false := by
  cases hother : v.isStr other with
  | false => rfl
  | true => exact absurd (Json.isStr_unique hother h) hne

theorem translateRecord_completed (h : (record.get "type").isStr "turn.completed") :
    translateRecord env record rawLine s =
      completeTurn env record rawLine (setCurrentAgent record s) := by
  unfold translateRecord
  dsimp only
  simp only [isStr_other h (show "thread.started" ≠ _ by decide),
    isStr_other h (show "turn.started" ≠ _ by decide), isStr_other h (show "error" ≠ _ by decide),
    isStr_other h (show "turn.failed" ≠ _ by decide),
    isStr_other h (show "item.started" ≠ _ by decide),
    isStr_other h (show "item.completed" ≠ _ by decide), h, if_true, Bool.false_eq_true, if_false]

theorem translateRecord_failed (h : (record.get "type").isStr "turn.failed") :
    translateRecord env record rawLine s =
      failedTurn env record rawLine (setCurrentAgent record s) := by
  unfold translateRecord
  dsimp only
  simp only [isStr_other h (show "thread.started" ≠ _ by decide),
    isStr_other h (show "turn.started" ≠ _ by decide), isStr_other h (show "error" ≠ _ by decide),
    h, if_true, Bool.false_eq_true, if_false]

/-- **Frame**: a record that ends no turn. -/
theorem core_translateRecord (h : translateRecord env record rawLine s = some s')
    (hturn : endsTurn record = false) : FillsIdentity s s' := by
  unfold endsTurn at hturn
  rw [Bool.or_eq_false_iff] at hturn
  have hentered : (setCurrentAgent record s).core = s.core := core_setCurrentAgent record s
  have hthread : (setCurrentAgent record s).threadId = s.threadId := congrArg Core.threadId hentered
  have hkept : ∀ t : State, t.core = (setCurrentAgent record s).core → FillsIdentity s t :=
    fun t ht => .inl (ht.trans hentered)
  unfold translateRecord at h
  dsimp only at h
  split at h
  · cases h
    have hstart := core_startThread env record rawLine (setCurrentAgent record s)
    unfold FillsIdentity at hstart ⊢
    rwa [hentered, hthread] at hstart
  split at h
  · exact hkept s' (by rw [← some.inj h])
  split at h
  · exact hkept s' (by rw [← some.inj h]; rfl)
  split at h
  · next hfailed =>
    rw [hturn.2] at hfailed
    cases hfailed
  split at h
  · exact hkept s' (core_startItem h)
  split at h
  · exact hkept s' (core_completeItem h)
  split at h
  · next hcompleted =>
    rw [hturn.1] at hcompleted
    cases hcompleted
  · exact hkept s' (by rw [← some.inj h]; rfl)

/-! ### Lines -/

theorem has_of_get_str {field text : String} (h : record.get field = .str text) :
    record.has field = true := by
  unfold JsonObject.get at h
  unfold JsonObject.has
  cases hlookup : record.lookup field with
  | none =>
    rw [hlookup] at h
    cases h
  | some value => rfl

theorem translate_notification {method : String} (h : record.get "method" = .str method) :
    translate env record rawLine s =
      handleNotification env method (dictOr (record.get "params")) rawLine s := by
  unfold translate translateAppServer
  rw [has_of_get_str h, h, Bool.true_or, if_pos rfl]
  dsimp only
  cases handleNotification env method (dictOr (record.get "params")) rawLine s with
  | none => rfl
  | some t => rfl

/-- What a notification does to the state. -/
inductive NotificationStep (env : Env) (method : String) (params : JsonObject) (rawLine : Nat)
    (s : State) : State → Prop where
  | threadStarted (hmethod : method = "thread/started") : NotificationStep env method params rawLine s
      (emitModelResolved env rawLine (setThreadIdentity (dictOr (params.get "thread")) s))
  | item {type : String} {s' : State} (hmethod : method = "item/started" ∨ method = "item/completed")
      (htype : type = "item.started" ∨ type = "item.completed")
      (hrun : handleItem env type params rawLine s = some s') :
      NotificationStep env method params rawLine s s'
  | messageDelta (hmethod : method = "item/agentMessage/delta") :
      NotificationStep env method params rawLine s
        { s with messageText := addDelta s.messageText params }
  | reasoningDelta (hmethod : method = "item/reasoning/summaryTextDelta") :
      NotificationStep env method params rawLine s
        { s with reasoningSummaryText := addDelta s.reasoningSummaryText params }
  | tokenUsage (hmethod : method = "thread/tokenUsage/updated") :
      NotificationStep env method params rawLine s (handleTokenUsage params s)
  | turnCompleted {s' : State} (hmethod : method = "turn/completed")
      (hrun : handleTurnCompleted env params rawLine s = some s') :
      NotificationStep env method params rawLine s s'
  | failed (hmethod : method = "error") :
      NotificationStep env method params rawLine s (handleErrorNotification env params rawLine s)
  | compacted (hmethod : method = "thread/compacted") :
      NotificationStep env method params rawLine s (handleCompacted params rawLine s)
  | ignored (hturn : method ≠ "turn/completed") : NotificationStep env method params rawLine s s

theorem handleNotification_cases {method : String}
    (h : handleNotification env method params rawLine s = some s') :
    NotificationStep env method params rawLine s s' := by
  unfold handleNotification at h
  obtain ⟨hmethod, h⟩ | ⟨_, h⟩ := ite_eq_iff.mp h
  · cases h
    exact .threadStarted hmethod
  obtain ⟨hmethod, h⟩ | ⟨_, h⟩ := ite_eq_iff.mp h
  · exact .item (.inl hmethod) (.inl rfl) h
  obtain ⟨hmethod, h⟩ | ⟨_, h⟩ := ite_eq_iff.mp h
  · exact .item (.inr hmethod) (.inr rfl) h
  obtain ⟨hmethod, h⟩ | ⟨_, h⟩ := ite_eq_iff.mp h
  · cases h
    exact .messageDelta hmethod
  obtain ⟨hmethod, h⟩ | ⟨_, h⟩ := ite_eq_iff.mp h
  · cases h
    exact .reasoningDelta hmethod
  obtain ⟨hmethod, h⟩ | ⟨_, h⟩ := ite_eq_iff.mp h
  · cases h
    exact .tokenUsage hmethod
  obtain ⟨hmethod, h⟩ | ⟨hturn, h⟩ := ite_eq_iff.mp h
  · exact .turnCompleted hmethod h
  obtain ⟨hmethod, h⟩ | ⟨_, h⟩ := ite_eq_iff.mp h
  · cases h
    exact .failed hmethod
  obtain ⟨hmethod, h⟩ | ⟨_, h⟩ := ite_eq_iff.mp h
  · cases h
    exact .compacted hmethod
  · cases h
    exact .ignored hturn

theorem core_reportLine (line : Line) (s : State) : (reportLine line s).core = s.core := by
  unfold reportLine
  dsimp only
  split
  · rfl
  · rfl
  · rfl

/-- The notification that a line holds: its method and its parameters. -/
def Line.notified (line : Line) : Option (String × JsonObject) :=
  if line.text = "" then none
  else line.dict.bind fun record =>
    (record.get "method").asString.map fun method => (method, dictOr (record.get "params"))

theorem stepLine_notified {method : String} (h : line.notified = some (method, params)) :
    stepLine env s line = (captureRealThreadId line.raw s).bind fun t =>
      handleNotification env method params (t.lineNo + 1) { t with lineNo := t.lineNo + 1 } := by
  unfold Line.notified at h
  split at h
  · cases h
  next htext =>
  obtain ⟨record, hdict, hmethod⟩ := bind_eq_some_iff.mp h
  obtain ⟨method', hstr, heq⟩ := map_eq_some_iff.mp hmethod
  obtain ⟨rfl, rfl⟩ := Prod.mk.inj heq
  have hget : record.get "method" = .str method' := by
    cases hvalue : record.get "method" with
    | str text =>
      rw [hvalue] at hstr
      rw [some.inj hstr]
    | _ =>
      rw [hvalue] at hstr
      cases hstr
  unfold stepLine readLine
  simp only [htext, if_false, hdict, translate_notification hget]

def Survived (env : Env) (lines : List Line) : Prop :=
  ∀ m ∈ moments (stepLine env) {} lines, (stepLine env m.1 m.2).isSome

end Codify.Harness.CodexEvents

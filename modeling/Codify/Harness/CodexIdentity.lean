import Codify.Harness.CodexFrame
import Codify.Harness.Sanitize

/-! # The Root of a Codex Run

    The ids of the root are read from the raw line and again from the redacted one,
    and the end of a turn is compared with whatever was read last. A UUID does not
    survive the redaction, and the announcement of a child is read like the root's.

    * **Guard**: redaction leaves the ids of a line alone, and only the root is
      announced (`Kept`).
    * **Invariant**: `RootState`, the ids and the outcome of the root's turns.
    * **Result**: `kept_root_decides`, and the stream of a root whose id is a UUID.
-/

namespace Codify.Harness.CodexEvents

open Codify.Framework Codify.Harness List Option
open Codify.Harness.PiEvents (Event Terminal asText dictOr contains)

variable {env : Env} {record params : JsonObject} {rawLine : Nat} {line : Line}
  {lines : List Line} {s s' t : State}

/-! ### The Root -/

/-- The ids of the root thread. -/
structure RootIds where
  id : String
  /-- `sessionId`, when the announcement has one. -/
  session : Option String

variable (root : RootIds)

def RootIds.sessionId : String := root.session.getD root.id

/-- The thread object carries the ids of the root. -/
def RootIds.Names (thread : JsonObject) : Prop :=
  thread.get "id" = .str root.id ∧ asText (thread.get "sessionId") = root.session

def threadsOf (record : JsonObject) : List JsonObject :=
  [dictOr ((dictOr (record.get "params")).get "thread"),
    dictOr ((dictOr (record.get "result")).get "thread")]

/-- The message announces the root or no thread at all. -/
structure AnnouncesOnly (root : RootIds) (record : JsonObject) : Prop where
  bare : asText (record.get "thread_id") = none
  threads : ∀ thread ∈ threadsOf record, asText (thread.get "id") = none ∨ root.Names thread

/-- The end of a turn of the root that a message reports: whether the turn has completed. -/
def rootTurn (record : JsonObject) : Option Bool :=
  let params := dictOr (record.get "params")
  if (record.get "method").isStr "turn/completed" && (params.get "threadId").isStr root.id then
    some ((dictOr (params.get "turn")).get "status" |>.isStr "completed")
  else none

/-- The message of the line before redaction. -/
def Line.rawDict (line : Line) : Option JsonObject := line.raw.bind Json.asObject

/-- The ends of the turns of the root, in the words of the server. -/
def rootTurns (lines : List Line) : List Bool :=
  lines.filterMap fun line => line.rawDict.bind (rootTurn root)

/-- The line announces the root: the response to `thread/start` or a `thread/started`. -/
def Line.announces (line : Line) : Prop :=
  ∃ raw ∈ line.rawDict,
    (raw.get "method").isStr "thread/started" ∧
        root.Names (dictOr ((dictOr (raw.get "params")).get "thread")) ∨
      raw.has "method" = false ∧ root.Names (dictOr ((dictOr (raw.get "result")).get "thread"))

def outcomeOf (completed : Bool) : Terminal := if completed then .completed else .failed

/-- What is asked of the outputs: the result carries the session of the root, and the last turn of
    the root decides, and nothing else. -/
structure RootDecides (root : RootIds) (turns : List Bool) (s : State) : Prop where
  session : ∀ file ∈ s.result, file.get "session_id" = .str root.sessionId
  written : turns ≠ [] → s.result.isSome
  terminal : s.terminalType = turns.getLast?.map outcomeOf

/-! ### The Guard -/

/-- Redaction leaves what the line says of the root, and the line announces no other thread. -/
structure Kept (root : RootIds) (line : Line) : Prop where
  text : line.text ≠ ""
  raw : ∃ raw ∈ line.rawDict, AnnouncesOnly root raw
  record : ∃ record ∈ line.dict, AnnouncesOnly root record
  turn : line.rawDict.bind (rootTurn root) = line.dict.bind (rootTurn root)

/-- The first line as it is read after redaction: a notification, or a response without an error. -/
def Opening (line : Line) : Prop :=
  line.notified.isSome ∨
    ∃ record ∈ line.dict, record.has "method" = false ∧ record.has "error" = false ∧
      endsTurn record = false

/-- The fields that decide about the root. -/
def State.verdict (s : State) : String × String × Option Terminal × Option JsonObject :=
  (s.threadId, s.sessionId, s.terminalType, s.result)

def Identified (s : State) : Prop := s.threadId = root.id ∧ s.sessionId = root.sessionId

/-- The state behind the turns of the root. -/
structure RootState (root : RootIds) (turns : List Bool) (s : State) : Prop
    extends RootDecides root turns s where
  identified : Identified root s

/-- The root can be told from a mask. -/
structure RootIds.Plain (root : RootIds) : Prop where
  nonempty : root.id ≠ ""
  unmasked : contains root.id "<" = false
  session : root.session ≠ some ""

theorem verdict_of_core (h : s'.core = s.core) : s'.verdict = s.verdict := by
  have hthread := congrArg Core.threadId h
  have hsession := congrArg Core.sessionId h
  have hterminal := congrArg Core.terminalType h
  have hresult := congrArg Core.result h
  exact Prod.ext hthread (Prod.ext hsession (Prod.ext hterminal hresult))

variable {root : RootIds} {turns : List Bool} {thread : JsonObject} {threads : List JsonObject}
  {outcome : Terminal} {method : String}

theorem RootState.of_verdict (h : RootState root turns s)
    (heq : s'.verdict = s.verdict) : RootState root turns s' := by
  obtain ⟨hthread, hrest⟩ := Prod.mk.inj heq
  obtain ⟨hsession, hrest⟩ := Prod.mk.inj hrest
  obtain ⟨hterminal, hresult⟩ := Prod.mk.inj hrest
  exact ⟨⟨by rw [hresult]; exact h.session, by rw [hresult]; exact h.written,
    by rw [hterminal]; exact h.terminal⟩, hthread.trans h.identified.1,
    hsession.trans h.identified.2⟩

/-! ### One Step -/

theorem rootIds_sessionId_ne (h : root.Plain) : root.sessionId ≠ "" := by
  unfold RootIds.sessionId
  cases hsession : root.session with
  | none => exact h.nonempty
  | some session =>
    rintro rfl
    exact h.session hsession

theorem identified_setIdentity (h : root.Names thread)
    (s : State) : Identified root (s.setIdentity root.id (thread.get "sessionId")) := by
  refine ⟨rfl, ?_⟩
  show (asText (thread.get "sessionId")).getD root.id = _
  rw [h.2]
  rfl

theorem asText_str {text : String} (h : text ≠ "") : asText (.str text) = some text := by
  simp [PiEvents.asText, Json.asString, h]

theorem identified_setThreadIdentity
    (hplain : root.Plain) (honly : asText (thread.get "id") = none ∨ root.Names thread)
    (h : Identified root s) : Identified root (setThreadIdentity thread s) := by
  unfold setThreadIdentity
  rcases honly with hnone | hnames
  · rw [hnone]
    exact h
  · rw [hnames.1, asText_str hplain.nonempty]
    exact identified_setIdentity hnames s

theorem identified_captureThread
    (honly : asText (thread.get "id") = none ∨ root.Names thread)
    (h : Identified root s) : Identified root (captureThread s thread) := by
  unfold captureThread
  split
  · next threadId hunmasked =>
    obtain ⟨htext, -⟩ := filter_eq_some_iff.mp hunmasked
    rcases honly with hnone | hnames
    · rw [hnone] at htext
      cases htext
    · have hid : threadId = root.id := by
        rw [hnames.1] at htext
        obtain ⟨hstr, -⟩ := filter_eq_some_iff.mp htext
        exact (some.inj hstr).symm
      rw [hid]
      exact identified_setIdentity hnames s
  · exact h

theorem captureRealThreadId_frame {raw : Option Json} (h : captureRealThreadId raw s = some t) :
    t.terminalType = s.terminalType ∧ t.result = s.result := by
  have hthread : ∀ (u : State) (thread : JsonObject),
      (captureThread u thread).terminalType = u.terminalType ∧
        (captureThread u thread).result = u.result := by
    intro u thread
    unfold captureThread
    split
    · exact ⟨rfl, rfl⟩
    · exact ⟨rfl, rfl⟩
  unfold captureRealThreadId at h
  split at h
  · rw [← some.inj h]
    exact ⟨rfl, rfl⟩
  · rw [← some.inj h]
    simp only [foldl_cons, foldl_nil, hthread]
    split
    · exact ⟨rfl, rfl⟩
    · exact ⟨rfl, rfl⟩
  · cases h

theorem captureRealThreadId_eq {raw : JsonObject} (h : AnnouncesOnly root raw) :
    captureRealThreadId (some (.obj raw)) s = some ((threadsOf raw).foldl captureThread s) := by
  have hnone : unmasked (raw.get "thread_id") = none := by
    unfold unmasked
    rw [h.bare]
    rfl
  unfold captureRealThreadId
  simp only [hnone]
  rfl

theorem identified_captureThreads
    (honly : ∀ thread ∈ threads, asText (thread.get "id") = none ∨ root.Names thread)
    (h : Identified root s) : Identified root (threads.foldl captureThread s) := by
  induction threads generalizing s with
  | nil => exact h
  | cons thread rest ih =>
    obtain ⟨hfirst, hrest⟩ := forall_mem_cons.mp honly
    exact ih hrest (identified_captureThread hfirst h)

theorem identified_of_announced
    (hplain : root.Plain)
    (honly : ∀ thread ∈ threads, asText (thread.get "id") = none ∨ root.Names thread)
    (hmem : thread ∈ threads) (hnames : root.Names thread) :
    Identified root (threads.foldl captureThread s) := by
  induction threads generalizing s with
  | nil => cases hmem
  | cons first rest ih =>
    obtain ⟨hfirst, hrest⟩ := forall_mem_cons.mp honly
    rcases mem_cons.mp hmem with rfl | hmem
    · have hcaptured : Identified root (captureThread s thread) := by
        have hunmasked : unmasked (thread.get "id") = some root.id := by
          rw [hnames.1, unmasked, asText_str hplain.nonempty]
          simp [hplain.unmasked]
        unfold captureThread
        rw [hunmasked]
        exact identified_setIdentity hnames s
      rw [foldl_cons]
      exact identified_captureThreads hrest hcaptured
    · exact ih hrest hmem

theorem rootState_capture (hkept : Kept root line)
    (h : RootState root turns s) (hcapture : captureRealThreadId line.raw s = some t) :
    RootState root turns t := by
  obtain ⟨raw, hraw, honly⟩ := hkept.raw
  obtain ⟨value, hvalue, hobj⟩ := bind_eq_some_iff.mp hraw
  have hline : line.raw = some (.obj raw) := by
    cases value with
    | obj fields =>
      cases hobj
      exact hvalue
    | _ => cases hobj
  obtain ⟨hterminal, hresult⟩ := captureRealThreadId_frame hcapture
  rw [hline, captureRealThreadId_eq honly] at hcapture
  refine ⟨⟨by rw [hresult]; exact h.session, by rw [hresult]; exact h.written,
    by rw [hterminal]; exact h.terminal⟩, ?_⟩
  rw [← some.inj hcapture]
  exact identified_captureThreads honly.threads h.identified

/-- What the end of a turn writes: its outcome, and the session that is known then. -/
structure Settles (outcome : Terminal) (s s' : State) : Prop where
  threadId : s'.threadId = s.threadId
  sessionId : s'.sessionId = s.sessionId
  terminal : s'.terminalType = some outcome
  result : ∃ file, s'.result = some file ∧ file.get "session_id" = PiEvents.optStr (sessionIdOf s)

theorem sessionIdOf_congr (hthread : t.threadId = s.threadId) (hsession : t.sessionId = s.sessionId) :
    sessionIdOf t = sessionIdOf s := by
  unfold sessionIdOf
  rw [hthread, hsession]

theorem settles_writeResult (env : Env) (success : Bool) (result : Json) (usage : JsonObject)
    (message : String) (s : State) (h : s.terminalType = some outcome) :
    Settles outcome s (writeResult env success result usage message s) where
  threadId := rfl
  sessionId := rfl
  terminal := h
  result := ⟨_, rfl, rfl⟩

theorem Settles.of_core (hcore : t.core = s.core) (h : Settles outcome t s') :
    Settles outcome s s' := by
  have hthread : t.threadId = s.threadId := congrArg Core.threadId hcore
  have hsession : t.sessionId = s.sessionId := congrArg Core.sessionId hcore
  obtain ⟨file, hfile, hvalue⟩ := h.result
  exact ⟨h.threadId.trans hthread, h.sessionId.trans hsession, h.terminal, file, hfile,
    by rw [hvalue, sessionIdOf_congr hthread hsession]⟩

theorem settles_completeTurn (h : completeTurn env record rawLine s = some s') :
    Settles .completed s s' := by
  unfold completeTurn at h
  dsimp only at h
  have hsettled := core_foldl (core_closeDelegation env "cancelled" .null rawLine)
    (closeOpenReasoning "turn_completed_without_block_end" rawLine s).delegationToolByChild.keys
    (closeOpenReasoning "turn_completed_without_block_end" rawLine s)
  generalize List.foldl (closeDelegation env "cancelled" .null rawLine) _ _ = t at h hsettled
  rw [core_closeOpenReasoning] at hsettled
  obtain ⟨usage, -, rfl⟩ := map_eq_some_iff.mp h
  have hwritten := settles_writeResult env true (t.emit "usage.final" [("usage", .obj usage)]
    rawLine).lastAssistantText usage "" { t.emit "usage.final" [("usage", .obj usage)] rawLine with
      terminalType := some .completed
      terminalLine := rawLine } rfl
  obtain ⟨hthread, hsession, hterminal, hresult⟩ := hwritten
  exact Settles.of_core hsettled ⟨hthread, hsession, hterminal, hresult⟩

theorem settles_failTurn {message : String} (h : failTurn env record message rawLine s = some s') :
    Settles .failed s s' := by
  unfold failTurn at h
  dsimp only at h
  obtain ⟨usage, -, rfl⟩ := map_eq_some_iff.mp h
  exact ⟨rfl, rfl, rfl, _, rfl, rfl⟩

/-- The end of a turn of the root writes its outcome and the session of the root. -/
theorem rootState_turn (hplain : root.Plain)
    (h : RootState root turns s)
    (hrun : translateRecord env (turnRecord env params s) rawLine s = some s') :
    RootState root (turns ++ [((dictOr (params.get "turn")).get "status").isStr "completed"]) s' := by
  have hsession : PiEvents.optStr (sessionIdOf s) = .str root.sessionId := by
    rw [sessionIdOf, h.identified.2, if_pos (rootIds_sessionId_ne hplain)]
    rfl
  have hsettled : ∀ completed : Bool, Settles (outcomeOf completed) s s' →
      RootState root (turns ++ [completed]) s' := by
    intro completed hsettles
    obtain ⟨file, hfile, hvalue⟩ := hsettles.result
    refine ⟨⟨?_, fun _ => by rw [hfile]; rfl, ?_⟩, hsettles.threadId.trans h.identified.1,
      hsettles.sessionId.trans h.identified.2⟩
    · intro file' hfile'
      cases hfile.symm.trans hfile'
      rw [hvalue, hsession]
    · rw [hsettles.terminal, getLast?_concat, map_some]
  unfold turnRecord at hrun
  dsimp only at hrun
  cases hstatus : ((dictOr (params.get "turn")).get "status").isStr "completed" with
  | true =>
    rw [hstatus, if_pos rfl, translateRecord_completed rfl] at hrun
    exact hsettled true (Settles.of_core (core_setCurrentAgent _ s) (settles_completeTurn hrun))
  | false =>
    rw [hstatus, if_neg (by simp), translateRecord_failed rfl] at hrun
    have hfailed := Settles.of_core (core_closeOpenReasoning _ _ _) (settles_failTurn hrun)
    exact hsettled false (Settles.of_core (core_setCurrentAgent _ s) hfailed)

theorem rootState_of_fillsIdentity (hplain : root.Plain)
    (h : RootState root turns s) (hfills : FillsIdentity s s') : RootState root turns s' := by
  rcases hfills with hcore | ⟨hmissing, -⟩
  · exact h.of_verdict (verdict_of_core hcore)
  · exact absurd (h.identified.1.symm.trans hmissing) hplain.nonempty

/-- Only the root's own `turn/completed` adds to its turns. -/
theorem rootState_handleNotification
    (hplain : root.Plain) (h : RootState root turns s)
    (honly : asText ((dictOr (params.get "thread")).get "id") = none ∨
      root.Names (dictOr (params.get "thread")))
    (hrun : handleNotification env method params rawLine s = some s') :
    RootState root (turns ++ (if method = "turn/completed" ∧ (params.get "threadId").isStr root.id
      then [((dictOr (params.get "turn")).get "status").isStr "completed"] else [])) s' := by
  -- every other method leaves the turns alone
  have hother : method ≠ "turn/completed" → RootState root turns s' →
      RootState root (turns ++ (if method = "turn/completed" ∧
        (params.get "threadId").isStr root.id
        then [((dictOr (params.get "turn")).get "status").isStr "completed"] else [])) s' := by
    intro hne hstate
    rw [if_neg fun hturn => hne hturn.1, append_nil]
    exact hstate
  cases handleNotification_cases hrun with
  | threadStarted hmethod =>
    apply hother (by rw [hmethod]; decide)
    have hthread : RootState root turns (setThreadIdentity (dictOr (params.get "thread")) s) := by
      have hids := identified_setThreadIdentity hplain honly h.identified
      have hframe : (setThreadIdentity (dictOr (params.get "thread")) s).terminalType =
          s.terminalType ∧
          (setThreadIdentity (dictOr (params.get "thread")) s).result = s.result := by
        unfold setThreadIdentity
        split
        · exact ⟨rfl, rfl⟩
        · exact ⟨rfl, rfl⟩
      exact ⟨⟨by rw [hframe.2]; exact h.session, by rw [hframe.2]; exact h.written,
        by rw [hframe.1]; exact h.terminal⟩, hids⟩
    exact hthread.of_verdict (verdict_of_core (core_emitModelResolved env rawLine _))
  | @item type s' hmethod htype hitem =>
    apply hother
    · rcases hmethod with rfl | rfl
      · decide
      · decide
    obtain ⟨item, -, hrecord⟩ := bind_eq_some_iff.mp hitem
    refine rootState_of_fillsIdentity hplain h (core_translateRecord hrecord ?_)
    rcases htype with rfl | rfl
    · rfl
    · rfl
  | messageDelta hmethod | reasoningDelta hmethod =>
    exact hother (by rw [hmethod]; decide) (h.of_verdict rfl)
  | tokenUsage hmethod =>
    apply hother (by rw [hmethod]; decide)
    apply h.of_verdict
    unfold handleTokenUsage recordChildUsage
    split
    · rfl
    · split
      · rfl
      · split
        · rfl
        · rfl
  | turnCompleted hmethod hturn =>
    rw [handleTurnCompleted_eq, h.identified.1] at hturn
    split at hturn
    · next hroot =>
      rw [if_pos ⟨hmethod, hroot⟩]
      exact rootState_turn hplain h hturn
    · next hroot =>
      cases hturn
      rw [if_neg fun hends => hroot hends.2, append_nil]
      exact h
  | failed hmethod =>
    apply hother (by rw [hmethod]; decide)
    apply h.of_verdict
    unfold handleErrorNotification
    dsimp only
    split
    · rfl
    · rfl
  | compacted hmethod =>
    exact hother (by rw [hmethod]; decide)
      (h.of_verdict (verdict_of_core (core_handleCompacted params rawLine s)))
  | ignored hturn => exact hother hturn h

/-! ### The Run -/

theorem rootTurn_notified
    (h : line.notified = some (method, params)) :
    (line.dict.bind (rootTurn root)).toList =
      if method = "turn/completed" ∧ (params.get "threadId").isStr root.id
      then [((dictOr (params.get "turn")).get "status").isStr "completed"] else [] := by
  unfold Line.notified at h
  split at h
  · cases h
  · obtain ⟨record, hdict, hmethod⟩ := bind_eq_some_iff.mp h
    obtain ⟨method', hstr, heq⟩ := map_eq_some_iff.mp hmethod
    obtain ⟨rfl, rfl⟩ := Prod.mk.inj heq
    have hiff : (record.get "method").isStr "turn/completed" = decide (method' = "turn/completed") := by
      rw [Json.isStr, hstr]
      rfl
    rw [hdict, bind_some, rootTurn, hiff]
    by_cases hturn : method' = "turn/completed"
    · cases hroot : ((dictOr (record.get "params")).get "threadId").isStr root.id with
      | true => simp [hturn]
      | false => simp [hturn]
    · simp [hturn]

theorem rootState_notified
    (hplain : root.Plain) (hkept : Kept root line) (h : RootState root turns t)
    (hnotified : line.notified = some (method, params))
    (hrun : handleNotification env method params (t.lineNo + 1)
      { t with lineNo := t.lineNo + 1 } = some s') :
    RootState root (turns ++ (line.rawDict.bind (rootTurn root)).toList) s' := by
  obtain ⟨record, hdict, honly⟩ := hkept.record
  have hparams : params = dictOr (record.get "params") := by
    unfold Line.notified at hnotified
    rw [if_neg hkept.text, hdict, bind_some] at hnotified
    obtain ⟨method', -, heq⟩ := map_eq_some_iff.mp hnotified
    exact (Prod.mk.inj heq).2.symm
  have hthread := honly.threads (dictOr ((dictOr (record.get "params")).get "thread")) mem_cons_self
  rw [← hparams] at hthread
  have hnumbered : RootState root turns { t with lineNo := t.lineNo + 1 } := h.of_verdict rfl
  rw [hkept.turn, rootTurn_notified hnotified]
  exact rootState_handleNotification hplain hnumbered hthread hrun

/-- **Step**: a notification keeps the root and adds its turn. -/
theorem rootState_stepLine (hplain : root.Plain)
    (hkept : Kept root line) (hnotified : line.notified.isSome) (h : RootState root turns s)
    (hrun : stepLine env s line = some s') :
    RootState root (turns ++ (line.rawDict.bind (rootTurn root)).toList) s' := by
  obtain ⟨⟨method, params⟩, hmethod⟩ := isSome_iff_exists.mp hnotified
  rw [stepLine_notified hmethod] at hrun
  obtain ⟨t, ht, hhandled⟩ := bind_eq_some_iff.mp hrun
  exact rootState_notified hplain hkept (rootState_capture hkept h ht) hmethod hhandled

/-- The line that announces the root sets its identity. -/
theorem rootState_announced (hplain : root.Plain) (hkept : Kept root line)
    (hannounced : line.announces root) (hopening : Opening line)
    (hrun : stepLine env {} line = some s') :
    RootState root (line.rawDict.bind (rootTurn root)).toList s' := by
  obtain ⟨t, ht, hread⟩ := bind_eq_some_iff.mp hrun
  -- the id is taken from the raw line, before the record is read
  have hmade : RootState root [] t := by
    obtain ⟨raw, hraw, honly⟩ := hkept.raw
    obtain ⟨value, hvalue, hobj⟩ := bind_eq_some_iff.mp hraw
    have hline : line.raw = some (.obj raw) := by
      cases value with
      | obj fields =>
        cases hobj
        exact hvalue
      | _ => cases hobj
    obtain ⟨hterminal, hresult⟩ := captureRealThreadId_frame ht
    rw [hline, captureRealThreadId_eq honly] at ht
    refine ⟨⟨?_, fun hne => absurd rfl hne, hterminal⟩, ?_⟩
    · intro file hfile
      rw [hresult] at hfile
      cases hfile
    · rw [← some.inj ht]
      obtain ⟨raw', hraw', hthread⟩ := hannounced
      cases hraw.symm.trans hraw'
      rcases hthread with ⟨-, hnames⟩ | ⟨-, hnames⟩
      · exact identified_of_announced hplain honly.threads mem_cons_self hnames
      · exact identified_of_announced hplain honly.threads (mem_cons_of_mem _ mem_cons_self) hnames
  rcases hopening with hnotified | ⟨record, hdict, hmethod, herror, hturn⟩
  · obtain ⟨⟨method, params⟩, hmethod⟩ := isSome_iff_exists.mp hnotified
    have hstep : stepLine env {} line = _ := stepLine_notified hmethod
    rw [hrun, ht, bind_some] at hstep
    exact rootState_notified hplain hkept hmade hmethod hstep.symm
  · rw [if_neg hkept.text] at hread
    have hrecord : readLine env line t =
        translateRecord env record (t.lineNo + 1) { t with lineNo := t.lineNo + 1 } := by
      unfold readLine
      rw [hdict]
      dsimp only
      unfold translate
      rw [hmethod, herror]
      rfl
    have hread' : readLine env line t = some s' := hread
    rw [hrecord] at hread'
    have hnumbered : RootState root [] { t with lineNo := t.lineNo + 1 } := hmade.of_verdict rfl
    have hnone : line.rawDict.bind (rootTurn root) = none := by
      have hget : (record.get "method").isStr "turn/completed" = false := by
        cases hvalue : (record.get "method").isStr "turn/completed" with
        | false => rfl
        | true =>
          rw [has_of_get_str (Json.isStr_iff.mp hvalue)] at hmethod
          cases hmethod
      rw [hkept.turn, hdict, bind_some, rootTurn, hget]
      rfl
    rw [hnone]
    exact rootState_of_fillsIdentity hplain hnumbered (core_translateRecord hread' hturn)

/-- The turns of the root decide the outcome, and the log ends with it. -/
structure RootOutcome (root : RootIds) (turns : List Bool) (s : State) : Prop
    extends RootDecides root turns s where
  event : ∀ completed ∈ turns.getLast?, ∃ e ∈ s.events.getLast?,
    e.type = if completed then "harness.completed" else "harness.failed"

theorem rootState_run (hplain : root.Plain)
    (hkept : ∀ line ∈ lines, Kept root line) (hnotified : ∀ line ∈ lines, line.notified.isSome)
    (h : RootState root turns s) (hrun : translateLines env s lines = some s') :
    RootState root (turns ++ rootTurns root lines) s' := by
  induction lines generalizing s turns with
  | nil =>
    cases hrun
    simpa [rootTurns] using h
  | cons line rest ih =>
    obtain ⟨u, hu, hrest⟩ := foldlM_cons.mp hrun
    obtain ⟨hfirst, hkeptRest⟩ := forall_mem_cons.mp hkept
    obtain ⟨hfirst', hnotifiedRest⟩ := forall_mem_cons.mp hnotified
    have hstep := rootState_stepLine hplain hfirst hfirst' h hu
    have hend := ih hkeptRest hnotifiedRest hstep hrest
    have hturns : rootTurns root (line :: rest) =
        (line.rawDict.bind (rootTurn root)).toList ++ rootTurns root rest := by
      unfold rootTurns
      rw [filterMap_cons]
      cases line.rawDict.bind (rootTurn root) with
      | none => rfl
      | some completed => rfl
    rw [hturns, ← append_assoc]
    exact hend

theorem rootOutcome_emitTerminalAtEof
    (h : RootState root turns s) : RootOutcome root turns (emitTerminalAtEof s) := by
  have hverdict : (emitTerminalAtEof s).verdict = s.verdict := by
    unfold emitTerminalAtEof
    split
    · rfl
    · rfl
    · rfl
  refine ⟨(h.of_verdict hverdict).toRootDecides, ?_⟩
  intro completed hlast
  have hterminal : s.terminalType = some (outcomeOf completed) := by
    rw [h.terminal, hlast]
    rfl
  unfold emitTerminalAtEof
  rw [hterminal]
  cases completed with
  | true | false => exact ⟨_, by simp [outcomeOf, events_emit]; rfl, rfl⟩

/-- **Root**: in every stream whose lines redaction leaves alone and in which only the root is
    announced, the result carries the session of the root and its last turn decides. -/
theorem kept_root_decides (env : Env) (root : RootIds) (first : Line) (rest : List Line)
    (hannounced : first.announces root) (hopening : Opening first)
    (hnotified : ∀ line ∈ rest, line.notified.isSome) (hplain : root.Plain)
    (hkept : ∀ line ∈ first :: rest, Kept root line) (hsurvived : Survived env (first :: rest)) :
    ∃ s, main env (first :: rest) = some s ∧
      RootOutcome root (rootTurns root (first :: rest)) s := by
  obtain ⟨s, hs⟩ := isSome_iff_exists.mp (foldlM_isSome_iff.mpr hsurvived)
  have hrun : translateLines env {} (first :: rest) = some s := hs
  refine ⟨emitTerminalAtEof s, by rw [main, hrun, map_some], ?_⟩
  obtain ⟨t, ht, hrest⟩ := foldlM_cons.mp hs
  obtain ⟨hfirst, hkeptRest⟩ := forall_mem_cons.mp hkept
  have hmade := rootState_announced hplain hfirst hannounced hopening ht
  have hend := rootState_run hplain hkeptRest hnotified hmade hrest
  have hturns : rootTurns root (first :: rest) =
      (first.rawDict.bind (rootTurn root)).toList ++ rootTurns root rest := by
    unfold rootTurns
    rw [filterMap_cons]
    cases first.rawDict.bind (rootTurn root) with
    | none => rfl
    | some completed => rfl
  rw [hturns]
  exact rootOutcome_emitTerminalAtEof hend

/-! ### Two Streams -/

def plainRoot : RootIds := ⟨"root-1", none⟩

/-- A root whose id is no UUID, a child that it spawns and whose turn fails, and two turns of the
    root. -/
def plainStream : List Line :=
  [spawnChild, endTurn "failed", notification "turn/completed"
    [("threadId", .str "child-1"), ("turn", .obj [("status", .str "failed")])], endTurn "completed"]

theorem kept_plainLine {record : JsonObject} (h : AnnouncesOnly root record)
    (htext : (plainLine record).text ≠ "") : Kept root (plainLine record) where
  text := htext
  raw := ⟨record, rfl, h⟩
  record := ⟨record, rfl, h⟩
  turn := rfl

theorem plain_root_decides :
    ∃ s, main plainEnv (announceRoot :: plainStream) = some s ∧
      RootOutcome plainRoot [false, true] s := by
  have hannounced : announceRoot.announces plainRoot :=
    ⟨_, rfl, .inl ⟨by decide, rfl, rfl⟩⟩
  have honly : ∀ line ∈ announceRoot :: plainStream, Kept plainRoot line := by
    simp only [plainStream, forall_mem_cons]
    refine ⟨kept_plainLine ⟨rfl, ?_⟩ (by decide), kept_plainLine ⟨rfl, ?_⟩ (by decide),
      kept_plainLine ⟨rfl, ?_⟩ (by decide), kept_plainLine ⟨rfl, ?_⟩ (by decide),
      kept_plainLine ⟨rfl, ?_⟩ (by decide), by simp⟩
    all_goals
      intro thread hthread
      simp only [threadsOf, mem_cons, not_mem_nil, or_false] at hthread
      rcases hthread with rfl | rfl
      -- only the first line announces a thread
      · first
        | exact .inl rfl
        | exact .inr ⟨rfl, rfl⟩
      · exact .inl rfl
  exact kept_root_decides plainEnv plainRoot announceRoot plainStream hannounced
    (.inl (by decide +kernel)) (by decide +kernel) ⟨by decide, by decide +kernel, by decide⟩ honly
    (by unfold Survived; decide +kernel)

def uuidRoot : RootIds := ⟨"0199a0f2-7c1e-7d3b-8f00-2b6d1c9e4a57", none⟩

/-- The redaction of a run; the digest is the one of the root's id. -/
local instance neZero_sixteen : NeZero 16 := ⟨by decide⟩

def rootLibrary : Sanitize.Library :=
  { Sanitize.asciiLibrary with digest := fun _ => [15, 7, 6, 12, 5, 0, 10, 10, 8, 11, 7, 15] }

def redactingEnv : Env :=
  { plainEnv with
    sanitize := fun text => String.ofList (Sanitize.sanitize rootLibrary text.toList)
    loads := fun text => JsonText.loads .fraction text.toList }

def announceText : List Char :=
  ("\x7b\"method\":\"thread/started\",\"params\":" ++
    "\x7b\"thread\":\x7b\"id\":\"0199a0f2-7c1e-7d3b-8f00-2b6d1c9e4a57\"\x7d\x7d\x7d").toList

def maskedAnnounceText : List Char :=
  ("\x7b\"method\":\"thread/started\",\"params\":" ++
    "\x7b\"thread\":\x7b\"id\":\"<UUID:f76c50aa8b7f>\"\x7d\x7d\x7d").toList

def endTurnText : List Char :=
  ("\x7b\"method\":\"turn/completed\",\"params\":" ++
    "\x7b\"threadId\":\"0199a0f2-7c1e-7d3b-8f00-2b6d1c9e4a57\"\x7d\x7d").toList

def maskedEndTurnText : List Char :=
  ("\x7b\"method\":\"turn/completed\",\"params\":" ++
    "\x7b\"threadId\":\"<UUID:f76c50aa8b7f>\"\x7d\x7d").toList

/-- The line of a text and what redaction makes of it. -/
def redactedLine (text masked : List Char) : Line :=
  ⟨JsonText.loads .fraction text, String.ofList masked, JsonText.loads .fraction masked⟩

theorem lineOf_redacted {text masked : List Char} (h : Sanitize.sanitize rootLibrary text = masked) :
    lineOf redactingEnv (String.ofList text) = redactedLine text masked := by
  unfold lineOf redactedLine redactingEnv
  dsimp only
  rw [String.toList_ofList, h, String.toList_ofList]

theorem sanitize_announceText : Sanitize.sanitize rootLibrary announceText = maskedAnnounceText := by
  -- the literals as lists, so that the kernel does not decode them
  unfold announceText maskedAnnounceText
  rw [String.toList_append, String.toList_append, String.toList_ofList, String.toList_ofList,
    String.toList_ofList]
  decide +kernel

theorem sanitize_endTurnText : Sanitize.sanitize rootLibrary endTurnText = maskedEndTurnText := by
  unfold endTurnText maskedEndTurnText
  rw [String.toList_append, String.toList_append, String.toList_ofList, String.toList_ofList,
    String.toList_ofList]
  decide +kernel

def uuidStream : List Line := [announceText, endTurnText].map (lineOf redactingEnv <| String.ofList ·)

theorem uuidStream_eq : uuidStream = [redactedLine announceText maskedAnnounceText,
    redactedLine endTurnText maskedEndTurnText] := by
  show [lineOf redactingEnv (String.ofList announceText),
    lineOf redactingEnv (String.ofList endTurnText)] = _
  rw [lineOf_redacted sanitize_announceText, lineOf_redacted sanitize_endTurnText]

/-- The redacted announcement replaces the captured id, and the result carries the mask. -/
theorem uuid_root_masked :
    (∃ first ∈ uuidStream.head?, first.announces uuidRoot) ∧
      (∀ line ∈ uuidStream, line.notified.isSome) ∧ Survived redactingEnv uuidStream ∧
      ((main redactingEnv uuidStream).bind fun s =>
        s.result.bind fun file => (file.get "session_id").asString) =
          some "<UUID:f76c50aa8b7f>" ∧
      ¬ ∃ s, main redactingEnv uuidStream = some s ∧
        RootOutcome uuidRoot (rootTurns uuidRoot uuidStream) s := by
  have hannounced : (redactedLine announceText maskedAnnounceText).rawDict.any (fun raw =>
      (raw.get "method").isStr "thread/started" &&
        ((dictOr ((dictOr (raw.get "params")).get "thread")).get "id").isStr uuidRoot.id &&
        asText ((dictOr ((dictOr (raw.get "params")).get "thread")).get "sessionId") ==
          uuidRoot.session) := by
    unfold announceText maskedAnnounceText
    rw [String.toList_append, String.toList_append, String.toList_ofList, String.toList_ofList,
      String.toList_ofList]
    decide +kernel
  have hrun : (∀ line ∈ uuidStream, line.notified.isSome) ∧ Survived redactingEnv uuidStream ∧
      ((main redactingEnv uuidStream).bind fun s =>
        s.result.bind fun file => (file.get "session_id").asString) =
          some "<UUID:f76c50aa8b7f>" := by
    rw [uuidStream_eq]
    unfold Survived announceText maskedAnnounceText endTurnText maskedEndTurnText
    rw [String.toList_append, String.toList_append, String.toList_append, String.toList_append,
      String.toList_ofList, String.toList_ofList, String.toList_ofList, String.toList_ofList,
      String.toList_ofList, String.toList_ofList]
    decide +kernel
  obtain ⟨hnotified, hsurvived, hmasked⟩ := hrun
  refine ⟨?_, hnotified, hsurvived, hmasked, ?_⟩
  · obtain ⟨raw, hraw, hall⟩ := Option.any_eq_true _ _ |>.mp hannounced
    simp only [Bool.and_eq_true, beq_iff_eq] at hall
    obtain ⟨⟨hmethod, hid⟩, hsession⟩ := hall
    rw [uuidStream_eq]
    exact ⟨_, rfl, raw, hraw, .inl ⟨hmethod, Json.isStr_iff.mp hid, hsession⟩⟩
  · rintro ⟨s, hrun, houtcome⟩
    rw [hrun, bind_some] at hmasked
    obtain ⟨file, hfile, hsession⟩ := bind_eq_some_iff.mp hmasked
    rw [houtcome.session file hfile] at hsession
    revert hsession
    decide

end Codify.Harness.CodexEvents

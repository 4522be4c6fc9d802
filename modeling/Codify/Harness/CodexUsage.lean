import Codify.Harness.CodexFrame
import Codify.Harness.PiUsage

/-! # The Usage of a Codex Attempt

    The token usage of the root and of its children is reported by notifications.
    The last report of the root and, for each child, the greatest count under each
    key make up the total of the result file; the `usage.final` event carries the
    root's report alone.

    * **Reports**: what the notifications of a stream say (`rootReports`,
      `childCredits`).
    * **Ledger**: `ledger_run`, what the state keeps of them.
    * **Result**: `codex_usage_agrees_iff`.
-/

namespace Codify.Harness.CodexEvents

open Codify.Framework Codify.Harness List Option Tally
open Codify.Harness.PiEvents (Event asText dictOr amount tokenKeys)

variable {env : Env} {record params root credits : JsonObject} {rawLine : Nat} {line : Line}
  {lines : List Line} {s s' t : State}

/-! ### Reports -/

def Line.usageParams (line : Line) : Option JsonObject :=
  line.notified.bind fun p => if p.1 = "thread/tokenUsage/updated" then some p.2 else none

variable (rootId : String)

def rootReport (params : JsonObject) : Option Json :=
  (params.get "tokenUsage").asObject.bind fun tokenUsage =>
    if (params.get "threadId").isStr rootId then some (lastUsage tokenUsage) else none

def childCredit (params : JsonObject) : Option (String × OrderedDict String Int) :=
  (params.get "tokenUsage").asObject.bind fun tokenUsage =>
    if (params.get "threadId").isStr rootId then none
    else (childReport params tokenUsage).map fun p => (p.1, counters (usageFields p.2))

def rootReports (lines : List Line) : List Json :=
  lines.filterMap fun line => line.usageParams.bind (rootReport rootId)

def childCredits (lines : List Line) : List (String × OrderedDict String Int) :=
  lines.filterMap fun line => line.usageParams.bind (childCredit rootId)

/-- The usage that the root has reported last. -/
def rootUsage (lines : List Line) : JsonObject :=
  usageFields (dictOr ((rootReports rootId lines).getLast?.getD (.obj [])))

/-- The greatest counts of all children under a key, added up. -/
def childrenTotal (lines : List Line) (key : String) : Int :=
  ((childCredits rootId lines).map (·.1)).toFinset.sum fun child =>
    highest (childCredits rootId lines) child key

/-! ### The Ledger -/

theorem nodup_keys_counters (source : JsonObject) :
    (counters (usageFields source)).keys.Nodup := by
  have hkeys : (counters (usageFields source)).keys.Sublist ((usageFields source).map (·.1)) := by
    unfold counters OrderedDict.keys
    induction usageFields source with
    | nil => exact .slnil
    | cons p rest ih =>
      cases hcount : PiEvents.asCount p.2 with
      | none => simpa [hcount] using ih.cons p.1
      | some n => simpa [hcount] using ih.cons_cons p.1
  refine List.Nodup.sublist hkeys ?_
  simp [usageFields]

theorem nodup_keys_childCredits (lines : List Line) :
    ∀ p ∈ childCredits rootId lines, p.2.keys.Nodup := by
  intro p hp
  obtain ⟨line, -, hline⟩ := mem_filterMap.mp hp
  obtain ⟨params, -, hparams⟩ := bind_eq_some_iff.mp hline
  obtain ⟨tokenUsage, -, hcredit⟩ := bind_eq_some_iff.mp hparams
  split at hcredit
  · cases hcredit
  · obtain ⟨q, -, rfl⟩ := map_eq_some_iff.mp hcredit
    exact nodup_keys_counters q.2

variable {rootId key : String}

theorem childCredits_nonneg {p : String × OrderedDict String Int} {n : Int}
    (hp : p ∈ childCredits rootId lines) (hn : p.2.lookup key = some n) : 0 ≤ n := by
  obtain ⟨line, -, hline⟩ := mem_filterMap.mp hp
  obtain ⟨params, -, hparams⟩ := bind_eq_some_iff.mp hline
  obtain ⟨tokenUsage, -, hcredit⟩ := bind_eq_some_iff.mp hparams
  split at hcredit
  · cases hcredit
  · obtain ⟨q, -, rfl⟩ := map_eq_some_iff.mp hcredit
    obtain ⟨r, -, hr⟩ := mem_filterMap.mp (OrderedDict.mem_of_lookup hn)
    obtain ⟨m, hm, heq⟩ := map_eq_some_iff.mp hr
    obtain ⟨-, rfl⟩ := Prod.mk.inj heq
    unfold PiEvents.asCount at hm
    simpa using (filter_eq_some_iff.mp hm).2

def State.ledger (s : State) : Json × OrderedDict String (OrderedDict String Int) :=
  (s.usage, s.childUsage)

theorem ledger_of_core (h : s'.core = s.core) : s'.ledger = s.ledger := by
  have husage := congrArg Core.usage h
  have hchild := congrArg Core.childUsage h
  exact Prod.ext husage hchild

theorem ledger_of_fillsIdentity (h : FillsIdentity s s') : s'.ledger = s.ledger := by
  rcases h with h | ⟨-, threadId, -, h⟩
  · exact ledger_of_core h
  · have husage := congrArg Core.usage h
    have hchild := congrArg Core.childUsage h
    exact Prod.ext husage hchild

theorem ledger_setThreadIdentity (thread : JsonObject) (s : State) :
    (setThreadIdentity thread s).ledger = s.ledger := by
  unfold setThreadIdentity
  split
  · rfl
  · rfl

theorem ledger_captureRealThreadId {raw : Option Json} (h : captureRealThreadId raw s = some s') :
    s'.ledger = s.ledger := by
  have hcapture : ∀ (t : State) (thread : JsonObject), (captureThread t thread).ledger = t.ledger := by
    intro t thread
    unfold captureThread
    split
    · rfl
    · rfl
  unfold captureRealThreadId at h
  split at h
  · rw [← some.inj h]
  · rw [← some.inj h]
    simp only [foldl_cons, foldl_nil, hcapture]
    split
    · rfl
    · rfl
  · cases h

/-- A turn that completes writes the root's usage to the log and the total to the result file. -/
theorem completeTurn_eq (h : completeTurn env record rawLine s = some s') :
    ∃ usage before, usageOf record s = some usage ∧
      s'.events = before ++ [eventOf s "usage.final" [("usage", .obj usage)] rawLine] ∧
      s'.result.map (·.get "usage") = some (.obj (attemptUsage s usage)) ∧ s'.ledger = s.ledger := by
  have hsettle : ∀ (l : List String) (t : State),
      (l.foldl (closeDelegation env "cancelled" .null rawLine) t).core = t.core ∧
        (l.foldl (closeDelegation env "cancelled" .null rawLine) t).currentAgent =
          t.currentAgent := by
    intro l
    induction l with
    | nil => exact fun t => ⟨rfl, rfl⟩
    | cons c rest ih =>
      intro t
      have hfirst := core_closeDelegation env "cancelled" .null rawLine t c
      have hagent : (closeDelegation env "cancelled" .null rawLine t c).currentAgent =
          t.currentAgent := by
        unfold closeDelegation
        split
        · rfl
        · split
          · rfl
          · rfl
      exact ⟨(ih _).1.trans hfirst, (ih _).2.trans hagent⟩
  unfold completeTurn at h
  dsimp only at h
  obtain ⟨hcore, hagent⟩ := hsettle
    (closeOpenReasoning "turn_completed_without_block_end" rawLine s).delegationToolByChild.keys
    (closeOpenReasoning "turn_completed_without_block_end" rawLine s)
  generalize List.foldl (closeDelegation env "cancelled" .null rawLine) _ _ = t at h hcore hagent
  rw [core_closeOpenReasoning] at hcore
  have hagent' : t.currentAgent = s.currentAgent := by
    rw [hagent, closeOpenReasoning_eq]
  obtain ⟨usage, husage, rfl⟩ := map_eq_some_iff.mp h
  have hsame : t.usage = s.usage := congrArg Core.usage hcore
  have hchild : t.childUsage = s.childUsage := congrArg Core.childUsage hcore
  refine ⟨usage, t.events, ?_, ?_, ?_, ?_⟩
  · rw [usageOf, ← usageSource_congr hsame]
    exact husage
  · rw [eventOf, ← hagent']
    rfl
  · show some (Json.obj (PiEvents.attemptUsage t.childUsage usage)) = _
    rw [hchild]
    rfl
  · exact Prod.ext hsame hchild

theorem ledger_failTurn {message : String} (h : failTurn env record message rawLine s = some s') :
    s'.ledger = s.ledger := by
  obtain ⟨usage, -, rfl⟩ := map_eq_some_iff.mp h
  rfl

theorem ledger_translateRecord (h : translateRecord env record rawLine s = some s') :
    s'.ledger = s.ledger := by
  cases hturn : endsTurn record with
  | false => exact ledger_of_fillsIdentity (core_translateRecord h hturn)
  | true =>
    have hentered := ledger_of_core (core_setCurrentAgent record s)
    rcases Bool.or_eq_true_iff.mp hturn with htype | htype
    · rw [translateRecord_completed htype] at h
      obtain ⟨-, -, -, -, -, hledger⟩ := completeTurn_eq h
      exact hledger.trans hentered
    · rw [translateRecord_failed htype] at h
      exact ((ledger_failTurn h).trans (ledger_of_core (core_closeOpenReasoning _ _ _))).trans
        hentered

/-- What a token usage does to the tables. -/
def tallied (rootId : String) (params : JsonObject)
    (ledger : Json × OrderedDict String (OrderedDict String Int)) :
    Json × OrderedDict String (OrderedDict String Int) :=
  ((rootReport rootId params).getD ledger.1,
    match childCredit rootId params with
    | some credit => enter ledger.2 credit
    | none => ledger.2)

theorem ledger_handleTokenUsage (params : JsonObject) (s : State) :
    (handleTokenUsage params s).ledger = tallied s.threadId params s.ledger := by
  unfold handleTokenUsage tallied rootReport childCredit
  cases (params.get "tokenUsage").asObject with
  | none => rfl
  | some tokenUsage =>
    dsimp only [bind_some]
    cases (params.get "threadId").isStr s.threadId with
    | true => rfl
    | false =>
      simp only [Bool.false_eq_true, if_false]
      cases childReport params tokenUsage with
      | none => rfl
      | some p => rfl

theorem ledger_handleNotification {method : String} (hmethod : method ≠ "thread/tokenUsage/updated")
    (h : handleNotification env method params rawLine s = some s') : s'.ledger = s.ledger := by
  cases handleNotification_cases h with
  | threadStarted _ =>
    exact (ledger_of_core (core_emitModelResolved env rawLine _)).trans
      (ledger_setThreadIdentity _ s)
  | item _ _ hitem =>
    obtain ⟨item, -, hrecord⟩ := bind_eq_some_iff.mp hitem
    exact ledger_translateRecord hrecord
  | messageDelta _ => rfl
  | reasoningDelta _ => rfl
  | tokenUsage husage => exact absurd husage hmethod
  | turnCompleted _ hturn =>
    rw [handleTurnCompleted_eq] at hturn
    split at hturn
    · exact ledger_translateRecord hturn
    · rw [← some.inj hturn]
  | failed _ =>
    unfold handleErrorNotification
    dsimp only
    split
    · rfl
    · rfl
  | compacted _ => exact ledger_of_core (core_handleCompacted params rawLine s)
  | ignored _ => rfl

theorem ledger_translate (hmethod : (record.get "method").asString = none)
    (h : translate env record rawLine s = some s') : s'.ledger = s.ledger := by
  unfold translate at h
  split at h
  · obtain ⟨⟨t, taken⟩, happ, hrest⟩ := bind_eq_some_iff.mp h
    have htaken : t.ledger = s.ledger := by
      unfold translateAppServer at happ
      split at happ
      · next method hstr =>
        rw [hstr] at hmethod
        cases hmethod
      · dsimp only at happ
        split at happ
        · obtain ⟨u, hu, heq⟩ := map_eq_some_iff.mp happ
          obtain ⟨rfl, -⟩ := Prod.mk.inj heq
          exact ((ledger_failTurn hu).trans (ledger_of_core (core_closeOpenReasoning _ _ _))).trans
            (ledger_setThreadIdentity _ s)
        · obtain ⟨rfl, -⟩ := Prod.mk.inj (some.inj happ)
          exact ledger_setThreadIdentity _ s
    dsimp only at hrest
    split at hrest
    · rw [← some.inj hrest, htaken]
    · rw [ledger_translateRecord hrest, htaken]
  · exact ledger_translateRecord h

/-! ### The Run -/

/-- The line is read while the adapter takes the thread for the root. -/
def ReadAs (rootId : String) (m : State × Line) : Prop :=
  ∀ t ∈ captureRealThreadId m.2.raw m.1, t.threadId = rootId

instance (rootId : String) (m : State × Line) : Decidable (ReadAs rootId m) :=
  inferInstanceAs (Decidable (∀ t ∈ captureRealThreadId m.2.raw m.1, t.threadId = rootId))

/-- Only a usage notification changes the ledger. -/
theorem ledger_stepLine (hknown : line.usageParams.isSome → ReadAs rootId (s, line))
    (h : stepLine env s line = some s') :
    s'.ledger = match line.usageParams with
      | some params => tallied rootId params s.ledger
      | none => s.ledger := by
  cases hnotified : line.notified with
  | some p =>
    obtain ⟨method, params⟩ := p
    rw [stepLine_notified hnotified] at h
    obtain ⟨t, ht, hrun⟩ := bind_eq_some_iff.mp h
    have hcaptured := ledger_captureRealThreadId ht
    by_cases hmethod : method = "thread/tokenUsage/updated"
    · subst hmethod
      have hparams : line.usageParams = some params := by
        rw [Line.usageParams, hnotified]
        rfl
      have hroot : t.threadId = rootId := hknown (by rw [hparams]; rfl) t ht
      have hstate : handleTokenUsage params { t with lineNo := t.lineNo + 1 } = s' :=
        some.inj hrun
      rw [hparams, ← hstate, ledger_handleTokenUsage]
      show tallied t.threadId params t.ledger = _
      rw [hroot, hcaptured]
    · have hparams : line.usageParams = none := by
        rw [Line.usageParams, hnotified]
        exact if_neg hmethod
      rw [hparams, ledger_handleNotification hmethod hrun]
      exact hcaptured
  | none =>
    have hparams : line.usageParams = none := by
      rw [Line.usageParams, hnotified]
      rfl
    obtain ⟨t, ht, hrun⟩ := bind_eq_some_iff.mp h
    rw [hparams, ← ledger_captureRealThreadId ht]
    dsimp only at hrun ⊢
    split at hrun
    · rw [← some.inj hrun]
    next htext =>
    unfold readLine at hrun
    dsimp only at hrun
    split at hrun
    · next record hdict =>
      have hmethod : (record.get "method").asString = none := by
        rw [Line.notified, if_neg htext, hdict, bind_some, map_eq_none_iff] at hnotified
        exact hnotified
      have hledger := ledger_translate hmethod hrun
      exact hledger
    · cases hrun
      have hledger := ledger_of_core (core_reportLine line { t with lineNo := t.lineNo + 1 })
      exact hledger

/-- Every token usage is read while the adapter takes the thread for the root. -/
def ReportsRead (env : Env) (rootId : String) (s : State) (lines : List Line) : Prop :=
  ∀ m ∈ moments (stepLine env) s lines, m.2.usageParams.isSome → ReadAs rootId m

/-- **Ledger**: the state holds the last report of the root and keeps the counts of the children. -/
theorem ledger_run (hread : ReportsRead env rootId s lines)
    (h : translateLines env s lines = some s') :
    s'.usage = (rootReports rootId lines).getLast?.getD s.usage ∧
      ∀ credits, Tally.Keeps s.childUsage credits →
        Tally.Keeps s'.childUsage (credits ++ childCredits rootId lines) := by
  induction lines generalizing s with
  | nil =>
    cases h
    exact ⟨rfl, fun credits hkeeps => by simpa [childCredits] using hkeeps⟩
  | cons line rest ih =>
    obtain ⟨u, hu, hrest⟩ := foldlM_cons.mp h
    have hfirst : line.usageParams.isSome → ReadAs rootId (s, line) :=
      hread (s, line) (by simp [moments])
    have hlater : ReportsRead env rootId u rest := by
      intro m hm
      exact hread m (by simp [moments, hu, hm])
    obtain ⟨husage, hchild⟩ := ih hlater hrest
    have hstep := ledger_stepLine hfirst hu
    have hdedup := nodup_keys_childCredits rootId (line :: rest)
    rw [husage]
    cases hparams : line.usageParams with
    | none =>
      rw [hparams] at hstep
      obtain ⟨hsame, hsame'⟩ := Prod.mk.inj hstep
      simp only [rootReports, childCredits, filterMap_cons, hparams, bind_none] at hchild ⊢
      rw [hsame]
      refine ⟨rfl, fun credits hkeeps => hchild credits ?_⟩
      rw [hsame']
      exact hkeeps
    | some params =>
      rw [hparams] at hstep
      obtain ⟨hroot, hledger⟩ := Prod.mk.inj hstep
      constructor
      · rw [hroot]
        cases hreport : rootReport rootId params with
        | none => simp [rootReports, hparams, hreport, State.ledger]
        | some report =>
          simp only [rootReports, filterMap_cons, hparams, bind_some, hreport, getD_some]
          cases List.filterMap (fun line => line.usageParams.bind (rootReport rootId)) rest with
          | nil => rfl
          | cons r more => simp [getLast?_cons]
      · intro credits hkeeps
        cases hcredit : childCredit rootId params with
        | none =>
          have hsame : childCredits rootId (line :: rest) = childCredits rootId rest := by
            simp [childCredits, hparams, hcredit]
          rw [hsame]
          apply hchild
          rw [hledger, hcredit]
          exact hkeeps
        | some credit =>
          have hcons : childCredits rootId (line :: rest) = credit :: childCredits rootId rest := by
            simp [childCredits, hparams, hcredit]
          rw [hcons] at hdedup ⊢
          rw [← singleton_append, ← append_assoc]
          apply hchild
          rw [hledger, hcredit]
          exact hkeeps.enter (hdedup credit mem_cons_self)

/-! ### The Outputs -/

/-- The usage of the last `usage.final` event. -/
def finalUsage (s : State) : Option JsonObject :=
  ((s.events.filter fun e => e.type == "usage.final").getLast?).bind fun e =>
    (e.payload.get "usage").asObject

def resultUsage (s : State) : Option JsonObject :=
  s.result.bind fun file => (file.get "usage").asObject

/-- The line ends a turn of the root that has completed. -/
def Line.completesTurn (rootId : String) (line : Line) : Prop :=
  ∃ params, line.notified = some ("turn/completed", params) ∧
    (params.get "threadId").isStr rootId ∧
    ((dictOr (params.get "turn")).get "status").isStr "completed"

def EndsCompleted (rootId : String) (lines : List Line) : Prop :=
  ∃ line ∈ lines.getLast?, line.completesTurn rootId

/-- The token usages and the last line are read while the adapter takes the thread for the root. -/
structure RootRead (env : Env) (rootId : String) (lines : List Line) : Prop where
  reports : ReportsRead env rootId {} lines
  ending : ∀ m ∈ (moments (stepLine env) {} lines).getLast?, ReadAs rootId m

theorem dictOr_orElse (value : Json) : dictOr (value.orElse (.obj [])) = dictOr value := by
  unfold Json.orElse
  cases htruthy : value.truthy with
  | true => rfl
  | false =>
    cases value with
    | obj fields =>
      cases fields with
      | nil => rfl
      | cons p rest => cases htruthy
    | _ => rfl

theorem usageOf_turnCompleted {usage : JsonObject} (hsame : t.usage = s.usage)
    (h : usageOf (turnCompletedRecord s) t = some usage) :
    usage = usageFields (dictOr s.usage) := by
  have hchain : ∀ value : Json,
      ((((Json.obj (dictOr value)).orElse (.obj [])).orElse (.obj [])).orElse value).asObject =
        value.asObject := by
    intro value
    cases value with
    | obj fields =>
      cases fields with
      | nil => rfl
      | cons p rest => rfl
    | _ => rfl
  have hsource : (usageSource (turnCompletedRecord s) t).asObject =
      (s.usage.orElse (.obj [])).asObject := by
    rw [← hchain (s.usage.orElse (.obj []))]
    unfold usageSource turnCompletedRecord
    rw [hsame]
    rfl
  obtain ⟨source, hread, rfl⟩ := map_eq_some_iff.mp h
  rw [hsource] at hread
  rw [← dictOr_orElse, dictOr, hread, getD_some]

theorem lastLine_run (hend : lines.getLast? = some line) (h : translateLines env {} lines = some s) :
    ∃ t, (moments (stepLine env) {} lines).getLast? = some (t, line) ∧
      stepLine env t line = some s := by
  have hgeneral : ∀ (lines : List Line) (u : State), lines.getLast? = some line →
      lines.foldlM (stepLine env) u = some s →
      ∃ t, (moments (stepLine env) u lines).getLast? = some (t, line) ∧
        stepLine env t line = some s := by
    intro lines
    induction lines with
    | nil =>
      intro u hnil
      cases hnil
    | cons first rest ih =>
      intro u hlast hrun
      obtain ⟨v, hv, hrest⟩ := foldlM_cons.mp hrun
      cases rest with
      | nil =>
        cases hlast
        cases hrest
        exact ⟨u, by simp [moments, hv], hv⟩
      | cons second more =>
        obtain ⟨t, ht, hstep⟩ := ih v hlast hrest
        refine ⟨t, ?_, hstep⟩
        rw [moments, hv]
        simp only [moments] at ht ⊢
        rw [getLast?_cons_cons]
        exact ht
  exact hgeneral lines {} hend h

/-- The log and the result file behind a turn of the root that has completed. -/
theorem outputs_completed (hend : EndsCompleted rootId lines)
    (hread : RootRead env rootId lines) (h : translateLines env {} lines = some s) :
    finalUsage (emitTerminalAtEof s) = some (rootUsage rootId lines) ∧
      ∃ ledger, Tally.Keeps ledger (childCredits rootId lines) ∧
        resultUsage (emitTerminalAtEof s) =
          some (PiEvents.attemptUsage ledger (rootUsage rootId lines)) := by
  obtain ⟨husage, hkeeps⟩ := ledger_run hread.reports h
  obtain ⟨line, hlast, params, hnotified, hroot, hstatus⟩ := hend
  obtain ⟨t, hmoment, hstep⟩ := lastLine_run hlast h
  rw [stepLine_notified hnotified] at hstep
  obtain ⟨u, hu, hrun⟩ := bind_eq_some_iff.mp hstep
  have hthread : u.threadId = rootId := hread.ending _ hmoment u hu
  generalize hv : ({ u with lineNo := u.lineNo + 1 } : State) = v at hrun
  have hrootv : (params.get "threadId").isStr v.threadId := by
    rw [← hv]
    show (params.get "threadId").isStr u.threadId
    rw [hthread]
    exact hroot
  have hturn : handleNotification env "turn/completed" params (u.lineNo + 1) v =
      completeTurn env (turnCompletedRecord v) (u.lineNo + 1)
        (setCurrentAgent (turnCompletedRecord v) v) := by
    have hrecord : turnRecord env params v = turnCompletedRecord v := by
      unfold turnRecord
      rw [if_pos hstatus]
    show handleTurnCompleted env params (u.lineNo + 1) v = _
    rw [handleTurnCompleted_eq, if_pos hrootv, hrecord, translateRecord_completed rfl]
  rw [hturn] at hrun
  obtain ⟨usage, before, hsource, hevents, hresult, hledger⟩ := completeTurn_eq hrun
  have hentered := ledger_of_core (core_setCurrentAgent (turnCompletedRecord v) v)
  have hfinal : usage = rootUsage rootId lines := by
    have hsame : v.usage = s.usage := (congrArg Prod.fst (hledger.trans hentered)).symm
    rw [usageOf_turnCompleted (congrArg Prod.fst hentered) hsource, hsame, husage]
    rfl
  have hdone : s.terminalType = some .completed := by
    obtain ⟨-, -, rfl⟩ := map_eq_some_iff.mp hrun
    rfl
  refine ⟨?_, s.childUsage, by simpa using hkeeps [] keeps_nil, ?_⟩
  · have hevent : ((emitTerminalAtEof s).events.filter fun e => e.type == "usage.final").getLast? =
        some (eventOf (setCurrentAgent (turnCompletedRecord v) v) "usage.final"
          [("usage", .obj usage)] (u.lineNo + 1)) := by
      unfold emitTerminalAtEof
      rw [hdone]
      dsimp only
      rw [events_emit, hevents]
      simp [eventOf]
    rw [finalUsage, hevent, bind_some, eventOf, get_payloadFor (by decide), ← hfinal]
    rfl
  · have hfile : (emitTerminalAtEof s).result = s.result := by
      unfold emitTerminalAtEof
      rw [hdone]
      rfl
    obtain ⟨file, hsome, hget⟩ := map_eq_some_iff.mp hresult
    have hchild : s.childUsage = (setCurrentAgent (turnCompletedRecord v) v).childUsage :=
      congrArg Prod.snd hledger
    rw [resultUsage, hfile, hsome, bind_some, hget, attemptUsage, ← hchild, hfinal]
    rfl

/-! ### The Amounts -/

/-- The keys of a usage whose values are numbers. -/
def numericKeys : List String := tokenKeys ++ ["cost"]

/-- The event and the result file say the same under each key for which the root's last value is a
    number: that value plus the greatest count that each child has reported. -/
def UsageAgrees (env : Env) (rootId : String) (lines : List Line) : Prop :=
  ∃ s final total, main env lines = some s ∧ finalUsage s = some final ∧
    resultUsage s = some total ∧
    ∀ key ∈ numericKeys, ∀ a, amount ((rootUsage rootId lines).get key) = some a →
      amount (final.get key) = some (a + (childrenTotal rootId lines key : Int)) ∧
        amount (total.get key) = some (a + (childrenTotal rootId lines key : Int))

/-- The children report nothing that the event lacks. -/
structure NothingAdded (rootId : String) (lines : List Line) (key : String) : Prop where
  /-- No child reports a count above zero. -/
  counts : ∀ p ∈ childCredits rootId lines, ∀ n ∈ p.2.lookup key, n = 0
  /-- A zero is added to an integer or to nothing. -/
  root : ((rootUsage rootId lines).get key).asInt.isSome ∨
    amount ((rootUsage rootId lines).get key) = some 0 ∨
      ∀ p ∈ childCredits rootId lines, p.2.lookup key = none

/-- The streams agree on the last report of the root and on the reports of each child. -/
structure SameReports (rootId : String) (lines lines' : List Line) : Prop where
  root : (rootReports rootId lines).getLast? = (rootReports rootId lines').getLast?
  children : ∀ child, (childCredits rootId lines).filter (·.1 = child) =
    (childCredits rootId lines').filter (·.1 = child)

/-- The outputs agree on the event and on each key of the total. -/
structure SameTotals (s s' : State) : Prop where
  final : finalUsage s = finalUsage s'
  total : ∀ key, (resultUsage s).map (·.get key) = (resultUsage s').map (·.get key)

theorem get_attemptUsage_of_keeps {ledger : OrderedDict String (OrderedDict String Int)}
    {credits : List (String × OrderedDict String Int)} (h : Tally.Keeps ledger credits)
    {root : JsonObject} (hroot : root ≠ []) (key : String) :
    (PiEvents.attemptUsage ledger root).get key =
      if ∀ p ∈ credits, p.2.lookup key = none then root.get key
      else .int ((root.get key).asInt.getD 0 +
        (credits.map (·.1)).toFinset.sum fun child => highest credits child key) := by
  have husages : ∀ u ∈ ledger.map (·.2), u.keys.Nodup := by
    intro u hu
    obtain ⟨p, hp, rfl⟩ := List.mem_map.mp hu
    exact h.counts p hp
  have hnone : (∀ u ∈ ledger.map (·.2), u.lookup key = none) ↔
      ∀ p ∈ credits, p.2.lookup key = none := by
    rw [← h.lookup_eq_none_iff key]
    exact List.forall_mem_map
  have hempty : root.isEmpty = false := by simpa using hroot
  have hsum : (((ledger.map (·.2)).map fun u => (u.lookup key).getD 0)).sum =
      (credits.map (·.1)).toFinset.sum fun child => highest credits child key := by
    rw [← h.sum key, List.map_map]
    rfl
  unfold PiEvents.attemptUsage
  rw [hempty, if_neg (by simp), PiEvents.get_addChildren husages, hsum]
  simp only [hnone]

/-- The total of the children is nothing when no child reports a count above zero. -/
theorem childrenTotal_eq_zero_iff (rootId : String) (lines : List Line) (key : String) :
    childrenTotal rootId lines key = 0 ↔
      ∀ p ∈ childCredits rootId lines, ∀ n ∈ p.2.lookup key, n = 0 := by
  unfold childrenTotal
  rw [Finset.sum_eq_zero_iff_of_nonneg fun child _ => highest_nonneg _ child key]
  constructor
  · intro h p hp n hn
    have hzero := h p.1 (List.mem_toFinset.mpr (List.mem_map_of_mem hp))
    have hvalue : n ∈ values (childCredits rootId lines) p.1 key :=
      mem_filterMap.mpr ⟨p, hp, (if_pos rfl).trans hn⟩
    have hle := le_highest hvalue
    have hnonneg := childCredits_nonneg hp hn
    omega
  · intro h child _
    apply highest_eq_zero
    intro n hn
    obtain ⟨p, hp, hvalue⟩ := mem_filterMap.mp hn
    split at hvalue
    · exact h p hp n hvalue
    · cases hvalue

theorem rootUsage_ne_nil (rootId : String) (lines : List Line) : rootUsage rootId lines ≠ [] :=
  cons_ne_nil _ _

theorem amounts_iff {ledger : OrderedDict String (OrderedDict String Int)}
    (h : Tally.Keeps ledger (childCredits rootId lines)) {a : Rat}
    (ha : amount ((rootUsage rootId lines).get key) = some a) :
    (amount ((rootUsage rootId lines).get key) =
          some (a + (childrenTotal rootId lines key : Int)) ∧
        amount ((PiEvents.attemptUsage ledger (rootUsage rootId lines)).get key) =
          some (a + (childrenTotal rootId lines key : Int))) ↔
      NothingAdded rootId lines key := by
  have hzero := childrenTotal_eq_zero_iff rootId lines key
  have hevent : amount ((rootUsage rootId lines).get key) =
      some (a + (childrenTotal rootId lines key : Int)) ↔ childrenTotal rootId lines key = 0 := by
    rw [ha, some_inj, left_eq_add, ← Rat.intCast_zero, Rat.intCast_inj]
  rw [hevent, get_attemptUsage_of_keeps h (rootUsage_ne_nil rootId lines)]
  constructor
  · rintro ⟨htotal, hresult⟩
    refine ⟨hzero.mp htotal, ?_⟩
    rw [htotal, Rat.intCast_zero, add_zero] at hresult
    split at hresult
    · next hnone => exact .inr (.inr hnone)
    · cases hint : ((rootUsage rootId lines).get key).asInt with
      | some n => exact .inl rfl
      | none =>
        have hsum : (((childCredits rootId lines).map (·.1)).toFinset.sum fun child =>
          highest (childCredits rootId lines) child key) = 0 := htotal
        rw [hint, hsum, amount, getD_none, add_zero, some_inj] at hresult
        exact .inr (.inl (by rw [ha, ← hresult, Rat.intCast_zero]))
  · rintro ⟨hcounts, hroot⟩
    have htotal := hzero.mpr hcounts
    have hsum : (((childCredits rootId lines).map (·.1)).toFinset.sum fun child =>
      highest (childCredits rootId lines) child key) = 0 := htotal
    refine ⟨htotal, ?_⟩
    rw [hsum, htotal, Rat.intCast_zero, add_zero, add_zero]
    split
    · exact ha
    next hsome =>
    cases hint : ((rootUsage rootId lines).get key).asInt with
    | some n =>
      rw [PiEvents.amount_of_asInt hint] at ha
      exact ha
    | none =>
      rcases hroot with hint' | hnothing | hnone
      · rw [hint] at hint'
        cases hint'
      · cases ha.symm.trans hnothing
        rfl
      · exact absurd hnone hsome

/-- The totals depend on the reports alone. -/
theorem sameTotals_of_sameReports {lines' : List Line}
    (hend : EndsCompleted rootId lines) (hend' : EndsCompleted rootId lines')
    (hread : RootRead env rootId lines) (hread' : RootRead env rootId lines')
    (hsame : SameReports rootId lines lines') (h : main env lines = some s)
    (h' : main env lines' = some s') : SameTotals s s' := by
  obtain ⟨t, ht, rfl⟩ := map_eq_some_iff.mp h
  obtain ⟨t', ht', rfl⟩ := map_eq_some_iff.mp h'
  obtain ⟨hfinal, ledger, hkeeps, hresult⟩ := outputs_completed hend hread ht
  obtain ⟨hfinal', ledger', hkeeps', hresult'⟩ := outputs_completed hend' hread' ht'
  have hroot : rootUsage rootId lines = rootUsage rootId lines' := by
    rw [rootUsage, hsame.root, rootUsage]
  have hmem : ∀ p, p ∈ childCredits rootId lines ↔ p ∈ childCredits rootId lines' := by
    intro p
    have hfilter := hsame.children p.1
    constructor
    · intro hp
      have hin : p ∈ (childCredits rootId lines).filter (·.1 = p.1) := by simp [hp]
      rw [hfilter] at hin
      exact (mem_filter.mp hin).1
    · intro hp
      have hin : p ∈ (childCredits rootId lines').filter (·.1 = p.1) := by simp [hp]
      rw [← hfilter] at hin
      exact (mem_filter.mp hin).1
  have hchildren : ((childCredits rootId lines).map (·.1)).toFinset =
      ((childCredits rootId lines').map (·.1)).toFinset := by
    ext child
    simp [hmem]
  have hhighest : ∀ child key, highest (childCredits rootId lines) child key =
      highest (childCredits rootId lines') child key := by
    have hvalues : ∀ (credits : List (String × OrderedDict String Int)) child key,
        values credits child key =
          values (credits.filter (·.1 = child)) child key := by
      intro credits child key
      unfold values
      rw [filterMap_filter]
      apply filterMap_congr
      intro p _
      by_cases hp : p.1 = child
      · simp [hp]
      · simp [hp]
    intro child key
    unfold highest
    rw [hvalues (childCredits rootId lines), hsame.children, ← hvalues]
  constructor
  · rw [hfinal, hfinal', hroot]
  · intro key
    rw [hresult, hresult', map_some, map_some,
      get_attemptUsage_of_keeps hkeeps (rootUsage_ne_nil rootId lines),
      get_attemptUsage_of_keeps hkeeps' (rootUsage_ne_nil rootId lines'), hroot, hchildren]
    simp only [hmem, hhighest]

def rootTokens (n : Int) : Line :=
  notification "thread/tokenUsage/updated" [("threadId", .str "root-1"),
    ("tokenUsage", .obj [("last", .obj [("inputTokens", .int n)])])]

/-- A child reports what it has used so far. -/
def childTokens (n : Int) : Line :=
  notification "thread/tokenUsage/updated" [("threadId", .str "child-1"),
    ("tokenUsage", .obj [("total", .obj [("inputTokens", .int n)])])]

theorem endsCompleted_endTurn (lines : List Line) :
    EndsCompleted "root-1" (lines ++ [endTurn "completed"]) :=
  ⟨endTurn "completed", by simp, _, rfl, rfl, rfl⟩

end Codify.Harness.CodexEvents

import Codify.Harness.PiDelegations

/-! # Records the Pi Translator Survives

    `translate` raises on a few records only: a command or a type that is a list
    or a dict, deltas that are no texts when their block ends, a delta for the
    arguments of a call that are neither text nor list, and the end of a call
    whose captured input looks like an open row with a subagent that is no dict.

    * **Records**: `readable` says which records do not raise (`translate_isSome`).
    * **End of input**: `readableAtEof` (`emitTerminalAtEof_isSome`).
-/

namespace Codify.Harness.PiEvents

open Codify.Framework Codify.Harness List Option State

variable {env : Env} {record event : JsonObject} {rawLine : Nat} {s s' : State}

/-! ### Nested Tool Calls -/

/-- `arguments += delta` is defined. -/
def growable : Json → Bool
  | .str _ => true
  | .arr _ => true
  | _ => false

theorem appendArguments_isSome (arguments : Json) (delta : String) :
    (appendArguments arguments delta).isSome = growable arguments := by
  cases arguments <;> rfl

/-- The arguments so far of the call an event is about. -/
def argumentsSoFar (env : Env) (event : JsonObject) (pending : PendingCalls) : Option Json :=
  match pending.find env event with
  | some i => (pending.calls[i]?).map (·.arguments)
  | none => some (.str "")

theorem arguments_modify (pending : PendingCalls) (i j : Nat) {f : PendingCall → PendingCall}
    (hf : ∀ c, (f c).arguments = c.arguments) :
    ((pending.modify i f).calls[j]?).map (·.arguments) =
      (pending.calls[j]?).map (·.arguments) := by
  simp only [PendingCalls.modify, getElem?_modify]
  cases pending.calls[j]? with
  | none => rfl
  | some c =>
    by_cases hij : i = j
    · simp [hij, hf]
    · simp [hij]

theorem arguments_register (env : Env) (event : JsonObject) (pending : PendingCalls) :
    ((pending.register env event).2.calls[(pending.register env event).1]?).map (·.arguments) =
      argumentsSoFar env event pending := by
  have hentry : ((pending.entry env event).2.calls[(pending.entry env event).1]?).map
      (·.arguments) = argumentsSoFar env event pending := by
    unfold PendingCalls.entry argumentsSoFar
    cases pending.find env event with
    | some i => rfl
    | none => simp
  rw [← hentry]
  unfold PendingCalls.register
  generalize pending.entry env event = e
  obtain ⟨i, p⟩ := e
  have hkey : ∀ (q : PendingCalls) (key : String), (q.addKey key i).calls = q.calls :=
    fun _ _ => rfl
  have hname : ∀ (q : PendingCalls) (name : Json),
      ((q.modify i fun c => { c with name }).calls[i]?).map (·.arguments) =
        (q.calls[i]?).map (·.arguments) := fun q name => arguments_modify q i i fun _ => rfl
  have hid : ∀ (q : PendingCalls) (toolId : Json),
      ((q.modify i fun c => { c with toolId }).calls[i]?).map (·.arguments) =
        (q.calls[i]?).map (·.arguments) := fun q toolId => arguments_modify q i i fun _ => rfl
  dsimp only
  cases idKeyOf env event <;> split_ifs <;> simp only [hname, hid, hkey]

/-- A `toolcall_delta` does not raise. -/
def readsDelta (env : Env) (event : JsonObject) (pending : PendingCalls) : Bool :=
  (event.get "delta").asString.isNone || (argumentsSoFar env event pending).all growable

theorem toolcallDelta_isSome (env : Env) (event : JsonObject) (pending : PendingCalls) :
    (toolcallDelta event (pending.register env event).1 (pending.register env event).2).isSome =
      readsDelta env event pending := by
  unfold toolcallDelta readsDelta
  rw [← arguments_register]
  cases (event.get "delta").asString with
  | none => rfl
  | some delta =>
    cases (pending.register env event).2.calls[(pending.register env event).1]? with
    | none => rfl
    | some call => simp [appendArguments_isSome]

/-! ### Messages and Responses -/

def readsEvent (env : Env) (event : JsonObject) (b : Buffers) : Bool :=
  let etype := event.get "type"
  if etype.isStr "thinking_end" then (joinParts b.thinking).isSome
  else if etype.isStr "text_end" then
    ((asText (event.get "content")).or (joinParts b.textParts)).isSome
  else if etype.isStr "toolcall_delta" then readsDelta env event b.pending
  else etype.hashable

theorem hashable_of_isStr {v : Json} {t : String} (h : v.isStr t) : v.hashable := by
  rw [Json.isStr_iff.mp h]
  rfl

theorem isSome_branch {p : Prop} [Decidable p] {taken rest : Option State} {b : Bool}
    (htaken : p → taken.isSome = b) (hrest : rest.isSome = b) :
    (if p then taken else rest).isSome = b := by
  by_cases h : p
  · rw [if_pos h, htaken h]
  · rw [if_neg h, hrest]

theorem handleNestedToolcall_isSome (env : Env) (event : JsonObject) (rawLine : Nat) (s : State) :
    (handleNestedToolcall env event rawLine s).isSome =
      (!(event.get "type").isStr "toolcall_delta" || readsDelta env event s.pending) := by
  unfold handleNestedToolcall
  dsimp only
  split
  · next hdelta => simp [hdelta, toolcallDelta_isSome]
  · next hdelta => split <;> simp [hdelta]

attribute [local simp] Json.asString Json.isStr

theorem handleMessageEvent_isSome (env : Env) (event : JsonObject) (rawLine : Nat) (s : State) :
    (handleMessageEvent env event rawLine s).isSome = readsEvent env event s.buffers := by
  have htext : (textEnd event rawLine s).isSome =
      ((asText (event.get "content")).or (joinParts s.textParts)).isSome := by
    rw [← endText_eq, textEnd, isSome_map]
  have hthinking : (thinkingEnd rawLine s).isSome = (joinParts s.thinking).isSome := by
    unfold thinkingEnd
    cases joinParts s.thinking <;> rfl
  by_cases hend : (event.get "type").isStr "thinking_end"
  · have htype := Json.isStr_iff.mp hend
    simp [readsEvent, handleMessageEvent, htype, hthinking, buffers]
  · by_cases htextEnd : (event.get "type").isStr "text_end"
    · have htype := Json.isStr_iff.mp htextEnd
      simp [readsEvent, handleMessageEvent, htype, htext, buffers]
    · by_cases hdelta : (event.get "type").isStr "toolcall_delta"
      · have htype := Json.isStr_iff.mp hdelta
        have hcall := handleNestedToolcall_isSome env event rawLine s
        simp only [hdelta, Bool.not_true, Bool.false_or] at hcall
        simp [readsEvent, handleMessageEvent, htype, buffers, Json.hashable, hcall]
      · -- all other branches succeed as soon as the type is hashable
        have hcall := handleNestedToolcall_isSome env event rawLine s
        simp only [hdelta, Bool.not_false, Bool.true_or] at hcall
        unfold readsEvent handleMessageEvent
        simp only [hend, htextEnd, hdelta, if_false, Bool.false_eq_true]
        refine isSome_branch (fun hstart => (hashable_of_isStr hstart).symm) ?_
        refine isSome_branch (fun hthink => (hashable_of_isStr hthink).symm) ?_
        refine isSome_branch (fun hparts => (hashable_of_isStr hparts).symm) ?_
        refine isSome_branch (fun hdeltas => (hashable_of_isStr hdeltas).symm) ?_
        cases hhash : (event.get "type").hashable with
        | false => rfl
        | true =>
          rw [if_pos rfl]
          exact isSome_branch (fun _ => hcall) (isSome_branch (fun _ => rfl) rfl)

/-- A record of the delegation tool does not raise. -/
def readsCall (env : Env) (record : JsonObject) (s : State) : Bool :=
  let callId := toolCallIdOf env record
  let filled := filledRecord env record s
  callId == "" || !isSubagentTool env filled || !isFinalRecord filled ||
    sweepable (withInput env filled (s.delegation callId))

def readable (env : Env) (record : JsonObject) (s : State) : Bool :=
  let type := record.get "type"
  if type.isStr "response" then (record.get "command").hashable
  else if type.isStr "message_update" then readsEvent env (messageEvent record) s.buffers
  else if toolTypes.any type.isStr then readsCall env record s
  else type.hashable

theorem handleResponse_isSome (env : Env) (record : JsonObject) (rawLine : Nat) (s : State) :
    (handleResponse env record rawLine s).isSome = (record.get "command").hashable := by
  unfold handleResponse
  dsimp only
  refine isSome_branch (fun hnew => ?_) ?_
  · simp only [Bool.and_eq_true] at hnew
    exact (hashable_of_isStr hnew.1).symm
  refine isSome_branch (fun hstate => ?_) ?_
  · simp only [Bool.and_eq_true] at hstate
    exact (hashable_of_isStr hstate.1).symm
  cases (record.get "command").hashable with
  | false => rfl
  | true =>
    rw [if_pos rfl]
    refine isSome_branch (fun _ => rfl) (isSome_branch (fun _ => rfl) ?_)
    exact isSome_branch (fun _ => rfl) (isSome_branch (fun _ => rfl) rfl)

theorem handleSubagentTool_isSome (h : DelegationsOk s) (callId : String) :
    (handleSubagentTool env record callId rawLine s).isSome =
      (!isFinalRecord record || sweepable (withInput env record (s.delegation callId))) := by
  have hcall := ofCall_callSnapshots env record callId
  have hcapture := @delegationsOk_captureInput env record _ callId h
  have hproject := @chain_project env rawLine _ _ (isFinalRecord record) _ hcapture hcall _
    fun _ hsnap => hsnap
  have hok := delegationsOk_chain hcall hcapture hproject
  have hinput := congrFun (@inputOf_project env rawLine _ _
    (isFinalRecord record) hcall (captureInput env record callId s)) callId
  unfold handleSubagentTool
  dsimp only
  rw [isSome_map]
  split
  · next hfinal =>
    rw [Bool.eq_iff_iff, settleDelegation_isSome hok]
    unfold sweepable
    rw [show (delegation _ callId).get "input" = inputOf _ callId from rfl, hinput,
      inputOf, delegation_captureInput, if_pos rfl]
    simp [hfinal]
  · next hfinal => simp [hfinal]

theorem handleTool_isSome (h : DelegationsOk s) (record : JsonObject) (rawLine : Nat) :
    (handleTool env record rawLine s).isSome = readsCall env record s := by
  unfold handleTool readsCall
  dsimp only
  split_ifs with hid htool
  · simp [hid]
  · have hpending : DelegationsOk { s with
        pending := (consumePending record (toolCallIdOf env record) s.pending).2 } := h.congr rfl
    have hnonempty : (toolCallIdOf env record == "") = false := by simpa using hid
    rw [handleSubagentTool_isSome hpending, hnonempty, htool]
    simp [delegation]
  · simp [htool]

theorem readsCall_congr {t : State} (hdelegations : t.delegations = s.delegations)
    (hpending : t.pending = s.pending) (record : JsonObject) :
    readsCall env record t = readsCall env record s := by
  simp only [readsCall, filledRecord, delegation, hdelegations, hpending]

/-- **Survival**: the records on which `translate` does not raise. -/
theorem translate_isSome (h : DelegationsOk s) (record : JsonObject) (rawLine : Nat) :
    (translate env record rawLine s).isSome = readable env record s := by
  have hcore := (quiet_beginRecord record rawLine s).core
  have hbuffers := buffers_beginRecord record rawLine s
  unfold translate readable
  generalize beginRecord record rawLine s = t at hcore hbuffers
  have hdelegations : t.delegations = s.delegations := congrArg Core.delegations hcore
  have hpending : t.pending = s.pending := congrArg Buffers.pending hbuffers
  have hok : DelegationsOk t := h.congr hdelegations
  dsimp only
  by_cases hresponse : (record.get "type").isStr "response"
  · simp only [hresponse, if_true, handleResponse_isSome]
  · by_cases hupdate : (record.get "type").isStr "message_update"
    · have htype := Json.isStr_iff.mp hupdate
      have hevent : (handleMessageUpdate env record rawLine t).isSome =
          readsEvent env (messageEvent record) s.buffers := by
        rw [handleMessageUpdate, handleMessageEvent_isSome, buffers_setUsage, hbuffers]
      simpa [htype, silentTypes] using hevent
    · by_cases htool : toolTypes.any (record.get "type").isStr
      · have hcall : (handleTool env record rawLine t).isSome = readsCall env record s := by
          rw [handleTool_isSome hok, readsCall_congr hdelegations hpending]
        obtain ⟨type, hmem, htype⟩ := List.any_eq_true.mp htool
        have hvalue := Json.isStr_iff.mp htype
        simp only [toolTypes, mem_cons, not_mem_nil, or_false] at hmem
        rcases hmem with rfl | rfl | rfl <;> simpa [hvalue, silentTypes, toolTypes] using hcall
      · simp only [hresponse, hupdate, htool, if_false, Bool.false_eq_true]
        refine isSome_branch (fun hsilent => ?_) ?_
        · obtain ⟨type, -, htype⟩ := List.any_eq_true.mp hsilent
          exact (hashable_of_isStr htype).symm
        refine isSome_branch (fun hturn => (hashable_of_isStr hturn).symm) ?_
        refine isSome_branch (fun hend => (hashable_of_isStr hend).symm) ?_
        refine isSome_branch (fun hqueue => (hashable_of_isStr hqueue).symm) ?_
        refine isSome_branch (fun hagent => (hashable_of_isStr hagent).symm) ?_
        refine isSome_branch (fun hsettled => (hashable_of_isStr hsettled).symm) ?_
        cases (record.get "type").hashable with
        | false => rfl
        | true => rfl

/-! ### The End of the Input -/

/-- The end of the input does not raise: the text parts are texts, and the sweep can end every
    row. -/
def readableAtEof (s : State) : Bool :=
  (joinParts s.textParts).isSome && s.delegations.keys.all fun c => sweepable (s.delegation c)

/-- The stream is taken for complete: no failure is recorded, no generic tool is active, and the
    three lines are in order. -/
def State.complete (s : State) : Bool :=
  s.terminalFailure.isNone && (activeTools s).isEmpty && s.ordered

/-- `usage.final`, when there is a usage. -/
def finalUsage (s : State) (rawLine : Nat) : List Event :=
  if (attemptUsage s.childUsage s.usage).isEmpty then []
  else [⟨"usage.final", [("usage", .obj (attemptUsage s.childUsage s.usage))], rawLine⟩]

/-- What the decision of the terminal does. -/
structure Decided (s s' : State) : Prop where
  core : s'.core = { s.core with terminal := s'.terminal, failed := s'.core.failed }
  textParts : s'.textParts = s.textParts
  events : s'.events = s.events ++ finalUsage s s'.terminalLine
  terminal : s'.terminal = some (if s.complete then .completed else .failed)

theorem decided_writeResult (success : Bool) (result : String) (failure : Option Failure)
    {t : State} (hcore : t.core = { s.core with terminal := t.terminal, failed := t.core.failed })
    (hparts : t.textParts = s.textParts) (hevents : t.events = s.events)
    (hterminal : t.terminal = some (if s.complete then .completed else .failed)) :
    Decided s (writeResult success result failure t) := by
  have husage : t.usage = s.usage := congrArg Core.usage hcore
  have hchildren : t.childUsage = s.childUsage := congrArg Core.childUsage hcore
  have htotal : attemptUsage t.childUsage t.usage = attemptUsage s.childUsage s.usage := by
    rw [husage, hchildren]
  unfold writeResult
  dsimp only
  rw [htotal]
  split
  · next hempty => exact ⟨hcore, hparts, by simp [finalUsage, hempty, hevents], hterminal⟩
  · next hempty =>
    exact ⟨hcore, hparts, by simp [finalUsage, hempty, emit, hevents], hterminal⟩

theorem decided_failTerminal {line : Nat} {failure : Failure} (hcomplete : s.complete = false)
    (h : failTerminal line failure s = some s') : Decided s s' := by
  obtain ⟨text, -, rfl⟩ := map_eq_some_iff.mp h
  exact decided_writeResult false text (some failure) rfl rfl rfl (by simp [hcomplete])

theorem decided_decideTerminal (h : decideTerminal s = some s') : Decided s s' := by
  unfold decideTerminal at h
  dsimp only at h
  split at h
  · next failure hfailure => exact decided_failTerminal (by simp [complete, hfailure]) h
  next hfailure =>
  split_ifs at h with hactive hordered
  · refine decided_failTerminal ?_ h
    simp [complete, hactive]
  · obtain ⟨text, -, rfl⟩ := map_eq_some_iff.mp h
    have hcomplete : s.complete := by
      simp [complete, hfailure, hordered, not_not.mp hactive]
    exact decided_writeResult true (strip text) none rfl rfl rfl (by simp [hcomplete])
  · exact decided_failTerminal (by simp [complete, hordered]) h

theorem decideTerminal_isSome (s : State) :
    (decideTerminal s).isSome = (joinParts s.textParts).isSome := by
  have hfail : ∀ line failure, (failTerminal line failure s).isSome =
      (joinParts s.textParts).isSome := by
    intro line failure
    rw [failTerminal, isSome_map]
  unfold decideTerminal
  dsimp only
  split
  · exact hfail _ _
  · split_ifs
    · exact hfail _ _
    · rw [isSome_map]
    · exact hfail _ _

def terminalType (s : State) : String :=
  if s.terminal = some .completed then "harness.completed" else "harness.failed"

/-- The terminal event comes after the sweep and after what closes an open reasoning block. -/
theorem emitTerminal_cases (h : emitTerminal env s = some s') :
    ∃ t reason payload, settleOpenDelegations env s.terminalLine s = some t ∧
      s' = (closeOpenThinking reason t.terminalLine t).emit (terminalType t) payload
        (closeOpenThinking reason t.terminalLine t).terminalLine := by
  obtain ⟨t, ht, h⟩ := bind_eq_some_iff.mp h
  refine ⟨t, ?_⟩
  split at h
  · next hcompleted =>
    obtain ⟨text, -, h⟩ := bind_eq_some_iff.mp h
    exact ⟨_, _, ht, by rw [← some.inj h, terminalType, if_pos hcompleted]⟩
  · next hfailed => exact ⟨_, _, ht, by rw [← some.inj h, terminalType, if_neg hfailed]⟩

theorem delegates_settleOpenDelegations
    (h : settleOpenDelegations env rawLine s = some s') : Delegates s s' :=
  .foldlM (delegates_settleDelegation rawLine) _ h

theorem emitTerminal_isSome (hparts : (joinParts s.textParts).isSome) :
    (emitTerminal env s).isSome = (settleOpenDelegations env s.terminalLine s).isSome := by
  unfold emitTerminal
  cases hsettle : settleOpenDelegations env s.terminalLine s with
  | none => rfl
  | some t =>
    have htext : t.textParts = s.textParts :=
      congrArg Buffers.textParts (delegates_settleOpenDelegations hsettle).buffers
    have hclose : (closeOpenThinking "stream_ended_without_block_end" t.terminalLine t).textParts =
        s.textParts := by
      rw [← htext]
      unfold closeOpenThinking
      split <;> rfl
    obtain ⟨text, hjoin⟩ := isSome_iff_exists.mp hparts
    show Option.isSome (if t.terminal = some .completed then _ else _) = true
    split
    · simp only [hclose, hjoin]
      rfl
    · rfl

/-- **Survival at the end of the input**. -/
theorem emitTerminalAtEof_isSome (h : DelegationsOk s) :
    (emitTerminalAtEof env s).isSome = readableAtEof s := by
  have hparts := decideTerminal_isSome s
  unfold emitTerminalAtEof readableAtEof
  cases hdecide : decideTerminal s with
  | none =>
    rw [hdecide] at hparts
    simp [← hparts]
  | some t =>
    rw [hdecide, isSome_some] at hparts
    have hdecided := decided_decideTerminal hdecide
    have hdelegations : t.delegations = s.delegations := congrArg Core.delegations hdecided.core
    have hok : DelegationsOk t := h.congr hdelegations
    have hsweep := @settleOpenDelegations_isSome env (t.terminalLine) _ hok
    have hsame : ∀ c, t.delegation c = s.delegation c := fun c => by
      simp only [delegation, hdelegations]
    have hall : (settleOpenDelegations env t.terminalLine t).isSome =
        s.delegations.keys.all fun c => sweepable (s.delegation c) := by
      rw [Bool.eq_iff_iff, hsweep, hdelegations, List.all_eq_true]
      simp only [hsame]
    rw [← hparts, Bool.true_and, bind_some, ← hall]
    exact emitTerminal_isSome (by rw [hdecided.textParts, ← hparts])

end Codify.Harness.PiEvents

import Codify.Harness.PiReadable

/-! # Balanced Rows and Blocks

    Every reasoning block that the Pi translator starts is closed once, every
    delegation row that it opens is ended once, and it writes one terminal, last,
    as long as no record meets one of two conditions: a captured input looks like
    an open row, or a snapshot opens a row under an id that another call has used.

    * **Invariant**: `RowsOk` and `BlocksOk`, kept by every step of a chain and by
      every record.
    * **Result**: `guarded_stream_balanced`, over all guarded streams.
-/

namespace Codify.Harness.PiEvents

open Codify.Framework Codify.Harness List Option Brackets State JsonObject Event

variable {env : Env} {record : JsonObject} {rawLine : Nat} {s s' : State}
  {callId callId' key : String}

/-! ### The Log of Rows -/

/-- Tool calls, by tool id, with the ends of delegations. -/
def subagentEnds : Brackets Event (Option String) where
  opens e := if e.type = "tool.started" then some e.toolId else none
  closes e := if e.endsDelegation then some e.toolId else none

/-- The rows in `held` are open in the log, and no `Subagent` ends that was not started. -/
structure RowLog (log : List Event) (held : Set String) : Prop where
  rows : delegationRows.Holds log held
  ends : subagentEnds.ClosesOpened log

/-- An event about no row. -/
structure Event.NoRow (e : Event) : Prop where
  opens : delegationRows.opens e = none
  closes : delegationRows.closes e = none
  noEnd : e.endsDelegation = false

variable {e : Event} {more : List Event}

theorem Event.Plain.noRow (h : e.Plain) : e.NoRow := ⟨h.opensRow, h.closesRow, h.noEnd⟩

theorem noRow_of_type (hstarted : e.type ≠ "tool.started")
    (hcompleted : e.type ≠ "tool.completed") : e.NoRow where
  opens := by simp [delegationRows, hstarted]
  closes := by simp [delegationRows, hcompleted]
  noEnd := by simp [endsDelegation, hcompleted]

theorem noRow_started (htype : e.type = "tool.started") (h : e.subagent = none) :
    e.NoRow where
  opens := by simp [delegationRows, h]
  closes := by simp [delegationRows, htype]
  noEnd := by simp [endsDelegation, htype]

namespace RowLog

variable {log : List Event} {held : Set String}

theorem others (h : RowLog log held) {more : List Event} (hmore : ∀ e ∈ more, e.NoRow) :
    RowLog (log ++ more) held where
  rows := h.rows.others fun e he => ⟨(hmore e he).opens, (hmore e he).closes⟩
  ends := h.ends.others fun e he => by simp [subagentEnds, (hmore e he).noEnd]

variable {e : Event}

theorem other (h : RowLog log held) (he : e.NoRow) : RowLog (log ++ [e]) held :=
  h.others (by simpa using he)

/-- The row of a tool that is started and completed at once, whatever its name. -/
theorem pair (h : RowLog log held) {e e' : Event} (hstarted : e.type = "tool.started")
    (hcompleted : e'.type = "tool.completed") (hid : e'.toolId = e.toolId)
    (hsub : e.subagent = none) (hsub' : e'.subagent = none) : RowLog (log ++ [e] ++ [e']) held := by
  have hfirst := h.other (noRow_started hstarted hsub)
  refine ⟨hfirst.rows.others ?_, hfirst.ends.append ?_⟩
  · intro e'' he''
    obtain rfl := mem_singleton.mp he''
    exact ⟨by simp [delegationRows, hcompleted], by simp [delegationRows, hsub']⟩
  · intro k hk
    have hopened : subagentEnds.opens e = some k := by
      simp only [subagentEnds] at hk ⊢
      split at hk
      · rw [if_pos hstarted, ← hid]
        exact hk
      · cases hk
    exact ⟨e, by simp, hopened⟩

theorem opening (h : RowLog log held) (hopens : delegationRows.opens e = some key)
    (htype : e.type = "tool.started") (hnew : ¬ delegationRows.Opened log key) :
    RowLog (log ++ [e]) (insert key held) where
  rows := h.rows.opening hopens (by simp [delegationRows, htype]) (absurd · hnew)
  ends := h.ends.append fun k hk => by
    simp [subagentEnds, endsDelegation, htype] at hk

theorem closing (h : RowLog log held) (hcloses : delegationRows.closes e = some key)
    (hid : e.toolId = some key) (htype : e.type = "tool.completed") (hheld : key ∈ held) :
    RowLog (log ++ [e]) (held \ {key}) where
  rows := h.rows.closing (by simp [delegationRows, htype]) hcloses hheld
  ends := h.ends.append fun k hk => by
    -- an open row has been started under its id
    obtain ⟨e₀, he₀, hopens⟩ := h.rows.opened key hheld
    simp only [subagentEnds] at hk
    split at hk
    · cases hk
      simp only [delegationRows] at hopens
      split at hopens
      · next hstarted =>
        exact ⟨e₀, he₀, by simp [subagentEnds, hstarted.1, hopens, hid]⟩
      · cases hopens
    · cases hk

end RowLog

/-! ### The Invariant of Rows -/

def State.openRows (s : State) : Set String := {key | ∃ callId, s.rowOpen callId key}

/-- The dicts and the log agree on the rows, and no two calls share one. -/
structure RowsOk (s : State) : Prop where
  shape : DelegationsOk s
  input : ∀ callId, isOpenRow (s.inputOf callId) = false
  log : RowLog s.events s.openRows
  started : ∀ key, delegationRows.Opened s.events key →
    key ≠ "input" ∧ ∃ callId, s.rowStarted callId key
  apart : ∀ key callId callId', key ≠ "input" → s.rowStarted callId key →
    s.rowStarted callId' key → callId = callId'

theorem RowsOk.of_same (h : RowsOk s) (hevents : s'.events = s.events ++ more)
    (hmore : ∀ e ∈ more, e.NoRow) (hdelegations : s'.delegations = s.delegations) : RowsOk s' := by
  have hrow := row_congr hdelegations
  have hstarted : s'.rowStarted = s.rowStarted := by
    funext c k
    simp only [rowStarted, hrow]
  have hopen : s'.openRows = s.openRows := by
    simp only [openRows, rowOpen, rowStarted, rowCompleted, hrow]
  refine ⟨h.shape.congr hdelegations, ?_, ?_, ?_, ?_⟩
  · rw [inputOf_congr hdelegations]
    exact h.input
  · rw [hevents, hopen]
    exact h.log.others hmore
  · intro k hk
    rw [hevents, opened_append_others fun e he => (hmore e he).opens] at hk
    rw [hstarted]
    exact h.started k hk
  · rw [hstarted]
    exact h.apart

attribute [local simp] lookup_cons reasoningBlocks

theorem rowsOk_init : RowsOk {} where
  shape := fun _ => delegationOk_nil
  input := fun _ => rfl
  log := by
    have hnone : openRows {} = ∅ := by
      ext key
      simp [openRows, rowOpen, rowStarted, row, State.delegation, JsonObject.get, Json.asObject,
        freshRow, Json.truthy]
    rw [hnone]
    exact ⟨holds_nil, closesOpened_nil⟩
  started := by
    rintro key ⟨e, he, -⟩
    cases he
  apart := by
    intro key c c' _ hstarted
    simp [rowStarted, row, State.delegation, JsonObject.get, Json.asObject, freshRow, Json.truthy] at hstarted

/-! ### Steps on Rows -/

section Steps

variable {snap : Snapshot} {isFinal : Bool} {snaps : List Snapshot}

theorem rowsOk_rememberChild (h : RowsOk s) (hkey : RowKey callId snap.toolId) :
    RowsOk (rememberChild callId snap s) where
  shape := delegationsOk_rememberChild h.shape hkey
  input := by
    rw [show (rememberChild callId snap s).inputOf = s.inputOf from inputOf_setRow hkey.ne_input s _]
    exact h.input
  log := by
    have hsame : (rememberChild callId snap s).openRows = s.openRows := by
      simp [openRows, rowOpen]
    rw [hsame]
    exact h.log
  started := by
    simp only [rowStarted_rememberChild]
    exact h.started
  apart := by
    simp only [rowStarted_rememberChild]
    exact h.apart

theorem RowsOk.not_opened (h : RowsOk s) (hnot : ∀ c, s.rowStarted c key = false) :
    ¬ delegationRows.Opened s.events key := by
  intro hopened
  obtain ⟨-, c, hc⟩ := h.started key hopened
  rw [hnot c] at hc
  cases hc

theorem opens_startedPayload (env : Env) (snap : Snapshot) (rawLine : Nat) :
    delegationRows.opens ⟨"tool.started", startedPayload env snap, rawLine⟩ = some snap.toolId := by
  simp [delegationRows, subagent, Event.toolId, startedPayload, JsonObject.get, Json.asObject, Json.asString]

/-- A child opens a row that no call has started. -/
theorem rowsOk_openChild (h : RowsOk s) (hkey : RowKey callId snap.toolId)
    (hnot : ∀ c, s.rowStarted c snap.toolId = false) :
    RowsOk (openChild env callId snap rawLine s) := by
  have hstarted := @rowStarted_openChild env rawLine _ _ _ hkey (h.shape.rows callId)
  have hcompleted := @rowCompleted_openChild env rawLine _ _ _ hkey (h.shape.rows callId)
  have hevents : (openChild env callId snap rawLine s).events =
      s.events ++ [⟨"tool.started", startedPayload env snap, rawLine⟩] := rfl
  -- a row that has not been started has not ended either
  have hnotDone : s.rowCompleted callId snap.toolId = false := by
    by_contra hdone
    have hrow := (rowOk_row (h.shape callId) hkey.ne_input).started
      (by simpa [rowCompleted] using hdone)
    exact absurd (hnot callId) (by simpa [rowStarted] using hrow)
  have hopen : (openChild env callId snap rawLine s).openRows = insert snap.toolId s.openRows := by
    ext k
    simp only [openRows, rowOpen, Set.mem_ofPred_eq, Set.mem_insert_iff, hstarted,
      hcompleted]
    constructor
    · rintro ⟨c, hc⟩
      by_cases hk : k = snap.toolId
      · exact .inl hk
      · exact .inr ⟨c, by simpa [hk] using hc⟩
    · rintro (rfl | ⟨c, hc⟩)
      · exact ⟨callId, by simp [hnotDone]⟩
      · refine ⟨c, ?_⟩
        simp only [Bool.and_eq_true] at hc
        simp [hc.1, hc.2]
  refine ⟨delegationsOk_openChild h.shape hkey, ?_, ?_, ?_, ?_⟩
  · rw [inputOf_openChild hkey]
    exact h.input
  · rw [hevents, hopen]
    exact h.log.opening (opens_startedPayload env snap rawLine) rfl (h.not_opened hnot)
  · intro k hk
    rw [hevents, opened_append_singleton, opens_startedPayload] at hk
    rcases hk with hk | hk
    · obtain ⟨hne, c, hc⟩ := h.started k hk
      exact ⟨hne, c, by rw [hstarted, hc, Bool.or_true]⟩
    · cases hk
      exact ⟨hkey.ne_input, callId, by rw [hstarted]; simp⟩
  · intro k c c' hk hc hc'
    rw [hstarted] at hc hc'
    by_cases heq : k = snap.toolId
    · subst heq
      simp only [hnot, Bool.or_false, and_true, decide_eq_true_eq] at hc hc'
      rw [hc, hc']
    · simp only [heq, and_false, decide_false, Bool.false_or] at hc hc'
      exact h.apart k c c' hk hc hc'

/-! ### The Events of a Row that Ends -/

theorem get_attributed (agent : JsonObject) (type : String) (payload : JsonObject)
    {field : String} (h : field ≠ "agent") :
    (attributed agent type payload).get field = payload.get field := by
  unfold attributed
  split
  · exact get_set_ne payload h _
  · rfl

theorem get_childToolStarted (env : Env) (toolId : String) (p : JsonObject × Nat) :
    (childToolStarted env toolId p).get "tool_id" = .str (childCommandId toolId p) ∧
      (childToolStarted env toolId p).get "subagent" = .null := by
  unfold childToolStarted
  dsimp only
  split <;> simp [JsonObject.get, lookup_set]

theorem get_childToolCompleted (env : Env) (toolId : String) (p : JsonObject × Nat) :
    (childToolCompleted env toolId p).get "tool_id" = .str (childCommandId toolId p) ∧
      (childToolCompleted env toolId p).get "subagent" = .null := by
  unfold childToolCompleted
  dsimp only
  split <;> split <;> simp [JsonObject.get, lookup_set]

/-- The second log extends the first one without opening a row. -/
structure Extends (held : Set String) (before after : List Event) : Prop where
  log : RowLog after held
  opened : ∀ key, delegationRows.Opened after key ↔ delegationRows.Opened before key

theorem Extends.trans {held : Set String} {l₁ l₂ l₃ : List Event} (h : Extends held l₁ l₂)
    (h' : Extends held l₂ l₃) : Extends held l₁ l₃ :=
  ⟨h'.log, fun key => (h'.opened key).trans (h.opened key)⟩

theorem extends_childRow {held : Set String} (h : RowLog s.events held) (toolId : String)
    (agent : JsonObject) (p : JsonObject × Nat) :
    Extends held s.events (emitChildToolRow env toolId agent rawLine s p).events := by
  obtain ⟨hid, hsub⟩ := get_childToolStarted env toolId p
  obtain ⟨hid', hsub'⟩ := get_childToolCompleted env toolId p
  have hstartedSub : subagent ⟨"tool.started",
      attributed agent "tool.started" (childToolStarted env toolId p), rawLine⟩ = none := by
    rw [subagent, get_attributed _ _ _ (by decide), hsub]
    rfl
  have hcompletedSub : subagent ⟨"tool.completed",
      attributed agent "tool.completed" (childToolCompleted env toolId p), rawLine⟩ = none := by
    rw [subagent, get_attributed _ _ _ (by decide), hsub']
    rfl
  have hsame : Event.toolId ⟨"tool.completed",
        attributed agent "tool.completed" (childToolCompleted env toolId p), rawLine⟩ =
      Event.toolId ⟨"tool.started",
        attributed agent "tool.started" (childToolStarted env toolId p), rawLine⟩ := by
    rw [Event.toolId, Event.toolId, get_attributed _ _ _ (by decide),
      get_attributed _ _ _ (by decide), hid, hid']
  refine ⟨h.pair rfl rfl hsame hstartedSub hcompletedSub, fun k => ?_⟩
  have hstarted := (noRow_started rfl hstartedSub).opens
  unfold emitChildToolRow emitFor emit
  rw [opened_append_others, opened_append_others]
  · intro e he
    obtain rfl := mem_singleton.mp he
    exact hstarted
  · intro e he
    obtain rfl := mem_singleton.mp he
    rfl

theorem extends_childRows {held : Set String} (h : RowLog s.events held) (toolId : String)
    (agent : JsonObject) (rows : List (JsonObject × Nat)) :
    Extends held s.events (rows.foldl (emitChildToolRow env toolId agent rawLine) s).events := by
  induction rows generalizing s with
  | nil => exact ⟨h, fun _ => Iff.rfl⟩
  | cons p rest ih =>
    have hfirst := @extends_childRow env rawLine _ _ h toolId agent p
    exact hfirst.trans (ih hfirst.log)

theorem extends_reportAnswer {held : Set String} (h : RowLog s.events held) :
    Extends held s.events (reportAnswer env snap rawLine s).events := by
  unfold reportAnswer
  split
  · refine ⟨h.other (noRow_of_type (by simp) (by simp)), fun k => ?_⟩
    unfold emitFor emit
    rw [opened_append_others]
    intro e he
    obtain rfl := mem_singleton.mp he
    rfl
  · exact ⟨h, fun _ => Iff.rfl⟩

/-- An open row is closed in the log and in the table. -/
theorem rowsOk_ended (h : RowsOk s) {log : List Event} {e : Event} (hopen : s.rowOpen callId key)
    (hkey : key ∉ ["rows", "childless"]) (hext : Extends s.openRows s.events log)
    (hcloses : delegationRows.closes e = some key) (hid : e.toolId = some key)
    (htype : e.type = "tool.completed") (hevents : s'.events = log ++ [e])
    (hdelegations : s'.delegations =
      (s.setRow callId key ((s.row callId key).set "completed" (.bool true))).delegations) :
    RowsOk s' := by
  have hinput : key ≠ "input" := by
    rintro rfl
    obtain ⟨flags, hlookup, hflags⟩ := rowOpen_iff.mp hopen
    have hnot := h.input callId
    rw [inputOf, JsonObject.get, hlookup, getD_some, hflags] at hnot
    cases hnot
  have hstartedKey : s.rowStarted callId key := (Bool.and_eq_true_iff.mp hopen).1
  have hrow := row_congr hdelegations
  have hstarted : ∀ c k, s'.rowStarted c k = s.rowStarted c k := by
    intro c k
    rw [rowStarted, hrow]
    exact rowStarted_setCompleted rfl c k
  have hcompleted : ∀ c k, s'.rowCompleted c k =
      (decide (c = callId ∧ k = key) || s.rowCompleted c k) := by
    intro c k
    rw [rowCompleted, hrow]
    exact rowCompleted_setCompleted _ c k
  -- no other call has a row of this id
  have hrows : s'.openRows = s.openRows \ {key} := by
    ext k
    simp only [openRows, rowOpen, Set.mem_ofPred_eq, Set.mem_sdiff, Set.mem_singleton_iff,
      hstarted, hcompleted]
    constructor
    · rintro ⟨c, hc⟩
      simp only [Bool.and_eq_true, Bool.not_or, Bool.not_eq_true', decide_eq_false_iff_not,
        not_and] at hc
      refine ⟨⟨c, by simp [hc.1, hc.2.2]⟩, ?_⟩
      rintro rfl
      exact hc.2.1 (h.apart k c callId hinput hc.1 hstartedKey) rfl
    · rintro ⟨⟨c, hc⟩, hne⟩
      exact ⟨c, by simpa [hne] using hc⟩
  refine ⟨?_, ?_, ?_, ?_, ?_⟩
  · refine DelegationsOk.congr (h.shape.setRow hkey fun _ => ?_) hdelegations
    exact (rowOk_row (h.shape callId) hinput).setCompleted hstartedKey
  · rw [inputOf_congr hdelegations, inputOf_setRow hinput]
    exact h.input
  · rw [hevents, hrows]
    exact hext.log.closing hcloses hid htype ⟨callId, hopen⟩
  · intro k hk
    have hnone : delegationRows.opens e = none := by simp [delegationRows, htype]
    rw [hevents, opened_append_singleton, hnone, hext.opened] at hk
    obtain ⟨hne, c, hc⟩ := h.started k (hk.resolve_right (by simp))
    exact ⟨hne, c, by rw [hstarted, hc]⟩
  · intro k c c' hk hc hc'
    rw [hstarted] at hc hc'
    exact h.apart k c c' hk hc hc'

theorem terminalStates_ne {state status : String}
    (h : delegationTerminalStates.lookup state = some status) : status ≠ "" := by
  have hall : ∀ p ∈ delegationTerminalStates, p.2 ≠ "" := by decide
  exact hall _ (OrderedDict.mem_of_lookup h)

theorem status_callSnapshots (env : Env) (record : JsonObject) (callId : String) :
    ∀ snap ∈ callSnapshots env record callId, ∀ status, snap.status = some status →
      status ≠ "" := by
  intro snap hsnap status hstatus
  have hcall : ∀ result, callStatus env record result ≠ "" := by
    intro result
    unfold callStatus
    dsimp only
    split
    · split <;> decide
    · split
      · split <;> decide
      · split <;> decide
  unfold callSnapshots at hsnap
  split at hsnap
  · cases hsnap
  · obtain ⟨entry, -, rfl⟩ := List.mem_map.mp hsnap
    simp only [readSnapshot] at hstatus
    split at hstatus
    · cases hstatus
      exact hcall _
    · exact terminalStates_ne hstatus

theorem closes_completed {payload sub : JsonObject} {status : String}
    (hid : payload.get "tool_id" = .str key) (hsub : payload.get "subagent" = .obj sub)
    (hstatus : sub.get "status" = .str status) (hne : status ≠ "") (rawLine : Nat) :
    delegationRows.closes ⟨"tool.completed", payload, rawLine⟩ = some key ∧
      Event.toolId ⟨"tool.completed", payload, rawLine⟩ = some key := by
  have htruthy : (Json.str status).truthy := by simpa [Json.truthy] using hne
  constructor
  · simp [delegationRows, subagent, Event.toolId, hid, hsub, hstatus, htruthy,
      Json.asObject, Json.asString]
  · simp [Event.toolId, hid, Json.asString]

theorem get_completedPayload (snap : Snapshot) (status : String) :
    (completedPayload snap status).get "tool_id" = .str snap.toolId ∧
      ∃ sub : JsonObject, (completedPayload snap status).get "subagent" = .obj sub ∧
        sub.get "status" = .str status := by
  have hsub : ∀ usage : OrderedDict String Int,
      (if usage.isEmpty then snap.agent.set "status" (.str status)
        else (snap.agent.set "status" (.str status)).set "usage"
          (.obj (usage.map fun p => (p.1, .int p.2)))).get "status" = .str status := by
    intro usage
    split <;> simp
  unfold completedPayload
  split
  · refine ⟨?_, _, ?_, hsub (childUsageOf snap.result)⟩
    · simp [JsonObject.get, lookup_set]
    · simp only [JsonObject.get, lookup_set, lookup_cons]
      rfl
  · exact ⟨rfl, _, rfl, hsub (childUsageOf snap.result)⟩

theorem get_settlePayload {flags payload : JsonObject}
    (h : settlePayload env key flags = some payload) :
    payload.get "tool_id" = .str key ∧ ∃ (sub : JsonObject) (status : String),
      payload.get "subagent" = .obj sub ∧ sub.get "status" = .str status ∧ status ≠ "" := by
  have hstatus : ∀ state, (delegationTerminalStates.lookup state).getD "cancelled" ≠ "" := by
    intro state
    cases hlookup : delegationTerminalStates.lookup state with
    | none => decide
    | some status => exact terminalStates_ne hlookup
  have hne := hstatus (lower (strOr env (flags.get "state") ""))
  unfold settlePayload at h
  dsimp only at h
  generalize (delegationTerminalStates.lookup (lower (strOr env (flags.get "state") ""))).getD
    "cancelled" = status at h hne
  obtain ⟨sub, -, rfl⟩ := map_eq_some_iff.mp h
  have hget : (JsonObject.set sub "status" (.str status)).get "status" = .str status :=
    get_set_self _ _ _
  split
  · refine ⟨?_, sub.set "status" (.str status), status, ?_, hget, hne⟩
    · simp [JsonObject.get, lookup_set]
    · simp only [JsonObject.get, lookup_set, lookup_cons]
      rfl
  · exact ⟨rfl, sub.set "status" (.str status), status, rfl, hget, hne⟩

/-! ### Chains -/

/-- No other call has started a row that one of the snapshots can open. -/
def RowsFree (callId : String) (isFinal : Bool) (snaps : List Snapshot) (s : State) : Prop :=
  ∀ snap ∈ snaps, snap.named isFinal → ∀ c, c ≠ callId → s.rowStarted c snap.toolId = false

/-- One step on the rows of a call keeps them balanced. -/
theorem rowsOk_step (hcall : OfCall callId snaps)
    (hstatus : ∀ snap ∈ snaps, ∀ status, snap.status = some status → status ≠ "")
    (h : RowsOk s) (hfree : RowsFree callId isFinal snaps s)
    (hstep : RowStep env rawLine callId isFinal snaps s s') :
    RowsOk s' ∧ RowsFree callId isFinal snaps s' := by
  cases hstep with
  | remember hmem =>
    refine ⟨rowsOk_rememberChild h (hcall _ hmem), ?_⟩
    intro snap' hsnap' hnamed c hc
    rw [rowStarted_rememberChild]
    exact hfree snap' hsnap' hnamed c hc
  | @opens snap hmem hnamed hnot =>
    have hkey := hcall _ hmem
    -- a tool id is started in one call only
    have hnone : ∀ c, s.rowStarted c snap.toolId = false := by
      intro c
      by_cases hc : c = callId
      · rw [hc]
        exact hnot
      · exact hfree snap hmem hnamed c hc
    refine ⟨rowsOk_openChild h hkey hnone, ?_⟩
    intro snap' hsnap' hnamed' c hc
    rw [rowStarted_openChild hkey (h.shape.rows callId), hfree snap' hsnap' hnamed' c hc]
    simp [hc]
  | @completes snap status hmem hsome hcomplete hopen =>
    have hkey := hcall _ hmem
    constructor
    · obtain ⟨hid, sub, hsub, hget⟩ := get_completedPayload snap status
      obtain ⟨hcloses, htoolId⟩ := closes_completed hid hsub hget (hstatus _ hmem _ hsome) rawLine
      have hmark : RowLog (recordChildUsage snap.toolId (childUsageOf snap.result)
          (markCompleted callId snap s)).events s.openRows := by
        unfold recordChildUsage
        split <;> exact h.log
      have hsame : (recordChildUsage snap.toolId (childUsageOf snap.result)
          (markCompleted callId snap s)).events = s.events := by
        unfold recordChildUsage
        split <;> rfl
      have hrows := @extends_childRows env rawLine _ _ hmark snap.toolId snap.agent
        (childToolRows env snap.result).zipIdx
      rw [hsame] at hrows
      have hanswer := @extends_reportAnswer env rawLine _ snap _ hrows.log
      exact rowsOk_ended h hopen hkey.not_counter (hrows.trans hanswer) hcloses htoolId rfl rfl
        (delegations_completeChild env callId snap status rawLine s)
    · intro snap' hsnap' hnamed c hc
      rw [rowStarted_completeChild]
      exact hfree snap' hsnap' hnamed c hc
  | @settles callId' key flags payload hlookup hopen hpayload =>
    have hflags : s.row callId' key = flags := by
      simp [row, JsonObject.get, hlookup, Json.asObject]
    constructor
    · obtain ⟨hid, sub, status, hsub, hget, hne⟩ := get_settlePayload hpayload
      obtain ⟨hcloses, htoolId⟩ := closes_completed hid hsub hget hne rawLine
      exact rowsOk_ended h (rowOpen_iff.mpr ⟨flags, hlookup, hopen⟩)
        (not_counter_of_lookup (h.shape callId') hlookup) ⟨h.log, fun _ => Iff.rfl⟩ hcloses htoolId
        rfl rfl (by rw [hflags]; rfl)
    · intro snap' hsnap' hnamed c hc
      have hstarted := rowStarted_setCompleted hflags c snap'.toolId
      exact hstarted.trans (hfree snap' hsnap' hnamed c hc)

theorem rowsOk_chain (hcall : OfCall callId snaps)
    (hstatus : ∀ snap ∈ snaps, ∀ status, snap.status = some status → status ≠ "")
    (h : RowsOk s) (hfree : RowsFree callId isFinal snaps s)
    (hchain : RowChain env rawLine callId isFinal snaps s s') : RowsOk s' :=
  (hchain.keeps (P := fun t => RowsOk t ∧ RowsFree callId isFinal snaps t)
    (fun _ _ ht hstep => rowsOk_step hcall hstatus ht.1 ht.2 hstep) ⟨h, hfree⟩).1

end Steps

/-! ### Records of the Delegation Tool -/

theorem rowOpen_input (h : isOpenRow (s.inputOf callId) = false) :
    s.rowOpen callId "input" = false := by
  by_contra hopen
  obtain ⟨flags, hlookup, hflags⟩ := rowOpen_iff.mp (by simpa using hopen)
  rw [inputOf, JsonObject.get, hlookup, getD_some, hflags] at h
  cases h

theorem rowsOk_captureInput (h : RowsOk s)
    (hinput : isOpenRow ((withInput env record (s.delegation callId)).get "input") = false) :
    RowsOk (captureInput env record callId s) := by
  have hinputs : ∀ c, isOpenRow ((captureInput env record callId s).inputOf c) = false := by
    intro c
    rw [inputOf, delegation_captureInput]
    split
    · exact hinput
    · exact h.input c
  have hrow : ∀ c k, k ≠ "input" → (captureInput env record callId s).row c k = s.row c k :=
    fun c k hk => row_captureInput hk c
  have hrows : (captureInput env record callId s).openRows = s.openRows := by
    ext k
    by_cases hk : k = "input"
    · subst hk
      simp only [openRows, Set.mem_ofPred_eq]
      simp [rowOpen_input (hinputs _), rowOpen_input (h.input _)]
    · simp only [openRows, rowOpen, rowStarted, rowCompleted,
        Set.mem_ofPred_eq, hrow _ k hk]
  have hevents : (captureInput env record callId s).events = s.events := by
    unfold captureInput
    dsimp only
    split <;> rfl
  refine ⟨delegationsOk_captureInput h.shape, hinputs, ?_, ?_, ?_⟩
  · rw [hevents, hrows]
    exact h.log
  · intro k hk
    rw [hevents] at hk
    obtain ⟨hne, c, hc⟩ := h.started k hk
    refine ⟨hne, c, ?_⟩
    rw [rowStarted, hrow c k hne]
    exact hc
  · intro k c c' hk hc hc'
    rw [rowStarted, hrow _ k hk] at hc hc'
    exact h.apart k c c' hk hc hc'

theorem rowsOk_settleChildlessCall (h : RowsOk s) :
    RowsOk (settleChildlessCall env record callId rawLine s) := by
  have hrow : (settleChildlessCall env record callId rawLine s).row = s.row := by
    funext c k
    exact row_settleChildlessCall h.shape c k
  have hstarted : (settleChildlessCall env record callId rawLine s).rowStarted = s.rowStarted := by
    funext c k
    simp only [rowStarted, hrow]
  have hrows : (settleChildlessCall env record callId rawLine s).openRows = s.openRows := by
    simp only [openRows, rowOpen, rowStarted, rowCompleted, hrow]
  have hshape := @delegationsOk_settleChildlessCall env record rawLine _ callId h.shape
  have hinput : (settleChildlessCall env record callId rawLine s).inputOf = s.inputOf := by
    unfold settleChildlessCall
    dsimp only
    split
    · rfl
    · split
      · rfl
      · exact funext (inputOf_setDelegation (by decide))
  have hext : Extends s.openRows s.events
      (settleChildlessCall env record callId rawLine s).events := by
    unfold settleChildlessCall
    dsimp only
    split
    · exact ⟨h.log, fun _ => Iff.rfl⟩
    · split
      · exact ⟨h.log, fun _ => Iff.rfl⟩
      · have hid : (childlessCompletion env record callId).get "tool_id" = .str callId ∧
            (childlessCompletion env record callId).get "subagent" = .null := by
          unfold childlessCompletion
          split <;> simp [JsonObject.get, lookup_set]
        refine ⟨h.log.pair rfl rfl ?_ rfl ?_, fun k => ?_⟩
        · rw [Event.toolId, Event.toolId, hid.1]
          rfl
        · simp [subagent, hid.2, Json.asObject]
        · unfold emit
          rw [opened_append_others, opened_append_others]
          · rfl
          · intro e he
            obtain rfl := mem_singleton.mp he
            rfl
          · intro e he
            obtain rfl := mem_singleton.mp he
            rfl
  refine ⟨hshape, by rw [hinput]; exact h.input, by rw [hrows]; exact hext.log, ?_, ?_⟩
  · intro k hk
    rw [hstarted]
    exact h.started k ((hext.opened k).mp hk)
  · rw [hstarted]
    exact h.apart

/-- What a call must not do: capture an input that looks like an open row, or open a row under an
    id that another call has started. -/
structure CallGuard (env : Env) (record : JsonObject) (callId : String) (s : State) : Prop where
  input : isOpenRow ((withInput env record (s.delegation callId)).get "input") = false
  free : ∀ snap ∈ callSnapshots env record callId, snap.named (isFinalRecord record) →
    ∀ c ∈ s.delegations.keys, c ≠ callId → s.rowStarted c snap.toolId = false

instance (env : Env) (record : JsonObject) (callId : String) (s : State) :
    Decidable (CallGuard env record callId s) :=
  decidable_of_iff (_ ∧ _) ⟨fun h => ⟨h.1, h.2⟩, fun h => ⟨h.input, h.free⟩⟩

theorem rowStarted_of_not_mem {c : String} (h : c ∉ s.delegations.keys) (key : String) :
    s.rowStarted c key = false := by
  have hnone : s.delegations.lookup c = none := by
    rw [List.lookup_eq_none_iff]
    intro p hp
    simp only [bne_iff_ne, ne_eq]
    exact fun heq => h (heq ▸ List.mem_map_of_mem hp)
  have hempty : s.delegation c = [] := by simp only [State.delegation, hnone, getD_none]
  simp [rowStarted, row, hempty, JsonObject.get, Json.asObject, freshRow, Json.truthy]

theorem CallGuard.rowsFree (h : CallGuard env record callId s) :
    RowsFree callId (isFinalRecord record) (callSnapshots env record callId) s := by
  intro snap hsnap hnamed c hc
  by_cases hmem : c ∈ s.delegations.keys
  · exact h.free snap hsnap hnamed c hmem hc
  · exact rowStarted_of_not_mem hmem snap.toolId

theorem rowsOk_handleSubagentTool (h : RowsOk s) (hguard : CallGuard env record callId s)
    (hsub : handleSubagentTool env record callId rawLine s = some s') : RowsOk s' := by
  obtain ⟨t, hchain, rfl⟩ := handleSubagentTool_cases h.shape hsub
  have hfree : RowsFree callId (isFinalRecord record) (callSnapshots env record callId)
      (captureInput env record callId s) := by
    intro snap hsnap hnamed c hc
    have hkey := ofCall_callSnapshots env record callId snap hsnap
    rw [rowStarted, row_captureInput hkey.ne_input]
    exact hguard.rowsFree snap hsnap hnamed c hc
  exact rowsOk_settleChildlessCall (rowsOk_chain (ofCall_callSnapshots env record callId)
    (status_callSnapshots env record callId) (rowsOk_captureInput h hguard.input) hfree hchain)

/-! ### Reasoning Blocks -/

/-- The block that is open, and the ids of all blocks so far. -/
structure BlocksOk (s : State) : Prop where
  log : reasoningBlocks.Holds s.events {id | s.thinkingReasoningId = some id}
  ids : ∀ id, reasoningBlocks.Opened s.events id → ∃ n ≤ s.lineNo, id = reasoningIdAt n

theorem reasoningIdAt_injective {m n : Nat} (h : reasoningIdAt m = reasoningIdAt n) : m = n := by
  have hchars := congrArg String.toList h
  simp only [reasoningIdAt, String.toList_append, append_cancel_left_eq] at hchars
  exact toString_injective (String.toList_inj.mp (by simpa using hchars))

theorem blocksOk_init : BlocksOk {} where
  log := by simpa using holds_nil
  ids := by
    rintro id ⟨e, he, -⟩
    cases he

theorem BlocksOk.of_same (h : BlocksOk s)
    (hevents : s'.events = s.events ++ more)
    (hmore : ∀ e ∈ more, reasoningBlocks.opens e = none ∧ reasoningBlocks.closes e = none)
    (hblock : s'.thinkingReasoningId = s.thinkingReasoningId) (hline : s.lineNo ≤ s'.lineNo) :
    BlocksOk s' where
  log := by
    rw [hevents, hblock]
    exact h.log.others hmore
  ids := by
    intro id hid
    rw [hevents, opened_append_others fun e he => (hmore e he).1] at hid
    obtain ⟨n, hn, heq⟩ := h.ids id hid
    exact ⟨n, hn.trans hline, heq⟩

theorem closes_interrupted (id : String) (reason : String) (rawLine : Nat) :
    reasoningBlocks.closes ⟨"reasoning_summary.interrupted",
      [("reasoning_id", .str id), ("reason", .str reason)], rawLine⟩ = some id := by
  simp [reasoningId, JsonObject.get, Json.asString]

theorem BlocksOk.closing (h : BlocksOk s) {id : String} (hid : s.thinkingReasoningId = some id)
    (hcloses : reasoningBlocks.closes e = some id)
    (hopens : reasoningBlocks.opens e = none) (hevents : s'.events = s.events ++ [e])
    (hnone : s'.thinkingReasoningId = none) (hline : s'.lineNo = s.lineNo) : BlocksOk s' where
  log := by
    have hclosed := h.log.closing hopens hcloses hid
    have hempty : {k | s.thinkingReasoningId = some k} \ {id} = {k | s'.thinkingReasoningId = some k} := by
      ext k
      simp [hid, hnone]
    rw [hevents, ← hempty]
    exact hclosed
  ids := by
    intro k hk
    rw [hevents, opened_append_singleton, hopens] at hk
    rw [hline]
    exact h.ids k (hk.resolve_right (by simp))

theorem blocksOk_closeOpenThinking (h : BlocksOk s) (reason : String) (rawLine : Nat) :
    BlocksOk (closeOpenThinking reason rawLine s) := by
  unfold closeOpenThinking
  split
  · exact h
  · next id hid => exact h.closing hid (closes_interrupted id reason rawLine) rfl rfl rfl rfl

theorem closeOpenThinking_none (reason : String) (rawLine : Nat) (s : State) :
    (closeOpenThinking reason rawLine s).thinkingReasoningId = none := by
  unfold closeOpenThinking
  split
  · next hid => exact hid
  · rfl

theorem lineNo_closeOpenThinking (reason : String) (rawLine : Nat) (s : State) :
    (closeOpenThinking reason rawLine s).lineNo = s.lineNo := by
  unfold closeOpenThinking
  split <;> rfl

theorem opened_closeOpenThinking (reason : String) (rawLine : Nat) (s : State) (id : String) :
    reasoningBlocks.Opened (closeOpenThinking reason rawLine s).events id ↔
      reasoningBlocks.Opened s.events id := by
  unfold closeOpenThinking
  split
  · rfl
  · refine opened_append_others fun e he => ?_
    obtain rfl := mem_singleton.mp he
    rfl

def FreshLine (rawLine : Nat) (s : State) : Prop :=
  ∀ id, reasoningBlocks.Opened s.events id → ∃ n < rawLine, id = reasoningIdAt n

theorem blocksOk_thinkingStart (h : BlocksOk s) (hline : rawLine = s.lineNo)
    (hfresh : FreshLine rawLine s) : BlocksOk (thinkingStart rawLine s) := by
  have hclosed := blocksOk_closeOpenThinking h "next_block_started_without_end" rawLine
  have hnone := closeOpenThinking_none "next_block_started_without_end" rawLine s
  have hsame := lineNo_closeOpenThinking "next_block_started_without_end" rawLine s
  have hopened := opened_closeOpenThinking "next_block_started_without_end" rawLine s
  unfold thinkingStart
  generalize closeOpenThinking "next_block_started_without_end" rawLine s = t at *
  have hopens : reasoningBlocks.opens ⟨"reasoning_summary.started",
      [("reasoning_id", .str (reasoningIdAt rawLine))], rawLine⟩ = some (reasoningIdAt rawLine) := by
    simp [reasoningId, JsonObject.get, Json.asString]
  have hnew : ¬ reasoningBlocks.Opened t.events (reasoningIdAt rawLine) := by
    intro hold
    obtain ⟨n, hn, heq⟩ := hfresh _ ((hopened _).mp hold)
    exact absurd (reasoningIdAt_injective heq) (by omega)
  constructor
  · have hheld : {id | some (reasoningIdAt rawLine) = some id} =
        insert (reasoningIdAt rawLine) {id | t.thinkingReasoningId = some id} := by
      ext id
      simp [hnone, eq_comm]
    have hopening := hclosed.log.opening hopens rfl (absurd · hnew)
    rw [← hheld] at hopening
    exact hopening
  · intro id hid
    have hid' : reasoningBlocks.Opened (t.events ++ [⟨"reasoning_summary.started",
      [("reasoning_id", .str (reasoningIdAt rawLine))], rawLine⟩]) id := hid
    rw [opened_append_singleton, hopens] at hid'
    rcases hid' with hold | hnow
    · obtain ⟨n, hn, heq⟩ := hclosed.ids id hold
      exact ⟨n, hn, heq⟩
    · cases hnow
      exact ⟨rawLine, by rw [hline]; exact hsame.ge, rfl⟩

theorem get_thinkingPayload (thinking : String) (id : Option String) :
    ((thinkingPayload thinking id).get "reasoning_id").asString = id := by
  unfold thinkingPayload
  dsimp only
  cases id with
  | none | some id => split <;> simp [JsonObject.get, lookup_set, Json.asString]

theorem blocksOk_thinkingEnd (h : BlocksOk s) (hend : thinkingEnd rawLine s = some s') :
    BlocksOk s' := by
  obtain ⟨thinking, -, rfl⟩ := map_eq_some_iff.mp hend
  have hcloses : reasoningBlocks.closes ⟨"reasoning_summary.completed",
      thinkingPayload thinking s.thinkingReasoningId, rawLine⟩ = s.thinkingReasoningId := by
    simp [reasoningId, get_thinkingPayload]
  cases hid : s.thinkingReasoningId with
  | some id =>
    rw [hid] at hcloses
    exact h.closing hid hcloses rfl rfl rfl rfl
  | none =>
    rw [hid] at hcloses
    refine h.of_same  rfl ?_ hid.symm le_rfl
    intro e he
    obtain rfl := mem_singleton.mp he
    exact ⟨rfl, hcloses⟩

/-! ### Every Record -/

/-- The types of the events of reasoning blocks. -/
def blockTypes : List String :=
  ["reasoning_summary.started", "reasoning_summary.completed", "reasoning_summary.interrupted"]

/-- A block step touches nothing but the block. -/
structure OnlyBlock (s s' : State) : Prop where
  core : s'.core = { s.core with thinkingReasoningId := s'.thinkingReasoningId }
  events : ∃ new, s'.events = s.events ++ new ∧ ∀ e ∈ new, e.type ∈ blockTypes

theorem onlyBlock_closeOpenThinking (reason : String) (rawLine : Nat) (s : State) :
    OnlyBlock s (closeOpenThinking reason rawLine s) := by
  unfold closeOpenThinking
  split
  · exact ⟨rfl, [], by simp, by simp⟩
  · exact ⟨rfl, _, rfl, by simp [blockTypes]⟩

theorem onlyBlock_step (h : BlockStep rawLine s s') : OnlyBlock s s' := by
  cases h with
  | start =>
    have hclose := onlyBlock_closeOpenThinking "next_block_started_without_end" rawLine s
    obtain ⟨new, hnew, htypes⟩ := hclose.events
    unfold thinkingStart
    generalize closeOpenThinking "next_block_started_without_end" rawLine s = t at hclose hnew
    refine ⟨?_, new ++ [⟨"reasoning_summary.started",
      [("reasoning_id", .str (reasoningIdAt rawLine))], rawLine⟩], ?_, ?_⟩
    · have hcore := hclose.core
      simp only [State.core, Core.mk.injEq] at hcore
      simp [State.core, emit, hcore]
    · simp [emit, hnew]
    · intro e he
      rcases mem_append.mp he with he | he
      · exact htypes e he
      · obtain rfl := mem_singleton.mp he
        simp [blockTypes]
  | stop hstop =>
    obtain ⟨thinking, -, rfl⟩ := map_eq_some_iff.mp hstop
    exact ⟨rfl, _, rfl, by simp [blockTypes]⟩
  | interrupt reason => exact onlyBlock_closeOpenThinking reason rawLine s

theorem of_blockTypes (h : e.type ∈ blockTypes) :
    e.NoRow ∧ isHarnessTerminal e.type = false := by
  have hne : ∀ t ∈ blockTypes, t ≠ "tool.started" ∧ t ≠ "tool.completed" ∧
      isHarnessTerminal t = false := by decide
  obtain ⟨hstarted, hcompleted, hterminal⟩ := hne e.type h
  exact ⟨noRow_of_type hstarted hcompleted, hterminal⟩

theorem of_rowTypes (h : e.type ∈ rowTypes) :
    (reasoningBlocks.opens e = none ∧ reasoningBlocks.closes e = none) ∧
      isHarnessTerminal e.type = false := by
  have hne : ∀ t ∈ rowTypes, t ≠ "reasoning_summary.started" ∧ t ≠ "reasoning_summary.completed" ∧
      t ≠ "reasoning_summary.interrupted" ∧ isHarnessTerminal t = false := by decide
  obtain ⟨hstarted, hcompleted, hinterrupted, hterminal⟩ := hne e.type h
  exact ⟨⟨by simp [hstarted], by simp [hcompleted, hinterrupted]⟩, hterminal⟩

/-- **Invariant** of the stream before its end. -/
structure StreamOk (s : State) : Prop where
  names : NamesPlain s.toolStarts
  rows : RowsOk s
  blocks : BlocksOk s
  unfinished : ∀ e ∈ s.events, isHarnessTerminal e.type = false

theorem streamOk_init : StreamOk {} where
  names := namesPlain_nil
  rows := rowsOk_init
  blocks := blocksOk_init
  unfinished := by simp

theorem not_terminal_append {log new : List Event}
    (h : ∀ e ∈ log, isHarnessTerminal e.type = false)
    (hnew : ∀ e ∈ new, isHarnessTerminal e.type = false) :
    ∀ e ∈ log ++ new, isHarnessTerminal e.type = false := by
  intro e he
  rcases mem_append.mp he with he | he
  · exact h e he
  · exact hnew e he

theorem StreamOk.of_leaves {c : Core} (h : StreamOk s) (hleaves : Leaves s s' c)
    (hdelegations : s'.delegations = s.delegations)
    (hblock : s'.thinkingReasoningId = s.thinkingReasoningId) (hline : s'.lineNo = s.lineNo)
    (hnames : NamesPlain s'.toolStarts) : StreamOk s' := by
  obtain ⟨new, hevents, hplain⟩ := hleaves.events
  refine ⟨hnames, ?_, ?_, ?_⟩
  · exact h.rows.of_same hevents (fun e he => (hplain e he).noRow) hdelegations
  · exact h.blocks.of_same hevents (fun e he => ⟨(hplain e he).opensBlock, (hplain e he).closesBlock⟩)
      hblock hline.ge
  · rw [hevents]
    exact not_terminal_append h.unfinished fun e he => (hplain e he).noTerminal

/-- What the guard asks of a record of the delegation tool. -/
def SafeCall (env : Env) (record : JsonObject) (s : State) : Prop :=
  toolTypes.any (record.get "type").isStr → toolCallIdOf env record ≠ "" →
    isSubagentTool env (filledRecord env record s) →
    CallGuard env (filledRecord env record s) (toolCallIdOf env record) s

theorem CallGuard.congr {t : State} (h : CallGuard env record callId s)
    (hdelegations : t.delegations = s.delegations) : CallGuard env record callId t where
  input := by
    have hdict : t.delegation callId = s.delegation callId := by
      simp only [State.delegation, hdelegations]
    rw [hdict]
    exact h.input
  free := by
    intro snap hsnap hnamed c hmem hc
    rw [hdelegations] at hmem
    rw [rowStarted, row_congr hdelegations]
    exact h.free snap hsnap hnamed c hmem hc

theorem StreamOk.of_block (h : StreamOk s) (hline : rawLine = s.lineNo)
    (hfresh : FreshLine rawLine s) (hstep : BlockStep rawLine s s') : StreamOk s' := by
  have honly := onlyBlock_step hstep
  obtain ⟨new, hevents, htypes⟩ := honly.events
  have hdelegations : s'.delegations = s.delegations := congrArg Core.delegations honly.core
  have htools : s'.toolStarts = s.toolStarts := congrArg Core.toolStarts honly.core
  refine ⟨htools ▸ h.names, ?_, ?_, ?_⟩
  · exact h.rows.of_same hevents (fun e he => (of_blockTypes (htypes e he)).1) hdelegations
  · cases hstep with
    | start => exact blocksOk_thinkingStart h.blocks hline hfresh
    | stop hstop => exact blocksOk_thinkingEnd h.blocks hstop
    | interrupt reason => exact blocksOk_closeOpenThinking h.blocks reason rawLine
  · rw [hevents]
    exact not_terminal_append h.unfinished fun e he => (of_blockTypes (htypes e he)).2

theorem StreamOk.of_delegates (h : StreamOk s) (hrows : RowsOk s') (hstep : Delegates s s') :
    StreamOk s' := by
  obtain ⟨new, hevents, htypes⟩ := hstep.events
  have htools : s'.toolStarts = s.toolStarts := congrArg Core.toolStarts hstep.core
  have hblock : s'.thinkingReasoningId = s.thinkingReasoningId :=
    congrArg Core.thinkingReasoningId hstep.core
  have hlineNo : s'.lineNo = s.lineNo := congrArg Core.lineNo hstep.core
  refine ⟨htools ▸ h.names, hrows, ?_, ?_⟩
  · exact h.blocks.of_same hevents (fun e he => (of_rowTypes (htypes e he)).1) hblock hlineNo.ge
  · rw [hevents]
    exact not_terminal_append h.unfinished fun e he => (of_rowTypes (htypes e he)).2

/-- **Step**: a guarded record keeps the invariant. -/
theorem streamOk_translate (h : StreamOk s) (hline : rawLine = s.lineNo)
    (hfresh : FreshLine rawLine s) (hsafe : SafeCall env record s)
    (htranslate : translate env record rawLine s = some s') : StreamOk s' := by
  -- what comes before a block or a delegation leaves both as they were
  have hbefore : ∀ t, Leaves s t (coreAfter env record rawLine s) → NamesPlain t.toolStarts →
      StreamOk t ∧ t.delegations = s.delegations ∧ t.lineNo = s.lineNo := by
    intro t hleaves hnames
    have hdelegations : t.delegations = s.delegations := congrArg Core.delegations hleaves.core
    have hblock : t.thinkingReasoningId = s.thinkingReasoningId :=
      congrArg Core.thinkingReasoningId hleaves.core
    have hlineNo : t.lineNo = s.lineNo := congrArg Core.lineNo hleaves.core
    exact ⟨h.of_leaves hleaves hdelegations hblock hlineNo hnames, hdelegations, hlineNo⟩
  cases translate_cases h.names htranslate with
  | quiet hleaves hnames =>
    exact h.of_leaves hleaves (congrArg Core.delegations hleaves.core)
      (congrArg Core.thinkingReasoningId hleaves.core) (congrArg Core.lineNo hleaves.core) hnames
  | @block t _ hleaves hnames hblock =>
    obtain ⟨hok, -, hlineNo⟩ := hbefore t hleaves hnames
    obtain ⟨new, hevents, hplain⟩ := hleaves.events
    have hfresh' : FreshLine rawLine t := by
      intro id hid
      rw [hevents, opened_append_others fun e he => (hplain e he).opensBlock] at hid
      exact hfresh id hid
    exact hok.of_block (hline.trans hlineNo.symm) hfresh' hblock
  | @delegation t _ hleaves hnames htype hid htool hsub =>
    obtain ⟨hok, hdelegations, -⟩ := hbefore t hleaves hnames
    have hguard := (hsafe htype hid htool).congr hdelegations
    exact hok.of_delegates (rowsOk_handleSubagentTool hok.rows hguard hsub)
      (delegates_handleSubagentTool hsub)

/-! ### Guarded Streams -/

/-- What the guard asks of a line: it can be written to the archive, no handler raises on its
    record, and a record of the delegation tool is safe. -/
def LineGuard (env : Env) (s : State) (line : Line) : Prop :=
  line.surrogates = false ∧ ∀ record ∈ line.dict, readable env record s ∧ SafeCall env record s

instance (env : Env) (record : JsonObject) (s : State) : Decidable (SafeCall env record s) :=
  inferInstanceAs (Decidable (_ → _ → _ → _))

instance (env : Env) (s : State) (line : Line) : Decidable (LineGuard env s line) :=
  inferInstanceAs (Decidable (_ ∧ ∀ record ∈ line.dict, _))

/-- Every line meets the guard in the state it is read in, and the text parts at the end are
    texts. -/
def Guarded (env : Env) : State → List Line → Prop
  | s, [] => (joinParts s.textParts).isSome
  | s, line :: rest =>
    LineGuard env s line ∧ ∀ s' ∈ stepLine env s line, Guarded env s' rest

instance guardedDecidable (env : Env) : ∀ s lines, Decidable (Guarded env s lines)
  | s, [] => inferInstanceAs (Decidable ((joinParts s.textParts).isSome = true))
  | s, line :: rest =>
    have (s' : State) : Decidable (Guarded env s' rest) := guardedDecidable env s' rest
    inferInstanceAs (Decidable (_ ∧ ∀ s' ∈ stepLine env s line, Guarded env s' rest))

theorem streamOk_beginLine (h : StreamOk s) (line : Line) : StreamOk (beginLine line s) where
  names := h.names
  rows := h.rows.of_same (append_nil _).symm (by simp) rfl
  blocks := h.blocks.of_same (append_nil _).symm (by simp) rfl (Nat.le_succ _)
  unfinished := h.unfinished

theorem streamOk_stepLine (h : StreamOk s) {line : Line} (hguard : LineGuard env s line) :
    ∃ s', stepLine env s line = some s' ∧ StreamOk s' := by
  have hbegin := streamOk_beginLine h line
  have hfresh : FreshLine (beginLine line s).lineNo (beginLine line s) := by
    intro id hid
    obtain ⟨n, hn, heq⟩ := h.blocks.ids id hid
    exact ⟨n, Nat.lt_succ_of_le hn, heq⟩
  unfold stepLine
  dsimp only
  rw [hguard.1, if_neg Bool.false_ne_true]
  cases hdict : line.dict with
  | none =>
    refine ⟨_, rfl, ?_⟩
    have hreport := quiet_reportLine line (beginLine line s)
    have htools : (reportLine line (beginLine line s)).toolStarts = (beginLine line s).toolStarts :=
      congrArg Core.toolStarts hreport.core
    exact hbegin.of_leaves hreport (congrArg Core.delegations hreport.core)
      (congrArg Core.thinkingReasoningId hreport.core) (congrArg Core.lineNo hreport.core)
      (htools ▸ hbegin.names)
  | some record =>
    obtain ⟨hreadable, hsafe⟩ := hguard.2 record hdict
    have hsome : (translate env record (beginLine line s).lineNo (beginLine line s)).isSome := by
      rw [translate_isSome hbegin.rows.shape]
      exact hreadable
    obtain ⟨s', hs'⟩ := isSome_iff_exists.mp hsome
    have hcalls : SafeCall env record (beginLine line s) := fun htype hid htool =>
      (hsafe htype hid htool).congr rfl
    exact ⟨s', hs', streamOk_translate hbegin rfl hfresh hcalls hs'⟩

/-- What is asked of the events of a whole stream. -/
structure BalancedOutput (events : List Event) : Prop where
  /-- There is one terminal, and it is the last event. -/
  terminal : ∃ before e, events = before ++ [e] ∧ isHarnessTerminal e.type ∧
    ∀ e' ∈ before, isHarnessTerminal e'.type = false
  blocks : reasoningBlocks.Balanced events
  rows : delegationRows.Balanced events
  ends : subagentEnds.ClosesOpened events

theorem streamOk_decided (h : StreamOk s) (hdecided : Decided s s') : StreamOk s' := by
  have htypes : ∀ e ∈ finalUsage s s'.terminalLine, e.type = "usage.final" := by
    intro e he
    unfold finalUsage at he
    split at he
    · cases he
    · obtain rfl := mem_singleton.mp he
      rfl
  have hrow : ∀ e ∈ finalUsage s s'.terminalLine, e.NoRow := fun e he =>
    noRow_of_type (by simp [htypes e he]) (by simp [htypes e he])
  have htools : s'.toolStarts = s.toolStarts := congrArg Core.toolStarts hdecided.core
  refine ⟨htools ▸ h.names, ?_, ?_, ?_⟩
  · exact h.rows.of_same hdecided.events hrow (congrArg Core.delegations hdecided.core)
  · refine h.blocks.of_same hdecided.events (fun e he => ?_)
      (congrArg Core.thinkingReasoningId hdecided.core) (congrArg Core.lineNo hdecided.core).ge
    simp [htypes e he]
  · rw [hdecided.events]
    refine not_terminal_append h.unfinished fun e he => ?_
    rw [htypes e he]
    decide

theorem streamOk_settled (h : StreamOk s)
    (hsettle : settleOpenDelegations env rawLine s = some s') : StreamOk s' ∧ s'.openRows = ∅ := by
  obtain ⟨hchain, hclosed⟩ := chain_settleOpenDelegations h.rows.shape hsettle
  have hrows : RowsOk s' := rowsOk_chain (by simp [OfCall]) (by simp) h.rows (by simp [RowsFree]) hchain
  refine ⟨h.of_delegates hrows (delegates_settleOpenDelegations hsettle), ?_⟩
  ext key
  simp [openRows, hclosed]

theorem sweepable_of_rowsOk (h : RowsOk s) (callId : String) : sweepable (s.delegation callId) := by
  have hinput := h.input callId
  unfold sweepable settleable
  rw [inputOf] at hinput
  simp [hinput]

/-- **End of input**: after a stream with the invariant the output is balanced. -/
theorem balanced_emitTerminalAtEof (h : StreamOk s) (hparts : (joinParts s.textParts).isSome) :
    ∃ s', emitTerminalAtEof env s = some s' ∧ BalancedOutput s'.events := by
  have hsome : (emitTerminalAtEof env s).isSome := by
    rw [emitTerminalAtEof_isSome h.rows.shape]
    simp [readableAtEof, hparts, sweepable_of_rowsOk h.rows]
  obtain ⟨s', hs'⟩ := isSome_iff_exists.mp hsome
  obtain ⟨t, hdecide, hemit⟩ := bind_eq_some_iff.mp hs'
  obtain ⟨u, reason, payload, hsettle, rfl⟩ := emitTerminal_cases hemit
  obtain ⟨hok, hnone⟩ := streamOk_settled (streamOk_decided h (decided_decideTerminal hdecide)) hsettle
  -- what is left is to close the open block and to write the terminal
  have honly := onlyBlock_closeOpenThinking reason u.terminalLine u
  obtain ⟨new, hevents, htypes⟩ := honly.events
  have hlog : RowLog (closeOpenThinking reason u.terminalLine u).events ∅ := by
    rw [hevents, ← hnone]
    exact hok.rows.log.others fun e he => (of_blockTypes (htypes e he)).1
  have hblocks := blocksOk_closeOpenThinking hok.blocks reason u.terminalLine
  have hempty : {id | (closeOpenThinking reason u.terminalLine u).thinkingReasoningId = some id} =
      (∅ : Set String) := by
    ext id
    simp [closeOpenThinking_none]
  have hblockLog := hblocks.log
  rw [hempty] at hblockLog
  have htype : terminalType u = "harness.completed" ∨ terminalType u = "harness.failed" := by
    unfold terminalType
    split
    · exact .inl rfl
    · exact .inr rfl
  generalize closeOpenThinking reason u.terminalLine u = v at *
  have hterminal : ∀ e' ∈ v.events, isHarnessTerminal e'.type = false := by
    rw [hevents]
    exact not_terminal_append hok.unfinished fun e he => (of_blockTypes (htypes e he)).2
  have hrow : Event.NoRow ⟨terminalType u, payload, v.terminalLine⟩ := by
    rcases htype with heq | heq <;> exact noRow_of_type (by simp [heq]) (by simp [heq])
  refine ⟨_, hs', ⟨⟨v.events, _, rfl, ?_, hterminal⟩, ?_, ?_, ?_⟩⟩
  · rcases htype with heq | heq <;> simp [heq, isHarnessTerminal, harnessTerminalTypes]
  · refine (hblockLog.others ?_).balanced
    intro e he
    obtain rfl := mem_singleton.mp he
    rcases htype with heq | heq <;> simp [heq]
  · exact (hlog.other hrow).rows.balanced
  · exact (hlog.other hrow).ends

theorem guarded_from {lines : List Line} (h : StreamOk s) (hguard : Guarded env s lines) :
    ∃ s', (translateLines env s lines).bind (emitTerminalAtEof env) = some s' ∧
      BalancedOutput s'.events := by
  induction lines generalizing s with
  | nil => exact balanced_emitTerminalAtEof h hguard
  | cons line rest ih =>
    obtain ⟨hline, hrest⟩ := hguard
    obtain ⟨t, ht, hok⟩ := streamOk_stepLine h hline
    have hfold : translateLines env s (line :: rest) = translateLines env t rest := by
      simp [translateLines, ht]
    rw [hfold]
    exact ih hok (hrest t ht)

/-- **Balance**: the output of every guarded stream is balanced, and it ends with the one terminal. -/
theorem guarded_stream_balanced (env : Env) (lines : List Line) (h : Guarded env {} lines) :
    ∃ s, main env lines = some s ∧ BalancedOutput s.events :=
  guarded_from streamOk_init h

/-! ### Two Streams -/

/-- A thought, and a call that delegates to one child. -/
def delegatingStream : List Line :=
  [updateLine [("type", .str "thinking_start")],
   updateLine [("type", .str "thinking_end")],
   lineOf [("type", .str "tool_execution_start"), ("toolCallId", .str "call-1"),
     ("toolName", .str "subagent"), ("args", .obj [("task", .str "look")])],
   lineOf [("type", .str "tool_execution_end"), ("toolCallId", .str "call-1"),
     ("toolName", .str "subagent"), ("result", .obj [("details", .obj [("results",
       .arr [.obj [("runId", .str "run-1"), ("agent", .str "explorer"), ("exitCode", .int 0),
         ("finalOutput", .str "seen")]])])])]]

theorem delegating_stream_balanced :
    Guarded plainEnv {} delegatingStream ∧
      ∃ s, main plainEnv delegatingStream = some s ∧ BalancedOutput s.events := by
  have hguard : Guarded plainEnv {} delegatingStream := by decide +kernel
  exact ⟨hguard, guarded_stream_balanced plainEnv delegatingStream hguard⟩

/-- A call whose arguments look like an open row. -/
def rowLikeArguments : List Line :=
  [lineOf [("type", .str "tool_execution_start"), ("toolCallId", .str "call-1"),
     ("toolName", .str "subagent"), ("args", .obj [("started", .bool true)])]]

/-- A `Subagent` ends although no tool of its id was started. -/
def endsUnstarted (events : List Event) : Bool :=
  events.any fun e => e.endsDelegation &&
    !events.any fun e' => e'.type == "tool.started" && e'.toolId == e.toolId

/-- The arguments are ended as a delegation that nobody started. -/
theorem row_like_arguments_unbalanced :
    ∃ s, main plainEnv rowLikeArguments = some s ∧ ¬ BalancedOutput s.events := by
  have hrun : (main plainEnv rowLikeArguments).map (fun s => endsUnstarted s.events) = some true := by
    decide +kernel
  obtain ⟨s, hs, hends⟩ := map_eq_some_iff.mp hrun
  refine ⟨s, hs, fun hbalanced => ?_⟩
  obtain ⟨e, he, hend⟩ := List.any_eq_true.mp hends
  simp only [Bool.and_eq_true, Bool.not_eq_true', List.any_eq_false] at hend
  obtain ⟨before, after, hsplit⟩ := append_of_mem he
  have hcloses : subagentEnds.closes e = some e.toolId := by simp [subagentEnds, hend.1]
  obtain ⟨e', he', hopens⟩ := hbalanced.ends before e after e.toolId hsplit hcloses
  have hnot := hend.2 e' (by rw [hsplit]; exact mem_append_left _ he')
  simp only [subagentEnds] at hopens
  split at hopens
  · next htype =>
    have hid := some.inj hopens
    simp [htype, hid] at hnot
  · cases hopens

end Codify.Harness.PiEvents

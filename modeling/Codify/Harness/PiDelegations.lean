import Codify.Harness.PiEventsStep

/-! # Delegation Rows

    The dict of a `subagent` call holds its child rows by tool id, the captured
    input and two counters. A record of the tool is a chain of steps (`RowStep`),
    each of which changes one row: the row is remembered, opens, ends, or is ended
    by a sweep. What holds of the rows is shown once for each step.

    * **Shape**: `DelegationOk` says what a dict looks like.
    * **Status**: `rowStarted` and `rowCompleted` after each step.
    * **Chain**: `chain_settleOpenDelegations`.
-/

namespace Codify.Harness.PiEvents

open Codify.Framework Codify.Harness List Option JsonObject State

variable {env : Env} {record : JsonObject} {rawLine : Nat} {s s' : State}
  {callId callId' key key' : String}

/-! ### Shape -/

/-- A row that has been opened names its subagent, and only such a row has ended. -/
structure RowOk (flags : JsonObject) : Prop where
  subagent : (flags.get "started").truthy → (flags.get "subagent").asObject.isSome
  started : (flags.get "completed").truthy → (flags.get "started").truthy

/-- The dict of a call: the captured input aside, every dict in it is a row, and the two counters
    are none. -/
structure DelegationOk (d : JsonObject) : Prop where
  nodup : d.keys.Nodup
  rows : ∀ k flags, d.lookup k = some (.obj flags) → k ≠ "input" → RowOk flags
  counters : ∀ k ∈ ["rows", "childless"], (d.get k).asObject = none

theorem rowOk_freshRow : RowOk freshRow where
  subagent := by decide
  started := by decide

attribute [local simp] JsonObject.keys Json.truthy

theorem delegationOk_nil : DelegationOk [] where
  nodup := by simp
  rows := by simp
  counters := by decide

variable {d flags : JsonObject}

theorem nodup_keys_set (h : d.keys.Nodup) (k : String) (v : Json) :
    (d.set k v).keys.Nodup := by
  rw [JsonObject.set_eq]
  exact OrderedDict.nodup_keys_set h k v

theorem DelegationOk.setRow (h : DelegationOk d)
    (hkey : key ∉ ["rows", "childless"]) (hflags : key ≠ "input" → RowOk flags) :
    DelegationOk (d.set key (.obj flags)) where
  nodup := nodup_keys_set h.nodup _ _
  rows := by
    intro k flags' hlookup hinput
    rw [lookup_set] at hlookup
    split at hlookup
    · next heq =>
      subst heq
      obtain rfl := Json.obj.inj (some.inj hlookup)
      exact hflags hinput
    · exact h.rows k flags' hlookup hinput
  counters := by
    intro k hk
    rw [get_set_ne]
    · exact h.counters k hk
    · rintro rfl
      exact hkey hk

theorem DelegationOk.setCounter {d : JsonObject} (h : DelegationOk d) {v : Json}
    (hv : v.asObject = none) : DelegationOk (d.set key v) where
  nodup := nodup_keys_set h.nodup _ _
  rows := by
    intro k flags hlookup hinput
    rw [lookup_set] at hlookup
    split at hlookup
    · cases hlookup
      cases hv
    · exact h.rows k flags hlookup hinput
  counters := by
    intro k hk
    by_cases heq : k = key
    · subst heq
      rw [get_set_self]
      exact hv
    · rw [get_set_ne d heq]
      exact h.counters k hk

/-! ### Reading Rows -/

@[simp] theorem delegation_setDelegation (s : State) (callId callId' : String) (d : JsonObject) :
    (s.setDelegation callId d).delegation callId' =
      if callId' = callId then d else s.delegation callId' := by
  simp only [delegation, State.setDelegation, OrderedDict.lookup_set]
  split <;> rfl

theorem row_setDelegation (s : State) (d : JsonObject) :
    (s.setDelegation callId d).row callId' key =
      if callId' = callId then (d.get key).asObject.getD freshRow else s.row callId' key := by
  simp only [row, delegation_setDelegation]
  split <;> rfl

@[simp] theorem row_setRow (s : State) (callId callId' key key' : String) (flags : JsonObject) :
    (s.setRow callId key flags).row callId' key' =
      if callId' = callId ∧ key' = key then flags else s.row callId' key' := by
  rw [State.setRow, row_setDelegation]
  by_cases hcall : callId' = callId
  · subst hcall
    by_cases hkey : key' = key
    · subst hkey
      simp [Json.asObject]
    · simp [get_set_ne _ hkey, hkey, row]
  · simp [hcall]

theorem rowOk_row (h : DelegationOk (s.delegation callId)) (hkey : key ≠ "input") :
    RowOk (s.row callId key) := by
  unfold row
  cases hlookup : (s.delegation callId).lookup key with
  | none =>
    have hget : (s.delegation callId).get key = .null := by simp [JsonObject.get, hlookup]
    rw [hget]
    exact rowOk_freshRow
  | some v =>
    have hget : (s.delegation callId).get key = v := by simp [JsonObject.get, hlookup]
    rw [hget]
    cases v with
    | obj flags => exact h.rows key flags hlookup hkey
    | _ => exact rowOk_freshRow

/-! ### Status of a Row -/

def RowKey (callId key : String) : Prop := ∃ scope, key = callId ++ ":" ++ scope

theorem RowKey.not_mem (h : RowKey callId key) : key ∉ ["rows", "childless", "input"] := by
  obtain ⟨scope, rfl⟩ := h
  intro hmem
  have hcolon : ':' ∈ (callId ++ ":" ++ scope).toList := by simp
  have hnone : ∀ k ∈ ["rows", "childless", "input"], ':' ∉ k.toList := by decide
  exact hnone _ hmem hcolon

def State.rowOpen (s : State) (callId key : String) : Bool :=
  s.rowStarted callId key && !s.rowCompleted callId key

@[simp] theorem row_emit (s : State) (type : String) (payload : JsonObject) (n : Nat) :
    (s.emit type payload n).row = s.row := rfl

variable (snap : Snapshot)

theorem row_rememberChild (s : State) {field : String} (hfield : field ∉ ["state", "output"])
    (callId callId' key' : String) :
    ((rememberChild callId snap s).row callId' key').get field =
      (s.row callId' key').get field := by
  simp only [mem_cons, not_mem_nil, or_false, not_or] at hfield
  unfold rememberChild
  dsimp only
  rw [row_setRow]
  split
  · next heq =>
    obtain ⟨rfl, rfl⟩ := heq
    split <;> split <;> simp [hfield.1, hfield.2]
  · rfl

@[simp] theorem rowStarted_rememberChild (s : State) (callId callId' key' : String) :
    (rememberChild callId snap s).rowStarted callId' key' = s.rowStarted callId' key' := by
  simp [rowStarted, @row_rememberChild snap s "started" (by decide)]

@[simp] theorem rowCompleted_rememberChild (s : State) (callId callId' key' : String) :
    (rememberChild callId snap s).rowCompleted callId' key' = s.rowCompleted callId' key' := by
  simp [rowCompleted, @row_rememberChild snap s "completed" (by decide)]

theorem row_countRow (h : ((s.delegation callId).get "rows").asObject = none)
    (callId' key' : String) :
    (countRow callId s).row callId' key' = s.row callId' key' := by
  unfold countRow
  dsimp only
  rw [row_setDelegation]
  split
  · next heq =>
    subst heq
    by_cases hkey : key' = "rows"
    · subst hkey
      rw [get_set_self, row, h]
      rfl
    · simp [row, hkey]
  · rfl

theorem row_markStarted (s : State) (callId callId' key' : String) :
    (markStarted callId snap s).row callId' key' =
      if callId' = callId ∧ key' = snap.toolId then
        ((s.row callId snap.toolId).set "started" (.bool true)).set "subagent" (.obj snap.agent)
      else s.row callId' key' :=
  row_setRow s callId callId' snap.toolId key' _

theorem rows_markStarted {snap : Snapshot} (hkey : RowKey callId snap.toolId)
    (h : ((s.delegation callId).get "rows").asObject = none) :
    (((markStarted callId snap s).delegation callId).get "rows").asObject = none := by
  have hne : "rows" ≠ snap.toolId := by
    rintro heq
    exact hkey.not_mem (by simp [← heq])
  simp [markStarted, State.setRow, get_set_ne _ hne, h]

section OpenChild

variable {snap : Snapshot}

theorem row_openChild (hkey : RowKey callId snap.toolId)
    (h : ((s.delegation callId).get "rows").asObject = none) (callId' key' : String) :
    (openChild env callId snap rawLine s).row callId' key' =
      if callId' = callId ∧ key' = snap.toolId then
        ((s.row callId snap.toolId).set "started" (.bool true)).set "subagent" (.obj snap.agent)
      else s.row callId' key' := by
  have hemit := rows_markStarted (s := s.emit "tool.started" (startedPayload env snap) rawLine) hkey h
  unfold openChild
  rw [row_countRow hemit, row_markStarted]
  rfl

theorem rowStarted_openChild (hkey : RowKey callId snap.toolId)
    (h : ((s.delegation callId).get "rows").asObject = none) (callId' key' : String) :
    (openChild env callId snap rawLine s).rowStarted callId' key' =
      (decide (callId' = callId ∧ key' = snap.toolId) || s.rowStarted callId' key') := by
  unfold rowStarted
  rw [row_openChild hkey h]
  split
  · next heq => simp [heq]
  · next hne => simp [hne]

theorem rowCompleted_openChild (hkey : RowKey callId snap.toolId)
    (h : ((s.delegation callId).get "rows").asObject = none) (callId' key' : String) :
    (openChild env callId snap rawLine s).rowCompleted callId' key' =
      s.rowCompleted callId' key' := by
  unfold rowCompleted
  rw [row_openChild hkey h]
  split
  · next heq =>
    obtain ⟨rfl, rfl⟩ := heq
    simp
  · rfl

end OpenChild

theorem row_congr (h : s'.delegations = s.delegations) : s'.row = s.row := by
  funext callId key
  simp only [row, delegation, h]

theorem delegations_recordChildUsage (childId : String) (usage : OrderedDict String Int)
    (s : State) : (recordChildUsage childId usage s).delegations = s.delegations := by
  unfold recordChildUsage
  split <;> rfl

theorem delegations_childRows (env : Env) (toolId : String) (agent : JsonObject) (rawLine : Nat)
    (rows : List (JsonObject × Nat)) (s : State) :
    (rows.foldl (emitChildToolRow env toolId agent rawLine) s).delegations = s.delegations := by
  induction rows generalizing s with
  | nil => rfl
  | cons p rest ih => exact ih _

theorem delegations_reportAnswer (env : Env) (snap : Snapshot) (rawLine : Nat) (s : State) :
    (reportAnswer env snap rawLine s).delegations = s.delegations := by
  unfold reportAnswer
  split <;> rfl

theorem delegations_completeChild (env : Env) (callId : String) (snap : Snapshot)
    (status : String) (rawLine : Nat) (s : State) :
    (completeChild env callId snap status rawLine s).delegations =
      (markCompleted callId snap s).delegations := by
  have hemit : ∀ (t : State) (payload : JsonObject),
      (t.emit "tool.completed" payload rawLine).delegations = t.delegations := fun _ _ => rfl
  unfold completeChild
  dsimp only
  rw [hemit, delegations_reportAnswer, delegations_childRows, delegations_recordChildUsage]

theorem rowStarted_setCompleted (hflags : s.row callId key = flags)
    (callId' key' : String) :
    (s.setRow callId key (flags.set "completed" (.bool true))).rowStarted callId' key' =
      s.rowStarted callId' key' := by
  unfold rowStarted
  rw [row_setRow]
  split
  · next heq =>
    obtain ⟨rfl, rfl⟩ := heq
    rw [hflags]
    simp
  · rfl

theorem rowCompleted_setCompleted (flags : JsonObject) (callId' key' : String) :
    (s.setRow callId key (flags.set "completed" (.bool true))).rowCompleted callId' key' =
      (decide (callId' = callId ∧ key' = key) || s.rowCompleted callId' key') := by
  unfold rowCompleted
  rw [row_setRow]
  split
  · next heq => simp [heq]
  · next hne => simp [hne]

theorem rowStarted_completeChild (env : Env) (callId : String) (snap : Snapshot)
    (status : String) (rawLine : Nat) (s : State) (callId' key' : String) :
    (completeChild env callId snap status rawLine s).rowStarted callId' key' =
      s.rowStarted callId' key' := by
  rw [rowStarted, row_congr (delegations_completeChild env callId snap status rawLine s)]
  exact rowStarted_setCompleted rfl callId' key'

/-! ### The Shape is Kept -/

def DelegationsOk (s : State) : Prop := ∀ callId, DelegationOk (s.delegation callId)

namespace DelegationsOk

theorem congr (h : DelegationsOk s) (hsame : s'.delegations = s.delegations) :
    DelegationsOk s' := by
  intro callId
  have hdict : s'.delegation callId = s.delegation callId := by
    simp only [delegation, hsame]
  rw [hdict]
  exact h callId

theorem setDelegation (h : DelegationsOk s) {d : JsonObject} (hd : DelegationOk d) :
    DelegationsOk (s.setDelegation callId d) := by
  intro callId'
  rw [delegation_setDelegation]
  split
  · exact hd
  · exact h callId'

theorem setRow (h : DelegationsOk s) {flags : JsonObject} (hkey : key ∉ ["rows", "childless"])
    (hflags : key ≠ "input" → RowOk flags) : DelegationsOk (s.setRow callId key flags) :=
  h.setDelegation ((h callId).setRow hkey hflags)

theorem rows (h : DelegationsOk s) (callId : String) :
    ((s.delegation callId).get "rows").asObject = none :=
  (h callId).counters "rows" (by simp)

end DelegationsOk

theorem RowKey.not_counter (h : RowKey callId key) : key ∉ ["rows", "childless"] :=
  fun hmem => h.not_mem (by simp only [mem_cons] at hmem ⊢; tauto)

theorem RowKey.ne_input (h : RowKey callId key) : key ≠ "input" :=
  fun heq => h.not_mem (by simp [heq])

theorem RowOk.set (h : RowOk flags) {field : String}
    (hfield : field ∉ ["started", "completed", "subagent"]) (v : Json) :
    RowOk (flags.set field v) := by
  simp only [mem_cons, not_mem_nil, or_false, not_or] at hfield
  obtain ⟨hstarted, hcompleted, hsubagent⟩ := hfield
  constructor
  · rw [get_set_ne _ (Ne.symm hstarted), get_set_ne _ (Ne.symm hsubagent)]
    exact h.subagent
  · rw [get_set_ne _ (Ne.symm hstarted), get_set_ne _ (Ne.symm hcompleted)]
    exact h.started

theorem RowOk.setCompleted (h : RowOk flags)
    (hstarted : (flags.get "started").truthy) : RowOk (flags.set "completed" (.bool true)) where
  subagent := by simpa using h.subagent
  started := fun _ => by simpa using hstarted

theorem delegationsOk_rememberChild (h : DelegationsOk s) {snap : Snapshot}
    (hkey : RowKey callId snap.toolId) : DelegationsOk (rememberChild callId snap s) := by
  have hrow : RowOk (s.row callId snap.toolId) := rowOk_row (h callId) hkey.ne_input
  unfold rememberChild
  dsimp only
  refine h.setRow hkey.not_counter fun _ => ?_
  split <;> split
  · exact hrow.set (by decide) _
  · exact (hrow.set (by decide) _).set (by decide) _
  · exact hrow
  · exact hrow.set (by decide) _

theorem delegationsOk_openChild (h : DelegationsOk s) {snap : Snapshot}
    (hkey : RowKey callId snap.toolId) : DelegationsOk (openChild env callId snap rawLine s) := by
  have hmark : DelegationsOk (markStarted callId snap s) := by
    refine h.setRow hkey.not_counter fun _ => ⟨?_, ?_⟩
    · simp [Json.asObject]
    · simp
  have hcount := @DelegationsOk.setDelegation _ callId hmark _
    (@DelegationOk.setCounter "rows" _ (hmark callId)
      (v := .int ((((markStarted callId snap s).delegation callId).get "rows").asInt.getD 0 + 1)) rfl)
  exact hcount

theorem delegationsOk_markCompleted (h : DelegationsOk s) {snap : Snapshot}
    (hkey : RowKey callId snap.toolId) (hstarted : s.rowStarted callId snap.toolId) :
    DelegationsOk (markCompleted callId snap s) :=
  h.setRow hkey.not_counter fun _ =>
    (rowOk_row (h callId) hkey.ne_input).setCompleted hstarted

/-! ### Steps -/

/-- One step of a chain: a snapshot among `snaps` is remembered, opens its row or ends it, or the
    sweep ends an open row. -/
inductive RowStep (env : Env) (rawLine : Nat) (callId : String) (isFinal : Bool)
    (snaps : List Snapshot) : State → State → Prop where
  | remember {s : State} {snap : Snapshot} : snap ∈ snaps →
      RowStep env rawLine callId isFinal snaps s (rememberChild callId snap s)
  | opens {s : State} {snap : Snapshot} : snap ∈ snaps → snap.named isFinal →
      s.rowStarted callId snap.toolId = false →
      RowStep env rawLine callId isFinal snaps s (openChild env callId snap rawLine s)
  | completes {s : State} {snap : Snapshot} {status : String} : snap ∈ snaps →
      snap.status = some status → snap.complete isFinal → s.rowOpen callId snap.toolId →
      RowStep env rawLine callId isFinal snaps s (completeChild env callId snap status rawLine s)
  | settles {s : State} {callId' key : String} {flags payload : JsonObject} :
      (s.delegation callId').lookup key = some (.obj flags) → isOpenRow (.obj flags) →
      settlePayload env key flags = some payload →
      RowStep env rawLine callId isFinal snaps s
        ((s.setRow callId' key (flags.set "completed" (.bool true))).emit "tool.completed"
          payload rawLine)

abbrev RowChain (env : Env) (rawLine : Nat) (callId : String) (isFinal : Bool)
    (snaps : List Snapshot) : State → State → Prop :=
  Relation.ReflTransGen (RowStep env rawLine callId isFinal snaps)

/-- The snapshots of one call: each names a row of the call. -/
def OfCall (callId : String) (snaps : List Snapshot) : Prop :=
  ∀ snap ∈ snaps, RowKey callId snap.toolId

section Chains

variable {isFinal : Bool} {snaps : List Snapshot}

theorem RowChain.keeps {P : State → Prop}
    (hstep : ∀ t t', P t → RowStep env rawLine callId isFinal snaps t t' → P t')
    (h : RowChain env rawLine callId isFinal snaps s s') (hs : P s) : P s' := by
  induction h with
  | refl => exact hs
  | tail _ hlast ih => exact hstep _ _ ih hlast

variable {flags : JsonObject}

theorem isOpenRow_iff :
    isOpenRow (.obj flags) ↔
      (flags.get "started").truthy ∧ (flags.get "completed").truthy = false := by
  simp [isOpenRow]

theorem not_counter_of_lookup (h : DelegationOk (s.delegation callId))
    (hlookup : (s.delegation callId).lookup key = some (.obj flags)) :
    key ∉ ["rows", "childless"] := by
  intro hmem
  have hnone := h.counters key hmem
  simp [JsonObject.get, hlookup, Json.asObject] at hnone

theorem delegationsOk_step (hcall : OfCall callId snaps) (h : DelegationsOk s)
    (hstep : RowStep env rawLine callId isFinal snaps s s') : DelegationsOk s' := by
  cases hstep with
  | remember hmem => exact delegationsOk_rememberChild h (hcall _ hmem)
  | opens hmem => exact delegationsOk_openChild h (hcall _ hmem)
  | completes hmem _ _ hopen =>
    have hstarted := (Bool.and_eq_true_iff.mp hopen).1
    exact (delegationsOk_markCompleted h (hcall _ hmem) hstarted).congr
      (delegations_completeChild env callId _ _ rawLine s)
  | settles hlookup hopen hpayload =>
    refine DelegationsOk.congr (s := s.setRow _ _ _) ?_ rfl
    refine h.setRow (not_counter_of_lookup (h _) hlookup) fun hinput => ?_
    exact ((h _).rows _ _ hlookup hinput).setCompleted (isOpenRow_iff.mp hopen).1

theorem delegationsOk_chain (hcall : OfCall callId snaps) (h : DelegationsOk s)
    (hchain : RowChain env rawLine callId isFinal snaps s s') : DelegationsOk s' :=
  hchain.keeps (fun _ _ ht hstep => delegationsOk_step hcall ht hstep) h

theorem chain_projectChild (h : DelegationsOk s) {snap : Snapshot} (hmem : snap ∈ snaps)
    (hkey : RowKey callId snap.toolId) :
    RowChain env rawLine callId isFinal snaps s
      (projectChild env callId isFinal rawLine s snap) := by
  have hremember : RowStep env rawLine callId isFinal snaps s (rememberChild callId snap s) :=
    .remember hmem
  have hok := delegationsOk_rememberChild h hkey
  unfold projectChild
  generalize rememberChild callId snap s = t at hremember hok
  dsimp only
  refine Relation.ReflTransGen.trans (.single hremember) ?_
  split
  · exact .refl
  next hgo =>
  -- the row is open or has been once the first half is done
  have hopen : RowChain env rawLine callId isFinal snaps t
        (openUnlessStarted env callId snap rawLine t) ∧
      (openUnlessStarted env callId snap rawLine t).rowStarted callId snap.toolId := by
    unfold openUnlessStarted
    split
    · next hstarted => exact ⟨.refl, hstarted⟩
    next hstarted =>
    have hnamed : snap.named isFinal := by simpa [hstarted] using hgo
    refine ⟨.single (.opens hmem hnamed (by simpa using hstarted)), ?_⟩
    rw [rowStarted_openChild hkey (hok.rows callId)]
    simp
  refine hopen.1.trans ?_
  unfold completeIfDone
  split
  · exact .refl
  next status hstatus =>
  split
  · exact .refl
  next hdone =>
  simp only [Bool.or_eq_true, Bool.not_eq_true', not_or, Bool.not_eq_true,
    Bool.not_eq_false] at hdone
  refine .single (.completes hmem hstatus hdone.2 ?_)
  simp [rowOpen, hopen.2, hdone.1]

theorem chain_project (h : DelegationsOk s) (hcall : OfCall callId snaps) {rest : List Snapshot}
    (hrest : ∀ snap ∈ rest, snap ∈ snaps) :
    RowChain env rawLine callId isFinal snaps s
      (rest.foldl (projectChild env callId isFinal rawLine) s) := by
  induction rest generalizing s with
  | nil => exact .refl
  | cons snap rest ih =>
    have hmem := hrest snap mem_cons_self
    have hfirst := @chain_projectChild env rawLine _ _ isFinal _ h _ hmem (hcall snap hmem)
    refine hfirst.trans (ih (delegationsOk_chain hcall h hfirst) ?_)
    intro snap' hsnap'
    exact hrest snap' (mem_cons_of_mem _ hsnap')

end Chains

/-! ### The Captured Input -/

def State.inputOf (s : State) (callId : String) : Json := (s.delegation callId).get "input"

theorem inputOf_congr (h : s'.delegations = s.delegations) : s'.inputOf = s.inputOf := by
  funext callId
  simp only [inputOf, delegation, h]

theorem inputOf_setDelegation {v : Json} (hkey : key ≠ "input") (callId' : String) :
    (s.setDelegation callId ((s.delegation callId).set key v)).inputOf callId' =
      s.inputOf callId' := by
  unfold inputOf
  rw [delegation_setDelegation]
  split
  · next heq => rw [get_set_ne _ (Ne.symm hkey), heq]
  · rfl

theorem inputOf_setRow (hkey : key ≠ "input") (s : State) (flags : JsonObject) :
    (s.setRow callId key flags).inputOf = s.inputOf :=
  funext (inputOf_setDelegation hkey)

theorem inputOf_openChild {snap : Snapshot} (hkey : RowKey callId snap.toolId) (s : State) :
    (openChild env callId snap rawLine s).inputOf = s.inputOf := by
  unfold openChild countRow markStarted
  funext callId'
  dsimp only
  rw [inputOf_setDelegation (by decide), inputOf_setRow hkey.ne_input]
  rfl

theorem inputOf_completeChild {snap : Snapshot} {status : String}
    (hkey : RowKey callId snap.toolId) (s : State) :
    (completeChild env callId snap status rawLine s).inputOf = s.inputOf := by
  rw [inputOf_congr (delegations_completeChild env callId snap _ rawLine s)]
  exact inputOf_setRow hkey.ne_input s _

theorem inputOf_projectChild {snap : Snapshot} (isFinal : Bool) (hkey : RowKey callId snap.toolId)
    (s : State) : (projectChild env callId isFinal rawLine s snap).inputOf = s.inputOf := by
  have hremember : (rememberChild callId snap s).inputOf = s.inputOf :=
    inputOf_setRow hkey.ne_input s _
  have hopen : ∀ t : State, (openUnlessStarted env callId snap rawLine t).inputOf = t.inputOf := by
    intro t
    unfold openUnlessStarted
    split
    · rfl
    · exact inputOf_openChild hkey t
  have hdone : ∀ t : State, (completeIfDone env callId isFinal snap rawLine t).inputOf =
      t.inputOf := by
    intro t
    unfold completeIfDone
    split
    · rfl
    · split
      · rfl
      · exact inputOf_completeChild hkey t
  unfold projectChild
  dsimp only
  split
  · exact hremember
  · rw [hdone, hopen, hremember]

theorem inputOf_project {snaps : List Snapshot} (isFinal : Bool) (hcall : OfCall callId snaps)
    (s : State) : (snaps.foldl (projectChild env callId isFinal rawLine) s).inputOf = s.inputOf := by
  induction snaps generalizing s with
  | nil => rfl
  | cons snap rest ih =>
    rw [foldl_cons, ih fun snap' h' => hcall snap' (mem_cons_of_mem _ h'),
      inputOf_projectChild isFinal (hcall snap mem_cons_self)]

/-! ### Sweeps -/

section Sweeps

variable {isFinal : Bool} {snaps : List Snapshot}

/-- The sweep can end the entry: what it takes for the subagent is a dict. -/
def settleable (v : Json) : Bool :=
  !isOpenRow v || (((dictOr v).get "subagent").orElse (.obj [])).asObject.isSome

theorem settleEntry_isSome (callId : String) (rawLine : Nat) (s : State) (p : String × Json) :
    (settleEntry env callId rawLine s p).isSome = settleable p.2 := by
  unfold settleEntry settleable
  split
  · next hopen => simp [hopen, settlePayload]
  · next hopen => simp [hopen]

theorem isOpenRow_obj {v : Json} (h : isOpenRow v) : ∃ flags, v = .obj flags := by
  cases v with
  | obj flags => exact ⟨flags, rfl⟩
  | _ => cases h

/-- What a sweep over entries of a dict does: a chain that closes these entries and changes no
    other one. -/
structure Swept (env : Env) (rawLine : Nat) (callId : String) (isFinal : Bool)
    (snaps : List Snapshot) (entries : JsonObject) (s s' : State) : Prop where
  chain : RowChain env rawLine callId isFinal snaps s s'
  others : ∀ callId', callId' ≠ callId → s'.delegation callId' = s.delegation callId'
  rest : ∀ key, key ∉ entries.keys →
    (s'.delegation callId).lookup key = (s.delegation callId).lookup key
  closed : ∀ key v, key ∈ entries.keys → (s'.delegation callId).lookup key = some v →
    isOpenRow v = false

theorem swept_entry {p : String × Json} (hlookup : (s.delegation callId).lookup p.1 = some p.2)
    (h : settleEntry env callId rawLine s p = some s') :
    Swept env rawLine callId isFinal snaps [p] s s' := by
  unfold settleEntry at h
  split at h
  · next hopen =>
    obtain ⟨payload, hpayload, rfl⟩ := map_eq_some_iff.mp h
    obtain ⟨flags, hflags⟩ := isOpenRow_obj hopen
    rw [hflags] at hlookup hopen hpayload
    simp only [hflags]
    refine ⟨.single (.settles hlookup hopen hpayload), ?_, ?_, ?_⟩
    · intro callId' hne
      show (State.setDelegation s callId _).delegation callId' = _
      rw [delegation_setDelegation, if_neg hne]
    · intro key hkey
      show ((State.setDelegation s callId _).delegation callId).lookup key = _
      rw [delegation_setDelegation, if_pos rfl, lookup_set, if_neg]
      simpa using hkey
    · intro key v hkey hv
      obtain rfl : key = p.1 := by simpa using hkey
      have hself : ((State.setDelegation s callId ((s.delegation callId).set p.1
          (.obj ((dictOr (.obj flags)).set "completed" (.bool true))))).delegation callId).lookup
          p.1 = some v := hv
      rw [delegation_setDelegation, if_pos rfl, lookup_set, if_pos rfl] at hself
      cases hself
      simp [isOpenRow]
  · next hopen =>
    cases h
    refine ⟨.refl, fun _ _ => rfl, fun _ _ => rfl, ?_⟩
    intro key v hkey hv
    obtain rfl : key = p.1 := by simpa using hkey
    rw [hlookup] at hv
    cases hv
    simpa using hopen

theorem swept_entries {entries : JsonObject} (hnodup : entries.keys.Nodup)
    (hlookup : ∀ p ∈ entries, (s.delegation callId).lookup p.1 = some p.2)
    (h : entries.foldlM (settleEntry env callId rawLine) s = some s') :
    Swept env rawLine callId isFinal snaps entries s s' := by
  induction entries generalizing s with
  | nil =>
    cases h
    exact ⟨.refl, fun _ _ => rfl, fun _ _ => rfl, by simp⟩
  | cons p rest ih =>
    obtain ⟨t, ht, hrest⟩ := bind_eq_some_iff.mp h
    simp only [JsonObject.keys, map_cons, nodup_cons] at hnodup
    have hfirst : Swept env rawLine callId isFinal snaps [p] s t :=
      swept_entry (hlookup p mem_cons_self) ht
    have hstay : ∀ key, key ≠ p.1 →
        (t.delegation callId).lookup key = (s.delegation callId).lookup key := by
      intro key hne
      exact hfirst.rest key (by simpa using hne)
    have hmore := ih hnodup.2 (fun q hq => by
      rw [hstay q.1 fun heq => hnodup.1 (heq ▸ List.mem_map_of_mem hq)]
      exact hlookup q (mem_cons_of_mem _ hq)) hrest
    refine ⟨hfirst.chain.trans hmore.chain, ?_, ?_, ?_⟩
    · intro callId' hne
      rw [hmore.others callId' hne, hfirst.others callId' hne]
    · intro key hkey
      simp only [JsonObject.keys, map_cons, mem_cons, not_or] at hkey
      rw [hmore.rest key hkey.2, hstay key hkey.1]
    · intro key v hkey hv
      by_cases hmem : key ∈ JsonObject.keys rest
      · exact hmore.closed key v hmem hv
      · rw [hmore.rest key hmem] at hv
        simp only [JsonObject.keys, map_cons, mem_cons] at hkey
        have heq : key = p.1 := hkey.resolve_right hmem
        exact hfirst.closed key v (by simp [heq]) hv

theorem swept_settleDelegation (h : DelegationsOk s)
    (hsettle : settleDelegation env rawLine s callId = some s') :
    Swept env rawLine callId isFinal snaps (s.delegation callId) s s' := by
  have hdict : OrderedDict.keys (s.delegation callId) = JsonObject.keys (s.delegation callId) := rfl
  refine swept_entries (h callId).nodup ?_ hsettle
  intro p hp
  exact (OrderedDict.lookup_eq_some_iff (hdict ▸ (h callId).nodup)).mpr hp

end Sweeps

/-! ### One Record of the Tool -/

/-- What `captureInput` makes of the dict of its call. -/
def withInput (env : Env) (record : JsonObject) (d : JsonObject) : JsonObject :=
  if (record.get "args").asObject.isSome && !d.has "input" then
    d.set "input" (.obj (toolInput env record))
  else d

theorem delegation_captureInput (env : Env) (record : JsonObject) (callId : String) (s : State)
    (callId' : String) :
    (captureInput env record callId s).delegation callId' =
      if callId' = callId then withInput env record (s.delegation callId)
      else s.delegation callId' := by
  unfold captureInput withInput
  dsimp only
  simp only [delegation_setDelegation, if_true]
  split
  · by_cases hcall : callId' = callId <;> simp [hcall]
  · by_cases hcall : callId' = callId <;> simp [hcall]

theorem DelegationOk.withInput (h : DelegationOk d) :
    DelegationOk (withInput env record d) := by
  unfold PiEvents.withInput
  split
  · exact h.setRow (by decide) fun hne => absurd rfl hne
  · exact h

theorem delegationsOk_captureInput (h : DelegationsOk s) :
    DelegationsOk (captureInput env record callId s) := by
  intro callId'
  rw [delegation_captureInput]
  split
  · exact (h callId).withInput
  · exact h callId'

theorem row_captureInput (hkey : key ≠ "input") (callId' : String) :
    (captureInput env record callId s).row callId' key = s.row callId' key := by
  unfold row
  rw [delegation_captureInput]
  split
  · next heq =>
    subst heq
    unfold withInput
    split
    · rw [get_set_ne _ hkey]
    · rfl
  · rfl

theorem delegationsOk_settleChildlessCall (h : DelegationsOk s) :
    DelegationsOk (settleChildlessCall env record callId rawLine s) := by
  unfold settleChildlessCall
  dsimp only
  split
  · exact h
  · split
    · exact h
    · exact (h.setDelegation (@DelegationOk.setCounter "childless" _ (h callId) (.bool true) rfl)).congr rfl

theorem row_settleChildlessCall (h : DelegationsOk s) (callId' key : String) :
    (settleChildlessCall env record callId rawLine s).row callId' key = s.row callId' key := by
  unfold settleChildlessCall
  dsimp only
  split
  · rfl
  · split
    · rfl
    · simp only [row_emit, row_setDelegation]
      split
      · next heq =>
        subst heq
        by_cases hkey : key = "childless"
        · have hnone := (h callId').counters "childless" (by simp)
          rw [hkey, get_set_self, row, hnone]
          rfl
        · rw [get_set_ne _ hkey, row]
      · rfl

theorem ofCall_callSnapshots (env : Env) (record : JsonObject) (callId : String) :
    OfCall callId (callSnapshots env record callId) := by
  intro snap hsnap
  unfold callSnapshots at hsnap
  split at hsnap
  · cases hsnap
  · obtain ⟨entry, -, rfl⟩ := List.mem_map.mp hsnap
    exact ⟨(delegationScope env entry.1 entry.2).1, rfl⟩

/-- A record of the tool: the input is captured, then comes a chain of steps that, for the last
    record of the call, leaves none of its rows open, then the row of a childless call. -/
theorem handleSubagentTool_cases (h : DelegationsOk s)
    (hsub : handleSubagentTool env record callId rawLine s = some s') :
    ∃ t, RowChain env rawLine callId (isFinalRecord record) (callSnapshots env record callId)
        (captureInput env record callId s) t ∧
      s' = settleChildlessCall env record callId rawLine t := by
  have hcall := ofCall_callSnapshots env record callId
  have hcapture := @delegationsOk_captureInput env record _ callId h
  have hproject := @chain_project env rawLine _ _ (isFinalRecord record) _ hcapture hcall _
    fun _ hsnap => hsnap
  have hok := delegationsOk_chain hcall hcapture hproject
  unfold handleSubagentTool at hsub
  dsimp only at hsub
  obtain ⟨t, ht, rfl⟩ := map_eq_some_iff.mp hsub
  refine ⟨t, ?_, rfl⟩
  split at ht
  · exact hproject.trans (swept_settleDelegation hok ht).chain
  · cases ht
    exact hproject

theorem delegationsOk_handleSubagentTool (h : DelegationsOk s)
    (hsub : handleSubagentTool env record callId rawLine s = some s') : DelegationsOk s' := by
  obtain ⟨t, hchain, rfl⟩ := handleSubagentTool_cases h hsub
  exact delegationsOk_settleChildlessCall (delegationsOk_chain (ofCall_callSnapshots env record callId)
    (delegationsOk_captureInput h) hchain)

/-! ### The Sweep over All Calls -/

/-- The sweep can end every entry of the dict. -/
def sweepable (d : JsonObject) : Bool := settleable (d.get "input")

theorem sweepable_iff (h : DelegationOk d) :
    (∀ p ∈ d, settleable p.2) ↔ sweepable d := by
  have hmem : ∀ p : String × Json, p ∈ d ↔ d.lookup p.1 = some p.2 := fun p =>
    (OrderedDict.lookup_eq_some_iff (d := d) h.nodup).symm
  constructor
  · intro hall
    unfold sweepable JsonObject.get
    cases hlookup : d.lookup "input" with
    | none => rfl
    | some v => exact hall ("input", v) ((hmem _).mpr hlookup)
  · intro hinput p hp
    have hlookup := (hmem p).mp hp
    by_cases hkey : p.1 = "input"
    · rw [hkey] at hlookup
      simpa [sweepable, JsonObject.get, hlookup] using hinput
    · unfold settleable
      by_cases hopen : isOpenRow p.2
      · obtain ⟨flags, hflags⟩ := isOpenRow_obj hopen
        rw [hflags] at hlookup hopen ⊢
        have hsub := (h.rows p.1 flags hlookup hkey).subagent (isOpenRow_iff.mp hopen).1
        have hdict : dictOr (.obj flags) = flags := rfl
        rw [hdict]
        unfold Json.orElse
        split
        · simp [hsub]
        · simp [Json.asObject]
      · simp [hopen]

theorem settleDelegation_isSome (h : DelegationsOk s) :
    (settleDelegation env rawLine s callId).isSome ↔ sweepable (s.delegation callId) := by
  unfold settleDelegation
  rw [foldlM_isSome (fun t p => settleEntry_isSome callId rawLine t p), sweepable_iff (h callId)]

theorem rowOpen_iff : s.rowOpen callId key ↔
    ∃ flags, (s.delegation callId).lookup key = some (.obj flags) ∧ isOpenRow (.obj flags) := by
  unfold rowOpen rowStarted rowCompleted row JsonObject.get
  cases (s.delegation callId).lookup key with
  | none => simp [Json.asObject, freshRow, lookup_cons]
  | some v => cases v <;> simp [Json.asObject, freshRow, lookup_cons, isOpenRow, JsonObject.get]

/-- No entry of the dict is taken for an open row. -/
def Closed (s : State) (callId : String) : Prop :=
  ∀ key v, (s.delegation callId).lookup key = some v → isOpenRow v = false

theorem Closed.rowOpen (h : Closed s callId) (key : String) : s.rowOpen callId key = false := by
  by_contra hopen
  obtain ⟨flags, hlookup, hflags⟩ := rowOpen_iff.mp (by simpa using hopen)
  rw [h key _ hlookup] at hflags
  cases hflags

theorem Closed.sweepable (h : Closed s callId) : sweepable (s.delegation callId) := by
  unfold PiEvents.sweepable settleable JsonObject.get
  cases hlookup : (s.delegation callId).lookup "input" with
  | none => rfl
  | some v => simp [h "input" v hlookup]

section AllCalls

variable {isFinal : Bool} {snaps : List Snapshot}

theorem Swept.closes (h : Swept env rawLine callId isFinal snaps (s.delegation callId) s s') :
    Closed s' callId := by
  intro key v hv
  by_cases hmem : key ∈ JsonObject.keys (s.delegation callId)
  · exact h.closed key v hmem hv
  · rw [h.rest key hmem] at hv
    exact absurd (List.mem_map_of_mem (OrderedDict.mem_of_lookup hv)) hmem

theorem Swept.keeps_closed (h : Swept env rawLine callId isFinal snaps (s.delegation callId) s s')
    (hclosed : Closed s callId') : Closed s' callId' := by
  by_cases hcall : callId' = callId
  · subst hcall
    exact h.closes
  · intro key v hv
    rw [h.others callId' hcall] at hv
    exact hclosed key v hv

theorem RowStep.of_settles {callId'' : String} {isFinal' : Bool}
    (h : RowStep env rawLine callId'' isFinal' [] s s') :
    RowStep env rawLine callId isFinal snaps s s' := by
  cases h with
  | remember hmem => cases hmem
  | opens hmem => cases hmem
  | completes hmem => cases hmem
  | settles hlookup hopen hpayload => exact .settles hlookup hopen hpayload

/-- A chain of the sweep at the end of the input. -/
abbrev SweepChain (env : Env) (rawLine : Nat) : State → State → Prop :=
  RowChain env rawLine "" true []

variable {calls : List String}

theorem sweep_all (h : DelegationsOk s)
    (hsettle : calls.foldlM (settleDelegation env rawLine) s = some s') :
    SweepChain env rawLine s s' ∧ (∀ c, Closed s c → Closed s' c) ∧ ∀ c ∈ calls, Closed s' c := by
  induction calls generalizing s with
  | nil =>
    cases hsettle
    exact ⟨.refl, fun _ hc => hc, by simp⟩
  | cons c rest ih =>
    obtain ⟨t, ht, hrest⟩ := bind_eq_some_iff.mp hsettle
    have hswept : Swept env rawLine c true [] (s.delegation c) s t := swept_settleDelegation h ht
    have hchain : SweepChain env rawLine s t :=
      hswept.chain.lift id fun _ _ hstep => hstep.of_settles
    have hok : DelegationsOk t := delegationsOk_chain (by simp [OfCall]) h hchain
    obtain ⟨hmore, hkeep, hclosed⟩ := ih hok hrest
    refine ⟨hchain.trans hmore, fun c' hc' => hkeep c' (hswept.keeps_closed hc'), ?_⟩
    intro c' hc'
    rcases mem_cons.mp hc' with rfl | hc'
    · exact hkeep c' hswept.closes
    · exact hclosed c' hc'

theorem chain_settleOpenDelegations (h : DelegationsOk s)
    (hsettle : settleOpenDelegations env rawLine s = some s') :
    SweepChain env rawLine s s' ∧ ∀ callId key, s'.rowOpen callId key = false := by
  obtain ⟨hchain, hkeep, hclosed⟩ := sweep_all h hsettle
  refine ⟨hchain, fun callId key => ?_⟩
  by_cases hmem : callId ∈ s.delegations.keys
  · exact (hclosed callId hmem).rowOpen key
  · refine (hkeep callId ?_).rowOpen key
    have hnone : s.delegations.lookup callId = none := by
      rw [List.lookup_eq_none_iff]
      intro p hp
      simp only [bne_iff_ne, ne_eq]
      exact fun heq => hmem (heq ▸ List.mem_map_of_mem hp)
    intro key v hv
    simp [delegation, hnone] at hv

theorem sweep_isSome (h : DelegationsOk s) :
    (calls.foldlM (settleDelegation env rawLine) s).isSome ↔
      ∀ c ∈ calls, sweepable (s.delegation c) := by
  induction calls generalizing s with
  | nil => simp
  | cons c rest ih =>
    have hc := @settleDelegation_isSome env rawLine _ c h
    cases ht : settleDelegation env rawLine s c with
    | none =>
      have hnot : ¬ sweepable (s.delegation c) := by
        rw [← hc, ht]
        simp
      simp [ht, hnot]
    | some t =>
      have hsweepable : sweepable (s.delegation c) := by
        rw [← hc, ht]
        rfl
      have hswept : Swept env rawLine c true [] (s.delegation c) s t := swept_settleDelegation h ht
      have hok : DelegationsOk t := delegationsOk_chain (by simp [OfCall]) h hswept.chain
      -- the sweep of one call neither helps nor hinders that of another
      have hsame : ∀ c', sweepable (t.delegation c') = sweepable (s.delegation c') := by
        intro c'
        by_cases hcall : c' = c
        · subst hcall
          rw [hsweepable]
          exact hswept.closes.sweepable
        · rw [hswept.others c' hcall]
      have hrest : (List.foldlM (settleDelegation env rawLine) s (c :: rest)) =
          rest.foldlM (settleDelegation env rawLine) t := by
        simp [ht]
      rw [hrest, ih hok]
      simp [hsame, hsweepable]

end AllCalls

theorem settleOpenDelegations_isSome (h : DelegationsOk s) :
    (settleOpenDelegations env rawLine s).isSome ↔
      ∀ callId ∈ s.delegations.keys, sweepable (s.delegation callId) :=
  sweep_isSome h

end Codify.Harness.PiEvents

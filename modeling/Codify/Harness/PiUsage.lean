import Mathlib.Tactic.Linarith
import Codify.Framework.Tally
import Codify.Harness.PiTurns

/-! # The Usage of a Pi Attempt

    The total of an attempt is the root's last usage plus what has been recorded
    of its children. A child's usage is recorded by the snapshot that ends its
    row and by no other one, so it is short of what the child has reported when a
    greater count came before or after, or when the row was only swept.

    * **Reports**: what the snapshots of a stream say (`reports`).
    * **Ledger**: `childUsage_run`, what is recorded of them.
    * **Result**: `usage_iff_nothing_lost`.
-/

namespace Codify.Harness.PiEvents

open Codify.Framework Codify.Harness List Option Tally

variable {env : Env} {record : JsonObject} {rawLine : Nat} {line : Line} {lines : List Line}
  {s s' t : State} {callId : String} {isFinal : Bool} {snap : Snapshot} {snaps : List Snapshot}

/-! ### Reports -/

/-- What a snapshot reports about a child. -/
structure Report where
  child : String
  usage : OrderedDict String Int
  /-- The row of the child is open or has been. -/
  opened : Bool
  /-- The snapshot ends the row. -/
  ends : Bool

/-- The row of the child is open once the snapshot is read. -/
def Snapshot.opens (callId : String) (isFinal : Bool) (s : State) (snap : Snapshot) : Bool :=
  s.rowStarted callId snap.toolId || snap.named isFinal

/-- The snapshot ends the row of the child. -/
def Snapshot.ends (callId : String) (isFinal : Bool) (s : State) (snap : Snapshot) : Bool :=
  snap.opens callId isFinal s && snap.status.isSome && !s.rowCompleted callId snap.toolId &&
    snap.complete isFinal

/-- What the snapshots of a record report, each in the state it is read in. -/
def snapshotReports (env : Env) (callId : String) (isFinal : Bool) (rawLine : Nat) :
    State → List Snapshot → List Report
  | _, [] => []
  | s, snap :: rest =>
    ⟨snap.toolId, childUsageOf snap.result, snap.opens callId isFinal s,
        snap.ends callId isFinal s⟩ ::
      snapshotReports env callId isFinal rawLine (projectChild env callId isFinal rawLine s snap) rest

/-- The record belongs to the delegation tool. -/
def isDelegationRecord (env : Env) (record : JsonObject) (s : State) : Bool :=
  toolTypes.any (record.get "type").isStr && toolCallIdOf env record != "" &&
    isSubagentTool env (filledRecord env record s)

def recordReports (env : Env) (record : JsonObject) (rawLine : Nat) (s : State) : List Report :=
  if isDelegationRecord env record s then
    let filled := filledRecord env record s
    let callId := toolCallIdOf env record
    snapshotReports env callId (isFinalRecord filled) rawLine (captureInput env filled callId s)
      (callSnapshots env filled callId)
  else []

def Moment.reports (env : Env) (m : Moment) : List Report :=
  (m.2.dict.map fun record => recordReports env record m.number m.1).getD []

/-- What all snapshots of a stream report. -/
def reports (env : Env) (lines : List Line) : List Report :=
  (history env lines).flatMap (Moment.reports env)

def Report.counts (r : Report) : String × OrderedDict String Int := (r.child, r.usage)

/-- The counts of the reports that end a row. -/
def creditsOf (rs : List Report) : List (String × OrderedDict String Int) :=
  (rs.filter (·.ends)).map Report.counts

/-! ### What a Snapshot Records -/

theorem childUsage_recordChildUsage (childId : String) (usage : OrderedDict String Int)
    (s : State) :
    (recordChildUsage childId usage s).childUsage = credit s.childUsage (childId, usage) := by
  unfold recordChildUsage credit
  split <;> rfl

theorem childUsage_childRows (toolId : String) (agent : JsonObject)
    (rows : List (JsonObject × Nat)) (s : State) :
    (rows.foldl (emitChildToolRow env toolId agent rawLine) s).childUsage = s.childUsage := by
  induction rows generalizing s with
  | nil => rfl
  | cons p rest ih => exact ih _

theorem childUsage_completeChild (status : String) :
    (completeChild env callId snap status rawLine s).childUsage =
      credit s.childUsage (snap.toolId, childUsageOf snap.result) := by
  have hanswer : ∀ u, (reportAnswer env snap rawLine u).childUsage = u.childUsage := by
    intro u
    unfold reportAnswer
    split <;> rfl
  have hemit : ∀ (u : State) (payload : JsonObject),
      (u.emit "tool.completed" payload rawLine).childUsage = u.childUsage := fun _ _ => rfl
  unfold completeChild
  dsimp only
  rw [hemit, hanswer, childUsage_childRows, childUsage_recordChildUsage]
  rfl

/-- A child's usage is credited when its row ends. -/
theorem childUsage_projectChild (h : DelegationsOk s) (hkey : RowKey callId snap.toolId) :
    (projectChild env callId isFinal rawLine s snap).childUsage =
      if snap.ends callId isFinal s then
        credit s.childUsage (snap.toolId, childUsageOf snap.result)
      else s.childUsage := by
  have hok := delegationsOk_rememberChild h hkey
  have hstarted := rowStarted_rememberChild snap s callId callId snap.toolId
  have hcompleted := rowCompleted_rememberChild snap s callId callId snap.toolId
  have husage : (rememberChild callId snap s).childUsage = s.childUsage := rfl
  unfold projectChild Snapshot.ends Snapshot.opens
  rw [← hstarted, ← hcompleted, ← husage]
  generalize rememberChild callId snap s = u at hok
  dsimp only
  have hopen : (openUnlessStarted env callId snap rawLine u).childUsage = u.childUsage ∧
      (openUnlessStarted env callId snap rawLine u).rowCompleted callId snap.toolId =
        u.rowCompleted callId snap.toolId := by
    unfold openUnlessStarted
    split
    · exact ⟨rfl, rfl⟩
    · exact ⟨rfl, rowCompleted_openChild hkey (hok.rows callId) _ _⟩
  split
  · next hwait =>
    simp only [Bool.and_eq_true, Bool.not_eq_true'] at hwait
    simp [hwait.1, hwait.2]
  · next hgo =>
    have hopens : (u.rowStarted callId snap.toolId || snap.named isFinal) = true := by
      simpa [Bool.and_eq_true, Bool.not_eq_true', imp_iff_not_or] using hgo
    unfold completeIfDone
    rw [hopens, hopen.2]
    cases hstatus : snap.status with
    | none => simpa using hopen.1
    | some status =>
      dsimp only
      split
      · next hdone =>
        rw [if_neg]
        · exact hopen.1
        · rcases Bool.or_eq_true_iff.mp hdone with hdone | hdone
          · simp [hdone]
          · simp only [Bool.not_eq_true'] at hdone
            simp [hdone]
      · next hdone =>
        rw [if_pos, childUsage_completeChild, hopen.1]
        simpa using hdone

/-! ### Reports Depend on the Rows Only -/

theorem delegation_congr (h : t.delegations = s.delegations) : t.delegation = s.delegation := by
  funext c
  simp only [State.delegation, h]

theorem rowStarted_congr (h : t.delegations = s.delegations) : t.rowStarted = s.rowStarted := by
  funext c key
  simp only [State.rowStarted, row_congr h]

theorem rowCompleted_congr (h : t.delegations = s.delegations) :
    t.rowCompleted = s.rowCompleted := by
  funext c key
  simp only [State.rowCompleted, row_congr h]

theorem delegations_setRow_congr (h : t.delegations = s.delegations) (key : String)
    (flags : JsonObject) :
    (t.setRow callId key flags).delegations = (s.setRow callId key flags).delegations := by
  simp only [State.setRow, State.setDelegation, delegation_congr h, h]

theorem delegations_rememberChild_congr (h : t.delegations = s.delegations) :
    (rememberChild callId snap t).delegations = (rememberChild callId snap s).delegations := by
  unfold rememberChild
  rw [row_congr h]
  exact delegations_setRow_congr h _ _

theorem delegations_openChild_congr (h : t.delegations = s.delegations) :
    (openChild env callId snap rawLine t).delegations =
      (openChild env callId snap rawLine s).delegations := by
  have hmark : (markStarted callId snap
        (t.emit "tool.started" (startedPayload env snap) rawLine)).delegations =
      (markStarted callId snap
        (s.emit "tool.started" (startedPayload env snap) rawLine)).delegations := by
    have hemit : (t.emit "tool.started" (startedPayload env snap) rawLine).delegations =
        (s.emit "tool.started" (startedPayload env snap) rawLine).delegations := h
    unfold markStarted
    rw [row_congr hemit]
    exact delegations_setRow_congr hemit _ _
  unfold openChild countRow
  simp only [State.setDelegation, delegation_congr hmark, hmark]

theorem delegations_projectChild_congr (h : t.delegations = s.delegations) :
    (projectChild env callId isFinal rawLine t snap).delegations =
      (projectChild env callId isFinal rawLine s snap).delegations := by
  have hremember := @delegations_rememberChild_congr _ _ callId snap h
  unfold projectChild
  generalize rememberChild callId snap t = u at hremember
  generalize rememberChild callId snap s = v at hremember
  have hopen : (openUnlessStarted env callId snap rawLine u).delegations =
      (openUnlessStarted env callId snap rawLine v).delegations := by
    unfold openUnlessStarted
    rw [rowStarted_congr hremember]
    split
    · exact hremember
    · exact delegations_openChild_congr hremember
  have hdone : (completeIfDone env callId isFinal snap rawLine
        (openUnlessStarted env callId snap rawLine u)).delegations =
      (completeIfDone env callId isFinal snap rawLine
        (openUnlessStarted env callId snap rawLine v)).delegations := by
    unfold completeIfDone
    rw [rowCompleted_congr hopen]
    split
    · exact hopen
    · split
      · exact hopen
      · rw [delegations_completeChild, delegations_completeChild, markCompleted, markCompleted,
          row_congr hopen]
        exact delegations_setRow_congr hopen _ _
  dsimp only
  rw [rowStarted_congr hremember]
  split
  · exact hremember
  · exact hdone

theorem delegations_captureInput_congr (h : t.delegations = s.delegations) :
    (captureInput env record callId t).delegations =
      (captureInput env record callId s).delegations := by
  have hset : (t.setDelegation callId (t.delegation callId)).delegations =
      (s.setDelegation callId (s.delegation callId)).delegations := by
    simp only [State.setDelegation, delegation_congr h, h]
  unfold captureInput
  generalize t.setDelegation callId (t.delegation callId) = u at hset
  generalize s.setDelegation callId (s.delegation callId) = v at hset
  dsimp only
  rw [delegation_congr hset]
  split
  · simp only [State.setDelegation, hset]
  · exact hset

theorem snapshotReports_congr (h : t.delegations = s.delegations) :
    snapshotReports env callId isFinal rawLine t snaps =
      snapshotReports env callId isFinal rawLine s snaps := by
  induction snaps generalizing s t with
  | nil => rfl
  | cons snap rest ih =>
    have hopens : snap.opens callId isFinal t = snap.opens callId isFinal s := by
      simp only [Snapshot.opens, rowStarted_congr h]
    have hends : snap.ends callId isFinal t = snap.ends callId isFinal s := by
      simp only [Snapshot.ends, hopens, rowCompleted_congr h]
    simp only [snapshotReports, hopens, hends, ih (delegations_projectChild_congr h)]

theorem recordReports_congr (h : t.delegations = s.delegations) (hpending : t.pending = s.pending)
    (record : JsonObject) (rawLine : Nat) :
    recordReports env record rawLine t = recordReports env record rawLine s := by
  have hfilled : filledRecord env record t = filledRecord env record s := by
    rw [filledRecord, filledRecord, hpending]
  unfold recordReports isDelegationRecord
  rw [hfilled]
  dsimp only
  rw [snapshotReports_congr (delegations_captureInput_congr h)]

/-! ### What a Stream Records -/

theorem creditsOf_append (rs rs' : List Report) :
    creditsOf (rs ++ rs') = creditsOf rs ++ creditsOf rs' := by
  simp [creditsOf]

theorem childUsage_project (h : DelegationsOk s) (hcall : OfCall callId snaps) :
    (snaps.foldl (projectChild env callId isFinal rawLine) s).childUsage =
      (creditsOf (snapshotReports env callId isFinal rawLine s snaps)).foldl credit
        s.childUsage := by
  induction snaps generalizing s with
  | nil => rfl
  | cons snap rest ih =>
    obtain ⟨hkey, hrest⟩ := forall_mem_cons.mp hcall
    have hchain : RowChain env rawLine callId isFinal (snap :: rest) s
        (projectChild env callId isFinal rawLine s snap) :=
      chain_projectChild h mem_cons_self hkey
    rw [foldl_cons, ih (delegationsOk_chain hcall h hchain) hrest, childUsage_projectChild h hkey]
    by_cases hends : snap.ends callId isFinal s
    · simp [snapshotReports, creditsOf, hends, Report.counts]
    · simp [snapshotReports, creditsOf, hends]

theorem childUsage_settleDelegation {callId : String}
    (h : settleDelegation env rawLine s callId = some s') : s'.childUsage = s.childUsage := by
  refine foldlM_keeps (P := fun u => u.childUsage = s.childUsage) ?_ h rfl
  intro u p u' hu hstep
  unfold settleEntry at hstep
  split at hstep
  · obtain ⟨payload, -, rfl⟩ := map_eq_some_iff.mp hstep
    exact hu
  · cases hstep
    exact hu

theorem childUsage_handleSubagentTool (h : DelegationsOk s)
    (hsub : handleSubagentTool env record callId rawLine s = some s') :
    s'.childUsage = (creditsOf (snapshotReports env callId (isFinalRecord record) rawLine
      (captureInput env record callId s) (callSnapshots env record callId))).foldl credit
        s.childUsage := by
  have hcapture : (captureInput env record callId s).childUsage = s.childUsage := by
    unfold captureInput
    dsimp only
    split <;> rfl
  have hchildless : ∀ u, (settleChildlessCall env record callId rawLine u).childUsage =
      u.childUsage := by
    intro u
    unfold settleChildlessCall
    dsimp only
    split
    · rfl
    · split <;> rfl
  have hinput := @delegationsOk_captureInput env record _ callId h
  have hproject := @childUsage_project env rawLine _ _ (isFinalRecord record) _ hinput
    (ofCall_callSnapshots env record callId)
  rw [hcapture] at hproject
  unfold handleSubagentTool at hsub
  dsimp only at hsub
  obtain ⟨u, hu, rfl⟩ := map_eq_some_iff.mp hsub
  rw [hchildless, ← hproject]
  split at hu
  · exact childUsage_settleDelegation hu
  · cases hu
    rfl

theorem translate_tool (h : toolTypes.any (record.get "type").isStr) :
    translate env record rawLine s = handleTool env record rawLine (beginRecord record rawLine s) := by
  obtain ⟨type, hmem, htype⟩ := List.any_eq_true.mp h
  have hvalue := Json.isStr_iff.mp htype
  simp only [toolTypes, mem_cons, not_mem_nil, or_false] at hmem
  unfold translate
  rcases hmem with rfl | rfl | rfl <;>
    simp [hvalue, Json.isStr, Json.asString, silentTypes, toolTypes]

/-- **Step**: a record credits what its snapshots report when they end a row. -/
theorem childUsage_translate (h : Running s)
    (htranslate : translate env record rawLine s = some s') :
    s'.childUsage =
      (creditsOf (recordReports env record rawLine s)).foldl credit s.childUsage := by
  unfold recordReports
  by_cases hdelegation : isDelegationRecord env record s
  · rw [if_pos hdelegation]
    simp only [isDelegationRecord, Bool.and_eq_true, bne_iff_ne, ne_eq] at hdelegation
    obtain ⟨⟨htype, hid⟩, htool⟩ := hdelegation
    have hcore := (quiet_beginRecord record rawLine s).core
    have hbuffers := buffers_beginRecord record rawLine s
    rw [translate_tool htype] at htranslate
    generalize beginRecord record rawLine s = u at htranslate hcore hbuffers
    have hpending : u.pending = s.pending := congrArg Buffers.pending hbuffers
    have hfilled : filledRecord env record u = filledRecord env record s := by
      rw [filledRecord, filledRecord, hpending]
    have hdelegations : u.delegations = s.delegations := congrArg Core.delegations hcore
    have husage : u.childUsage = s.childUsage := congrArg Core.childUsage hcore
    unfold handleTool at htranslate
    dsimp only at htranslate
    rw [if_neg hid, hfilled, if_pos htool] at htranslate
    generalize hconsumed : ({ u with
        pending := (consumePending record (toolCallIdOf env record) u.pending).2 } : State) = v
      at htranslate
    have hrows : v.delegations = s.delegations := by
      rw [← hconsumed]
      exact hdelegations
    have hledger : v.childUsage = s.childUsage := by
      rw [← hconsumed]
      exact husage
    rw [childUsage_handleSubagentTool (h.shape.congr hrows) htranslate,
      snapshotReports_congr (delegations_captureInput_congr hrows), hledger]
  · rw [if_neg hdelegation]
    cases translate_cases h.names htranslate with
    | quiet hleaves hnames => exact congrArg Core.childUsage hleaves.core
    | @block u _ hleaves hnames hstep =>
      exact (congrArg Core.childUsage (onlyBlock_step hstep).core).trans
        (congrArg Core.childUsage hleaves.core)
    | @delegation u _ hleaves hnames htype hid htool hsub =>
      exact absurd (by simp [isDelegationRecord, htype, hid, htool]) hdelegation

theorem childUsage_stepLine (h : Running s) (hstep : stepLine env s line = some s') :
    s'.childUsage =
      (creditsOf (Moment.reports env (s, line))).foldl credit s.childUsage := by
  rcases stepLine_cases hstep with ⟨hdict, rfl⟩ | ⟨record, hdict, hrecord⟩
  · have hcore := (quiet_reportLine line (beginLine line s)).core
    have hnone : Moment.reports env (s, line) = [] := by simp [Moment.reports, hdict]
    rw [hnone]
    exact congrArg Core.childUsage hcore
  · have hreports : recordReports env record (s.lineNo + 1) (beginLine line s) =
        Moment.reports env (s, line) := by
      rw [Moment.reports, hdict, map_some, getD_some]
      exact recordReports_congr (s := s) (t := beginLine line s) rfl rfl record _
    rw [childUsage_translate (running_beginLine h line) hrecord, hreports]
    rfl

/-- **Run**: what a stream records of its children. -/
theorem childUsage_run (h : translateLines env {} lines = some s) :
    s.childUsage = (creditsOf (reports env lines)).foldl credit [] := by
  have hrun : s.childUsage = (history env lines).foldl
      (fun ledger m => (creditsOf (Moment.reports env m)).foldl credit ledger) [] :=
    accumulator_run (fun _ _ _ hs hstep => running_stepLine hs hstep)
      (fun _ _ _ hs hstep => childUsage_stepLine hs hstep) running_init h
  rw [hrun, reports]
  generalize ([] : OrderedDict String (OrderedDict String Int)) = ledger
  induction history env lines generalizing ledger with
  | nil => rfl
  | cons m rest ih =>
    rw [foldl_cons, ih, flatMap_cons, creditsOf_append, foldl_append]

/-! ### The Root -/

/-- The usage that a record reports for the root. -/
def reportedUsage (record : JsonObject) : Option JsonObject :=
  let type := record.get "type"
  let source :=
    if type.isStr "message_update" then record
    else if type.isStr "message_end" then endedMessage record
    else if type.isStr "compaction_end" then dictOr (record.get "result")
    else []
  if (source.get "usage").asObject.isSome then some (usageOf source) else none

def rootUsage (env : Env) (lines : List Line) : Option JsonObject :=
  ((history env lines).filterMap fun m => m.2.dict.bind reportedUsage).getLast?

theorem recordUsage_eq (record usage : JsonObject) :
    recordUsage record usage = (reportedUsage record).getD usage := by
  unfold recordUsage reportedUsage usageAfter
  dsimp only
  split_ifs <;> first | rfl | contradiction

variable {root : JsonObject} {key : String} {rs : List Report}

theorem usage_run (h : translateLines env {} lines = some s)
    (hroot : rootUsage env lines = some root) : s.usage = root := by
  have hlast : some s.usage =
      (((history env lines).filterMap fun m => m.2.dict.bind reportedUsage).getLast?).or
        (some ({} : State).usage) := by
    refine register_run (f := fun s => some s.usage)
      (fun _ _ _ hs hstep => running_stepLine hs hstep) ?_ running_init h
    intro t line t' ht hstep
    dsimp only
    rcases stepLine_cases hstep with ⟨hdict, rfl⟩ | ⟨record, hdict, hrecord⟩
    · have hcore := (quiet_reportLine line (beginLine line t)).core
      rw [hdict]
      exact congrArg some (congrArg Core.usage hcore)
    · have husage : t'.usage = recordUsage record t.usage :=
        congrArg Core.usage (running_translate (running_beginLine ht line) hrecord).2.core
      rw [hdict, husage, recordUsage_eq, bind_some]
      cases reportedUsage record <;> rfl
  rw [← rootUsage, hroot] at hlast
  exact some.inj hlast

/-! ### Adding Up -/

theorem get_addChildUsage {usage : OrderedDict String Int} (h : usage.keys.Nodup)
    (combined : JsonObject) (key : String) :
    (addChildUsage combined usage).get key =
      match usage.lookup key with
      | some n => .int ((combined.get key).asInt.getD 0 + n)
      | none => combined.get key := by
  induction usage generalizing combined with
  | nil => rfl
  | cons p rest ih =>
    obtain ⟨k, n⟩ := p
    simp only [OrderedDict.keys, map_cons, nodup_cons] at h
    have hfold : addChildUsage combined ((k, n) :: rest) =
        addChildUsage (addChildUsage combined [(k, n)]) rest := rfl
    have hfirst : addChildUsage combined [(k, n)] =
        combined.set k (.int ((combined.get k).asInt.getD 0 + n)) := by
      simp only [addChildUsage, foldl_cons, foldl_nil]
      cases combined.get k <;> simp [Json.asInt]
    rw [hfold, ih h.2, hfirst]
    by_cases hk : key = k
    · subst hk
      have hnone : rest.lookup key = none := by
        rw [List.lookup_eq_none_iff]
        intro p hp
        simp only [bne_iff_ne, ne_eq]
        rintro rfl
        exact h.1 (List.mem_map_of_mem hp)
      simp [hnone]
    · simp [lookup_cons, beq_false_of_ne hk, JsonObject.get_set_ne _ hk]

theorem get_addChildren {usages : List (OrderedDict String Int)}
    (h : ∀ u ∈ usages, u.keys.Nodup) (root : JsonObject) (key : String) :
    (usages.foldl addChildUsage root).get key =
      if ∀ u ∈ usages, u.lookup key = none then root.get key
      else .int ((root.get key).asInt.getD 0 +
        (usages.map fun u => (u.lookup key).getD 0).sum) := by
  induction usages generalizing root with
  | nil => simp
  | cons u rest ih =>
    obtain ⟨hu, hrest⟩ := forall_mem_cons.mp h
    rw [foldl_cons, ih hrest, get_addChildUsage hu]
    cases hlookup : u.lookup key with
    | none =>
      simp only [forall_mem_cons, hlookup, true_and, map_cons, sum_cons, getD_none, zero_add]
    | some n =>
      have hsome : ¬ ∀ v ∈ u :: rest, v.lookup key = none := fun hall => by
        rw [hall u mem_cons_self] at hlookup
        cases hlookup
      rw [if_neg hsome]
      by_cases hnone : ∀ v ∈ rest, v.lookup key = none
      · have hzero : (rest.map fun v => (v.lookup key).getD 0).sum = 0 := by
          refine sum_eq_zero ?_
          intro x hx
          obtain ⟨v, hv, rfl⟩ := List.mem_map.mp hx
          rw [hnone v hv]
          rfl
        rw [if_pos hnone]
        simp [hlookup, hzero]
      · rw [if_neg hnone]
        simp [hlookup, Json.asInt, add_assoc]

/-- The children whose row has been opened. -/
def children (rs : List Report) : Finset String :=
  ((rs.filter (·.opened)).map (·.child)).toFinset

/-- The greatest value that the snapshots of a child report. -/
def reportedMax (rs : List Report) (child key : String) : Int :=
  highest (rs.map Report.counts) child key

/-- The greatest value that the snapshots report that end a row of the child. -/
def recordedMax (rs : List Report) (child key : String) : Int :=
  highest (creditsOf rs) child key

theorem recordedMax_le (rs : List Report) (child key : String) :
    recordedMax rs child key ≤ reportedMax rs child key :=
  highest_mono ((filter_sublist).map _) child key

/-- What reports of a stream are like. -/
structure ReportsOk (rs : List Report) : Prop where
  nodup : ∀ r ∈ rs, r.usage.keys.Nodup
  opened : ∀ r ∈ rs, r.ends → r.opened

/-- Nothing is recorded under a key that no snapshot that ends a row reports. -/
theorem values_eq_nil
    (h : ∀ r ∈ rs, r.ends → r.usage.lookup key = none) (child : String) :
    values (creditsOf rs) child key = [] := by
  refine filterMap_eq_nil_iff.mpr ?_
  intro q hq
  obtain ⟨r, hr, rfl⟩ := List.mem_map.mp hq
  obtain ⟨hmem, hends⟩ := mem_filter.mp hr
  split
  · exact h r hmem hends
  · rfl

/-- The usage of the attempt is the root's and the largest report of each child. -/
theorem get_attemptUsage (h : ReportsOk rs)
    (hroot : root ≠ []) (key : String) :
    (attemptUsage ((creditsOf rs).foldl credit []) root).get key =
      if ∀ r ∈ rs, r.ends → r.usage.lookup key = none then root.get key
      else .int ((root.get key).asInt.getD 0 +
        (children rs).sum fun child => recordedMax rs child key) := by
  have hnodup : ∀ p ∈ creditsOf rs, p.2.keys.Nodup := by
    intro p hp
    obtain ⟨r, hr, rfl⟩ := List.mem_map.mp hp
    exact h.nodup r (mem_filter.mp hr).1
  obtain ⟨hkeys, howners⟩ := keys_credits (creditsOf rs)
  have hcounted := counted_credits hnodup
  have hcounts := keys_counts (creditsOf rs)
  have hchildren : ∀ child ∈ ((creditsOf rs).foldl credit []).keys, child ∈ children rs := by
    intro child hchild
    obtain ⟨p, hp, rfl⟩ := howners child hchild
    obtain ⟨r, hr, rfl⟩ := List.mem_map.mp hp
    obtain ⟨hmem, hends⟩ := mem_filter.mp hr
    refine List.mem_toFinset.mpr (List.mem_map.mpr ⟨r, ?_, rfl⟩)
    exact mem_filter.mpr ⟨hmem, h.opened r hmem hends⟩
  have hsum := sum_ledger hkeys key hchildren
  simp only [getD_counted_credits hnodup] at hsum
  generalize hledger : (creditsOf rs).foldl credit [] = ledger at *
  -- the ledger has the key when some report has it
  have hnone : (∀ u ∈ ledger.map (·.2), u.lookup key = none) ↔
      ∀ r ∈ rs, r.ends → r.usage.lookup key = none := by
    constructor
    · intro hall r hr hends
      by_contra hsome
      obtain ⟨n, hn⟩ := ne_none_iff_exists'.mp hsome
      have hmem : n ∈ values (creditsOf rs) r.child key := by
        refine mem_filterMap.mpr ⟨r.counts, ?_, (if_pos rfl).trans hn⟩
        exact List.mem_map_of_mem (mem_filter.mpr ⟨hr, hends⟩)
      have hvalue := hcounted r.child key
      rw [if_neg (ne_nil_of_mem hmem)] at hvalue
      obtain ⟨counts, hcounts', hlookup⟩ := bind_eq_some_iff.mp hvalue
      have hin := OrderedDict.mem_of_lookup hcounts'
      rw [hall counts (List.mem_map.mpr ⟨_, hin, rfl⟩)] at hlookup
      cases hlookup
    · intro hall u hu
      obtain ⟨p, hp, rfl⟩ := List.mem_map.mp hu
      have hvalue := hcounted p.1 key
      rw [if_pos (values_eq_nil hall p.1), counted, (OrderedDict.lookup_eq_some_iff hkeys).mpr hp] at hvalue
      exact hvalue
  have hempty : root.isEmpty = false := by simpa using hroot
  unfold attemptUsage
  have husages : ∀ u ∈ ledger.map (·.2), u.keys.Nodup := by
    intro u hu
    obtain ⟨p, hp, rfl⟩ := List.mem_map.mp hu
    exact hcounts p hp
  rw [hempty, if_neg (by simp), get_addChildren husages, List.map_map]
  rw [show ((fun u : OrderedDict String Int => (u.lookup key).getD 0) ∘ fun x => x.2) =
    fun p : String × OrderedDict String Int => (p.2.lookup key).getD 0 from rfl, hsum]
  simp only [hnone]
  rfl

/-! ### The Total -/

/-- The number a value stands for; no value stands for none. -/
def amount : Json → Option Rat
  | .null => some 0
  | .int n => some n
  | .float x => x.toRat?.filter (0 ≤ ·)
  | _ => none

theorem amount_of_asInt {v : Json} {n : Int} (h : v.asInt = some n) : amount v = some (n : Rat) := by
  cases v <;> simp_all [Json.asInt, amount]

theorem amount_nonneg {v : Json} (hint : v.asInt = none) {a : Rat} (h : amount v = some a) :
    0 ≤ a := by
  cases v with
  | null => exact (some.inj h).le
  | float x =>
    obtain ⟨-, hle⟩ := filter_eq_some_iff.mp h
    simpa using hle
  | int n => cases hint
  | _ => cases h

/-- Nothing of what is reported under a key gets lost. -/
structure NothingLost (rs : List Report) (root : JsonObject) (key : String) : Prop where
  /-- What is added to is an integer. -/
  root : (root.get key).asInt.isSome ∨ amount (root.get key) = some 0 ∨
    ∀ r ∈ rs, r.ends → r.usage.lookup key = none
  /-- The snapshot that ends a row reports what the child has reported at most. -/
  children : ∀ child ∈ children rs, recordedMax rs child key = reportedMax rs child key

theorem sum_recorded_iff (rs : List Report) (key : String) :
    ((children rs).sum fun child => recordedMax rs child key) =
        ((children rs).sum fun child => reportedMax rs child key) ↔
      ∀ child ∈ children rs, recordedMax rs child key = reportedMax rs child key :=
  Finset.sum_eq_sum_iff_of_le fun child _ => recordedMax_le rs child key

/-- **Total**: a key of the total is right when nothing is lost. -/
theorem amount_attemptUsage_iff (h : ReportsOk rs)
    (hroot : root ≠ []) {a : Rat} (ha : amount (root.get key) = some a) :
    amount ((attemptUsage ((creditsOf rs).foldl credit []) root).get key) =
        some (a + ((children rs).sum fun child => reportedMax rs child key : Int)) ↔
      NothingLost rs root key := by
  have hle : ((children rs).sum fun child => recordedMax rs child key) ≤
      (children rs).sum fun child => reportedMax rs child key :=
    Finset.sum_le_sum fun child _ => recordedMax_le rs child key
  have hsame := sum_recorded_iff rs key
  rw [get_attemptUsage h hroot]
  by_cases hnone : ∀ r ∈ rs, r.ends → r.usage.lookup key = none
  · -- the root's value is left as it is
    have hzero : ((children rs).sum fun child => recordedMax rs child key) = 0 := by
      refine Finset.sum_eq_zero fun child _ => ?_
      rw [recordedMax, highest, values_eq_nil hnone, foldr_nil]
    rw [if_pos hnone, ha]
    rw [hzero] at hsame
    constructor
    · intro heq
      refine ⟨.inr (.inr hnone), hsame.mp ?_⟩
      have hsum := some.inj heq
      have hcast : (((children rs).sum fun child => reportedMax rs child key : Int) : Rat) = 0 := by
        linarith
      exact (Rat.intCast_inj.mp (by rw [hcast]; rfl)).symm
    · intro hlost
      rw [← hsame.mpr hlost.children]
      simp
  · rw [if_neg hnone]
    generalize ((children rs).sum fun child => recordedMax rs child key) = recorded at hle hsame ⊢
    generalize ((children rs).sum fun child => reportedMax rs child key) = reported at hle hsame ⊢
    cases hint : (root.get key).asInt with
    | some n =>
      have han : a = n := some.inj (ha.symm.trans (amount_of_asInt hint))
      rw [han, amount, getD_some, some_inj, ← Rat.intCast_add, Rat.intCast_inj, add_right_inj]
      constructor
      · exact fun heq => ⟨.inl (by rw [hint]; rfl), hsame.mp heq⟩
      · exact fun hlost => hsame.mpr hlost.children
    | none =>
      have hnonneg := amount_nonneg hint ha
      rw [amount, getD_none, zero_add, some_inj]
      constructor
      · intro heq
        have hle' : (recorded : Rat) ≤ reported := Rat.intCast_le_intCast.mpr hle
        have hazero : a = 0 := by linarith
        rw [hazero, zero_add, Rat.intCast_inj] at heq
        exact ⟨.inr (.inl (by rw [ha, hazero])), hsame.mp heq⟩
      · intro hlost
        rw [hsame.mpr hlost.children]
        rcases hlost.root with hsome | hzero | hall
        · rw [hint] at hsome
          cases hsome
        · rw [ha] at hzero
          rw [some.inj hzero, zero_add]
        · exact absurd hall hnone

/-! ### The Last Event of Usage -/

theorem nodup_childUsageOf (result : JsonObject) : (childUsageOf result).keys.Nodup := by
  unfold childUsageOf
  dsimp only
  generalize dictOr (result.get "usage") = usage
  cases hinput : asCount (usage.get "input") <;> cases houtput : asCount (usage.get "output") <;>
    cases hcached : asCount (usage.get "cacheRead") <;>
    simp [OrderedDict.keys, hinput, houtput, hcached]

theorem reportsOk_snapshotReports (s : State) :
    ReportsOk (snapshotReports env callId isFinal rawLine s snaps) := by
  induction snaps generalizing s with
  | nil => exact ⟨by simp [snapshotReports], by simp [snapshotReports]⟩
  | cons snap rest ih =>
    obtain ⟨hnodup, hopened⟩ := ih (projectChild env callId isFinal rawLine s snap)
    refine ⟨forall_mem_cons.mpr ⟨nodup_childUsageOf snap.result, hnodup⟩, ?_⟩
    refine forall_mem_cons.mpr ⟨fun hends => ?_, hopened⟩
    simp only [Snapshot.ends, Bool.and_eq_true] at hends
    exact hends.1.1.1

theorem reportsOk_reports (env : Env) (lines : List Line) : ReportsOk (reports env lines) := by
  have hmoment : ∀ m, ReportsOk (Moment.reports env m) := by
    intro m
    unfold Moment.reports
    cases m.2.dict with
    | none => exact ⟨by simp, by simp⟩
    | some record =>
      rw [map_some, getD_some, recordReports]
      split
      · exact reportsOk_snapshotReports _
      · exact ⟨by simp, by simp⟩
  constructor
  · intro r hr
    obtain ⟨m, -, hm⟩ := mem_flatMap.mp hr
    exact (hmoment m).nodup r hm
  · intro r hr
    obtain ⟨m, -, hm⟩ := mem_flatMap.mp hr
    exact (hmoment m).opened r hm

theorem rootUsage_ne_nil (h : rootUsage env lines = some root) :
    root ≠ [] := by
  obtain ⟨m, -, hm⟩ := mem_filterMap.mp (mem_of_getLast? h)
  obtain ⟨record, -, hreported⟩ := bind_eq_some_iff.mp hm
  unfold reportedUsage at hreported
  dsimp only at hreported
  generalize (if (record.get "type").isStr "message_update" then record
    else if (record.get "type").isStr "message_end" then endedMessage record
    else if (record.get "type").isStr "compaction_end" then dictOr (record.get "result")
    else []) = source at hreported
  split at hreported
  · rw [← some.inj hreported]
    simp [usageOf]
  · cases hreported

/-- The `usage.final` events of a log. -/
def totals (events : List Event) : List Event := events.filter fun e => e.type == "usage.final"

theorem totals_eq_nil {events : List Event} (h : ∀ e ∈ events, e.type ≠ "usage.final") :
    totals events = [] := by
  refine filter_eq_nil_iff.mpr fun e he => ?_
  simpa using h e he

theorem totals_emitTerminalAtEof (h : Running s) (heof : emitTerminalAtEof env s = some s') :
    ∃ line, totals s'.events = finalUsage s line := by
  obtain ⟨t, hdecide, hemit⟩ := bind_eq_some_iff.mp heof
  obtain ⟨u, reason, payload, hsettle, rfl⟩ := emitTerminal_cases hemit
  have hdecided := decided_decideTerminal hdecide
  obtain ⟨new, hnew, htypes⟩ := (delegates_settleOpenDelegations hsettle).events
  obtain ⟨new', hnew', htypes'⟩ := (onlyBlock_closeOpenThinking reason u.terminalLine u).events
  have hterminal : terminalType u ≠ "usage.final" := by
    unfold terminalType
    split <;> decide
  have hkeep : totals (finalUsage s t.terminalLine) = finalUsage s t.terminalLine := by
    refine filter_eq_self.mpr fun e he => ?_
    unfold finalUsage at he
    split at he
    · cases he
    · obtain rfl := mem_singleton.mp he
      rfl
  refine ⟨t.terminalLine, ?_⟩
  have happend : ∀ l l' : List Event, totals (l ++ l') = totals l ++ totals l' := fun _ _ =>
    filter_append _ _
  show totals ((closeOpenThinking reason u.terminalLine u).events ++ [_]) = _
  rw [happend, hnew', happend, hnew, happend, hdecided.events, happend, hkeep,
    totals_eq_nil fun e he => (h.unfinished e he).noTotal,
    totals_eq_nil fun e he => (midstream_of_rowTypes (htypes e he)).noTotal,
    totals_eq_nil fun e he => (midstream_of_blockTypes (htypes' e he)).noTotal]
  simp [totals, hterminal]

/-! ### The Attempt's Usage -/

/-- The keys of a usage that count tokens. -/
def tokenKeys : List String :=
  ["input_tokens", "cached_input_tokens", "output_tokens", "reasoning_tokens"]

/-- The one `usage.final` says, for each token key for which the root's last value is a number,
    that value plus the greatest value each delegated child has reported. -/
def UsageRight (env : Env) (lines : List Line) : Prop :=
  ∀ root : JsonObject, rootUsage env lines = some root →
    ∃ (s : State) (total : JsonObject) (line : Nat), main env lines = some s ∧
      totals s.events = [⟨"usage.final", [("usage", .obj total)], line⟩] ∧
      ∀ key ∈ tokenKeys, ∀ a, amount (root.get key) = some a →
        amount (total.get key) = some (a + ((children (reports env lines)).sum fun child =>
          reportedMax (reports env lines) child key : Int))

theorem attemptUsage_ne_nil (ledger : OrderedDict String (OrderedDict String Int))
    (h : root ≠ []) : attemptUsage ledger root ≠ [] := by
  have hset : ∀ (d : JsonObject) (key : String) (v : Json), d.set key v ≠ [] := by
    intro d key v
    cases d with
    | nil => simp [JsonObject.set]
    | cons p rest =>
      unfold JsonObject.set
      split <;> simp
  have hchild : ∀ (usage : OrderedDict String Int) (d : JsonObject), d ≠ [] →
      addChildUsage d usage ≠ [] := by
    intro usage
    induction usage with
    | nil => exact fun _ hd => hd
    | cons p rest ih => exact fun d _ => ih _ (hset d _ _)
  have hchildren : ∀ (usages : List (OrderedDict String Int)) (d : JsonObject), d ≠ [] →
      usages.foldl addChildUsage d ≠ [] := by
    intro usages
    induction usages with
    | nil => exact fun _ hd => hd
    | cons u rest ih => exact fun d hd => ih _ (hchild u d hd)
  unfold attemptUsage
  split
  · exact h
  · exact hchildren _ root h

theorem totals_main (hroot : rootUsage env lines = some root)
    (h : main env lines = some s) :
    ∃ line, totals s.events = [⟨"usage.final", [("usage", .obj (attemptUsage
      ((creditsOf (reports env lines)).foldl credit []) root))], line⟩] := by
  obtain ⟨t, ht, heof⟩ := bind_eq_some_iff.mp h
  obtain ⟨line, hline⟩ := totals_emitTerminalAtEof (running_translateLines ht) heof
  refine ⟨line, ?_⟩
  have hempty : (attemptUsage t.childUsage t.usage).isEmpty = false := by
    rw [usage_run ht hroot]
    simpa using attemptUsage_ne_nil t.childUsage (rootUsage_ne_nil hroot)
  rw [hline, finalUsage, hempty, if_neg (by simp), childUsage_run ht, usage_run ht hroot]

theorem nothingLost_of_usageRight (h : UsageRight env lines) {root : JsonObject}
    (hroot : rootUsage env lines = some root) {key : String} (hkey : key ∈ tokenKeys)
    (hsome : (amount (root.get key)).isSome) : NothingLost (reports env lines) root key := by
  obtain ⟨s, total, line, hmain, htotals, hright⟩ := h root hroot
  obtain ⟨line', hline⟩ := totals_main hroot hmain
  rw [htotals] at hline
  obtain ⟨rfl, -⟩ : total = _ ∧ line = line' := by simpa using hline
  obtain ⟨a, ha⟩ := isSome_iff_exists.mp hsome
  exact (amount_attemptUsage_iff (reportsOk_reports env lines) (rootUsage_ne_nil hroot) ha).mp
    (hright key hkey a ha)

/-- **Usage**: the total is right exactly for the streams that nothing raises on and of whose
    reports nothing is lost. -/
theorem usage_iff_nothing_lost (env : Env) (lines : List Line) :
    UsageRight env lines ↔
      ∀ root : JsonObject, rootUsage env lines = some root →
        Survived env lines ∧ ∀ key ∈ tokenKeys, (amount (root.get key)).isSome →
          NothingLost (reports env lines) root key := by
  constructor
  · intro h root hroot
    refine ⟨?_, fun key hkey hsome => nothingLost_of_usageRight h hroot hkey hsome⟩
    obtain ⟨s, total, line, hmain, -⟩ := h root hroot
    exact (main_isSome env lines).mp (by rw [hmain]; rfl)
  · intro h root hroot
    obtain ⟨hsurvived, hlost⟩ := h root hroot
    obtain ⟨s, hmain⟩ := isSome_iff_exists.mp ((main_isSome env lines).mpr hsurvived)
    obtain ⟨line, hline⟩ := totals_main hroot hmain
    refine ⟨s, _, line, hmain, hline, ?_⟩
    intro key hkey a ha
    exact (amount_attemptUsage_iff (reportsOk_reports env lines) (rootUsage_ne_nil hroot) ha).mpr
      (hlost key hkey (by rw [ha]; rfl))

/-! ### A Child that Is Swept -/

/-- A child reports its usage while it runs, and its call ends without a word about it. -/
def sweptChild : List Line :=
  [lineOf [("type", .str "tool_execution_update"), ("toolCallId", .str "call-1"),
     ("toolName", .str "subagent"), ("partialResult", .obj [("details", .obj [("results",
       .arr [.obj [("runId", .str "run-1"), ("agent", .str "explorer"),
         ("usage", .obj [("input", .int 7)])]])])])],
   lineOf [("type", .str "tool_execution_end"), ("toolCallId", .str "call-1"),
     ("toolName", .str "subagent")],
   lineOf [("type", .str "message_end"), ("message", .obj [("usage", .obj [("input", .int 10)])])]]

/-- The seven tokens of the child are not in the total. -/
theorem swept_child_uncounted : ¬ UsageRight plainEnv sweptChild := by
  have hroot : (rootUsage plainEnv sweptChild).map (fun root => root.get "input_tokens" |>.asInt) =
      some (some 10) := by decide +kernel
  have hchild : "call-1:run-1" ∈ ((reports plainEnv sweptChild).filter (·.opened)).map (·.child) := by
    decide +kernel
  have hrecorded : recordedMax (reports plainEnv sweptChild) "call-1:run-1" "input_tokens" = 0 := by
    decide +kernel
  have hreported : reportedMax (reports plainEnv sweptChild) "call-1:run-1" "input_tokens" = 7 := by
    decide +kernel
  intro h
  obtain ⟨root, hroot, hinput⟩ := map_eq_some_iff.mp hroot
  have hsome : (amount (root.get "input_tokens")).isSome := by
    rw [amount_of_asInt hinput]
    rfl
  have hlost := @nothingLost_of_usageRight _ _ h _ hroot "input_tokens" (by decide) hsome
  have hsame := hlost.children "call-1:run-1" (List.mem_toFinset.mpr hchild)
  rw [hrecorded, hreported] at hsame
  cases hsame

end Codify.Harness.PiEvents

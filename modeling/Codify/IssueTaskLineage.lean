import Codify.Framework.Table
import Codify.IssueSchedule

/-! # Session Lineages of One Issue

    Every Task of an Issue carries a projected lineage (harness, namespace,
    generation), and `issue_session_lineages` holds one row for each
    `(issue_id, lineage_generation)` with the session produced in it. Three
    pieces of code assign generations: the backfill of migration 068, the
    append of a new tail Task (`project_tail_lineage`, from `create_task_record`
    and `retry_task_record`) and the runtime repair of rows the backfill left
    NULL (`_repair_lineage_projections`). The Worker then resolves and records
    sessions through app/core/issue_task_lineage.py.

    The module runs all of them over one Issue and says when a generation
    denotes one session lineage.
-/

namespace Codify.IssueTaskLineage

open Codify Codify.Framework Codify.IssueTaskOrder Codify.IssueSchedule Option

/-! ### Namespaces -/

/-- `session_namespace_for` with the default `adapter_state_major`. `digest` is the SHA-256
    of the material, as its first 16 hexadecimal digits. -/
def sessionNamespaceFor (digest : String → String) (harnessKey : String)
    (endpointFingerprint : Option String) : String :=
  harnessKey ++ "-" ++ digest (harnessKey ++ "|" ++ endpointFingerprint.getD "" ++ "|state-1")

theorem sessionNamespaceFor_ne_legacy (digest : String → String) (harnessKey : String)
    (endpointFingerprint : Option String) :
    sessionNamespaceFor digest harnessKey endpointFingerprint ≠ legacyNamespace := by
  intro h
  have hdash : '-' ∈ (sessionNamespaceFor digest harnessKey endpointFingerprint).toList := by
    simp [sessionNamespaceFor, String.toList_append]
  rw [h] at hdash
  revert hdash
  decide

/-- The digests of the materials that occur in the concrete runs of this development. -/
def sampleDigest (material : String) : String :=
  if material = "claude||state-1" then "93f3c24c14133571"
  else if material = "codex||state-1" then "135868de8805c1e8"
  else if material = "claude|fp-1|state-1" then "ad3496f5f3919160"
  else if material = "claude|fp-2|state-1" then "8a90a02cd53ddb5a"
  else ""

/-! ### Lineage Rows -/

/-- `IssueSessionLineage.lineage_reason`. -/
inductive RowReason where
  | projected (reason : LineageReason)
  | importedLegacy
  deriving DecidableEq, Repr

/-- One row of `issue_session_lineages`; the generation is unique within the Issue. -/
structure IssueSessionLineage where
  lineageGeneration : Nat
  harnessKey : String
  sessionNamespace : String
  resetTaskId : Option Nat
  sessionId : Option String := none
  lastOutputTaskId : Option Nat := none
  lastOutputIssueSequence : Option Nat := none
  lineageReason : RowReason
  deriving DecidableEq, Repr

/-- `get_lineage_row`. -/
def getLineageRow (generation : Nat) (rows : List IssueSessionLineage) :
    Option IssueSessionLineage :=
  Table.row? (·.lineageGeneration) generation rows

/-- The row `ensure_lineage_row` creates for a projection. -/
def newLineageRow (p : Projection) (reason : LineageReason) : IssueSessionLineage :=
  { lineageGeneration := p.generation
    harnessKey := p.harnessKey
    sessionNamespace := p.sessionNamespace
    resetTaskId := p.resetTaskId
    lineageReason := .projected reason }

/-- `ensure_lineage_row`: the row of the generation and the table that has it. -/
def ensureLineageRow (p : Projection) (reason : LineageReason)
    (rows : List IssueSessionLineage) : IssueSessionLineage × List IssueSessionLineage :=
  match getLineageRow p.generation rows with
  | some row => (row, rows)
  | none => (newLineageRow p reason, rows ++ [newLineageRow p reason])

def setLineageRow (row : IssueSessionLineage) (rows : List IssueSessionLineage) :
    List IssueSessionLineage :=
  Table.update (·.lineageGeneration) row.lineageGeneration (fun _ => row) rows

/-- `projection_for_task`. Unlike `_has_full_projection` it asks neither for the reason
    nor for the reset point of a generation above 0. -/
def projectionForTask (task : Task) : Option (String × String × Nat × Option Nat) :=
  match task.projectedHarnessKey, task.projectedSessionNamespace,
      task.projectedLineageGeneration with
  | some harnessKey, some sessionNamespace, some generation =>
    some (harnessKey, sessionNamespace, generation, task.projectedResetTaskId)
  | _, _, _ => none

/-- `input_lineage_reason`. -/
inductive InputReason where
  | fresh
  | resumed
  | freshNoMatch
  deriving DecidableEq, Repr

/-- `resolve_projected_resume_session`: the session to resume, the reason, and the table. -/
def resolveProjectedResumeSession (harnessKey sessionNamespace : String) (generation : Nat)
    (resetTaskId : Option Nat) (sessionMode : SessionMode)
    (rows : List IssueSessionLineage) :
    (Option String × InputReason) × List IssueSessionLineage :=
  match sessionMode with
  | .fresh =>
    let p : Projection := { harnessKey, sessionNamespace, generation, resetTaskId,
                            reason := .fresh }
    let (row, rows) := ensureLineageRow p .fresh rows
    ((none, .fresh),
      setLineageRow { row with sessionId := none, lineageReason := .projected .fresh } rows)
  | .continue =>
    match getLineageRow generation rows with
    | some row =>
      if row.harnessKey = harnessKey ∧ row.sessionNamespace = sessionNamespace
          ∧ row.sessionId.any (· != "") then
        ((row.sessionId, .resumed), rows)
      else
        ((none, .freshNoMatch), rows)
    | none => ((none, .freshNoMatch), rows)

/-- The four `ValueError`s of `record_projected_output_session`. -/
inductive RecordError where
  /-- "Task has no projected lineage to record output against" -/
  | noProjectedLineage
  /-- "Task has no projected lineage generation" -/
  | noProjectedGeneration
  /-- "Lineage row no longer matches the Task projection; refusing to cross generations" -/
  | lineageMismatch
  /-- "Task issue_sequence is behind the generation's last output" -/
  | behindLastOutput
  deriving DecidableEq, Repr

/-- `record_projected_output_session`. -/
def recordProjectedOutputSession (task : Task) (sessionId : Option String)
    (rows : List IssueSessionLineage) : Except RecordError (List IssueSessionLineage) :=
  match task.projectedHarnessKey, task.projectedSessionNamespace with
  | some harnessKey, some sessionNamespace =>
    match task.projectedLineageGeneration with
    | none => .error .noProjectedGeneration
    | some generation =>
      let reason := task.lineageProjectionReason.getD .inherited
      let p : Projection := { harnessKey, sessionNamespace, generation,
                              resetTaskId := task.projectedResetTaskId, reason }
      let (row, rows) := ensureLineageRow p reason rows
      if row.harnessKey ≠ harnessKey ∨ row.sessionNamespace ≠ sessionNamespace then
        .error .lineageMismatch
      else if task.issueSequence.any fun q => row.lastOutputIssueSequence.any (q < ·) then
        .error .behindLastOutput
      else
        .ok (setLineageRow { row with
          sessionId
          lastOutputTaskId := some task.id
          lastOutputIssueSequence := task.issueSequence } rows)
  | _, _ => .error .noProjectedLineage

/-! ### Backfill -/

/-- The projection that follows `tail` in the backfill. Nothing blocks: a namespace
    change opens a generation of its own. -/
def backfilledProjection (tail : Option Projection) (task : Task)
    (harnessKey sessionNamespace : String) : Projection :=
  match tail with
  | none =>
    { harnessKey, sessionNamespace
      generation := if task.sessionMode = .fresh then 1 else 0
      resetTaskId := if task.sessionMode = .fresh then some task.id else none
      reason := .initial }
  | some tail =>
    if task.sessionMode = .fresh then
      { harnessKey, sessionNamespace, generation := tail.generation + 1,
        resetTaskId := some task.id, reason := .fresh }
    else if harnessKey = tail.harnessKey ∧ sessionNamespace = tail.sessionNamespace then
      { harnessKey, sessionNamespace, generation := tail.generation,
        resetTaskId := tail.resetTaskId, reason := .inherited }
    else
      { harnessKey, sessionNamespace, generation := tail.generation + 1,
        resetTaskId := some task.id, reason := .legacyNamespaceChange }

section Backfill

variable (sessionNamespaceFor : String → Option String → String)
variable (snapshots : Nat → Option WorkerSnapshot)

/-- The loop of `_backfill_lineage` over the Tasks of one Issue; an active Task without
    a verifiable snapshot keeps its NULLs. -/
def backfillLineage (tail : Option Projection) : List Task → List Task
  | [] => []
  | task :: rest =>
    match derivedLineage sessionNamespaceFor snapshots task with
    | none => task :: backfillLineage tail rest
    | some (harnessKey, sessionNamespace) =>
      let p := backfilledProjection tail task harnessKey sessionNamespace
      setProjection task p :: backfillLineage (some p) rest

/-- The Tasks of one generation (`generation_tasks`). -/
def generationTasks (generation : Nat) (tasks : List Task) : List Task :=
  tasks.filter (·.projectedLineageGeneration == some generation)

/-- The order of the sequence numbers, as a computable instance. -/
local instance instPreorderSequence : Preorder Int := Int.instLinearOrder.toPreorder

variable (outputSessions : Nat → Option String)

/-- The latest terminal Task of a generation that produced a session. -/
def producer (tasks : List Task) : Option Task :=
  (tasks.filter fun t => t.status.terminal && (outputSessions t.id).any (· != "")).argmax
    fun t => t.issueSequence.elim (-1) Int.ofNat

/-- The row `_backfill_session_lineages` inserts for one generation. `legacySession` is
    the newest matching session of `issue_harness_sessions`. -/
def backfilledRow (legacySession : String → String → Option String) (tasks : List Task)
    (p : Projection) : IssueSessionLineage :=
  let row := newLineageRow p p.reason
  match producer outputSessions (generationTasks p.generation tasks) with
  | some task =>
    { row with
      sessionId := outputSessions task.id
      lastOutputTaskId := some task.id
      lastOutputIssueSequence := task.issueSequence }
  | none =>
    match (legacySession p.harnessKey p.sessionNamespace).filter (· != "") with
    | some sessionId =>
      if p.generation = 0 then
        { row with sessionId := some sessionId, lineageReason := .importedLegacy }
      else row
    | none => row

/-- `_backfill_session_lineages`: one row a generation, with the facts of the last Task
    of that generation (`generation_meta`). -/
def backfillSessionLineages (legacySession : String → String → Option String) (tasks : List Task) :
    List IssueSessionLineage :=
  ((tasks.filterMap (·.projectedLineageGeneration)).dedup.insertionSort (· ≤ ·)).filterMap
    fun generation => do
      let task ← (generationTasks generation tasks).getLast?
      let p ← taskProjection task
      return backfilledRow outputSessions legacySession tasks p

/-- Sequence numbers of the history: the row number in creation order. -/
def numberFrom : Nat → List Task → List Task
  | _, [] => []
  | k, task :: rest => { task with issueSequence := some k } :: numberFrom (k + 1) rest

/-- Migration 068 on the Tasks of one Issue: number them, then project their lineage. -/
def upgrade068 (history : List Task) : List Task :=
  backfillLineage sessionNamespaceFor snapshots none
    (numberFrom 1 (history.insertionSort createdBefore))

end Backfill

/-! ### Retries -/

/-- What `str.strip` removes. -/
def isSpace (c : Char) : Bool :=
  let n := c.toNat
  (9 ≤ n && n ≤ 13) || (28 ≤ n && n ≤ 32) || n == 0x85 || n == 0xA0 || n == 0x1680
    || (0x2000 ≤ n && n ≤ 0x200A) || n == 0x2028 || n == 0x2029 || n == 0x202F
    || n == 0x205F || n == 0x3000

/-- The part of a retry that the ordering service sees. -/
structure RetryRequest where
  sourceId : Nat
  /-- `lineage_strategy == "fresh_retry"`. -/
  freshRetry : Bool := false
  scheduledAt : Option DateTime := none
  deriving DecidableEq, Repr

/-- The errors of `retry_task_record` from the Issue row lock on. -/
inductive RetryError where
  | order (error : OrderError)
  /-- "Retry source has no immutable Worker snapshot" -/
  | noSnapshot
  /-- `retry_lineage_conflict`. -/
  | lineageConflict (source : String × String × Option Nat × Option Nat)
      (tail : Option Projection)
  deriving DecidableEq, Repr

/-- `retry_session_mode`: a fresh run that produced no session is retried fresh. -/
def retrySessionMode (source : Task) (outputSessionId : Option String) : SessionMode :=
  if source.sessionMode = .fresh ∧ ¬ outputSessionId.any (·.toList.any (!isSpace ·)) then
    .fresh
  else
    .continue

section Retries

variable (sessionNamespaceFor : String → Option String → String)
variable (snapshots : Nat → Option WorkerSnapshot) (issueId : Nat)

/-- `source_projection`: the projected columns of the source, or a lineage derived from
    its snapshot where they are NULL or empty. -/
def sourceProjection (source : Task) (snapshot : WorkerSnapshot) :
    String × String × Option Nat × Option Nat :=
  match source.projectedHarnessKey.filter (· != ""),
      source.projectedSessionNamespace.filter (· != "") with
  | some harnessKey, some sessionNamespace =>
    (harnessKey, sessionNamespace, source.projectedLineageGeneration,
      source.projectedResetTaskId)
  | _, _ =>
    let harnessKey := (snapshot.harnessKey.filter (· != "")).getD legacyNamespace
    (harnessKey, sessionNamespaceFor harnessKey snapshot.endpointFingerprint, none, none)

/-- The lineage of the new turn: a fresh retry opens a generation, any other must match
    the tail on the whole lineage tuple. -/
def retryProjection (retryIsFresh : Bool) (tail : Option Projection)
    (source : String × String × Option Nat × Option Nat) : Except RetryError Projection :=
  let (harnessKey, sessionNamespace, generation, resetTaskId) := source
  if retryIsFresh then
    (projectTailLineage tail issueId harnessKey sessionNamespace .fresh).mapError .order
  else
    match tail with
    | none => .error (.lineageConflict source none)
    | some t =>
      if harnessKey = t.harnessKey ∧ sessionNamespace = t.sessionNamespace
          ∧ generation = some t.generation ∧ resetTaskId = t.resetTaskId then
        (projectTailLineage (some t) issueId harnessKey sessionNamespace
          .continue).mapError .order
      else
        .error (.lineageConflict source (some t))

/-- The row inserted by `retry_task_record`. `fresh_retry` opens a generation although the
    stored `session_mode` is the one of the source run. -/
def retryTask (newId : Nat) (now : DateTime) (request : RetryRequest) (source : Task)
    (sessionMode : SessionMode) (retryIsFresh : Bool) (maxSequence : Nat)
    (projection : Projection) : Task :=
  let task : Task :=
    { id := newId
      issueId := source.issueId
      sessionMode
      priority := source.priority
      scheduledAt := request.scheduledAt
      issueSequence := some (maxSequence + 1)
      createdAt := now }
  let resetTaskId :=
    if retryIsFresh ∧ projection.resetTaskId = none then some newId
    else projection.resetTaskId
  setProjection task { projection with resetTaskId }

/-- `retry_task_record`, from the Issue row lock to the commit. The source is read again
    from the rows the integrity check returns: it is the same object. -/
def retryTaskRecord (outputSessions : Nat → Option String) (newId : Nat) (now : DateTime)
    (request : RetryRequest) (source : Task) (issueTasks : List Task) :
    Except RetryError (List Task) :=
  match snapshots source.id with
  | none => .error .noSnapshot
  | some snapshot => do
    let sessionMode := retrySessionMode source (outputSessions source.id)
    let (report, tasks) ←
      (ensureIssueOrderIntegrityLocked sessionNamespaceFor snapshots issueId true
        issueTasks).mapError .order
    let source := (tasks.find? (·.id == source.id)).getD source
    let retryIsFresh := decide (sessionMode = .fresh) || request.freshRetry
    let projection ← retryProjection issueId retryIsFresh report.tailProjection
      (sourceProjection sessionNamespaceFor source snapshot)
    let tasks ← (checkAppendTime sessionNamespaceFor snapshots issueId request.scheduledAt
      tasks).mapError .order
    return tasks ++
      [retryTask newId now request source sessionMode retryIsFresh report.maxSequence
        projection]

end Retries

/-! ### The System -/

/-- One Issue: its Tasks in creation order, its lineage rows, and what the modelled
    functions read by Task id. -/
structure State where
  tasks : List Task := []
  lineages : List IssueSessionLineage := []
  /-- `task_worker_profile_snapshots`. -/
  snapshots : Nat → Option WorkerSnapshot := fun _ => none
  /-- `tasks.output_session_id`. -/
  outputSessions : Nat → Option String := fun _ => none
  clock : DateTime := 0
  nextId : Nat := 1

/-- One serial operation on the Issue. -/
inductive Label where
  | create (request : AppendRequest)
  | retry (request : RetryRequest)
  /-- The integrity check of the Scheduler, committed. -/
  | repair
  /-- A status change. -/
  | setStatus (taskId : Nat) (status : TaskStatus)
  /-- An edit of a Task that has not started replaces its snapshot. -/
  | editSnapshot (taskId : Nat) (snapshot : WorkerSnapshot)
  /-- The Worker start resolves the session to resume. -/
  | start (taskId : Nat)
  /-- The finished run records the session it produced. -/
  | record (taskId : Nat) (sessionId : String)
  /-- Time passes and other Issues draw Task ids. -/
  | elapse (microseconds ids : Nat)
  deriving DecidableEq, Repr

def task? (tasks : List Task) (taskId : Nat) : Option Task :=
  tasks.find? (·.id == taskId)

/-- Replace one value of a column kept by Task id. -/
def setColumn {α : Type} (column : Nat → Option α) (taskId : Nat) (value : Option α) :
    Nat → Option α :=
  fun id => if id = taskId then value else column id

/-- The projection columns that migration 068 adds are NULL. -/
def Unprojected (t : Task) : Prop :=
  t.projectedHarnessKey = none ∧ t.projectedSessionNamespace = none ∧
    t.projectedLineageGeneration = none ∧ t.projectedResetTaskId = none ∧
    t.lineageProjectionReason = none

instance (t : Task) : Decidable (Unprojected t) := inferInstanceAs (Decidable (_ ∧ _))

variable (ns : String → Option String → String)

/-- The Issue right after migration 068 ran on a history. The migration reads the
    snapshots through a raw query, so `snapshots₀` need not be what the runtime reads:
    it depends on the driver whether the endpoint arrives as an object. -/
def Migrated (s : State) : Prop :=
  ∃ (history : List Task) (snapshots₀ : Nat → Option WorkerSnapshot)
    (legacySession : String → String → Option String),
    (∀ t ∈ history, Unprojected t) ∧ (history.map (·.id)).Nodup ∧
    s.tasks = upgrade068 ns snapshots₀ history ∧
    s.lineages = backfillSessionLineages s.outputSessions legacySession s.tasks ∧
    ∀ t ∈ history, t.createdAt ≤ s.clock ∧ t.id < s.nextId

/-- The operations on one Issue, one at a time; a refused request is not a step. -/
def issueLineage (issueId : Nat) : System State Label where
  init := Migrated ns
  next := fun s l =>
    match l with
    | .create request =>
      match createTaskRecord ns s.snapshots issueId s.nextId s.clock request s.tasks with
      | .error _ => none
      | .ok tasks =>
        some { s with
          tasks
          nextId := s.nextId + 1
          snapshots := setColumn s.snapshots s.nextId
            (some { harnessKey := some request.harnessKey,
                    endpointFingerprint := request.endpointFingerprint })
          outputSessions := setColumn s.outputSessions s.nextId none }
    | .retry request => do
      let source ← task? s.tasks request.sourceId
      if source.status = .failed ∨ source.status = .cancelled then
        match retryTaskRecord ns s.snapshots issueId s.outputSessions s.nextId s.clock request
            source s.tasks with
        | .error _ => none
        | .ok tasks =>
          some { s with
            tasks
            nextId := s.nextId + 1
            snapshots := setColumn s.snapshots s.nextId (s.snapshots source.id)
            outputSessions := setColumn s.outputSessions s.nextId none }
      else none
    | .repair =>
      match ensureIssueOrderIntegrityLocked ns s.snapshots issueId true s.tasks with
      | .error _ => none
      | .ok (_, tasks) => some { s with tasks }
    | .setStatus taskId status => do
      let _ ← task? s.tasks taskId
      some { s with tasks := updateTask taskId ({ · with status }) s.tasks }
    | .editSnapshot taskId snapshot => do
      let task ← activeTask? s.tasks taskId
      if task.status = .running then none
      else some { s with snapshots := setColumn s.snapshots taskId (some snapshot) }
    | .start taskId => do
      let task ← task? s.tasks taskId
      let (harnessKey, sessionNamespace, generation, resetTaskId) ← projectionForTask task
      some { s with
        lineages := (resolveProjectedResumeSession harnessKey sessionNamespace generation
          resetTaskId task.sessionMode s.lineages).2
        outputSessions := setColumn s.outputSessions taskId none }
    | .record taskId sessionId => do
      let task ← task? s.tasks taskId
      -- a refused bookkeeping is logged and never breaks the completion
      let lineages :=
        match recordProjectedOutputSession task (some sessionId) s.lineages with
        | .ok lineages => lineages
        | .error _ => s.lineages
      some { s with
        lineages
        outputSessions := setColumn s.outputSessions taskId (some sessionId) }
    | .elapse microseconds ids =>
      some { s with clock := s.clock + microseconds, nextId := s.nextId + ids }

/-- What the operations make of the Issue, one case for each. -/
inductive LineageStep (issueId : Nat) (s : State) : Label → State → Prop where
  | create {request : AppendRequest} {tasks : List Task}
      (hok : createTaskRecord ns s.snapshots issueId s.nextId s.clock request s.tasks = .ok tasks) :
      LineageStep issueId s (.create request)
        { s with
          tasks
          nextId := s.nextId + 1
          snapshots := setColumn s.snapshots s.nextId
            (some { harnessKey := some request.harnessKey,
                    endpointFingerprint := request.endpointFingerprint })
          outputSessions := setColumn s.outputSessions s.nextId none }
  | retry {request : RetryRequest} {source : Task} {tasks : List Task}
      (hsource : source ∈ s.tasks)
      (hok : retryTaskRecord ns s.snapshots issueId s.outputSessions s.nextId s.clock request
        source s.tasks = .ok tasks) :
      LineageStep issueId s (.retry request)
        { s with
          tasks
          nextId := s.nextId + 1
          snapshots := setColumn s.snapshots s.nextId (s.snapshots source.id)
          outputSessions := setColumn s.outputSessions s.nextId none }
  | repair {report : IntegrityReport} {tasks : List Task}
      (hok : ensureIssueOrderIntegrityLocked ns s.snapshots issueId true s.tasks =
        .ok (report, tasks)) : LineageStep issueId s .repair { s with tasks }
  | setStatus {taskId : Nat} {status : TaskStatus} :
      LineageStep issueId s (.setStatus taskId status)
        { s with tasks := updateTask taskId ({ · with status }) s.tasks }
  | editSnapshot {taskId : Nat} {snapshot : WorkerSnapshot} :
      LineageStep issueId s (.editSnapshot taskId snapshot)
        { s with snapshots := setColumn s.snapshots taskId (some snapshot) }
  | start {taskId : Nat} {task : Task} {key space : String} {generation : Nat}
      {reset : Option Nat} (htask : task ∈ s.tasks)
      (hproj : projectionForTask task = some (key, space, generation, reset)) :
      LineageStep issueId s (.start taskId)
        { s with
          lineages := (resolveProjectedResumeSession key space generation reset task.sessionMode
            s.lineages).2
          outputSessions := setColumn s.outputSessions taskId none }
  | record {taskId : Nat} {sessionId : String} {task : Task}
      {lineages : List IssueSessionLineage} (htask : task ∈ s.tasks)
      (hlineages : lineages = s.lineages ∨
        recordProjectedOutputSession task (some sessionId) s.lineages = .ok lineages) :
      LineageStep issueId s (.record taskId sessionId)
        { s with
          lineages
          outputSessions := setColumn s.outputSessions taskId (some sessionId) }
  | elapse {microseconds ids : Nat} :
      LineageStep issueId s (.elapse microseconds ids)
        { s with clock := s.clock + microseconds, nextId := s.nextId + ids }

/-- An accepted operation is one of these cases. -/
theorem lineageStep_of_next {issueId : Nat} {s s' : State} {l : Label}
    (hstep : (issueLineage ns issueId).next s l = some s') : LineageStep ns issueId s l s' := by
  simp only [issueLineage] at hstep
  cases l with
  | create request =>
    simp only at hstep
    split at hstep
    · cases hstep
    next tasks hok =>
    cases hstep
    exact .create hok
  | retry request =>
    obtain ⟨source, hsource, hstep⟩ := bind_eq_some_iff.mp hstep
    split at hstep
    · split at hstep
      · cases hstep
      · next tasks hok =>
        cases hstep
        exact .retry (List.mem_of_find?_eq_some hsource) hok
    · cases hstep
  | repair =>
    simp only at hstep
    split at hstep
    · cases hstep
    next report tasks hok =>
    cases hstep
    exact .repair hok
  | setStatus taskId status =>
    obtain ⟨task, -, hstep⟩ := bind_eq_some_iff.mp hstep
    cases hstep
    exact .setStatus
  | editSnapshot taskId snapshot =>
    obtain ⟨task, -, hstep⟩ := bind_eq_some_iff.mp hstep
    split at hstep
    · cases hstep
    · cases hstep
      exact .editSnapshot
  | start taskId =>
    obtain ⟨task, htask, hstep⟩ := bind_eq_some_iff.mp hstep
    obtain ⟨⟨key, space, generation, reset⟩, hproj, hstep⟩ := bind_eq_some_iff.mp hstep
    cases hstep
    exact .start (List.mem_of_find?_eq_some htask) hproj
  | record taskId sessionId =>
    obtain ⟨task, htask, hstep⟩ := bind_eq_some_iff.mp hstep
    cases hstep
    refine .record (List.mem_of_find?_eq_some htask) ?_
    split
    · next lineages hrecorded => exact .inr hrecorded
    · exact .inl rfl
  | elapse microseconds ids =>
    cases hstep
    exact .elapse

/-! ### Where the Three Assignments Agree -/

section Guard

variable (ns : String → Option String → String) (snapshots : Nat → Option WorkerSnapshot)

/-- The harness key and namespace of a row: as projected, or as a repair would derive
    them. -/
def lineageOf (t : Task) : Option (String × String) :=
  match taskProjection t with
  | some p => some (p.harnessKey, p.sessionNamespace)
  | none => derivedLineage ns snapshots t

/-- An unprojected Task that stands before a projected one continues the lineage of the
    Task before it. A repair of any other such Task opens a generation without a look at
    the Tasks after it. -/
def GapsInherit (tail : Option (String × String)) : List Task → Prop
  | [] => True
  | task :: rest =>
    (hasFullProjection task = true ∨ (∀ t ∈ rest, hasFullProjection t = false) ∨
      (task.sessionMode = .continue ∧ tail.isSome ∧ tail = lineageOf ns snapshots task)) ∧
    GapsInherit (lineageOf ns snapshots task) rest

/-- The last Task of the Issue is a legacy placeholder. -/
def LegacyTail (tasks : List Task) : Prop :=
  ∃ t, tasks.getLast? = some t ∧ ∃ harnessKey,
    lineageOf ns snapshots t = some (harnessKey, legacyNamespace)

/-- The Issue never left generation 0 of the lineage `lineage`. -/
def OnlyGenerationZero (lineage : String × String) (tasks : List Task) : Prop :=
  ∀ t ∈ tasks, lineageOf ns snapshots t = some lineage ∧ t.sessionMode = .continue ∧
    ∀ p, taskProjection t = some p → p.generation = 0

instance (lineage : String × String) (tasks : List Task) :
    Decidable (OnlyGenerationZero ns snapshots lineage tasks) :=
  decidable_of_iff (∀ t ∈ tasks, lineageOf ns snapshots t = some lineage ∧
    t.sessionMode = .continue ∧ (taskProjection t).all (·.generation == 0) = true)
    (by simp [OnlyGenerationZero, all_eq_true])

instance decidableGapsInherit (tail : Option (String × String)) :
    (tasks : List Task) → Decidable (GapsInherit ns snapshots tail tasks)
  | [] => inferInstanceAs (Decidable True)
  | task :: rest =>
    have := decidableGapsInherit (lineageOf ns snapshots task) rest
    inferInstanceAs (Decidable (_ ∧ _))

instance (tasks : List Task) : Decidable (LegacyTail ns snapshots tasks) :=
  decidable_of_iff
    ((tasks.getLast?.bind (lineageOf ns snapshots)).any (·.2 == legacyNamespace) = true)
    (by simp [LegacyTail, any_eq_true, bind_eq_some_iff]
        grind)

end Guard

/-- The steps after which a generation still denotes one lineage: no repair opens a
    generation before an already projected Task, and an append meets a legacy tail only
    in an Issue that never left generation 0, and then opens a generation or stays in the
    legacy lineage. -/
def Agreeing (ns : String → Option String → String) (s : State) : Label → Prop
  | .create request =>
    GapsInherit ns s.snapshots none s.tasks ∧
    (LegacyTail ns s.snapshots s.tasks →
      ∃ lineage, OnlyGenerationZero ns s.snapshots lineage s.tasks ∧
        (request.sessionMode = .fresh ∨
          (request.harnessKey, ns request.harnessKey request.endpointFingerprint) = lineage))
  | .retry _ =>
    GapsInherit ns s.snapshots none s.tasks ∧
    (LegacyTail ns s.snapshots s.tasks →
      ∃ lineage, OnlyGenerationZero ns s.snapshots lineage s.tasks)
  | .repair => GapsInherit ns s.snapshots none s.tasks
  | _ => True

end Codify.IssueTaskLineage

import Codify.Statistics.Queries

/-! # Lifecycle Statistics: Deletion

    `archive_issue_statistics_before_delete`
    (app/core/system_statistics_deletion.py) writes the rows of an Issue and of its
    Tasks into the archive, and the caller deletes them in the same transaction.
    What the queries see of a Task is then its archive row, written in Python, in
    place of its normalized row, written in SQL.

    * **View**: what the reports read of a row (`TaskRow.unmarked`).
    * **Drift**: a completion time on a Task that is not terminal and an empty merge
      request URL are read differently; archive rows of the same ids are overwritten.
    * **Result**: `deletion_keeps_statistics_iff`.

    An insert that the database refuses rolls the deletion back and is left out.
-/

namespace Codify.Statistics

open Codify Codify.Framework Codify.Framework.Aggregate Codify.Framework.Table List TaskRow Database

/-! ### The Archive -/

/-- `value or other`. -/
def pyOr (value other : Option String) : Option String :=
  if value.all (· == "") then other else value

variable (db : Database) (issueId : Nat) (deletedAt : DateTime) (task : Task)

/-- `_task_archive_row`. -/
def taskArchiveRow (snapshot : Option WorkerProfileSnapshot) (provider : Option AIProvider)
    (deletedAt : DateTime) : DeletedTask :=
  let runtime := task.providerRuntimeSnapshot.getD {}
  let isTerminal := task.status.terminal
  let changeDataAvailable := task.changeStatsRecordedAt.isSome
  { sourceTaskId := task.id
    sourceIssueId := task.issueId
    projectId := task.projectId
    providerId := if runtime.providerId.isNone then task.providerId else runtime.providerId
    providerName := pyOr runtime.providerName (provider.map (·.name))
    providerModel :=
      pyOr (pyOr task.modelName runtime.configuredModel) (provider.map (·.model))
    harnessKey :=
      match snapshot with
      | some snapshot => pyOr snapshot.harnessKey task.projectedHarnessKey
      | none => task.projectedHarnessKey
    taskMode := some task.taskMode
    triggerSource := some task.triggerSource
    isRetry := some task.isRetry
    lastStatus := some (Api.statusValue task.status)
    deletedBeforeTerminal := some !isTerminal
    isManuallyOverridden := some task.isManuallyOverridden
    createdAt := some task.createdAt
    scheduledAt := task.scheduledAt
    startedAt := task.startedAt
    terminalAt := if isTerminal then task.completedAt else none
    inputTokens := task.inputTokens
    outputTokens := task.outputTokens
    additions := if changeDataAvailable then some task.additions else none
    deletions := if changeDataAvailable then some task.deletions else none
    totalChanges := if changeDataAvailable then some task.totalChanges else none
    changeDataAvailable := some changeDataAvailable
    sourceDeletedAt := deletedAt }

/-- `_task_is_active`. -/
def taskIsActive : Bool := nonEmpty task.containerId || task.status.active

/-- `_issue_archive_row`. -/
def issueArchiveRow (issue : Issue) (forcedWithActiveTasks : Bool) (deletedAt : DateTime) :
    DeletedIssue where
  sourceIssueId := issue.id
  projectId := issue.projectId
  createdAt := some issue.createdAt
  lastStatus := some issue.status
  hadMergeRequest := some (issue.mergeRequestIid.isSome || nonEmpty issue.mergeRequestUrl)
  forcedWithActiveTasks := some forcedWithActiveTasks
  sourceDeletedAt := deletedAt

/-- `INSERT … ON CONFLICT DO UPDATE`. -/
def upsert {α : Type} (key : α → Nat) (row : α) (rows : List α) : List α :=
  if rows.any (key · == key row) then update key (key row) (fun _ => row) rows else rows ++ [row]

def Database.tasksOf : List Task := db.tasks.filter (·.issueId == issueId)

/-- The archive row of a Task of the database. -/
def Database.archiveRow : DeletedTask :=
  taskArchiveRow task (db.snapshotOf task) (db.providerOf task) deletedAt

/-- `archive_issue_statistics_before_delete`; `none` when it raises. -/
def archiveIssueStatistics : Option Database :=
  (db.issues.find? (·.id == issueId)).bind fun issue =>
    let tasks := db.tasksOf issue.id
    let db' :=
      { db with
        deletedTasks := (tasks.map (db.archiveRow deletedAt)).foldl
          (fun rows row => upsert DeletedTask.sourceTaskId row rows) db.deletedTasks
        deletedIssues := upsert DeletedIssue.sourceIssueId
          (issueArchiveRow issue (tasks.any taskIsActive) deletedAt) db.deletedIssues }
    if (db'.deletedTasks.filter (·.sourceIssueId == issue.id)).length = tasks.length then some db'
    else none

/-- The rows of the Issue, of its Tasks and of their snapshots are deleted. -/
def Database.dropIssue : Database :=
  { db with
    tasks := db.tasks.filter (!·.issueId == issueId)
    issues := db.issues.filter (!·.id == issueId)
    snapshots := db.snapshots.filter fun s => !(db.tasksOf issueId).any (·.id == s.taskId) }

/-- The transaction that deletes an Issue. -/
def deleteIssue : Option Database :=
  (archiveIssueStatistics db issueId deletedAt).map (·.dropIssue issueId)

/-- The primary keys and the unique columns. -/
structure Database.Keyed (db : Database) : Prop where
  tasks : KeyUnique (fun t : Task => t.id) db.tasks
  issues : KeyUnique Issue.id db.issues
  providers : KeyUnique AIProvider.id db.providers
  snapshots : KeyUnique WorkerProfileSnapshot.taskId db.snapshots
  deletedTasks : KeyUnique DeletedTask.sourceTaskId db.deletedTasks
  deletedIssues : KeyUnique DeletedIssue.sourceIssueId db.deletedIssues

/-! ### The Statement -/

/-- A report without the counts of what was deleted. -/
def LifetimeTasks.kept (t : LifetimeTasks) : LifetimeTasks :=
  { t with deletedTaskCount := 0, deletedBeforeTerminal := 0 }

def LifetimeIssues.kept (i : LifetimeIssues) : LifetimeIssues := { i with deletedIssueCount := 0 }

def Breakdown.kept (b : Breakdown) : Breakdown := { b with deletedCount := 0 }

/-- The reports on the Tasks are the same, but for what counts deletions. -/
structure SameTaskReports (calendar : Calendar) (rows rows' : List TaskRow) : Prop where
  lifetime : (lifetimeTasks rows').kept = (lifetimeTasks rows).kept
  created : ∀ bucket bound,
    taskCreatedTrend calendar bucket bound rows' = taskCreatedTrend calendar bucket bound rows
  finished : ∀ bucket bound,
    taskFinishedTrend calendar bucket bound rows' = taskFinishedTrend calendar bucket bound rows
  project : ∀ k,
    (projectBreakdown rows' k).map Breakdown.kept = (projectBreakdown rows k).map Breakdown.kept
  provider : ∀ k,
    (providerBreakdown rows' k).map Breakdown.kept = (providerBreakdown rows k).map Breakdown.kept
  harness : ∀ k,
    (harnessBreakdown rows' k).map Breakdown.kept = (harnessBreakdown rows k).map Breakdown.kept
  taskMode : ∀ k,
    (taskModeBreakdown rows' k).map Breakdown.kept = (taskModeBreakdown rows k).map Breakdown.kept

/-- The reports on the Issues are the same, but for what counts deletions. -/
structure SameIssueReports (calendar : Calendar) (rows rows' : List IssueRow) : Prop where
  lifetime : (lifetimeIssues rows').kept = (lifetimeIssues rows).kept
  created : ∀ bucket bound,
    issueCreatedTrend calendar bucket bound rows' = issueCreatedTrend calendar bucket bound rows

/-- All reports are the same under all filters. -/
structure SameStatistics (calendar : Calendar) (db db' : Database) : Prop where
  tasks : ∀ f, SameTaskReports calendar (allTasks db f) (allTasks db' f)
  issues : ∀ f, SameIssueReports calendar (allIssues db f) (allIssues db' f)

/-- Nothing that the Issue reports moves when it is archived. -/
structure Steady (db : Database) (issueId : Nat) : Prop where
  /-- No archive row has the id of one of its Tasks yet. -/
  freshTasks : ∀ row ∈ db.deletedTasks, ∀ task ∈ db.tasksOf issueId, row.sourceTaskId ≠ task.id
  freshIssue : ∀ row ∈ db.deletedIssues, row.sourceIssueId ≠ issueId
  /-- A Task that is not terminal has no completion time. -/
  terminal : ∀ task ∈ db.tasksOf issueId, task.status.active → task.completedAt = none
  /-- A merge request URL is not empty, or there is an iid. -/
  mergeRequest : ∀ issue ∈ db.issues, issue.id = issueId →
    issue.mergeRequestIid.isNone → issue.mergeRequestUrl ≠ some ""

/-! ### Upserts -/

section Upserts

variable {α : Type} {key : α → Nat} {rows news : List α} {row : α}

theorem upsert_fresh (h : ∀ r ∈ rows, key r ≠ key row) : upsert key row rows = rows ++ [row] := by
  have hany : rows.any (key · == key row) = false := by
    rw [any_eq_false]
    intro r hr
    simpa using h r hr
  unfold upsert
  rw [hany]
  rfl

theorem foldl_upsert_fresh (hnodup : (news.map key).Nodup)
    (h : ∀ row ∈ news, ∀ r ∈ rows, key r ≠ key row) :
    news.foldl (fun rows row => upsert key row rows) rows = rows ++ news := by
  induction news generalizing rows with
  | nil => exact (append_nil rows).symm
  | cons row rest ih =>
    obtain ⟨hfirst, hrest⟩ := nodup_cons.mp hnodup
    rw [foldl_cons, upsert_fresh (h row mem_cons_self), ih hrest, append_assoc]
    · rfl
    · intro other hother r hr
      rcases mem_append.mp hr with hr | hr
      · exact h other (mem_cons_of_mem _ hother) r hr
      · rw [mem_singleton.mp hr]
        intro heq
        exact hfirst (heq ▸ mem_map_of_mem hother)

theorem key_mem_upsert (row : α) {k : Nat} (h : k ∈ rows.map key) : k ∈ (upsert key row rows).map key := by
  obtain ⟨r, hr, rfl⟩ := mem_map.mp h
  unfold upsert
  split
  · unfold Table.update
    rw [map_map]
    refine mem_map.mpr ⟨r, hr, ?_⟩
    show key (if key r = key row then row else r) = key r
    split
    · next heq => exact heq.symm
    · rfl
  · rw [map_append]
    exact mem_append_left _ (mem_map_of_mem hr)

theorem length_upsert_le (key : α → Nat) (row : α) (rows : List α) :
    (upsert key row rows).length ≤ rows.length + 1 := by
  unfold upsert
  split
  · simp [Table.update]
  · simp

theorem length_foldl_upsert_le (key : α → Nat) (news rows : List α) :
    (news.foldl (fun rows row => upsert key row rows) rows).length ≤ rows.length + news.length := by
  induction news generalizing rows with
  | nil => exact Nat.le_refl _
  | cons row rest ih =>
    have hstep := length_upsert_le key row rows
    have hrest := ih (upsert key row rows)
    rw [foldl_cons, length_cons]
    omega

theorem length_foldl_upsert_lt {k : Nat} (hnew : k ∈ news.map key) (hold : k ∈ rows.map key) :
    (news.foldl (fun rows row => upsert key row rows) rows).length < rows.length + news.length := by
  induction news generalizing rows with
  | nil => cases hnew
  | cons row rest ih =>
    rw [foldl_cons, length_cons]
    rcases mem_cons.mp hnew with rfl | hnew
    · have hany : rows.any (key · == key row) = true := by
        obtain ⟨r, hr, heq⟩ := mem_map.mp hold
        exact any_eq_true.mpr ⟨r, hr, by simpa using heq⟩
      have hlength : (upsert key row rows).length = rows.length := by
        unfold upsert
        rw [hany]
        simp [Table.update]
      have hrest := length_foldl_upsert_le key rest (upsert key row rows)
      omega
    · have hstep := length_upsert_le key row rows
      have hrest := ih hnew (key_mem_upsert row hold)
      omega

end Upserts

/-! ### One Row -/

variable (r : TaskRow)

def TaskRow.unmarked : TaskRow :=
  { r with
    deletedBeforeTerminal :=
      if r.status.any (terminalTaskStatuses.contains ·) then r.deletedBeforeTerminal else none
    additions := if changeAvailable r then r.additions else none
    deletions := if changeAvailable r then r.deletions else none
    totalChanges := if changeAvailable r then r.totalChanges else none
    dataState := .retained
    sourceDeletedAt := none }

def IssueRow.unmarked (r : IssueRow) : IssueRow :=
  { r with dataState := .retained, sourceDeletedAt := none }

variable {db db' : Database} {task : Task} {issue : Issue} {issueId : Nat} {deletedAt : DateTime}

theorem pyOr_eq (value other : Option String) :
    pyOr value other = if nonEmpty value then value else other := by
  unfold pyOr nonEmpty
  cases value with
  | none => rfl
  | some text =>
    by_cases htext : text = ""
    · simp [htext]
    · simp [htext]

theorem terminal_statusValue (st : TaskStatus) :
    Api.statusValue st ∈ terminalTaskStatuses ↔ st.terminal = true := by
  cases st <;> decide

attribute [local simp] archiveRow taskArchiveRow

/-- **Row**: the archive row of a Task reads like its current row, unless it has a completion time
    without being terminal. -/
theorem unmarked_archiveRow (h : task.status.active → task.completedAt = none) :
    (deletedTaskRow (db.archiveRow deletedAt task)).unmarked = (currentTaskRow db task).unmarked := by
  have hprovider : (db.archiveRow deletedAt task).providerId = normProviderId task := by
    show (if _ then _ else _) = _
    unfold normProviderId
    cases task.providerRuntimeSnapshot with
    | none => rfl
    | some runtime => cases hid : runtime.providerId <;> simp [hid]
  have hname : (db.archiveRow deletedAt task).providerName =
      normProviderName task (db.providerOf task) := by
    show pyOr _ _ = _
    rw [pyOr_eq]
    unfold normProviderName
    cases task.providerRuntimeSnapshot with
    | none => rfl
    | some runtime => rfl
  have hmodel : (db.archiveRow deletedAt task).providerModel =
      normProviderModel task (db.providerOf task) := by
    show pyOr (pyOr _ _) _ = _
    rw [pyOr_eq, pyOr_eq]
    unfold normProviderModel
    cases hmodel : nonEmpty task.modelName with
    | true => simp [hmodel]
    | false =>
      cases task.providerRuntimeSnapshot with
      | none => rfl
      | some runtime => rfl
  have hharness : (db.archiveRow deletedAt task).harnessKey =
      normHarnessKey task (db.snapshotOf task) := by
    show (match db.snapshotOf task with | some _ => _ | none => _) = _
    unfold normHarnessKey
    cases db.snapshotOf task with
    | none => rfl
    | some snapshot => exact pyOr_eq _ _
  have hterminal : (db.archiveRow deletedAt task).terminalAt = task.completedAt := by
    show (if task.status.terminal = true then task.completedAt else none) = _
    split
    · rfl
    · next hactive => exact (h (by simpa [TaskStatus.terminal] using hactive)).symm
  unfold unmarked deletedTaskRow currentTaskRow
  rw [hprovider, hname, hmodel, hharness, hterminal]
  have hflag : task.status.terminal = true ∨ task.status.terminal = false :=
    Bool.eq_false_or_eq_true _
  have hstatus := terminal_statusValue task.status
  cases hchanges : task.changeStatsRecordedAt.isSome with
  | true | false =>
    rcases hflag with hflag | hflag
    · simp [changeAvailable, hchanges, hstatus, hflag]
    · simp [changeAvailable, hchanges, hstatus, hflag]

/-! ### What a Report Reads -/

theorem unmarked_task (f : Filters) (r : TaskRow) : f.task r.unmarked = f.task r := rfl

theorem unmarked_issue (f : Filters) (r : IssueRow) : f.issue r.unmarked = f.issue r := rfl

theorem unmarked_changeAvailable : changeAvailable r.unmarked = changeAvailable r := rfl

def isTerminalRow : Bool := r.status.any (terminalTaskStatuses.contains ·)

theorem unmarked_tokenEligible : tokenEligible r.unmarked = tokenEligible r := by
  show (isTerminalRow r && r.startedAt.isSome &&
      (if isTerminalRow r then r.deletedBeforeTerminal else none) == some false) =
    (isTerminalRow r && r.startedAt.isSome && r.deletedBeforeTerminal == some false)
  cases isTerminalRow r with
  | true => rfl
  | false => rfl

theorem unmarked_codeEligible : codeEligible r.unmarked = codeEligible r := by
  show (_ && hasStatus "completed" r &&
      (if isTerminalRow r then r.deletedBeforeTerminal else none) == some false) =
    (_ && hasStatus "completed" r && r.deletedBeforeTerminal == some false)
  cases h : hasStatus "completed" r with
  | true =>
    have hstatus : r.status = some "completed" := by simpa [hasStatus] using h
    have hterminal : isTerminalRow r = true := by
      unfold isTerminalRow
      rw [hstatus]
      decide
    rw [hterminal]
    rfl
  | false => simp

theorem unmarked_knownTotalChanges : knownTotalChanges r.unmarked = knownTotalChanges r := by
  unfold knownTotalChanges
  rw [unmarked_changeAvailable]
  cases h : changeAvailable r with
  | true => simp [unmarked, h]
  | false => rfl

theorem reads_hasStatus (status : String) :
    Reads unmarked (countIf (hasStatus status)) := reads_countIf _ fun _ => rfl

theorem reads_input : Reads unmarked (sum knownInputTokens) := reads_sum _ fun _ => rfl

theorem reads_output : Reads unmarked (sum knownOutputTokens) := reads_sum _ fun _ => rfl

theorem reads_changes : Reads unmarked (sum knownTotalChanges) :=
  reads_sum _ unmarked_knownTotalChanges

theorem reads_seconds : Reads unmarked (sum taskExecutionSeconds) := reads_sum _ fun _ => rfl

theorem reads_samples : Reads unmarked (count taskExecutionSeconds) :=
  reads_count _ fun _ => rfl

theorem reads_average : Reads unmarked (avg taskExecutionSeconds) := reads_avg _ fun _ => rfl

theorem reads_lifetime : Reads unmarked fun rows => (lifetimeTasks rows).kept := by
  intro rows
  have hcomplete : ∀ r : TaskRow, tokenComplete r.unmarked = tokenComplete r := fun _ => rfl
  have hpartial : ∀ r : TaskRow, tokenPartial r.unmarked = tokenPartial r := fun _ => rfl
  have hmissing : ∀ r : TaskRow, tokenMissing r.unmarked = tokenMissing r := fun _ => rfl
  unfold LifetimeTasks.kept lifetimeTasks
  simp only [LifetimeTasks.mk.injEq, length_map, true_and]
  exact ⟨reads_hasStatus _ rows, reads_hasStatus _ rows, reads_hasStatus _ rows,
    reads_seconds rows, reads_average rows, reads_samples rows,
    reads_input rows, reads_output rows, reads_changes rows,
    reads_countIf _ (fun r => by rw [unmarked_tokenEligible, hcomplete]) rows,
    reads_countIf _ (fun r => by rw [unmarked_tokenEligible, hpartial]) rows,
    reads_countIf _ (fun r => by rw [unmarked_tokenEligible, hmissing]) rows,
    reads_countIf _ unmarked_tokenEligible rows,
    reads_countIf _ (fun r => by rw [unmarked_codeEligible, unmarked_changeAvailable]) rows,
    reads_countIf _ unmarked_codeEligible rows⟩

theorem ofBag_lifetime : OfBag fun rows => (lifetimeTasks rows).kept := by
  intro rows rows' h
  unfold LifetimeTasks.kept lifetimeTasks
  simp only [LifetimeTasks.mk.injEq, true_and]
  exact ⟨h.length_eq, ofBag_countIf _ h, ofBag_countIf _ h, ofBag_countIf _ h, ofBag_sum _ h,
    ofBag_avg _ h, ofBag_count _ h, ofBag_sum _ h, ofBag_sum _ h, ofBag_sum _ h,
    ofBag_countIf _ h, ofBag_countIf _ h, ofBag_countIf _ h, ofBag_countIf _ h, ofBag_countIf _ h,
    ofBag_countIf _ h⟩

theorem reads_finished : Reads unmarked finished := by
  intro rows
  unfold finished
  simp only [Finished.mk.injEq, length_map, true_and]
  exact ⟨reads_hasStatus _ rows, reads_hasStatus _ rows, reads_hasStatus _ rows,
    reads_input rows, reads_output rows, reads_changes rows, reads_seconds rows⟩

theorem ofBag_finished : OfBag finished := by
  intro rows rows' h
  unfold finished
  simp only [Finished.mk.injEq]
  exact ⟨h.length_eq, ofBag_countIf _ h, ofBag_countIf _ h, ofBag_countIf _ h, ofBag_sum _ h,
    ofBag_sum _ h, ofBag_sum _ h, ofBag_sum _ h⟩

theorem reads_breakdown : Reads unmarked fun rows => (breakdown rows).kept := by
  intro rows
  unfold Breakdown.kept breakdown
  simp only [Breakdown.mk.injEq, length_map, true_and]
  exact ⟨reads_hasStatus _ rows, reads_hasStatus _ rows, reads_hasStatus _ rows,
    reads_input rows, reads_output rows, reads_changes rows⟩

theorem ofBag_breakdown : OfBag fun rows => (breakdown rows).kept := by
  intro rows rows' h
  unfold Breakdown.kept breakdown
  simp only [Breakdown.mk.injEq, true_and]
  exact ⟨h.length_eq, ofBag_countIf _ h, ofBag_countIf _ h, ofBag_countIf _ h, ofBag_sum _ h,
    ofBag_sum _ h, ofBag_sum _ h⟩

theorem map_group {κ : Type} [DecidableEq κ] (key : TaskRow → κ) (rows : List TaskRow) (k : κ) :
    (group key breakdown rows k).map Breakdown.kept =
      group key (fun rows => (breakdown rows).kept) rows k := by
  unfold group
  cases rows.filter fun r => decide (key r = k) with
  | nil => rfl
  | cons r rest => rfl

/-- **Reports**: rows with one view, in any order, are reported alike. -/
theorem sameTaskReports_of_views {calendar : Calendar} {rows rows' : List TaskRow}
    (h : (rows'.map unmarked).Perm (rows.map unmarked)) :
    SameTaskReports calendar rows rows' := by
  have hbreakdown : ∀ {κ : Type} [DecidableEq κ] (key : TaskRow → κ),
      (∀ r, key r.unmarked = key r) → ∀ k, (group key breakdown rows' k).map Breakdown.kept =
          (group key breakdown rows k).map Breakdown.kept := by
    intro κ _ key hkey k
    rw [map_group, map_group]
    exact eq_of_views (ofBag_group ofBag_breakdown k) (reads_group _ hkey reads_breakdown k) h
  have hlength : Reads unmarked List.length := fun rows => length_map _
  have hcount : OfBag (α := TaskRow) List.length := fun _ _ h => h.length_eq
  refine ⟨eq_of_views ofBag_lifetime reads_lifetime h, ?_, ?_, hbreakdown _ fun _ => rfl,
    hbreakdown _ fun _ => rfl, hbreakdown _ fun _ => rfl, hbreakdown _ fun _ => rfl⟩
  · intro bucket bound
    funext k
    have hreads : Reads unmarked fun rows => taskCreatedTrend calendar bucket bound rows k :=
      reads_filter unmarked (fun _ => rfl)
        (reads_group unmarked (fun _ => rfl) hlength k)
    exact eq_of_views (ofBag_filter (ofBag_group hcount k) _) hreads h
  · intro bucket bound
    funext k
    have hreads : Reads unmarked fun rows => taskFinishedTrend calendar bucket bound rows k :=
      reads_filter unmarked (fun _ => rfl)
        (reads_group unmarked (fun _ => rfl) reads_finished k)
    exact eq_of_views (ofBag_filter (ofBag_group ofBag_finished k) _) hreads h

theorem sameIssueReports_of_views {calendar : Calendar} {rows rows' : List IssueRow}
    (h : (rows'.map IssueRow.unmarked).Perm (rows.map IssueRow.unmarked)) :
    SameIssueReports calendar rows rows' := by
  have hlength : Reads IssueRow.unmarked List.length := fun rows => length_map _
  have hcount : OfBag (α := IssueRow) List.length := fun _ _ h => h.length_eq
  have hbag : OfBag fun rows => (lifetimeIssues rows).kept := by
    intro rows rows' h
    unfold LifetimeIssues.kept lifetimeIssues
    simp only [LifetimeIssues.mk.injEq, true_and]
    exact ⟨h.length_eq, ofBag_countIf _ h⟩
  have hreads : Reads IssueRow.unmarked fun rows => (lifetimeIssues rows).kept := by
    intro rows
    unfold LifetimeIssues.kept lifetimeIssues
    simp only [LifetimeIssues.mk.injEq, length_map, true_and]
    have hmr : Reads IssueRow.unmarked (countIf (·.hadMergeRequest == some true)) :=
      reads_countIf _ fun _ => rfl
    exact hmr rows
  refine ⟨eq_of_views hbag hreads h, ?_⟩
  intro bucket bound
  funext k
  have hcreated : Reads IssueRow.unmarked fun rows => issueCreatedTrend calendar bucket bound rows k :=
    reads_filter IssueRow.unmarked (fun _ => rfl)
      (reads_group IssueRow.unmarked (fun _ => rfl) hlength k)
  exact eq_of_views (ofBag_filter (ofBag_group hcount k) _) hcreated h

/-! ### The Rows of a Deletion -/

theorem of_deleteIssue (h : deleteIssue db issueId deletedAt = some db') :
    ∃ issue ∈ db.issues, issue.id = issueId ∧
      db' = ({ db with
        deletedTasks := ((db.tasksOf issueId).map (db.archiveRow deletedAt)).foldl
          (fun rows row => upsert DeletedTask.sourceTaskId row rows) db.deletedTasks
        deletedIssues := upsert DeletedIssue.sourceIssueId
          (issueArchiveRow issue ((db.tasksOf issueId).any taskIsActive) deletedAt)
          db.deletedIssues } : Database).dropIssue issueId := by
  obtain ⟨archived, harchive, rfl⟩ := Option.map_eq_some_iff.mp h
  obtain ⟨issue, hfind, harchive⟩ := Option.bind_eq_some_iff.mp harchive
  have hid : issue.id = issueId := by simpa using find?_some hfind
  refine ⟨issue, mem_of_find?_eq_some hfind, hid, ?_⟩
  -- the count at the end only decides whether the transaction commits
  rw [Option.ite_none_right_eq_some] at harchive
  rw [← Option.some.inj harchive.2, hid]

theorem mem_tasksOf : task ∈ db.tasksOf issueId ↔ task ∈ db.tasks ∧ task.issueId = issueId := by
  unfold tasksOf
  rw [mem_filter]
  simp

theorem currentTaskRow_kept (hkeyed : db.Keyed) (htask : task ∈ db.tasks)
    (hother : task.issueId ≠ issueId)
    (hsnapshots : db'.snapshots =
      db.snapshots.filter fun s => !(db.tasksOf issueId).any (·.id == s.taskId))
    (hproviders : db'.providers = db.providers) :
    currentTaskRow db' task = currentTaskRow db task := by
  have hsnapshot : db'.snapshotOf task = db.snapshotOf task := by
    unfold snapshotOf
    rw [hsnapshots, find?_filter]
    congr 1
    funext s
    by_cases hs : s.taskId = task.id
    · -- a deleted Task with that id would be this one
      have hkept : (db.tasksOf issueId).any (·.id == s.taskId) = false := by
        rw [any_eq_false]
        intro other hmem heq
        obtain ⟨hmem, hissue⟩ := mem_tasksOf.mp hmem
        have hid : other.id = task.id := by rw [← hs]; simpa using heq
        have hsame : other = task := hkeyed.tasks.eq_of_key_eq hmem htask hid
        exact hother (hsame ▸ hissue)
      rw [hkept]
      simp [hs]
    · simp [hs]
  have hprovider : db'.providerOf task = db.providerOf task := by
    unfold providerOf
    rw [hproviders]
  unfold currentTaskRow
  rw [hsnapshot, hprovider]

theorem map_currentTaskRow_kept (hkeyed : db.Keyed)
    (hsnapshots : db'.snapshots =
      db.snapshots.filter fun s => !(db.tasksOf issueId).any (·.id == s.taskId))
    (hproviders : db'.providers = db.providers) :
    (db.tasks.filter (!·.issueId == issueId)).map (currentTaskRow db') =
      (db.tasks.filter (!·.issueId == issueId)).map (currentTaskRow db) := by
  apply map_congr_left
  intro task htask
  obtain ⟨htask, hother⟩ := mem_filter.mp htask
  exact currentTaskRow_kept hkeyed htask (by simpa using hother) hsnapshots hproviders

theorem archived_fresh (hkeyed : db.Keyed)
    (hfresh : ∀ row ∈ db.deletedTasks, ∀ task ∈ db.tasksOf issueId, row.sourceTaskId ≠ task.id) :
    ((db.tasksOf issueId).map (db.archiveRow deletedAt)).foldl
        (fun rows row => upsert DeletedTask.sourceTaskId row rows) db.deletedTasks =
      db.deletedTasks ++ (db.tasksOf issueId).map (db.archiveRow deletedAt) := by
  apply foldl_upsert_fresh
  · rw [map_map]
    exact hkeyed.tasks.sublist (filter_sublist.map fun t : Task => t.id)
  · intro row hrow r hr
    obtain ⟨task, htask, rfl⟩ := mem_map.mp hrow
    exact hfresh r hr task htask

theorem split_tasks (db : Database) (issueId : Nat) (f : Task → TaskRow) :
    List.Perm (db.tasks.map f)
      ((db.tasks.filter (!·.issueId == issueId)).map f ++ (db.tasksOf issueId).map f) := by
  rw [← map_append]
  apply List.Perm.map
  exact ((filter_append_perm (·.issueId == issueId) db.tasks).symm.trans perm_append_comm)

theorem split_issues (f : Issue → IssueRow) {issue : Issue} (hkeyed : db.Keyed)
    (hissue : issue ∈ db.issues) (hid : issue.id = issueId) :
    List.Perm (db.issues.map f) ((db.issues.filter (!·.id == issueId)).map f ++ [f issue]) := by
  have hown : db.issues.filter (·.id == issueId) = [issue] := by
    have hnodup : (db.issues.filter (·.id == issueId)).Nodup :=
      (List.Nodup.of_map _ hkeyed.issues).filter _
    have hall : ∀ other ∈ db.issues.filter (·.id == issueId), other = issue := by
      intro other hmem
      obtain ⟨hmem, heq⟩ := mem_filter.mp hmem
      exact hkeyed.issues.eq_of_key_eq hmem hissue (by simpa [hid] using heq)
    have hmem : issue ∈ db.issues.filter (·.id == issueId) := by simp [hissue, hid]
    exact perm_singleton.mp ((perm_ext_iff_of_nodup hnodup (nodup_singleton _)).mpr
      fun other => ⟨fun h => by simp [hall other h], fun h => by simpa [mem_singleton.mp h] using hmem⟩)
  have hsplit := filter_append_perm (·.id == issueId) db.issues
  rw [hown] at hsplit
  have hmap := (hsplit.symm.trans perm_append_comm).map f
  rw [map_append] at hmap
  exact hmap

/-- The archive row of the Issue reads like its current row, unless its URL is empty. -/
theorem unmarked_issueArchiveRow {forced : Bool}
    (h : issue.mergeRequestIid.isNone → issue.mergeRequestUrl ≠ some "") :
    (deletedIssueRow (issueArchiveRow issue forced deletedAt)).unmarked =
      (currentIssueRow issue).unmarked := by
  have hurl : (issue.mergeRequestIid.isSome || nonEmpty issue.mergeRequestUrl) =
      (issue.mergeRequestIid.isSome || issue.mergeRequestUrl.isSome) := by
    cases hiid : issue.mergeRequestIid with
    | some iid => rfl
    | none =>
      rw [hiid] at h
      unfold nonEmpty
      cases hurl : issue.mergeRequestUrl with
      | none => rfl
      | some url =>
        have hne : url ≠ "" := fun heq => h rfl (by rw [hurl, heq])
        simp [hne]
  unfold IssueRow.unmarked deletedIssueRow issueArchiveRow currentIssueRow
  rw [hurl]

/-- The union after a deletion: the archive rows of the Issue stand for its Tasks. -/
theorem union_tasks (hkeyed : db.Keyed) (h : deleteIssue db issueId deletedAt = some db')
    (hfresh : ∀ row ∈ db.deletedTasks, ∀ task ∈ db.tasksOf issueId, row.sourceTaskId ≠ task.id) :
    db'.tasks.map (currentTaskRow db') ++ db'.deletedTasks.map deletedTaskRow =
      (db.tasks.filter (!·.issueId == issueId)).map (currentTaskRow db) ++
        (db.deletedTasks.map deletedTaskRow ++
          (db.tasksOf issueId).map (deletedTaskRow ∘ db.archiveRow deletedAt)) := by
  obtain ⟨issue, _, _, rfl⟩ := of_deleteIssue h
  unfold dropIssue
  dsimp only
  rw [archived_fresh hkeyed hfresh, map_currentTaskRow_kept hkeyed, map_append, map_map]
  · rfl
  · rfl

/-- **Tasks**: the rows of a steady deletion have the views they had. -/
theorem perm_tasks (hkeyed : db.Keyed) (h : deleteIssue db issueId deletedAt = some db')
    (hsteady : Steady db issueId) (f : Filters) :
    ((allTasks db' f).map unmarked).Perm ((allTasks db f).map unmarked) := by
  unfold allTasks
  rw [← filter_view (unmarked_task f), ← filter_view (unmarked_task f),
    union_tasks hkeyed h hsteady.freshTasks]
  apply List.Perm.filter
  simp only [map_append, map_map]
  have hmine : (db.tasksOf issueId).map (unmarked ∘ deletedTaskRow ∘ db.archiveRow deletedAt) =
      (db.tasksOf issueId).map (unmarked ∘ currentTaskRow db) :=
    map_congr_left fun task htask => unmarked_archiveRow (hsteady.terminal task htask)
  rw [hmine]
  -- the rows of the Issue move from the front of the union to its end
  have hsplit := split_tasks db issueId (unmarked ∘ currentTaskRow db)
  refine List.Perm.trans ?_ (hsplit.symm.append_right _)
  rw [append_assoc]
  exact perm_append_comm.append_left _

/-- **Issues**: as for the Tasks. -/
theorem perm_issues (hkeyed : db.Keyed) (h : deleteIssue db issueId deletedAt = some db')
    (hsteady : Steady db issueId) (f : Filters) :
    ((allIssues db' f).map IssueRow.unmarked).Perm ((allIssues db f).map IssueRow.unmarked) := by
  obtain ⟨issue, hissue, hid, rfl⟩ := of_deleteIssue h
  have hfresh : ∀ row ∈ db.deletedIssues, row.sourceIssueId ≠
      (issueArchiveRow issue ((db.tasksOf issueId).any taskIsActive) deletedAt).sourceIssueId := by
    intro row hrow
    show row.sourceIssueId ≠ issue.id
    rw [hid]
    exact hsteady.freshIssue row hrow
  unfold allIssues
  rw [← filter_view (unmarked_issue f), ← filter_view (unmarked_issue f)]
  apply List.Perm.filter
  unfold dropIssue
  dsimp only
  rw [upsert_fresh hfresh]
  simp only [map_append, map_map, map_cons, map_nil]
  rw [unmarked_issueArchiveRow (hsteady.mergeRequest issue hissue hid)]
  have hsplit := split_issues (IssueRow.unmarked ∘ currentIssueRow) hkeyed hissue hid
  refine List.Perm.trans ?_ (hsplit.symm.append_right _)
  rw [append_assoc]
  exact perm_append_comm.append_left _

/-! ### What Moves Otherwise -/

theorem allTasks_unfiltered (db : Database) :
    allTasks db {} = db.tasks.map (currentTaskRow db) ++ db.deletedTasks.map deletedTaskRow :=
  filter_eq_self.mpr fun _ _ => rfl

theorem allIssues_unfiltered (db : Database) :
    allIssues db {} = db.issues.map currentIssueRow ++ db.deletedIssues.map deletedIssueRow :=
  filter_eq_self.mpr fun _ _ => rfl

/-- Two conditions that are met equally often, one of them whenever the other is. -/
theorem of_countP_eq {α : Type} {p q : α → Bool} {l : List α} (hcount : l.countP p = l.countP q)
    (himp : ∀ a, p a = true → q a = true) {a : α} (ha : a ∈ l) (hq : q a = true) : p a = true := by
  have hsublist : (l.filter p).Sublist (l.filter q) := monotone_filter_right l himp
  have hlength : (l.filter p).length = (l.filter q).length := by
    rw [← countP_eq_length_filter, ← countP_eq_length_filter, hcount]
  have hmem : a ∈ l.filter p := by
    rw [hsublist.eq_of_length hlength]
    exact mem_filter.mpr ⟨ha, hq⟩
  exact (mem_filter.mp hmem).2

theorem group_taskCount {κ : Type} [DecidableEq κ] (key : TaskRow → κ) (rows : List TaskRow)
    (k : κ) :
    ((group key finished rows k).map (·.taskCount)).getD 0 =
      rows.countP fun r => decide (key r = k) := by
  rw [countP_eq_length_filter]
  unfold group
  cases rows.filter fun r => decide (key r = k) with
  | nil => rfl
  | cons r rest => rfl

variable {calendar : Calendar}

theorem freshTasks_of_same (h : deleteIssue db issueId deletedAt = some db')
    (hsame : SameStatistics calendar db db') :
    ∀ row ∈ db.deletedTasks, ∀ task ∈ db.tasksOf issueId, row.sourceTaskId ≠ task.id := by
  intro row hrow task htask heq
  obtain ⟨issue, _, _, rfl⟩ := of_deleteIssue h
  have hcount := congrArg LifetimeTasks.taskCount (hsame.tasks {}).lifetime
  rw [allTasks_unfiltered, allTasks_unfiltered] at hcount
  have hold : task.id ∈ db.deletedTasks.map DeletedTask.sourceTaskId :=
    heq ▸ mem_map_of_mem hrow
  have hnew : task.id ∈ ((db.tasksOf issueId).map (db.archiveRow deletedAt)).map
      DeletedTask.sourceTaskId := by
    rw [map_map]
    exact mem_map.mpr ⟨task, htask, rfl⟩
  have hlt := length_foldl_upsert_lt hnew hold
  have hsplit := (split_tasks db issueId (currentTaskRow db)).length_eq
  simp only [LifetimeTasks.kept, lifetimeTasks, dropIssue, length_append,
    length_map] at hcount hlt hsplit
  omega

theorem freshIssue_of_same (hkeyed : db.Keyed) (h : deleteIssue db issueId deletedAt = some db')
    (hsame : SameStatistics calendar db db') :
    ∀ row ∈ db.deletedIssues, row.sourceIssueId ≠ issueId := by
  intro row hrow heq
  obtain ⟨issue, hissue, hid, rfl⟩ := of_deleteIssue h
  have hcount := congrArg LifetimeIssues.issueCount (hsame.issues {}).lifetime
  rw [allIssues_unfiltered, allIssues_unfiltered] at hcount
  have hany : db.deletedIssues.any (·.sourceIssueId == issue.id) = true :=
    any_eq_true.mpr ⟨row, hrow, by simp [heq, hid]⟩
  have hsplit := (split_issues currentIssueRow hkeyed hissue hid).length_eq
  simp only [LifetimeIssues.kept, lifetimeIssues, dropIssue, upsert, issueArchiveRow, hany,
    if_true, Table.update, length_append, length_map, length_singleton]
    at hcount hsplit
  omega

/-- A completion time that the archive drops is missing from the finished trend. -/
theorem terminal_of_same (hkeyed : db.Keyed) (h : deleteIssue db issueId deletedAt = some db')
    (hsame : SameStatistics calendar db db') :
    ∀ task ∈ db.tasksOf issueId, task.status.active → task.completedAt = none := by
  have hfresh := freshTasks_of_same h hsame
  intro task htask hactive
  cases hcompleted : task.completedAt with
  | none => rfl
  | some d =>
    exfalso
    have htrend := congrFun ((hsame.tasks {}).finished .day none) (some (calendar .day d))
    have hcount := congrArg (fun point => (Option.map Finished.taskCount point).getD 0) htrend
    unfold taskFinishedTrend at hcount
    simp only [group_taskCount, countP_filter] at hcount
    rw [allTasks_unfiltered, allTasks_unfiltered, union_tasks hkeyed h hfresh] at hcount
    generalize hbucket : (fun r : TaskRow =>
      decide (r.terminalAt.map (calendar .day) = some (calendar .day d)) &&
        (r.terminalAt.isSome && since none r.terminalAt)) = inBucket at hcount
    have hsplit := (split_tasks db issueId (currentTaskRow db)).countP_eq inBucket
    simp only [countP_append, countP_map] at hcount hsplit
    have hmine : (db.tasksOf issueId).countP (inBucket ∘ deletedTaskRow ∘ db.archiveRow deletedAt) =
        (db.tasksOf issueId).countP (inBucket ∘ currentTaskRow db) := by
      omega
    -- an archive row has the completion time of its Task or none
    have himp : ∀ task : Task, (inBucket ∘ deletedTaskRow ∘ db.archiveRow deletedAt) task = true →
          (inBucket ∘ currentTaskRow db) task = true := by
      intro task hin
      subst hbucket
      by_cases hterminal : task.status.terminal = true
      · simp only [Function.comp, currentTaskRow, deletedTaskRow, archiveRow,
          taskArchiveRow, hterminal, if_true] at hin ⊢
        exact hin
      · simp [deletedTaskRow, hterminal] at hin
    have hin : (inBucket ∘ currentTaskRow db) task = true := by
      subst hbucket
      simp [currentTaskRow, hcompleted, since]
    have hmissing := of_countP_eq hmine himp htask hin
    subst hbucket
    simp [deletedTaskRow, TaskStatus.terminal, hactive] at hmissing

theorem mergeRequest_of_same (hkeyed : db.Keyed) (h : deleteIssue db issueId deletedAt = some db')
    (hsame : SameStatistics calendar db db') :
    ∀ issue ∈ db.issues, issue.id = issueId →
      issue.mergeRequestIid.isNone → issue.mergeRequestUrl ≠ some "" := by
  have hfresh := freshIssue_of_same hkeyed h hsame
  intro issue hissue hid hiid hurl
  have hcount := congrArg LifetimeIssues.issuesWithMr (hsame.issues {}).lifetime
  rw [allIssues_unfiltered, allIssues_unfiltered] at hcount
  obtain ⟨found, hfound, hfoundId, rfl⟩ := of_deleteIssue h
  have hsplit := (split_issues currentIssueRow hkeyed hissue hid).countP_eq
    (·.hadMergeRequest == some true)
  have hsame : found = issue :=
    hkeyed.issues.eq_of_key_eq hfound hissue (hfoundId.trans hid.symm)
  subst hsame
  unfold dropIssue LifetimeIssues.kept lifetimeIssues countIf at hcount
  dsimp only at hcount
  rw [upsert_fresh fun row hrow => by
    show row.sourceIssueId ≠ found.id
    exact hid ▸ hfresh row hrow] at hcount
  simp only [countP_append, map_append, map_cons, map_nil] at hcount hsplit
  have hcurrent : (currentIssueRow found).hadMergeRequest = some true := by
    simp [currentIssueRow, hurl]
  have harchived : ∀ forced, (deletedIssueRow (issueArchiveRow found forced deletedAt)).hadMergeRequest
      = some false := by
    intro forced
    simp [deletedIssueRow, issueArchiveRow, hurl, nonEmpty, Option.isNone_iff_eq_none.mp hiid]
  simp only [countP_singleton, hcurrent, harchived] at hcount hsplit
  simp at hcount hsplit
  omega

/-! ### The Result -/

/-- **Deletion**: an Issue that is archived and deleted leaves all reports as they were if and only
    if nothing of it is read differently from the archive. -/
theorem deletion_keeps_statistics_iff (calendar : Calendar) (db db' : Database) (issueId : Nat)
    (deletedAt : DateTime) (hkeyed : db.Keyed)
    (h : deleteIssue db issueId deletedAt = some db') :
    SameStatistics calendar db db' ↔ Steady db issueId := by
  constructor
  · intro hsame
    exact
      { freshTasks := freshTasks_of_same h hsame
        freshIssue := freshIssue_of_same hkeyed h hsame
        terminal := terminal_of_same hkeyed h hsame
        mergeRequest := mergeRequest_of_same hkeyed h hsame }
  · intro hsteady
    exact
      { tasks := fun f => sameTaskReports_of_views (perm_tasks hkeyed h hsteady f)
        issues := fun f => sameIssueReports_of_views (perm_issues hkeyed h hsteady f) }

/-- An Issue with one Task, under the profile `claude`. -/
def oneTask (status : TaskStatus) (completedAt : Option DateTime) : Database where
  tasks := [{ id := 4, issueId := 1, projectId := 2, status := status, startedAt := some 3,
              completedAt := completedAt, providerId := some 6, inputTokens := some 8,
              outputTokens := some 9 }]
  issues := [{ id := 1, projectId := 2, mergeRequestIid := some 5, mergeRequestUrl := some "u" }]
  providers := [{ id := 6, name := "provider", model := "model" }]
  snapshots := [{ taskId := 4, harnessKey := some "claude" }]
  deletedTasks := []
  deletedIssues := []

theorem keyed_oneTask (status : TaskStatus) (completedAt : Option DateTime) :
    (oneTask status completedAt).Keyed where
  tasks := nodup_singleton _
  issues := nodup_singleton _
  providers := nodup_singleton _
  snapshots := nodup_singleton _
  deletedTasks := nodup_nil
  deletedIssues := nodup_nil

/-- A completed Task is counted like before. -/
theorem completed_task_deleted :
    ∃ db', deleteIssue (oneTask .completed (some 7)) 1 9 = some db' ∧
      SameStatistics (fun _ time => time / 10) (oneTask .completed (some 7)) db' := by
  refine ⟨_, rfl, (deletion_keeps_statistics_iff _ _ _ 1 9 (keyed_oneTask _ _) rfl).mpr ?_⟩
  exact
    { freshTasks := by decide
      freshIssue := by decide
      terminal := by decide
      mergeRequest := by decide }

/-- A running Task with a completion time leaves the finished trend. -/
theorem running_task_leaves_trend :
    ∃ db', deleteIssue (oneTask .running (some 7)) 1 9 = some db' ∧
      (oneTask .running (some 7)).Keyed ∧
      ¬ SameStatistics (fun _ time => time / 10) (oneTask .running (some 7)) db' := by
  refine ⟨_, rfl, keyed_oneTask _ _, fun hsame => ?_⟩
  have htrend := congrFun ((hsame.tasks {}).finished .day none) (some 0)
  have hpoint := congrArg Option.isSome htrend
  revert hpoint
  decide

end Codify.Statistics

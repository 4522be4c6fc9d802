import Codify.Framework.JsonRoundTrip
import Codify.Framework.System
import Codify.Models
import Codify.Worker.ProjectedRows
import Mathlib.Data.List.Nodup

/-! # Task Log Stream

    `generate_task_log_events` (app/api/task_log_stream.py) with `since_id = 0`, and
    the writers of the rows. One cycle of the stream is one session with up to five
    queries, each of which sees what is committed when it runs; between two of them
    the writers may commit. A row that the session has loaded in this cycle is not
    loaded again (`State.read`).

    * **Writers**: insert a row behind the rows there are, rewrite one row
      (`Rewrite`), and set the status; nothing is written under a terminal status.
    * **Client**: the last event of an id wins (`State.client`).
    * **Result**: `done_shows_log`.

    `_metadata_fingerprint` is a parameter; two metadata with one fingerprint are
    one JSON value. The log lines of the stream are left out.
-/

namespace Codify.Api.TaskLogStream

open Codify Codify.Framework Codify.Worker List

/-! ### The Model -/

/-- Where the stream stands. -/
inductive Phase where
  /-- Before the query for new rows. -/
  | logs
  | tools
  | thinking
  | assistant
  | status
  /-- Before the events of the cycle are sent; `ended` when the status was terminal. -/
  | send (fastForward ended : Bool)
  | done
  deriving DecidableEq

/-- The table, the status of the Task and the stream. -/
structure State where
  rows : List TaskLog
  taskStatus : TaskStatus
  phase : Phase := .logs
  cursor : Nat := 0
  pendingToolCalls : List Nat := []
  pendingThinkingRows : List Nat := []
  /-- The id of a live row, and the fingerprint that was sent last. -/
  pendingAssistantRows : List (Nat × String) := []
  /-- `new_logs`: the rows that the session of this cycle has loaded. -/
  newLogs : List TaskLog := []
  /-- `cycle_log_data`. -/
  batch : List TaskLog := []
  /-- `cycle_update_events`. -/
  updates : List TaskLog := []
  /-- What has been sent. -/
  sent : List TaskLog := []

/-- `BATCH_SIZE`. -/
def batchSize : Nat := 500

/-- A row, as the session sees it: a loaded row is not refreshed. -/
def State.read (s : State) (row : TaskLog) : TaskLog :=
  (s.newLogs.find? (·.id == row.id)).getD row

section Stream

variable (fingerprint : JsonObject → String)

variable (s : State)

/-- The query for new rows, and the loop over them. -/
def State.queryLogs : State :=
  let new := (s.rows.filter fun row => s.cursor < row.id).take batchSize
  { s with
    newLogs := new
    cursor := (new.getLast?.map (·.id)).getD s.cursor
    pendingToolCalls := s.pendingToolCalls ++
      (new.filter fun row => row.logType = .toolCall ∧ !row.ended).map (·.id)
    pendingThinkingRows := s.pendingThinkingRows ++
      (new.filter fun row => row.logType = .thinking ∧ row.hasStatus "in_progress").map (·.id)
    pendingAssistantRows := s.pendingAssistantRows ++
      (new.filter fun row => row.logType = .assistantText ∧ row.streaming).map
        fun row => (row.id, fingerprint row.fields)
    batch := new
    phase := if new.length = batchSize then .send true false else .tools }

def State.queryTools : State :=
  let hits := ((s.rows.filter fun row => row.id ∈ s.pendingToolCalls).map s.read).filter
    TaskLog.ended
  { s with
    updates := s.updates ++ hits
    pendingToolCalls := s.pendingToolCalls.filter (· ∉ hits.map (·.id))
    phase := .thinking }

def State.queryThinking : State :=
  let hits := ((s.rows.filter fun row => row.id ∈ s.pendingThinkingRows).map s.read).filter
    TaskLog.settled
  { s with
    updates := s.updates ++ hits
    pendingThinkingRows := s.pendingThinkingRows.filter (· ∉ hits.map (·.id))
    phase := .assistant }

def rowFingerprint (row : TaskLog) : String := fingerprint row.fields

/-- The query for live rows: a row whose fingerprint has changed is sent again. -/
def State.queryAssistant : State :=
  let seen := (s.rows.filter fun row => row.id ∈ s.pendingAssistantRows.map (·.1)).map s.read
  { s with
    updates := s.updates ++
      seen.filter fun row => (row.id, rowFingerprint fingerprint row) ∉ s.pendingAssistantRows
    pendingAssistantRows := s.pendingAssistantRows.filterMap fun (id, previous) =>
      match seen.find? (·.id == id) with
      | none => some (id, previous)
      | some row => if row.streaming then some (id, rowFingerprint fingerprint row) else none
    phase := .status }

def State.queryStatus : State := { s with phase := .send false s.taskStatus.terminal }

def State.send (fastForward ended : Bool) : State :=
  { s with
    sent := s.sent ++ s.batch ++ s.updates
    batch := []
    updates := []
    phase := if !fastForward ∧ ended ∧ s.newLogs = [] then .done else .logs }

/-- A step of a writer or of the stream. -/
inductive Label where
  | insert (row : TaskLog)
  | rewrite (id : Nat) (rewrite : Rewrite)
  | setStatus (status : TaskStatus)
  | stream

def State.next : Label → Option State
  | .insert row =>
    if s.taskStatus.active ∧ 0 < row.id ∧ ∀ other ∈ s.rows, other.id < row.id then
      some { s with rows := s.rows ++ [row] }
    else none
  | .rewrite id rewrite =>
    if s.taskStatus.active then
      (s.rows.find? (·.id == id)).bind fun row =>
        (rewrite.apply row).map fun row' =>
          { s with rows := s.rows.map fun other => if other.id = id then row' else other }
    else none
  | .setStatus status => if s.taskStatus.active then some { s with taskStatus := status } else none
  | .stream =>
    match s.phase with
    | .logs => some (s.queryLogs fingerprint)
    | .tools => some s.queryTools
    | .thinking => some s.queryThinking
    | .assistant => some (s.queryAssistant fingerprint)
    | .status => some s.queryStatus
    | .send fastForward ended => some (s.send fastForward ended)
    | .done => none

/-- The stream of a Task, from an empty or a filled log on. -/
def taskLogStream : System State Label where
  init := fun s => ∃ rows status, s = { rows := rows, taskStatus := status } ∧
    (rows.map (·.id)).Pairwise (· < ·) ∧ ∀ row ∈ rows, 0 < row.id
  next := State.next fingerprint

end Stream

/-! ### The Client -/

def lastEvent (events : List TaskLog) (id : Nat) : Option TaskLog :=
  events.reverse.find? (·.id == id)

def State.client (s : State) (id : Nat) : Option TaskLog := lastEvent s.sent id

section Proofs

variable {fingerprint : JsonObject → String} {s s' : State} {l : Label} {row row' event : TaskLog}
  {events events' : List TaskLog} {id : Nat}

theorem lastEvent_append (events events' : List TaskLog) (id : Nat) :
    lastEvent (events ++ events') id = (lastEvent events' id).or (lastEvent events id) := by
  unfold lastEvent
  rw [reverse_append, find?_append]

theorem mem_of_lastEvent (h : lastEvent events id = some event) : event ∈ events ∧ event.id = id := by
  exact ⟨mem_reverse.mp (mem_of_find?_eq_some h), by simpa using find?_some h⟩

theorem lastEvent_eq_none (h : ∀ event ∈ events, event.id ≠ id) : lastEvent events id = none := by
  unfold lastEvent
  rw [find?_eq_none]
  intro event hevent
  simpa using h event (mem_reverse.mp hevent)

theorem lastEvent_eq_some (hmem : event ∈ events) (hid : event.id = id)
    (hunique : ∀ other ∈ events, other.id = id → other = event) :
    lastEvent events id = some event := by
  cases h : lastEvent events id with
  | none =>
    unfold lastEvent at h
    rw [find?_eq_none] at h
    exact absurd hid (by simpa using h event (mem_reverse.mpr hmem))
  | some other =>
    obtain ⟨hother, heq⟩ := mem_of_lastEvent h
    rw [hunique other hother heq]

/-! ### What the Stream Knows -/

/-- What the client holds of a row when the cycle has been sent. -/
def State.shown (s : State) (id : Nat) : Option TaskLog :=
  lastEvent (s.sent ++ s.batch ++ s.updates) id

def NoNew (s : State) : Prop := ∀ row ∈ s.rows, row.id ≤ s.cursor

def NoTool (s : State) : Prop :=
  ∀ row ∈ s.rows, row.id ∈ s.pendingToolCalls → row.ended = false

def NoThinking (s : State) : Prop :=
  ∀ row ∈ s.rows, row.id ∈ s.pendingThinkingRows → row.settled = false

def NoAssistant (fingerprint : JsonObject → String) (s : State) : Prop :=
  ∀ row ∈ s.rows, ∀ previous, (row.id, previous) ∈ s.pendingAssistantRows →
    previous = rowFingerprint fingerprint row

/-- A cycle that has found no rows misses nothing that was committed behind its queries. -/
def Caught (fingerprint : JsonObject → String) (s : State) : Prop :=
  s.newLogs = [] →
    match s.phase with
    | .tools => NoNew s
    | .thinking => NoNew s ∧ NoTool s
    | .assistant => NoNew s ∧ NoTool s ∧ NoThinking s
    | .status => NoNew s ∧ NoTool s ∧ NoThinking s ∧ NoAssistant fingerprint s
    | _ => True

/-- A row that was sent is rewritten while the stream waits for it, and the Task does not turn
    terminal behind a query that would have seen more. -/
def Followed (fingerprint : JsonObject → String) (s : State) : Label → Prop
  | .rewrite id (.completeTool _) => s.cursor < id ∨ id ∈ s.pendingToolCalls
  | .rewrite id (.finalizeThinking ..) => s.cursor < id ∨ id ∈ s.pendingThinkingRows
  | .rewrite id .settleDelegation =>
    s.cursor < id ∨ (id ∈ s.pendingToolCalls ∧ ∀ row ∈ s.rows, row.id = id → row.ended = true)
  | .setStatus status => status.terminal → Caught fingerprint s
  | _ => True

/-- The stream waits for what a rewrite has changed. -/
def Due (s : State) (row : TaskLog) : Prop :=
  (row.id ∈ s.pendingToolCalls ∧ row.ended = true) ∨
    (row.id ∈ s.pendingThinkingRows ∧ row.settled = true) ∨
    ∃ previous, (row.id, previous) ∈ s.pendingAssistantRows

def Shows (fingerprint : JsonObject → String) (event row : TaskLog) : Prop :=
  SameRow row event ∧ rowFingerprint fingerprint event = rowFingerprint fingerprint row

def Synced (fingerprint : JsonObject → String) (s : State) : Prop :=
  NoNew s ∧ ∀ row ∈ s.rows, ∃ event, s.shown row.id = some event ∧ Shows fingerprint event row

/-- Nothing is left behind the queries that have run under a terminal status. -/
def Ready (fingerprint : JsonObject → String) (s : State) : Prop :=
  match s.phase with
  | .send _ ended => ended = true → s.newLogs = [] → Synced fingerprint s
  | .done => Synced fingerprint s
  | _ => Caught fingerprint s

/-- Between the query for new rows and the end of the cycle. -/
def Phase.querying : Phase → Bool
  | .tools | .thinking | .assistant => true
  | _ => false

def Phase.resting : Phase → Bool
  | .logs | .done => true
  | _ => false

def Waits (s : State) (logType : LogType) (id : Nat) : Prop :=
  ∃ row ∈ s.rows, row.id = id ∧ row.logType = logType ∧ id ≤ s.cursor

variable {logType : LogType} {rewrite : Rewrite} {status : TaskStatus} {rows : List TaskLog}
  {ids : List Nat} {p : TaskLog → Bool} {previous : String}

theorem Waits.le (h : Waits s logType id) : id ≤ s.cursor := by
  obtain ⟨-, -, -, -, hle⟩ := h
  exact hle

/-- What holds in every state. -/
structure Inv (fingerprint : JsonObject → String) (s : State) : Prop where
  sorted : (s.rows.map (·.id)).Pairwise (· < ·)
  positive : ∀ row ∈ s.rows, 0 < row.id
  cursor : s.cursor = 0 ∨ ∃ row ∈ s.rows, s.cursor ≤ row.id
  cleared : s.phase.resting = true → s.batch = [] ∧ s.updates = []
  held : ∀ row ∈ s.rows, row.id ≤ s.cursor → ∃ event, s.shown row.id = some event ∧
    SameRow row event ∧
      (rowFingerprint fingerprint event = rowFingerprint fingerprint row ∨ Due s row)
  only : ∀ id event, s.shown id = some event → ∃ row ∈ s.rows, row.id = id
  tools : ∀ id ∈ s.pendingToolCalls, Waits s .toolCall id
  thinking : ∀ id ∈ s.pendingThinkingRows, Waits s .thinking id
  opened : ∀ row ∈ s.rows, row.id ≤ s.cursor → row.logType = .thinking →
    row.hasStatus "in_progress" = true → row.id ∈ s.pendingThinkingRows
  assistant : ∀ id previous, (id, previous) ∈ s.pendingAssistantRows →
    Waits s .assistantText id ∧
      ∀ event, s.shown id = some event → previous = rowFingerprint fingerprint event
  live : ∀ row ∈ s.rows, row.id ≤ s.cursor → row.logType = .assistantText →
    row.streaming = true → ∃ previous, (row.id, previous) ∈ s.pendingAssistantRows
  loaded : s.phase.querying = true → ∀ row ∈ s.newLogs,
    (row.id ∈ s.pendingToolCalls → row.ended = false) ∧
      (row.id ∈ s.pendingThinkingRows → row.settled = false) ∧
      ∀ previous, (row.id, previous) ∈ s.pendingAssistantRows →
        row.streaming = true ∧ previous = rowFingerprint fingerprint row
  ended : ∀ fastForward, s.phase = .send fastForward true → s.taskStatus.terminal = true
  finished : s.phase = .done → s.taskStatus.terminal = true
  ready : s.taskStatus.terminal = true → Ready fingerprint s

theorem Inv.unique (h : Inv fingerprint s) (hrow : row ∈ s.rows) (hrow' : row' ∈ s.rows)
    (hid : row'.id = row.id) : row' = row := by
  have hnodup : (s.rows.map (·.id)).Nodup := h.sorted.imp fun hlt => Nat.ne_of_lt hlt
  exact inj_on_of_nodup_map hnodup hrow' hrow hid

theorem read_cases (s : State) (row : TaskLog) :
    s.read row = row ∨ s.read row ∈ s.newLogs ∧ (s.read row).id = row.id := by
  unfold State.read
  cases h : s.newLogs.find? (·.id == row.id) with
  | none => exact Or.inl rfl
  | some loaded =>
    right
    exact ⟨mem_of_find?_eq_some h, by simpa using find?_some h⟩

theorem read_id (s : State) (row : TaskLog) : (s.read row).id = row.id := by
  rcases read_cases s row with h | h
  · rw [h]
  · exact h.2

theorem read_of_nil (h : s.newLogs = []) (row : TaskLog) : s.read row = row := by
  unfold State.read
  rw [h]
  rfl

/-! ### Writers -/

theorem Inv.cursor_lt (h : Inv fingerprint s) (hpositive : 0 < row.id)
    (hlast : ∀ other ∈ s.rows, other.id < row.id) : s.cursor < row.id := by
  rcases h.cursor with hzero | ⟨other, hother, hid⟩
  · omega
  · exact Nat.lt_of_le_of_lt hid (hlast other hother)

theorem Waits.insert (h : Waits s logType id) (row : TaskLog) :
    Waits { s with rows := s.rows ++ [row] } logType id := by
  obtain ⟨other, hother, hid⟩ := h
  exact ⟨other, mem_append_left _ hother, hid⟩

theorem inv_insert (h : Inv fingerprint s) (hpositive : 0 < row.id)
    (hlast : ∀ other ∈ s.rows, other.id < row.id) (hactive : s.taskStatus.active = true) :
    Inv fingerprint { s with rows := s.rows ++ [row] } := by
  have hcursor := h.cursor_lt hpositive hlast
  -- a row up to the cursor is an old one
  have hold : ∀ other ∈ s.rows ++ [row], other.id ≤ s.cursor → other ∈ s.rows := by
    intro other hother hle
    rcases mem_append.mp hother with hother | hother
    · exact hother
    · rw [mem_singleton.mp hother] at hle
      omega
  exact
    { h with
      sorted := by
        rw [map_append, pairwise_append]
        refine ⟨h.sorted, pairwise_singleton _ _, ?_⟩
        intro a ha b hb
        obtain ⟨other, hother, rfl⟩ := mem_map.mp ha
        rw [mem_singleton.mp hb]
        exact hlast other hother
      positive := fun other hother => by
        rcases mem_append.mp hother with hother | hother
        · exact h.positive other hother
        · rw [mem_singleton.mp hother]
          exact hpositive
      cursor := h.cursor.imp id fun ⟨other, hother, hid⟩ =>
        ⟨other, mem_append_left _ hother, hid⟩
      held := fun other hother hle => h.held other (hold other hother hle) hle
      only := fun id event hevent => by
        obtain ⟨other, hother, hid⟩ := h.only id event hevent
        exact ⟨other, mem_append_left _ hother, hid⟩
      tools := fun id hid => (h.tools id hid).insert row
      thinking := fun id hid => (h.thinking id hid).insert row
      opened := fun other hother hle => h.opened other (hold other hother hle) hle
      assistant := fun id previous hid =>
        ⟨(h.assistant id previous hid).1.insert row, (h.assistant id previous hid).2⟩
      live := fun other hother hle => h.live other (hold other hother hle) hle
      ready := fun hterminal => absurd hterminal (by simp [hactive]) }

theorem mem_replace {other : TaskLog}
    (hother : other ∈ s.rows.map fun other => if other.id = id then row' else other) :
    other = row' ∨ other ∈ s.rows ∧ other.id ≠ id := by
  obtain ⟨old, hold, rfl⟩ := mem_map.mp hother
  by_cases hid : old.id = id
  · exact Or.inl (if_pos hid)
  · right
    rw [if_neg hid]
    exact ⟨hold, hid⟩

theorem map_id_replace (hid : row'.id = id) :
    (s.rows.map fun other => if other.id = id then row' else other).map (·.id) =
      s.rows.map (·.id) := by
  rw [map_map]
  apply map_congr_left
  intro other _
  show (if other.id = id then row' else other).id = other.id
  by_cases h : other.id = id
  · rw [if_pos h, hid, h]
  · rw [if_neg h]

theorem Waits.replace {waiting : Nat} (h : Waits s logType waiting)
    (hinv : Inv fingerprint s) (hrow : row ∈ s.rows) (hsame : SameRow row row') :
    Waits { s with rows := s.rows.map fun other => if other.id = row.id then row' else other }
      logType waiting := by
  obtain ⟨other, hother, hid, htype, hle⟩ := h
  by_cases hne : other.id = row.id
  · have heq : other = row := hinv.unique hrow hother hne
    subst heq
    exact ⟨row', mem_map.mpr ⟨other, hother, if_pos rfl⟩, hsame.id.trans hid,
      hsame.logType.trans htype, hle⟩
  · exact ⟨other, mem_map.mpr ⟨other, hother, if_neg hne⟩, hid, htype, hle⟩

theorem due_of_rewrite (h : Inv fingerprint s) (hrow : row ∈ s.rows)
    (hguard : Followed fingerprint s (.rewrite row.id rewrite)) (happly : rewrite.apply row = some row')
    (hle : row.id ≤ s.cursor) : Due s row' := by
  obtain ⟨hsame, heffect⟩ := Rewrite.apply_spec happly
  unfold Due
  rw [hsame.id]
  cases rewrite with
  | messageDelta preview charCount truncated | finalizeMessage text agent =>
    exact Or.inr (Or.inr (h.live row hrow hle heffect.1 heffect.2))
  | interruptMessage => exact Or.inr (Or.inr (h.live row hrow hle heffect.1 heffect.2))
  | finalizeThinking text endedAt duration =>
    have hpending : row.id ∈ s.pendingThinkingRows := hguard.resolve_left (Nat.not_lt.mpr hle)
    exact Or.inr (Or.inl ⟨hpending, heffect.2⟩)
  | interruptThinking observedAt =>
    exact Or.inr (Or.inl ⟨h.opened row hrow hle heffect.1 heffect.2.1, heffect.2.2⟩)
  | completeTool done =>
    have hpending : row.id ∈ s.pendingToolCalls := hguard.resolve_left (Nat.not_lt.mpr hle)
    exact Or.inl ⟨hpending, heffect.2⟩
  | settleDelegation =>
    obtain ⟨hpending, hended⟩ := hguard.resolve_left (Nat.not_lt.mpr hle)
    exact Or.inl ⟨hpending, heffect.2.trans (hended row hrow rfl)⟩

/-- A rewrite of a row that is shown leaves it due to be read again. -/
theorem inv_rewrite (h : Inv fingerprint s) (hrow : row ∈ s.rows)
    (hguard : Followed fingerprint s (.rewrite row.id rewrite))
    (happly : rewrite.apply row = some row') (hactive : s.taskStatus.active = true) :
    Inv fingerprint
      { s with rows := s.rows.map fun other => if other.id = row.id then row' else other } := by
  obtain ⟨hsame, heffect⟩ := Rewrite.apply_spec happly
  have hmem : row' ∈ s.rows.map fun other => if other.id = row.id then row' else other :=
    mem_map.mpr ⟨row, hrow, if_pos rfl⟩
  have hkept : ∀ other ∈ s.rows, other.id ≠ row.id →
      other ∈ s.rows.map fun other => if other.id = row.id then row' else other :=
    fun other hother hne => mem_map.mpr ⟨other, hother, if_neg hne⟩
  exact
    { h with
      sorted := by
        show ((s.rows.map fun other => if other.id = row.id then row' else other).map (·.id)).Pairwise
          (· < ·)
        rw [map_id_replace hsame.id]
        exact h.sorted
      positive := fun other hother => by
        rcases mem_replace hother with heq | ⟨hother, -⟩
        · rw [heq, hsame.id]
          exact h.positive row hrow
        · exact h.positive other hother
      cursor := h.cursor.imp id fun ⟨other, hother, hid⟩ => by
        by_cases hne : other.id = row.id
        · exact ⟨row', hmem, by rw [hsame.id, ← hne]; exact hid⟩
        · exact ⟨other, hkept other hother hne, hid⟩
      held := fun other hother hle => by
        rcases mem_replace hother with heq | ⟨hother, -⟩
        · rw [heq, hsame.id] at hle
          rw [heq, hsame.id]
          obtain ⟨event, hevent, hshows, -⟩ := h.held row hrow hle
          -- the row was sent, so its change must wait in a pending set
          have hdue := due_of_rewrite h hrow hguard happly hle
          refine ⟨event, hevent, ?_, Or.inr hdue⟩
          exact ⟨hshows.id.trans hsame.id.symm, hshows.logType.trans hsame.logType.symm,
            hshows.message.trans hsame.message.symm, hshows.createdAt.trans hsame.createdAt.symm⟩
        · exact h.held other hother hle
      only := fun id event hevent => by
        obtain ⟨other, hother, hid⟩ := h.only id event hevent
        by_cases hne : other.id = row.id
        · exact ⟨row', hmem, by rw [hsame.id, ← hne, hid]⟩
        · exact ⟨other, hkept other hother hne, hid⟩
      tools := fun id hid => (h.tools id hid).replace h hrow hsame
      thinking := fun id hid => (h.thinking id hid).replace h hrow hsame
      opened := fun other hother hle htype hopen => by
        rcases mem_replace hother with heq | ⟨hother, -⟩
        · -- a rewrite of a placeholder settles it
          exfalso
          rw [heq] at htype hopen
          rw [hsame.logType] at htype
          have hsettled : row'.settled = true := by
            cases rewrite with
            | finalizeThinking text endedAt duration => exact heffect.2
            | interruptThinking observedAt => exact heffect.2.2
            | messageDelta preview charCount truncated | finalizeMessage text agent
            | interruptMessage | completeTool done | settleDelegation =>
              rw [heffect.1] at htype; cases htype
          rw [not_open_of_settled hsettled] at hopen
          cases hopen
        · exact h.opened other hother hle htype hopen
      assistant := fun id previous hid =>
        ⟨(h.assistant id previous hid).1.replace h hrow hsame, (h.assistant id previous hid).2⟩
      live := fun other hother hle htype hstreaming => by
        rcases mem_replace hother with heq | ⟨hother, -⟩
        · rw [heq] at hle htype ⊢
          rw [hsame.id] at hle ⊢
          rw [hsame.logType] at htype
          exact h.live row hrow hle htype (streaming_of_apply happly htype)
        · exact h.live other hother hle htype hstreaming
      ready := fun hterminal => absurd hterminal (by simp [hactive]) }

theorem inv_setStatus (h : Inv fingerprint s)
    (hguard : Followed fingerprint s (.setStatus status)) (hactive : s.taskStatus.active = true) :
    Inv fingerprint { s with taskStatus := status } := by
  have hopen : ¬ s.taskStatus.terminal = true := by simp [hactive]
  exact
    { h with
      ended := fun fastForward hphase => absurd (h.ended fastForward hphase) hopen
      finished := fun hphase => absurd (h.finished hphase) hopen
      ready := fun hterminal => by
        have hcaught : Caught fingerprint s := hguard hterminal
        unfold Ready
        split
        · next fastForward ended hphase =>
          rintro rfl
          exact absurd (h.ended fastForward hphase) hopen
        · next hphase => exact absurd (h.finished hphase) hopen
        · exact hcaught }

/-! ### The Query for New Rows -/

def State.fresh (s : State) : List TaskLog := (s.rows.filter fun row => s.cursor < row.id).take batchSize

theorem le_last {last : TaskLog} (hsorted : (rows.map (·.id)).Pairwise (· < ·))
    (hlast : rows.getLast? = some last) : ∀ row ∈ rows, row.id ≤ last.id := by
  rcases eq_nil_or_concat rows with rfl | ⟨before, end_, rfl⟩
  · cases hlast
  rw [concat_eq_append] at hsorted hlast ⊢
  rw [getLast?_concat] at hlast
  cases hlast
  rw [map_append, pairwise_append] at hsorted
  intro row hrow
  rcases mem_append.mp hrow with hrow | hrow
  · exact Nat.le_of_lt (hsorted.2.2 _ (mem_map_of_mem hrow) _ (by simp))
  · rw [mem_singleton.mp hrow]

/-- The cursor moves to the last row that is loaded. -/
theorem cursor_queryLogs (h : Inv fingerprint s) :
    s.cursor ≤ (s.queryLogs fingerprint).cursor ∧
      (∀ row ∈ s.fresh, row ∈ s.rows ∧ s.cursor < row.id ∧
        row.id ≤ (s.queryLogs fingerprint).cursor) ∧
      ∀ row ∈ s.rows, row.id ≤ (s.queryLogs fingerprint).cursor →
        row.id ≤ s.cursor ∨ row ∈ s.fresh := by
  have hcursor : (s.queryLogs fingerprint).cursor = (s.fresh.getLast?.map (·.id)).getD s.cursor := rfl
  have hsorted : ((s.rows.filter fun row => s.cursor < row.id).map (·.id)).Pairwise (· < ·) :=
    h.sorted.sublist (filter_sublist.map _)
  have hfresh : (s.fresh.map (·.id)).Pairwise (· < ·) :=
    hsorted.sublist ((take_sublist _ _).map _)
  have hmem : ∀ row ∈ s.fresh, row ∈ s.rows ∧ s.cursor < row.id := by
    intro row hrow
    have hfilter := mem_filter.mp (mem_of_mem_take hrow)
    exact ⟨hfilter.1, by simpa using hfilter.2⟩
  rw [hcursor]
  cases hlast : s.fresh.getLast? with
  | none =>
    have hnil : s.fresh = [] := getLast?_eq_none_iff.mp hlast
    refine ⟨le_rfl, ?_, fun row hrow hle => Or.inl hle⟩
    rw [hnil]
    intro row hrow
    cases hrow
  | some last =>
    have hlastMem := hmem last (mem_of_getLast? hlast)
    refine ⟨Nat.le_of_lt hlastMem.2, fun row hrow => ?_, fun row hrow hle => ?_⟩
    · exact ⟨(hmem row hrow).1, (hmem row hrow).2, le_last hfresh hlast row hrow⟩
    · by_cases hold : row.id ≤ s.cursor
      · exact Or.inl hold
      · right
        have hfilter : row ∈ s.rows.filter fun row => s.cursor < row.id := by
          simp [hrow, Nat.lt_of_not_le hold]
        rw [← take_append_drop batchSize (s.rows.filter fun row => s.cursor < row.id)]
          at hfilter hsorted
        rcases mem_append.mp hfilter with hfilter | hfilter
        · exact hfilter
        · -- a row behind the limit comes after the last one of the batch
          rw [map_append, pairwise_append] at hsorted
          have hlt := hsorted.2.2 last.id
            (mem_map_of_mem (mem_of_getLast? hlast)) row.id (mem_map_of_mem hfilter)
          have hle' : row.id ≤ last.id := hle
          omega

theorem shown_queryLogs (hcleared : s.batch = [] ∧ s.updates = []) (id : Nat) :
    (s.queryLogs fingerprint).shown id = (lastEvent s.fresh id).or (s.shown id) := by
  unfold State.shown
  show lastEvent (s.sent ++ s.fresh ++ s.updates) id = _
  rw [hcleared.1, hcleared.2, append_nil, append_nil, append_nil, lastEvent_append]

theorem shown_fresh (h : Inv fingerprint s) (hphase : s.phase = .logs) (hrow : row ∈ s.fresh) :
    (s.queryLogs fingerprint).shown row.id = some row := by
  obtain ⟨-, hfresh, -⟩ := cursor_queryLogs h
  rw [shown_queryLogs (h.cleared (by rw [hphase]; rfl)), lastEvent_eq_some hrow rfl]
  · rfl
  · exact fun other hother hid => h.unique (hfresh row hrow).1 (hfresh other hother).1 hid

theorem shown_old (h : Inv fingerprint s) (hphase : s.phase = .logs) (hle : id ≤ s.cursor) :
    (s.queryLogs fingerprint).shown id = s.shown id := by
  obtain ⟨-, hfresh, -⟩ := cursor_queryLogs h
  rw [shown_queryLogs (h.cleared (by rw [hphase]; rfl)), lastEvent_eq_none, Option.none_or]
  intro event hevent heq
  have hlt := (hfresh event hevent).2.1
  omega

theorem mem_pending
    (hid : id ∈ ids ++ (s.fresh.filter p).map (·.id)) :
    id ∈ ids ∨ ∃ row ∈ s.fresh, row.id = id ∧ p row = true := by
  rcases mem_append.mp hid with hid | hid
  · exact Or.inl hid
  · obtain ⟨row, hrow, rfl⟩ := mem_map.mp hid
    obtain ⟨hrow, hp⟩ := mem_filter.mp hrow
    exact Or.inr ⟨row, hrow, rfl, hp⟩

theorem mem_pendingAssistant (hid : (id, previous) ∈
    (s.queryLogs fingerprint).pendingAssistantRows) :
    (id, previous) ∈ s.pendingAssistantRows ∨ ∃ row ∈ s.fresh, row.id = id ∧
      row.logType = .assistantText ∧ row.streaming = true ∧
        previous = rowFingerprint fingerprint row := by
  rcases mem_append.mp hid with hid | hid
  · exact Or.inl hid
  · obtain ⟨row, hrow, heq⟩ := mem_map.mp hid
    obtain ⟨hrow, hp⟩ := mem_filter.mp hrow
    cases heq
    simp only [decide_eq_true_eq] at hp
    exact Or.inr ⟨row, hrow, rfl, hp.1, hp.2, rfl⟩

theorem due_queryLogs (h : Due s row) : Due (s.queryLogs fingerprint) row := by
  rcases h with ⟨hpending, hended⟩ | ⟨hpending, hsettled⟩ | ⟨previous, hpending⟩
  · exact Or.inl ⟨mem_append_left _ hpending, hended⟩
  · exact Or.inr (Or.inl ⟨mem_append_left _ hpending, hsettled⟩)
  · exact Or.inr (Or.inr ⟨previous, mem_append_left _ hpending⟩)

theorem Inv.only_of_or (h : Inv fingerprint s)
    (hevents : ∀ event ∈ events, ∃ row ∈ s.rows, row.id = event.id)
    (hevent : (lastEvent events id).or (s.shown id) = some event) : ∃ row ∈ s.rows, row.id = id := by
  cases hlast : lastEvent events id with
  | none =>
    rw [hlast, Option.none_or] at hevent
    exact h.only id event hevent
  | some hit =>
    obtain ⟨hhit, rfl⟩ := mem_of_lastEvent hlast
    exact hevents hit hhit

/-- The query would have found a row behind the cursor. -/
theorem noNew_queryLogs (hnil : s.fresh = [])
    (hcursor : s.cursor ≤ (s.queryLogs fingerprint).cursor) :
    NoNew (s.queryLogs fingerprint) := by
  intro row hrow
  refine le_trans ?_ hcursor
  by_contra hlt
  have hfilter : row ∈ s.rows.filter fun row => s.cursor < row.id :=
    mem_filter.mpr ⟨hrow, decide_eq_true (Nat.lt_of_not_le hlt)⟩
  have hempty := (take_eq_nil_iff.mp hnil).resolve_left (by decide)
  rw [hempty] at hfilter
  cases hfilter

/-- The query of the new rows loads them and marks those that are still to change. -/
theorem inv_queryLogs (h : Inv fingerprint s) (hphase : s.phase = .logs) :
    Inv fingerprint (s.queryLogs fingerprint) := by
  obtain ⟨hcursor, hfresh, hsplit⟩ := cursor_queryLogs h
  have hphase' : (s.queryLogs fingerprint).phase =
      if s.fresh.length = batchSize then .send true false else .tools := rfl
  have hunique : ∀ row ∈ s.fresh, ∀ other ∈ s.fresh, other.id = row.id → other = row :=
    fun row hrow other hother hid => h.unique (hfresh row hrow).1 (hfresh other hother).1 hid
  have hwaits : ∀ {logType : LogType} {id : Nat}, Waits s logType id →
      Waits (s.queryLogs fingerprint) logType id :=
    fun ⟨row, hrow, hid, htype, hle⟩ => ⟨row, hrow, hid, htype, hle.trans hcursor⟩
  have hpending : ∀ {logType : LogType} {ids : List Nat} {p : TaskLog → Bool},
      (∀ id ∈ ids, Waits s logType id) → (∀ row, p row = true → row.logType = logType) →
        ∀ id ∈ ids ++ (s.fresh.filter p).map (·.id), Waits (s.queryLogs fingerprint) logType id := by
    intro logType ids p hids hp id hid
    rcases mem_pending hid with hid | ⟨row, hrow, rfl, hrowp⟩
    · exact hwaits (hids id hid)
    · exact ⟨row, (hfresh row hrow).1, rfl, hp row hrowp, (hfresh row hrow).2.2⟩
  exact
    { h with
      cursor := by
        show (s.fresh.getLast?.map (·.id)).getD s.cursor = 0 ∨
          ∃ row ∈ s.rows, (s.fresh.getLast?.map (·.id)).getD s.cursor ≤ row.id
        cases hlast : s.fresh.getLast? with
        | none => exact h.cursor
        | some last => exact Or.inr ⟨last, (hfresh last (mem_of_getLast? hlast)).1, le_rfl⟩
      cleared := fun hlogs => by
        rw [hphase'] at hlogs
        split at hlogs <;> cases hlogs
      held := fun row hrow hle => by
        rcases hsplit row hrow hle with hold | hnew
        · obtain ⟨event, hevent, hsame, hshows⟩ := h.held row hrow hold
          exact ⟨event, (shown_old h hphase hold).trans hevent, hsame, hshows.imp id due_queryLogs⟩
        · exact ⟨row, shown_fresh h hphase hnew, SameRow.refl row, Or.inl rfl⟩
      only := fun id event hevent => by
        rw [shown_queryLogs (h.cleared (by rw [hphase]; rfl))] at hevent
        exact h.only_of_or (fun row hrow => ⟨row, (hfresh row hrow).1, rfl⟩) hevent
      tools := hpending h.tools fun row hrow => (of_decide_eq_true hrow).1
      thinking := hpending h.thinking fun row hrow => (of_decide_eq_true hrow).1
      opened := fun row hrow hle htype hopen => by
        rcases hsplit row hrow hle with hold | hnew
        · exact mem_append_left _ (h.opened row hrow hold htype hopen)
        · exact mem_append_right _ (mem_map_of_mem
            (mem_filter.mpr ⟨hnew, by simp [htype, hopen]⟩))
      assistant := fun id previous hid => by
        rcases mem_pendingAssistant hid with hid | ⟨row, hrow, rfl, htype, -, rfl⟩
        · obtain ⟨hold, hshown⟩ := h.assistant id previous hid
          refine ⟨hwaits hold, fun event hevent => ?_⟩
          rw [shown_old h hphase hold.le] at hevent
          exact hshown event hevent
        · refine ⟨⟨row, (hfresh row hrow).1, rfl, htype, (hfresh row hrow).2.2⟩,
            fun event hevent => ?_⟩
          rw [shown_fresh h hphase hrow] at hevent
          rw [Option.some.inj hevent]
      live := fun row hrow hle htype hstreaming => by
        rcases hsplit row hrow hle with hold | hnew
        · obtain ⟨previous, hprevious⟩ := h.live row hrow hold htype hstreaming
          exact ⟨previous, mem_append_left _ hprevious⟩
        · exact ⟨_, mem_append_right _ (mem_map_of_mem
            (mem_filter.mpr ⟨hnew, by simp [htype, hstreaming]⟩))⟩
      loaded := fun _ row hrow => by
        -- a row of the batch was not pending before
        have hlt := (hfresh row hrow).2.1
        refine ⟨fun hid => ?_, fun hid => ?_, fun previous hid => ?_⟩
        · rcases mem_pending hid with hid | ⟨other, hother, heq, hp⟩
          · exact absurd (h.tools row.id hid).le (Nat.not_le.mpr hlt)
          · rw [hunique row hrow other hother heq] at hp
            simp only [decide_eq_true_eq, Bool.not_eq_true'] at hp
            exact hp.2
        · rcases mem_pending hid with hid | ⟨other, hother, heq, hp⟩
          · exact absurd (h.thinking row.id hid).le (Nat.not_le.mpr hlt)
          · rw [hunique row hrow other hother heq] at hp
            simp only [decide_eq_true_eq] at hp
            cases hsettled : row.settled with
            | false => rfl
            | true =>
              rw [not_open_of_settled hsettled] at hp
              cases hp.2
        · rcases mem_pendingAssistant hid with hid | ⟨other, hother, heq, -, hstreaming, hprevious⟩
          · exact absurd (h.assistant row.id previous hid).1.le (Nat.not_le.mpr hlt)
          · rw [hunique row hrow other hother heq] at hstreaming hprevious
            exact ⟨hstreaming, hprevious⟩
      ended := fun fastForward heq => by
        rw [hphase'] at heq
        split at heq <;> cases heq
      finished := fun heq => by
        rw [hphase'] at heq
        split at heq <;> cases heq
      ready := fun _ => by
        unfold Ready
        rw [hphase']
        by_cases hfull : s.fresh.length = batchSize
        · rw [if_pos hfull]
          intro hended
          cases hended
        · rw [if_neg hfull]
          intro hnone
          rw [hphase', if_neg hfull]
          exact noNew_queryLogs hnone hcursor }

/-! ### The Queries for Pending Rows -/

/-- The rows of a query by ids, as the session sees them. -/
def State.hits (s : State) (ids : List Nat) (p : TaskLog → Bool) : List TaskLog :=
  ((s.rows.filter fun row => row.id ∈ ids).map s.read).filter p

theorem mem_hits :
    event ∈ s.hits ids p ↔ ∃ row ∈ s.rows, row.id ∈ ids ∧ s.read row = event ∧ p event = true := by
  unfold State.hits
  rw [mem_filter, mem_map]
  constructor
  · rintro ⟨⟨row, hrow, rfl⟩, hp⟩
    obtain ⟨hrow, hid⟩ := mem_filter.mp hrow
    exact ⟨row, hrow, by simpa using hid, rfl, hp⟩
  · rintro ⟨row, hrow, hid, rfl, hp⟩
    exact ⟨⟨row, mem_filter.mpr ⟨hrow, by simpa using hid⟩, rfl⟩, hp⟩

theorem hit_row (h : Inv fingerprint s)
    (hloaded : ∀ row ∈ s.newLogs, row.id ∈ ids → p row = false) (hrow : row ∈ s.rows)
    (hevent : event ∈ s.hits ids p) (hid : event.id = row.id) : event = row := by
  obtain ⟨other, hother, hmem, rfl, hp⟩ := mem_hits.mp hevent
  have hsame : other = row := h.unique hrow hother ((read_id s other).symm.trans hid)
  subst hsame
  rcases read_cases s other with heq | ⟨hload, hidLoad⟩
  · exact heq
  · rw [hloaded _ hload (hidLoad ▸ hmem)] at hp
    cases hp

theorem shown_updates {t : State} (hsent : t.sent = s.sent ∧ t.batch = s.batch)
    (hupdates : t.updates = s.updates ++ events) (id : Nat) :
    t.shown id = (lastEvent events id).or (s.shown id) := by
  unfold State.shown
  rw [hsent.1, hsent.2, hupdates, ← append_assoc, lastEvent_append]

theorem shown_hits (s t : State) (h : Inv fingerprint s)
    (hloaded : ∀ row ∈ s.newLogs, row.id ∈ ids → p row = false)
    (hsent : t.sent = s.sent ∧ t.batch = s.batch) (hupdates : t.updates = s.updates ++ s.hits ids p)
    (hrow : row ∈ s.rows) :
    (row ∈ s.hits ids p ∧ t.shown row.id = some row) ∨
      ((∀ event ∈ s.hits ids p, event.id ≠ row.id) ∧ t.shown row.id = s.shown row.id) := by
  rw [shown_updates hsent hupdates]
  by_cases hhit : row ∈ s.hits ids p
  · left
    rw [lastEvent_eq_some hhit rfl]
    · exact ⟨hhit, rfl⟩
    · exact fun other hother hid => hit_row h hloaded hrow hother hid
  · right
    have hnone : ∀ event ∈ s.hits ids p, event.id ≠ row.id :=
      fun other hother hid => hhit (hit_row h hloaded hrow hother hid ▸ hother)
    rw [lastEvent_eq_none hnone, Option.none_or]
    exact ⟨hnone, rfl⟩

theorem only_hits (s t : State) (h : Inv fingerprint s)
    (hsent : t.sent = s.sent ∧ t.batch = s.batch)
    (hupdates : t.updates = s.updates ++ s.hits ids p) (hevent : t.shown id = some event) :
    ∃ row ∈ s.rows, row.id = id := by
  rw [shown_updates hsent hupdates] at hevent
  refine h.only_of_or (fun hit hhit => ?_) hevent
  obtain ⟨row, hrow, -, rfl, -⟩ := mem_hits.mp hhit
  exact ⟨row, hrow, (read_id s row).symm⟩

theorem shown_other (s t : State) {logType logType' : LogType}
    (h : Inv fingerprint s) (hids : ∀ id ∈ ids, Waits s logType id) (hid : Waits s logType' id)
    (hne : logType ≠ logType') (hsent : t.sent = s.sent ∧ t.batch = s.batch)
    (hupdates : t.updates = s.updates ++ s.hits ids p) : t.shown id = s.shown id := by
  rw [shown_updates hsent hupdates, lastEvent_eq_none, Option.none_or]
  intro hit hhit heq
  obtain ⟨row, hrow, hpending, rfl, -⟩ := mem_hits.mp hhit
  obtain ⟨waiting, hwaiting, hwaitingId, htype, -⟩ := hids row.id hpending
  obtain ⟨other, hother, hotherId, htype', -⟩ := hid
  rw [read_id] at heq
  have hsame : waiting = other :=
    h.unique hother hwaiting (hwaitingId.trans (heq.trans hotherId.symm))
  rw [hsame, htype'] at htype
  exact hne htype.symm

theorem pending_of_miss {hits : List TaskLog} (hid : id ∈ ids)
    (hmiss : ∀ event ∈ hits, event.id ≠ id) : id ∈ ids.filter (· ∉ hits.map (·.id)) := by
  rw [mem_filter]
  refine ⟨hid, ?_⟩
  simp only [decide_eq_true_eq]
  intro hmem
  obtain ⟨event, hevent, heq⟩ := mem_map.mp hmem
  exact hmiss event hevent heq

/-- What still waits after a query would have been a hit. -/
theorem not_hit (hnone : s.newLogs = []) (hrow : row ∈ s.rows)
    (hid : row.id ∈ ids.filter (· ∉ (s.hits ids p).map (·.id))) : p row = false := by
  obtain ⟨hpending, hmiss⟩ := mem_filter.mp hid
  rw [← Bool.not_eq_true]
  intro hp
  have hhit : row ∈ s.hits ids p := mem_hits.mpr ⟨row, hrow, hpending, read_of_nil hnone row, hp⟩
  exact of_decide_eq_true hmiss (mem_map_of_mem hhit)

theorem inv_queryTools (h : Inv fingerprint s) (hphase : s.phase = .tools) :
    Inv fingerprint s.queryTools := by
  have hloaded : ∀ row ∈ s.newLogs, row.id ∈ s.pendingToolCalls → row.ended = false :=
    fun row hrow => (h.loaded (by rw [hphase]; rfl) row hrow).1
  have hhits : s.queryTools.updates = s.updates ++ s.hits s.pendingToolCalls TaskLog.ended := rfl
  exact
    { h with
      cleared := fun hlogs => nomatch hlogs
      held := fun row hrow hle => by
        obtain ⟨event, hevent, hsame, hshows⟩ := h.held row hrow hle
        rcases shown_hits s s.queryTools h hloaded ⟨rfl, rfl⟩ hhits hrow with ⟨-, hshown⟩ | ⟨hmiss, hshown⟩
        · exact ⟨row, hshown, SameRow.refl row, Or.inl rfl⟩
        · refine ⟨event, hshown.trans hevent, hsame, hshows.imp id fun hdue => ?_⟩
          rcases hdue with ⟨hpending, hended⟩ | hdue
          · exact Or.inl ⟨pending_of_miss hpending hmiss, hended⟩
          · exact Or.inr hdue
      only := fun id event hevent =>
        only_hits s s.queryTools h ⟨rfl, rfl⟩ hhits hevent
      tools := fun id hid => h.tools id (mem_filter.mp hid).1
      assistant := fun id previous hid => by
        obtain ⟨hwaits, hshown⟩ := h.assistant id previous hid
        refine ⟨hwaits, fun event hevent => hshown event ?_⟩
        rw [← hevent]
        exact (shown_other s s.queryTools h h.tools hwaits (by decide) ⟨rfl, rfl⟩ hhits).symm
      loaded := fun _ row hrow => by
        obtain ⟨hended, hrest⟩ := h.loaded (by rw [hphase]; rfl) row hrow
        exact ⟨fun hid => hended (mem_filter.mp hid).1, hrest⟩
      ended := fun fastForward heq => nomatch heq
      finished := fun heq => nomatch heq
      ready := fun hterminal => by
        have hready := h.ready hterminal
        unfold Ready at hready ⊢
        rw [hphase] at hready
        intro hnone
        have hcaught := hready hnone
        rw [hphase] at hcaught
        exact ⟨hcaught, fun row hrow hid => not_hit hnone hrow hid⟩ }

/-- The query of the placeholders shows those that have settled. -/
theorem inv_queryThinking (h : Inv fingerprint s) (hphase : s.phase = .thinking) :
    Inv fingerprint s.queryThinking := by
  have hloaded : ∀ row ∈ s.newLogs, row.id ∈ s.pendingThinkingRows → row.settled = false :=
    fun row hrow => (h.loaded (by rw [hphase]; rfl) row hrow).2.1
  have hhits : s.queryThinking.updates = s.updates ++ s.hits s.pendingThinkingRows TaskLog.settled :=
    rfl
  exact
    { h with
      cleared := fun hlogs => nomatch hlogs
      held := fun row hrow hle => by
        obtain ⟨event, hevent, hsame, hshows⟩ := h.held row hrow hle
        rcases shown_hits s s.queryThinking h hloaded ⟨rfl, rfl⟩ hhits hrow with
          ⟨-, hshown⟩ | ⟨hmiss, hshown⟩
        · exact ⟨row, hshown, SameRow.refl row, Or.inl rfl⟩
        · refine ⟨event, hshown.trans hevent, hsame, hshows.imp id fun hdue => ?_⟩
          rcases hdue with htool | ⟨hpending, hsettled⟩ | hlive
          · exact Or.inl htool
          · exact Or.inr (Or.inl ⟨pending_of_miss hpending hmiss, hsettled⟩)
          · exact Or.inr (Or.inr hlive)
      only := fun id event hevent =>
        only_hits s s.queryThinking h ⟨rfl, rfl⟩ hhits hevent
      thinking := fun id hid => h.thinking id (mem_filter.mp hid).1
      opened := fun row hrow hle htype hopen => by
        refine pending_of_miss (h.opened row hrow hle htype hopen) fun event hevent heq => ?_
        -- an open placeholder is no hit
        rw [hit_row h hloaded hrow hevent heq] at hevent
        obtain ⟨-, -, -, -, hsettled⟩ := mem_hits.mp hevent
        rw [not_open_of_settled hsettled] at hopen
        cases hopen
      assistant := fun id previous hid => by
        obtain ⟨hwaits, hshown⟩ := h.assistant id previous hid
        refine ⟨hwaits, fun event hevent => hshown event ?_⟩
        rw [← hevent]
        exact (shown_other s s.queryThinking h h.thinking hwaits (by decide) ⟨rfl, rfl⟩ hhits).symm
      loaded := fun _ row hrow => by
        obtain ⟨hended, hsettled, hrest⟩ := h.loaded (by rw [hphase]; rfl) row hrow
        exact ⟨hended, fun hid => hsettled (mem_filter.mp hid).1, hrest⟩
      ended := fun fastForward heq => nomatch heq
      finished := fun heq => nomatch heq
      ready := fun hterminal => by
        have hready := h.ready hterminal
        unfold Ready at hready ⊢
        rw [hphase] at hready
        intro hnone
        have hcaught := hready hnone
        rw [hphase] at hcaught
        exact ⟨hcaught.1, hcaught.2, fun row hrow hid => not_hit hnone hrow hid⟩ }

/-! ### The Query for Live Rows -/

/-- The live rows, as the session sees them. -/
def State.seen (s : State) : List TaskLog :=
  (s.rows.filter fun row => row.id ∈ s.pendingAssistantRows.map (·.1)).map s.read

theorem mem_seen : event ∈ s.seen ↔ ∃ row ∈ s.rows,
    (∃ previous, (row.id, previous) ∈ s.pendingAssistantRows) ∧ s.read row = event := by
  unfold State.seen
  rw [mem_map]
  constructor
  · rintro ⟨row, hrow, hread⟩
    obtain ⟨hrow, hid⟩ := mem_filter.mp hrow
    exact ⟨row, hrow, by simpa using hid, hread⟩
  · rintro ⟨row, hrow, hid, hread⟩
    exact ⟨row, mem_filter.mpr ⟨hrow, by simpa using hid⟩, hread⟩

theorem mem_changed : event ∈ s.seen.filter (fun row =>
      (row.id, rowFingerprint fingerprint row) ∉ s.pendingAssistantRows) ↔
    event ∈ s.seen ∧ (event.id, rowFingerprint fingerprint event) ∉ s.pendingAssistantRows := by
  rw [mem_filter]
  simp

theorem find_seen (h : Inv fingerprint s) (hrow : row ∈ s.rows)
    (hpending : (row.id, previous) ∈ s.pendingAssistantRows) :
    s.seen.find? (·.id == row.id) = some (s.read row) := by
  have hmem : s.read row ∈ s.seen := mem_seen.mpr ⟨row, hrow, ⟨previous, hpending⟩, rfl⟩
  cases hfind : s.seen.find? (·.id == row.id) with
  | none =>
    rw [find?_eq_none] at hfind
    exact absurd (read_id s row) (by simpa using hfind _ hmem)
  | some event =>
    obtain ⟨other, hother, -, rfl⟩ := mem_seen.mp (mem_of_find?_eq_some hfind)
    have hid : (s.read other).id = row.id := by simpa using find?_some hfind
    rw [h.unique hrow hother ((read_id s other).symm.trans hid)]

theorem pending_of_streaming (h : Inv fingerprint s) (hrow : row ∈ s.rows)
    (hpending : (row.id, previous) ∈ s.pendingAssistantRows)
    (hstreaming : (s.read row).streaming = true) :
    (row.id, rowFingerprint fingerprint (s.read row)) ∈
      (s.queryAssistant fingerprint).pendingAssistantRows := by
  refine mem_filterMap.mpr ⟨(row.id, previous), hpending, ?_⟩
  have hfind := find_seen h hrow hpending
  unfold State.seen at hfind
  dsimp only
  rw [hfind]
  exact if_pos hstreaming

theorem streaming_of_pending (h : Inv fingerprint s)
    (hpending : (id, previous) ∈ (s.queryAssistant fingerprint).pendingAssistantRows) :
    ∃ row ∈ s.rows, row.id = id ∧ (∃ old, (id, old) ∈ s.pendingAssistantRows) ∧
      previous = rowFingerprint fingerprint (s.read row) := by
  obtain ⟨⟨id', old⟩, hold, hsome⟩ := mem_filterMap.mp hpending
  obtain ⟨row, hrow, rfl, -⟩ := (h.assistant id' old hold).1
  have hfind := find_seen h hrow hold
  unfold State.seen at hfind
  dsimp only at hsome
  rw [hfind] at hsome
  obtain ⟨-, heq⟩ := of_guarded hsome
  cases heq
  exact ⟨row, hrow, rfl, ⟨old, hold⟩, rfl⟩

theorem shown_changed (s : State) (id : Nat) : (s.queryAssistant fingerprint).shown id =
    (lastEvent (s.seen.filter fun row =>
      (row.id, rowFingerprint fingerprint row) ∉ s.pendingAssistantRows) id).or (s.shown id) := by
  exact shown_updates (s := s) (t := s.queryAssistant fingerprint) ⟨rfl, rfl⟩ rfl id

theorem shown_queryAssistant (h : Inv fingerprint s) (hrow : row ∈ s.rows) :
    ((∃ previous, (row.id, previous) ∈ s.pendingAssistantRows) ∧
        (row.id, rowFingerprint fingerprint (s.read row)) ∉ s.pendingAssistantRows ∧
        (s.queryAssistant fingerprint).shown row.id = some (s.read row)) ∨
      (((∃ previous, (row.id, previous) ∈ s.pendingAssistantRows) →
          (row.id, rowFingerprint fingerprint (s.read row)) ∈ s.pendingAssistantRows) ∧
        (s.queryAssistant fingerprint).shown row.id = s.shown row.id) := by
  rw [shown_changed]
  -- an event of the id is what the session sees of the row
  have hread : ∀ event ∈ s.seen, event.id = row.id → event = s.read row := by
    intro event hevent hid
    obtain ⟨other, hother, -, rfl⟩ := mem_seen.mp hevent
    rw [h.unique hrow hother ((read_id s other).symm.trans hid)]
  by_cases hchanged : (∃ previous, (row.id, previous) ∈ s.pendingAssistantRows) ∧
      (row.id, rowFingerprint fingerprint (s.read row)) ∉ s.pendingAssistantRows
  · obtain ⟨hpending, hnew⟩ := hchanged
    left
    have hmem : s.read row ∈ s.seen.filter fun row =>
        (row.id, rowFingerprint fingerprint row) ∉ s.pendingAssistantRows :=
      mem_changed.mpr ⟨mem_seen.mpr ⟨row, hrow, hpending, rfl⟩, by rwa [read_id]⟩
    refine ⟨hpending, hnew, ?_⟩
    rw [lastEvent_eq_some hmem (read_id s row)]
    · rfl
    · exact fun other hother hid => hread other (mem_changed.mp hother).1 hid
  · right
    refine ⟨fun hpending => by_contra fun hnew => hchanged ⟨hpending, hnew⟩, ?_⟩
    rw [lastEvent_eq_none, Option.none_or]
    intro event hevent hid
    obtain ⟨hseen, hnew⟩ := mem_changed.mp hevent
    obtain ⟨other, hother, hpending, rfl⟩ := mem_seen.mp hseen
    have hsame : other = row := h.unique hrow hother ((read_id s other).symm.trans hid)
    subst hsame
    rw [read_id] at hnew
    exact hchanged ⟨hpending, hnew⟩

/-- The query of the streaming rows shows those that have changed. -/
theorem inv_queryAssistant (h : Inv fingerprint s) (hphase : s.phase = .assistant) :
    Inv fingerprint (s.queryAssistant fingerprint) := by
  have hloaded : ∀ row ∈ s.newLogs, ∀ previous, (row.id, previous) ∈ s.pendingAssistantRows →
      row.streaming = true ∧ previous = rowFingerprint fingerprint row :=
    fun row hrow => (h.loaded (by rw [hphase]; rfl) row hrow).2.2
  exact
    { h with
      cleared := fun hlogs => nomatch hlogs
      held := fun row hrow hle => by
        obtain ⟨event, hevent, hsame, hshows⟩ := h.held row hrow hle
        rcases shown_queryAssistant h hrow with ⟨⟨previous, hpending⟩, hnew, hshown⟩ | ⟨hold, hshown⟩
        · -- a changed row was not loaded before
          rcases read_cases s row with hread | ⟨hload, hid⟩
          · rw [hread] at hshown
            exact ⟨row, hshown, SameRow.refl row, Or.inl rfl⟩
          · have heq := (hloaded _ hload previous (by rwa [hid])).2
            rw [heq] at hpending
            exact absurd hpending hnew
        · refine ⟨event, hshown.trans hevent, hsame, ?_⟩
          rcases hshows with hfresh | htool | hthinking | ⟨previous, hpending⟩
          · exact Or.inl hfresh
          · exact Or.inr (Or.inl htool)
          · exact Or.inr (Or.inr (Or.inl hthinking))
          · have hsaw := hold ⟨previous, hpending⟩
            rcases read_cases s row with hread | ⟨hload, hid⟩
            · rw [hread] at hsaw
              exact Or.inl ((h.assistant _ _ hsaw).2 event hevent).symm
            · have hstreaming := (hloaded _ hload previous (by rwa [hid])).1
              exact Or.inr (Or.inr (Or.inr ⟨_, pending_of_streaming h hrow hpending hstreaming⟩))
      only := fun id event hevent => by
        rw [shown_changed] at hevent
        refine h.only_of_or (fun hit hhit => ?_) hevent
        obtain ⟨row, hrow, -, rfl⟩ := mem_seen.mp (mem_changed.mp hhit).1
        exact ⟨row, hrow, (read_id s row).symm⟩
      assistant := fun id previous hid => by
        obtain ⟨row, hrow, rfl, ⟨old, hpending⟩, hprevious⟩ := streaming_of_pending h hid
        refine ⟨(h.assistant _ _ hpending).1, fun event hevent => ?_⟩
        rw [hprevious]
        rcases shown_queryAssistant h hrow with ⟨-, -, hshown⟩ | ⟨hold, hshown⟩
        · rw [hshown] at hevent
          rw [Option.some.inj hevent]
        · rw [hshown] at hevent
          exact (h.assistant _ _ (hold ⟨old, hpending⟩)).2 event hevent
      live := fun row hrow hle htype hstreaming => by
        obtain ⟨previous, hpending⟩ := h.live row hrow hle htype hstreaming
        refine ⟨_, pending_of_streaming h hrow hpending ?_⟩
        rcases read_cases s row with hread | ⟨hload, hid⟩
        · rw [hread]
          exact hstreaming
        · exact (hloaded _ hload previous (by rwa [hid])).1
      loaded := fun hquerying => nomatch hquerying
      ended := fun fastForward heq => nomatch heq
      finished := fun heq => nomatch heq
      ready := fun hterminal => by
        have hready := h.ready hterminal
        unfold Ready at hready ⊢
        rw [hphase] at hready
        intro hnone
        have hcaught := hready hnone
        rw [hphase] at hcaught
        refine ⟨hcaught.1, hcaught.2.1, hcaught.2.2, fun row hrow previous hid => ?_⟩
        obtain ⟨other, hother, heq, -, hprevious⟩ := streaming_of_pending h hid
        have hread : s.read row = row := read_of_nil hnone row
        rw [h.unique hrow hother heq, hread] at hprevious
        exact hprevious }

/-! ### The Status and the End of a Cycle -/

theorem synced_of_caught (h : Inv fingerprint s)
    (hcaught : NoNew s ∧ NoTool s ∧ NoThinking s ∧ NoAssistant fingerprint s) :
    Synced fingerprint s := by
  obtain ⟨hnew, htool, hthinking, hassistant⟩ := hcaught
  refine ⟨hnew, fun row hrow => ?_⟩
  obtain ⟨event, hevent, hsame, hshows⟩ := h.held row hrow (hnew row hrow)
  refine ⟨event, hevent, hsame, ?_⟩
  rcases hshows with hfresh | ⟨hpending, hended⟩ | ⟨hpending, hsettled⟩ | ⟨previous, hpending⟩
  · exact hfresh
  · rw [htool row hrow hpending] at hended
    cases hended
  · rw [hthinking row hrow hpending] at hsettled
    cases hsettled
  · rw [← hassistant row hrow previous hpending]
    exact ((h.assistant _ _ hpending).2 event hevent).symm

theorem inv_queryStatus (h : Inv fingerprint s) (hphase : s.phase = .status) :
    Inv fingerprint s.queryStatus := by
  exact
    { h with
      cleared := fun hlogs => nomatch hlogs
      loaded := fun hquerying => nomatch hquerying
      ended := fun fastForward heq => by
        have hended : Phase.send false s.taskStatus.terminal = .send fastForward true := heq
        exact (Phase.send.inj hended).2
      finished := fun heq => nomatch heq
      ready := fun hterminal => by
        have hready := h.ready hterminal
        unfold Ready at hready ⊢
        rw [hphase] at hready
        intro _ hnone
        have hcaught := hready hnone
        rw [hphase] at hcaught
        have hsynced := synced_of_caught h hcaught
        exact hsynced }

theorem shown_send (s : State) (fastForward ended : Bool) (id : Nat) :
    (s.send fastForward ended).shown id = s.shown id := by
  unfold State.shown State.send
  rw [append_nil, append_nil]

theorem inv_send {fastForward ended : Bool} (h : Inv fingerprint s)
    (hphase : s.phase = .send fastForward ended) : Inv fingerprint (s.send fastForward ended) := by
  have hphase' : (s.send fastForward ended).phase = .done ∧ ended = true ∧ s.newLogs = [] ∨
      (s.send fastForward ended).phase = .logs := by
    show (if !fastForward ∧ ended ∧ s.newLogs = [] then Phase.done else .logs) = .done ∧ _ ∨
      (if !fastForward ∧ ended ∧ s.newLogs = [] then Phase.done else .logs) = .logs
    by_cases hdone : !fastForward ∧ ended ∧ s.newLogs = []
    · rw [if_pos hdone]
      exact Or.inl ⟨rfl, hdone.2⟩
    · rw [if_neg hdone]
      exact Or.inr rfl
  exact
    { h with
      cleared := fun _ => ⟨rfl, rfl⟩
      held := fun row hrow hle => by
        rw [shown_send]
        exact h.held row hrow hle
      only := fun id event hevent => h.only id event ((shown_send s _ _ id).symm.trans hevent)
      assistant := fun id previous hid => by
        rw [shown_send]
        exact h.assistant id previous hid
      loaded := fun hquerying => by
        rcases hphase' with ⟨hphase', -⟩ | hphase' <;> (rw [hphase'] at hquerying; cases hquerying)
      ended := fun fastForward heq => by
        rcases hphase' with ⟨hphase', -⟩ | hphase' <;> (rw [hphase'] at heq; cases heq)
      finished := fun heq => by
        rcases hphase' with ⟨-, hended, -⟩ | hlogs
        · exact h.ended fastForward (by rw [hphase, hended])
        · rw [hlogs] at heq
          cases heq
      ready := fun hterminal => by
        have hready := h.ready hterminal
        unfold Ready at hready ⊢
        rw [hphase] at hready
        rcases hphase' with ⟨hdone, hended, hnone⟩ | hlogs
        · rw [hdone]
          obtain ⟨hnew, hshown⟩ := hready hended hnone
          refine ⟨hnew, fun row hrow => ?_⟩
          rw [shown_send]
          exact hshown row hrow
        · rw [hlogs]
          unfold Caught
          rw [hlogs]
          exact fun _ => trivial }

/-! ### Runs -/

theorem inv_init
    (hsorted : (rows.map (·.id)).Pairwise (· < ·)) (hpositive : ∀ row ∈ rows, 0 < row.id) :
    Inv fingerprint { rows := rows, taskStatus := status } := by
  exact
    { sorted := hsorted
      positive := hpositive
      cursor := Or.inl rfl
      cleared := fun _ => ⟨rfl, rfl⟩
      held := fun row hrow hle => absurd (hpositive row hrow) (Nat.not_lt.mpr hle)
      only := fun id event hevent => nomatch hevent
      tools := fun id hid => nomatch hid
      thinking := fun id hid => nomatch hid
      opened := fun row hrow hle => absurd (hpositive row hrow) (Nat.not_lt.mpr hle)
      assistant := fun id previous hid => nomatch hid
      live := fun row hrow hle => absurd (hpositive row hrow) (Nat.not_lt.mpr hle)
      loaded := fun hquerying => nomatch hquerying
      ended := fun fastForward heq => nomatch heq
      finished := fun heq => nomatch heq
      ready := fun _ _ => trivial }

/-- **Step**: a step under the guard keeps what holds. -/
theorem inv_next (h : Inv fingerprint s) (hguard : Followed fingerprint s l)
    (hnext : s.next fingerprint l = some s') : Inv fingerprint s' := by
  cases l with
  | insert row =>
    obtain ⟨⟨hactive, hpositive, hlast⟩, heq⟩ := Option.ite_none_right_eq_some.mp hnext
    rw [← Option.some.inj heq]
    exact inv_insert h hpositive hlast hactive
  | rewrite id rewrite =>
    obtain ⟨hactive, hsome⟩ := Option.ite_none_right_eq_some.mp hnext
    obtain ⟨row, hfind, hmap⟩ := Option.bind_eq_some_iff.mp hsome
    obtain ⟨row', happly, rfl⟩ := Option.map_eq_some_iff.mp hmap
    have hid : row.id = id := by simpa using find?_some hfind
    subst hid
    exact inv_rewrite h (mem_of_find?_eq_some hfind) hguard happly hactive
  | setStatus status =>
    obtain ⟨hactive, rfl⟩ := of_guarded hnext
    exact inv_setStatus h hguard hactive
  | stream =>
    unfold State.next at hnext
    dsimp only at hnext
    split at hnext
    · next hphase => exact Option.some.inj hnext ▸ inv_queryLogs h hphase
    · next hphase => exact Option.some.inj hnext ▸ inv_queryTools h hphase
    · next hphase => exact Option.some.inj hnext ▸ inv_queryThinking h hphase
    · next hphase => exact Option.some.inj hnext ▸ inv_queryAssistant h hphase
    · next hphase => exact Option.some.inj hnext ▸ inv_queryStatus h hphase
    · next fastForward ended hphase => exact Option.some.inj hnext ▸ inv_send h hphase
    · cases hnext

end Proofs

/-! ### Results -/

/-- The client holds the rows of the log and nothing else. -/
def HoldsLog (fingerprint : JsonObject → String) (s : State) : Prop :=
  (∀ row ∈ s.rows, ∃ event, s.client row.id = some event ∧ Shows fingerprint event row) ∧
    ∀ id event, s.client id = some event → ∃ row ∈ s.rows, row.id = id

/-- **The final log**: when each rewritten row is one that the stream waits for, and the status
    turns terminal behind no query that has missed something, the client holds the log. -/
theorem done_shows_log (fingerprint : JsonObject → String) {s : State}
    (h : (taskLogStream fingerprint).Reachable (Followed fingerprint) s) (hdone : s.phase = .done) :
    HoldsLog fingerprint s := by
  have hinv : Inv fingerprint s := by
    refine h.invariant ?_ ?_
    · rintro s₀ ⟨rows, status, rfl, hsorted, hpositive⟩
      exact inv_init hsorted hpositive
    · exact fun s l s' hinv hguard hnext => inv_next hinv hguard hnext
  have hready := hinv.ready (hinv.finished hdone)
  unfold Ready at hready
  rw [hdone] at hready
  obtain ⟨hnew, hshown⟩ := hready
  -- all events have been sent
  have hclient : ∀ id, s.client id = s.shown id := by
    intro id
    obtain ⟨hbatch, hupdates⟩ := hinv.cleared (by rw [hdone]; rfl)
    unfold State.client State.shown
    rw [hbatch, hupdates, append_nil, append_nil]
  refine ⟨fun row hrow => ?_, fun id event hevent => ?_⟩
  · rw [hclient]
    exact hshown row hrow
  · rw [hclient] at hevent
    exact hinv.only id event hevent

/-! ### A Run in Step and a Run out of Step -/

/-- `json.dumps(metadata, sort_keys=True, ensure_ascii=False)`, without blanks. -/
def dumpMetadata (metadata : JsonObject) : String :=
  String.ofList (JsonText.dumps JsonText.FloatText.fraction false (JsonText.sortKeys (.obj metadata)))

def call : TaskLog := { id := 1, logType := .toolCall, message := "Read" }

def callEnd : ToolCompletion :=
  { error := false, output := none, subagent := none, endedAt := "2026-01-01T00:00:00+00:00",
    endedAt_ne := by decide, nativeEnd := false, duration := some 12, exitCode := none,
    errorMessage := none }

def callRead : State :=
  { rows := [call], taskStatus := .running, phase := .tools, cursor := 1, pendingToolCalls := [1],
    newLogs := [call], batch := [call] }

def callEnded : State := { callRead with rows := [call.withFields (callEnd.rewrite [])] }

def callSent : State := { callEnded with phase := .logs, batch := [], sent := [call] }

def callShown : State :=
  { callSent with
    taskStatus := .completed
    phase := .done
    newLogs := []
    pendingToolCalls := []
    sent := [call, call.withFields (callEnd.rewrite [])] }

theorem followed_stream (fingerprint : JsonObject → String) {n : Nat} :
    ∀ l ∈ List.replicate n Label.stream, ∀ s, Followed fingerprint s l := by
  intro l hl s
  rw [eq_of_mem_replicate hl]
  trivial

theorem reachable_callSent (fingerprint : JsonObject → String) :
    (taskLogStream fingerprint).Reachable (Followed fingerprint) callSent := by
  have hread : (taskLogStream fingerprint).Run (Followed fingerprint)
      { rows := [], taskStatus := .running } callRead :=
    .step (.step (l := .insert call) (.refl _) trivial rfl) (l := .stream) trivial rfl
  have hended : (taskLogStream fingerprint).Run (Followed fingerprint)
      { rows := [], taskStatus := .running } callEnded :=
    .step hread (l := .rewrite 1 (.completeTool callEnd)) (Or.inr mem_cons_self) rfl
  have hsent : (taskLogStream fingerprint).Run (Followed fingerprint) callEnded callSent :=
    System.guarded_run_of_exec (followed_stream fingerprint (n := 5)) rfl
  exact ⟨_, ⟨[], .running, rfl, .nil, by simp⟩, hended.trans hsent⟩

theorem reachable_callShown (fingerprint : JsonObject → String) :
    (taskLogStream fingerprint).Reachable (Followed fingerprint) callShown := by
  obtain ⟨s₀, hinit, hsent⟩ := reachable_callSent fingerprint
  have hstatus : (taskLogStream fingerprint).Run (Followed fingerprint) callSent
      { callSent with taskStatus := .completed } :=
    .step (.refl _) (l := .setStatus .completed) (fun _ _ => trivial) rfl
  have hshown : (taskLogStream fingerprint).Run (Followed fingerprint)
      { callSent with taskStatus := .completed } callShown :=
    System.guarded_run_of_exec (followed_stream fingerprint (n := 6)) rfl
  exact ⟨s₀, hinit, (hsent.trans hstatus).trans hshown⟩

/-- A call that ends in the cycle that has loaded it. -/
theorem ended_call_shown :
    ∃ s, (taskLogStream dumpMetadata).Reachable (Followed dumpMetadata) s ∧ s.phase = .done ∧
      s.rows = [call.withFields (callEnd.rewrite [])] ∧ HoldsLog dumpMetadata s :=
  ⟨callShown, reachable_callShown _, rfl, rfl, done_shows_log _ (reachable_callShown _) rfl⟩

/-- A row and the terminal status that are committed behind the query for new rows. -/
theorem row_behind_query_lost :
    ∃ s, (taskLogStream dumpMetadata).Reachable System.anyStep s ∧ s.phase = .done ∧
      ¬ HoldsLog dumpMetadata s := by
  have hrun : (taskLogStream dumpMetadata).exec { rows := [], taskStatus := .running }
      [.stream, .stream, .stream, .insert call, .setStatus .completed, .stream, .stream, .stream] =
        some { rows := [call], taskStatus := .completed, phase := .done } := rfl
  refine ⟨_, System.reachable_of_exec ⟨[], .running, rfl, .nil, by simp⟩ hrun, rfl, ?_⟩
  rintro ⟨hshown, -⟩
  obtain ⟨event, hevent, -⟩ := hshown call mem_cons_self
  cases hevent

/-- The stream shows rows only, and each row up to the cursor as it is, or else waits for it. -/
theorem shown_or_due {fingerprint : JsonObject → String} {s : State}
    (h : (taskLogStream fingerprint).Reachable (Followed fingerprint) s) :
    (∀ id event, s.shown id = some event → ∃ row ∈ s.rows, row.id = id) ∧
      ∀ row ∈ s.rows, row.id ≤ s.cursor → ∃ event, s.shown row.id = some event ∧
        SameRow row event ∧
          (rowFingerprint fingerprint event = rowFingerprint fingerprint row ∨ Due s row) := by
  have hinv : Inv fingerprint s := by
    refine h.invariant ?_ fun s l s' hinv hguard hnext => inv_next hinv hguard hnext
    rintro s₀ ⟨rows, status, rfl, hsorted, hpositive⟩
    exact inv_init hsorted hpositive
  exact ⟨hinv.only, hinv.held⟩

/-- The client holds the call as it began; the stream waits for its end. -/
theorem ended_call_due : ∃ row, callSent.rows = [row] ∧ Due callSent row := by
  refine ⟨_, rfl, ?_⟩
  obtain ⟨_, hsent⟩ := shown_or_due (reachable_callSent dumpMetadata)
  obtain ⟨event, hevent, -, hsame | hdue⟩ := hsent _ mem_cons_self le_rfl
  · have hcall : callSent.shown 1 = some call := rfl
    cases hcall.symm.trans hevent
    exact absurd hsame (by decide +kernel)
  · exact hdue

end Codify.Api.TaskLogStream

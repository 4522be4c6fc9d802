import Codify.Api.TaskLogStream

/-! # Reconnecting to the Log Stream

    The client of the log stream (src/features/tasks/useTaskLogStreams.ts): it folds the
    events of the stream into its rows (`mergeTaskLogState`), and when the connection is cut
    it opens a new one behind the last row that it holds as finished
    (`computeStructuredStreamSinceId`). A new stream knows nothing of the one before it.

    * **Client**: an event never has a lower rank than the one it replaces, so the client holds
      the last event of each row.
    * **Invariant**: each event that was received shows its row as it is, or as unfinished
      (`Told`); a stream waits only for rows that are shown as unfinished (`Streaming`).
    * **Result**: `reconnected_client_shows_log`.
-/

namespace Codify.Api.TaskLogReconnect

open Codify Codify.Framework Codify.Worker Codify.Api.TaskLogStream List Option

/-! ### The Client -/

variable (log : TaskLog)

/-- `isAssistantStreaming`. -/
def isAssistantStreaming : Bool := log.logType = .assistantText && log.streaming

/-- `thinkingStatusRank`. -/
def thinkingStatusRank : Int :=
  if log.logType = .thinking then
    if log.hasStatus "completed" then 2
    else if log.hasStatus "interrupted" then 1
    else if log.hasStatus "in_progress" then 0
    else -1
  else -1

/-- `assistantStreamingRank`. -/
def assistantStreamingRank : Int :=
  if log.logType = .assistantText then if isAssistantStreaming log then 0 else 1 else -1

/-- A row that makes the next stream start in front of it. -/
def awaited : Bool :=
  (log.logType = .thinking && log.hasStatus "in_progress") || isAssistantStreaming log

/-- `computeStructuredStreamSinceId`. -/
def computeStructuredStreamSinceId (logs : List TaskLog) : Nat :=
  match ((logs.filter awaited).map (·.id)).min? with
  | none => (logs.map (·.id)).foldl max 0
  | some least => least - 1

/-- A log replaces the one that the client holds. -/
def replaces (current log : TaskLog) : Bool :=
  if 0 ≤ thinkingStatusRank log ∨ 0 ≤ thinkingStatusRank current then
    thinkingStatusRank current ≤ thinkingStatusRank log
  else if 0 ≤ assistantStreamingRank log ∨ 0 ≤ assistantStreamingRank current then
    assistantStreamingRank current ≤ assistantStreamingRank log
  else true

/-- One incoming log; the ids of the rows that a client holds are unique. -/
def mergeLog (merged : List TaskLog) (log : TaskLog) : List TaskLog :=
  match merged.find? (·.id == log.id) with
  | none => merged ++ [log]
  | some current =>
    if replaces current log then merged.map fun other => if other.id = log.id then log else other
    else merged

/-- `mergeTaskLogState`. -/
def mergeTaskLogState (current incoming : List TaskLog) : List TaskLog := incoming.foldl mergeLog current

/-! ### Connections -/

/-- The table with the stream that is open, if one is. The `sent` of the stream goes on from
    connection to connection: it is all that the client has received. -/
structure Connection where
  server : State
  connected : Bool := true

def Connection.clientRows (c : Connection) : List TaskLog := mergeTaskLogState [] c.server.sent

/-- The events of a cycle: one for the new rows, and one for each update. -/
def cycleEvents (s : State) : List (List TaskLog) :=
  (if s.batch = [] then [] else [s.batch]) ++ s.updates.map fun log => [log]

def unstreamed (s : State) (received : List TaskLog) : State :=
  { rows := s.rows, taskStatus := s.taskStatus, sent := s.sent ++ received }

inductive Label where
  /-- A step of a writer, or of the open stream. -/
  | task (l : TaskLogStream.Label)
  /-- The connection is cut behind the first events of the cycle that is being sent. -/
  | cut (received : Nat)
  | reconnect

section Connections

variable (fingerprint : JsonObject → String)

def Connection.next (c : Connection) : Label → Option Connection
  | .task .stream =>
    if c.connected then (c.server.next fingerprint .stream).map fun server => { c with server }
    else none
  | .task l => (c.server.next fingerprint l).map fun server => { c with server }
  | .cut received =>
    if c.connected then
      match c.server.phase with
      | .done => none
      | .send _ _ => some
          { server := unstreamed c.server ((cycleEvents c.server).take received).flatten
            connected := false }
      | _ => some { server := unstreamed c.server [], connected := false }
    else none
  | .reconnect =>
    if c.connected then none
    else some
      { server := { c.server with cursor := computeStructuredStreamSinceId c.clientRows }
        connected := true }

def taskLogClient : System Connection Label where
  init := fun c => ∃ s, c = { server := s } ∧ (taskLogStream fingerprint).init s
  next := Connection.next fingerprint

end Connections

/-- The client does not hold the row as finished. -/
def unfinished : Bool :=
  match log.logType with
  | .toolCall => !log.ended
  | .thinking => log.hasStatus "in_progress"
  | .assistantText => log.streaming
  | .other _ => false

/-- A rewrite that may come for a row that is finished. -/
def repeatable : Rewrite → Bool
  | .completeTool _ | .finalizeThinking .. | .settleDelegation => true
  | _ => false

/-- What the open stream is waiting for is what gets rewritten (`Followed`), no row that the client
    holds as finished is rewritten, and a connection is opened behind no tool call that the client
    holds as running. -/
def Resumed (fingerprint : JsonObject → String) (c : Connection) : Label → Prop
  | .task (.rewrite id rewrite) =>
    (c.connected = true → Followed fingerprint c.server (.rewrite id rewrite)) ∧
      (repeatable rewrite = true → ∀ log ∈ c.clientRows, log.id = id → unfinished log = true)
  | .task l => c.connected = true → Followed fingerprint c.server l
  | .cut _ => True
  | .reconnect => ∀ log ∈ c.clientRows, log.logType = .toolCall →
      log.id ≤ computeStructuredStreamSinceId c.clientRows → log.ended = true

/-- The client holds the rows of the log, once each, and nothing else. -/
structure HoldsRows (fingerprint : JsonObject → String) (c : Connection) : Prop where
  once : (c.clientRows.map (·.id)).Nodup
  shown : ∀ row ∈ c.server.rows, ∃ log ∈ c.clientRows, Shows fingerprint log row
  only : ∀ log ∈ c.clientRows, ∃ row ∈ c.server.rows, row.id = log.id

section Proofs

variable {fingerprint : JsonObject → String} {c c' : Connection} {s t : State}
  {row row' log log' : TaskLog} {events : List TaskLog} {id : Nat}

/-! ### Ranks -/

/-- A later version of a row. -/
structure Advances (log log' : TaskLog) : Prop where
  same : SameRow log log'
  unfinished : unfinished log' = true → unfinished log = true
  thinking : thinkingStatusRank log ≤ thinkingStatusRank log'
  assistant : assistantStreamingRank log ≤ assistantStreamingRank log'

theorem Advances.refl (log : TaskLog) : Advances log log :=
  ⟨SameRow.refl log, fun h => h, le_rfl, le_rfl⟩

theorem Advances.trans {log'' : TaskLog} (h : Advances log log') (h' : Advances log' log'') :
    Advances log log'' :=
  ⟨h.same.trans h'.same, fun hopen => h.unfinished (h'.unfinished hopen), h.thinking.trans h'.thinking,
    h.assistant.trans h'.assistant⟩

theorem Advances.replaces (h : Advances log log') : replaces log log' = true := by
  unfold TaskLogReconnect.replaces
  split
  · exact decide_eq_true h.thinking
  · split
    · exact decide_eq_true h.assistant
    · rfl

theorem rank_of_settled (htype : row.logType = .thinking) (h : row.settled = true) :
    1 ≤ thinkingStatusRank row := by
  unfold thinkingStatusRank
  rw [if_pos htype]
  unfold TaskLog.settled at h
  split
  · decide
  next hcompleted =>
  have hinterrupted : row.hasStatus "interrupted" = true := by simpa [hcompleted] using h
  rw [if_pos hinterrupted]

theorem rank_of_not_completed (h : row.hasStatus "completed" ≠ true) : thinkingStatusRank row ≤ 1 := by
  unfold thinkingStatusRank
  split
  · split
    · exact le_rfl
    · split
      · decide
      · decide
  · decide

theorem thinkingStatusRank_of_other (h : row.logType ≠ .thinking) : thinkingStatusRank row = -1 :=
  if_neg h

theorem assistantStreamingRank_of_other (h : row.logType ≠ .assistantText) :
    assistantStreamingRank row = -1 :=
  if_neg h

variable {rewrite : Rewrite} {new received : List TaskLog}

/-- A rewrite never takes a row back. -/
theorem advances_of_apply (h : rewrite.apply row = some row') : Advances row row' := by
  obtain ⟨hsame, heffect⟩ := Rewrite.apply_spec h
  have hlive : row.logType = .assistantText → row.streaming = true → Advances row row' := by
    intro htype hstreaming
    have htype' : row'.logType = .assistantText := hsame.logType.trans htype
    refine ⟨hsame, fun _ => by simp [unfinished, htype, hstreaming], ?_, ?_⟩
    · rw [thinkingStatusRank_of_other (by simp [htype]), thinkingStatusRank_of_other (by simp [htype'])]
    · simp only [assistantStreamingRank, htype, htype', isAssistantStreaming, hstreaming]
      cases row'.streaming <;> simp
  have hsettles : row.logType = .thinking → row'.settled = true → thinkingStatusRank row ≤ 1 →
      Advances row row' := by
    intro htype hsettled hrank
    have htype' : row'.logType = .thinking := hsame.logType.trans htype
    refine ⟨hsame, fun hopen => ?_, hrank.trans (rank_of_settled htype' hsettled), ?_⟩
    · simp only [unfinished, htype', not_open_of_settled hsettled] at hopen
      cases hopen
    · rw [assistantStreamingRank_of_other (by simp [htype]),
        assistantStreamingRank_of_other (by simp [htype'])]
  have hcall : row.logType = .toolCall → (row.ended = true → row'.ended = true) →
      Advances row row' := by
    intro htype hended
    have htype' : row'.logType = .toolCall := hsame.logType.trans htype
    refine ⟨hsame, fun hopen => ?_, ?_, ?_⟩
    · simp only [unfinished, htype, htype'] at hopen ⊢
      cases hrow : row.ended with
      | false => rfl
      | true => rw [hended hrow] at hopen; cases hopen
    · rw [thinkingStatusRank_of_other (by simp [htype]), thinkingStatusRank_of_other (by simp [htype'])]
    · rw [assistantStreamingRank_of_other (by simp [htype]),
        assistantStreamingRank_of_other (by simp [htype'])]
  cases rewrite with
  | messageDelta preview charCount truncated | finalizeMessage text agent | interruptMessage =>
    exact hlive heffect.1 heffect.2
  | finalizeThinking text endedAt duration =>
    refine hsettles heffect.1 heffect.2 (rank_of_not_completed fun hcompleted => ?_)
    simp [Rewrite.apply, heffect.1, hcompleted] at h
  | interruptThinking observedAt =>
    refine hsettles heffect.1 heffect.2.2 (rank_of_not_completed fun hcompleted => ?_)
    have hopen := heffect.2.1
    rw [not_open_of_settled (by simp [TaskLog.settled, hcompleted])] at hopen
    cases hopen
  | completeTool done => exact hcall heffect.1 fun _ => heffect.2
  | settleDelegation => exact hcall heffect.1 fun hended => heffect.2.trans hended

/-! ### What the Client Holds -/

/-- The events of a row come in the order of its versions. -/
def InOrder (events : List TaskLog) : Prop :=
  events.Pairwise fun log log' => log.id = log'.id → Advances log log'

theorem mergeTaskLogState_append (current events events' : List TaskLog) :
    mergeTaskLogState current (events ++ events') =
      mergeTaskLogState (mergeTaskLogState current events) events' :=
  foldl_append

theorem lastEvent_concat (events : List TaskLog) (log : TaskLog) (id : Nat) :
    lastEvent (events ++ [log]) id = if log.id = id then some log else lastEvent events id := by
  rw [lastEvent_append]
  by_cases hid : log.id = id
  · rw [if_pos hid, lastEvent_eq_some mem_cons_self hid]
    · rfl
    · exact fun other hother _ => mem_singleton.mp hother
  · rw [if_neg hid, lastEvent_eq_none, none_or]
    intro other hother
    rw [mem_singleton.mp hother]
    exact hid

theorem InOrder.left {events' : List TaskLog} (h : InOrder (events ++ events')) : InOrder events :=
  h.sublist (sublist_append_left events events')

/-- Versions in order: the client ends with the last event of each row, once. -/
theorem merged_spec (h : InOrder events) :
    ((mergeTaskLogState [] events).map (·.id)).Nodup ∧
      ∀ log, log ∈ mergeTaskLogState [] events ↔ lastEvent events log.id = some log := by
  induction events using reverseRecOn with
  | nil => exact ⟨nodup_nil, fun log => ⟨nofun, nofun⟩⟩
  | append_singleton events e ih =>
    obtain ⟨hnodup, hmem⟩ := ih h.left
    rw [mergeTaskLogState_append]
    show ((mergeLog (mergeTaskLogState [] events) e).map (·.id)).Nodup ∧
      ∀ log, log ∈ mergeLog (mergeTaskLogState [] events) e ↔
        lastEvent (events ++ [e]) log.id = some log
    generalize mergeTaskLogState [] events = merged at hnodup hmem
    unfold mergeLog
    cases hfind : merged.find? (·.id == e.id) with
    | none =>
      have hnew : ∀ log ∈ merged, log.id ≠ e.id := by simpa using hfind
      refine ⟨?_, fun log => ?_⟩
      · rw [map_append, nodup_append]
        refine ⟨hnodup, by simp, ?_⟩
        intro id hid id' hid'
        obtain ⟨log, hlog, rfl⟩ := List.mem_map.mp hid
        obtain rfl : id' = e.id := by simpa using hid'
        exact hnew log hlog
      · rw [lastEvent_concat, mem_append, mem_singleton]
        by_cases hid : e.id = log.id
        · rw [if_pos hid, Option.some.injEq]
          constructor
          · rintro (hlog | rfl)
            · exact absurd hid.symm (hnew log hlog)
            · rfl
          · rintro rfl
            exact .inr rfl
        · rw [if_neg hid, ← hmem log]
          constructor
          · rintro (hlog | rfl)
            · exact hlog
            · exact absurd rfl hid
          · exact .inl
    | some current =>
      have hcurrent := mem_of_find?_eq_some hfind
      have hid : current.id = e.id := by simpa using find?_some hfind
      obtain ⟨hheld, _⟩ := mem_of_lastEvent ((hmem current).mp hcurrent)
      have hadvances : Advances current e :=
        (pairwise_append.mp h).2.2 current hheld e mem_cons_self hid
      dsimp only
      rw [if_pos hadvances.replaces]
      have hkeeps : (merged.map fun other => if other.id = e.id then e else other).map (·.id) =
          merged.map (·.id) := by
        rw [List.map_map]
        apply map_congr_left
        intro other _
        show (if other.id = e.id then e else other).id = other.id
        split
        · next heq => exact heq.symm
        · rfl
      refine ⟨by rw [hkeeps]; exact hnodup, fun log => ?_⟩
      rw [lastEvent_concat, List.mem_map]
      by_cases hsame : e.id = log.id
      · rw [if_pos hsame, Option.some.injEq]
        constructor
        · rintro ⟨other, _, rfl⟩
          by_cases heq : other.id = e.id
          · rw [if_pos heq]
          · rw [if_neg heq] at hsame
            exact absurd hsame.symm heq
        · rintro rfl
          exact ⟨current, hcurrent, if_pos hid⟩
      · rw [if_neg hsame, ← hmem log]
        constructor
        · rintro ⟨other, hother, rfl⟩
          by_cases heq : other.id = e.id
          · rw [if_pos heq] at hsame
            exact absurd rfl hsame
          · rw [if_neg heq]
            exact hother
        · intro hlog
          exact ⟨log, hlog, if_neg (Ne.symm hsame)⟩

theorem advances_last (h : InOrder events) (hlog : log ∈ events) :
    ∃ last, lastEvent events log.id = some last ∧ Advances log last := by
  induction events using reverseRecOn with
  | nil => cases hlog
  | append_singleton events e ih =>
    rw [lastEvent_concat]
    by_cases hid : e.id = log.id
    · refine ⟨e, if_pos hid, ?_⟩
      rcases mem_append.mp hlog with hlog | hlog
      · exact (pairwise_append.mp h).2.2 log hlog e mem_cons_self hid.symm
      · rw [mem_singleton.mp hlog]
        exact .refl e
    · rw [if_neg hid]
      refine ih h.left ((mem_append.mp hlog).resolve_right fun hlog => hid ?_)
      rw [mem_singleton.mp hlog]

/-- A row that the client holds as unfinished was never received as finished. -/
theorem unfinished_of_held (h : InOrder events)
    (hheld : ∀ held ∈ mergeTaskLogState [] events, held.id = id → unfinished held = true)
    (hlog : log ∈ events) (hid : log.id = id) : unfinished log = true := by
  obtain ⟨last, hlast, hadvances⟩ := advances_last h hlog
  have hlastId := (mem_of_lastEvent hlast).2
  have hmem := ((merged_spec h).2 last).mpr (by rw [hlastId]; exact hlast)
  exact hadvances.unfinished (hheld last hmem (hlastId.trans hid))

/-! ### What Was Received -/

/-- The events that were received, and those of the cycle. -/
def eventsOf (s : State) : List TaskLog := s.sent ++ (s.batch ++ s.updates)

/-- Each event shows its row as it is, or as unfinished. -/
structure Told (s : State) : Prop where
  sorted : (s.rows.map (·.id)).Pairwise (· < ·)
  positive : ∀ row ∈ s.rows, 0 < row.id
  known : ∀ log ∈ eventsOf s, ∃ row ∈ s.rows, row.id = log.id
  behind : ∀ log ∈ eventsOf s, ∀ row ∈ s.rows, row.id = log.id →
    Advances log row ∧ (log = row ∨ unfinished log = true)
  order : InOrder (eventsOf s)
  /-- The received rows have no gap. -/
  gapless : ∀ log ∈ s.sent, ∀ row ∈ s.rows, row.id ≤ log.id → ∃ log' ∈ s.sent, log'.id = row.id

def Pending (s : State) (id : Nat) : Prop :=
  id ∈ s.pendingToolCalls ∨ id ∈ s.pendingThinkingRows ∨
    ∃ previous, (id, previous) ∈ s.pendingAssistantRows

/-- What holds besides of an open stream: it has sent the rows up to its cursor, and none as
    finished that it waits for. -/
structure Streaming (s : State) : Prop where
  recent : ∀ log ∈ s.batch ++ s.updates, log.id ≤ s.cursor
  covered : ∀ row ∈ s.rows, row.id ≤ s.cursor → ∃ log ∈ s.sent ++ s.batch, log.id = row.id
  pending : ∀ id, Pending s id → ∀ log ∈ eventsOf s, log.id = id → unfinished log = true

theorem Told.unique (h : Told s) (hrow : row ∈ s.rows) (hrow' : row' ∈ s.rows)
    (hid : row'.id = row.id) : row' = row := by
  have hnodup : (s.rows.map (·.id)).Nodup := h.sorted.imp fun hlt => Nat.ne_of_lt hlt
  exact inj_on_of_nodup_map hnodup hrow' hrow hid

theorem Told.tells (h : Told s) (t : State) (hrows : t.rows = s.rows)
    (hsent : t.sent = s.sent) (hevents : eventsOf t = eventsOf s ++ new)
    (hnew : ∀ log ∈ new, log ∈ s.rows) : Told t := by
  refine ⟨by rw [hrows]; exact h.sorted, by rw [hrows]; exact h.positive, ?_, ?_, ?_, ?_⟩
  · rw [hevents, hrows]
    intro log hlog
    rcases mem_append.mp hlog with hlog | hlog
    · exact h.known log hlog
    · exact ⟨log, hnew log hlog, rfl⟩
  · rw [hevents, hrows]
    intro log hlog row hrow hid
    rcases mem_append.mp hlog with hlog | hlog
    · exact h.behind log hlog row hrow hid
    · obtain rfl := h.unique (hnew log hlog) hrow hid
      exact ⟨.refl row, .inl rfl⟩
  · rw [hevents]
    refine pairwise_append.mpr ⟨h.order, ?_, ?_⟩
    · refine pairwise_of_forall_mem_list fun log hlog log' hlog' hid => ?_
      obtain rfl := h.unique (hnew log' hlog') (hnew log hlog) hid
      exact .refl log
    · intro log hlog log' hlog' hid
      exact (h.behind log hlog log' (hnew log' hlog') hid.symm).1
  · rw [hsent, hrows]
    exact h.gapless

theorem Told.inserts (h : Told s) (hpositive : 0 < row.id)
    (hlast : ∀ other ∈ s.rows, other.id < row.id) : Told { s with rows := s.rows ++ [row] } := by
  have hfresh : ∀ log ∈ eventsOf s, log.id < row.id := by
    intro log hlog
    obtain ⟨other, hother, hid⟩ := h.known log hlog
    rw [← hid]
    exact hlast other hother
  refine ⟨?_, ?_, ?_, ?_, h.order, ?_⟩
  · rw [map_append, pairwise_append]
    refine ⟨h.sorted, pairwise_singleton _ _, ?_⟩
    intro a ha b hb
    obtain ⟨other, hother, rfl⟩ := List.mem_map.mp ha
    rw [mem_singleton.mp hb]
    exact hlast other hother
  · intro other hother
    rcases mem_append.mp hother with hother | hother
    · exact h.positive other hother
    · rw [mem_singleton.mp hother]
      exact hpositive
  · intro log hlog
    obtain ⟨other, hother, hid⟩ := h.known log hlog
    exact ⟨other, mem_append_left _ hother, hid⟩
  · intro log hlog other hother hid
    rcases mem_append.mp hother with hother | hother
    · exact h.behind log hlog other hother hid
    · have := hfresh log hlog
      rw [mem_singleton.mp hother] at hid
      omega
  · intro log hlog other hother hle
    rcases mem_append.mp hother with hother | hother
    · exact h.gapless log hlog other hother hle
    · have := hfresh log (mem_append_left _ hlog)
      rw [mem_singleton.mp hother] at hle
      omega

theorem Told.rewrites (h : Told s) (hrow : row ∈ s.rows) (hadvances : Advances row row')
    (hopen : ∀ log ∈ eventsOf s, log.id = row.id → unfinished log = true) :
    Told { s with rows := s.rows.map fun other => if other.id = row.id then row' else other } := by
  have hmem : row' ∈ s.rows.map fun other => if other.id = row.id then row' else other :=
    List.mem_map.mpr ⟨row, hrow, if_pos rfl⟩
  have hkept : ∀ other ∈ s.rows, ∃ other' ∈
      s.rows.map fun other => if other.id = row.id then row' else other, other'.id = other.id := by
    intro other hother
    by_cases hne : other.id = row.id
    · exact ⟨row', hmem, hadvances.same.id.trans hne.symm⟩
    · exact ⟨other, List.mem_map.mpr ⟨other, hother, if_neg hne⟩, rfl⟩
  refine ⟨?_, ?_, ?_, ?_, h.order, ?_⟩
  · show ((s.rows.map fun other => if other.id = row.id then row' else other).map (·.id)).Pairwise
      (· < ·)
    rw [map_id_replace hadvances.same.id]
    exact h.sorted
  · intro other hother
    rcases mem_replace hother with rfl | ⟨hother, _⟩
    · rw [hadvances.same.id]
      exact h.positive row hrow
    · exact h.positive other hother
  · intro log hlog
    obtain ⟨other, hother, hid⟩ := h.known log hlog
    obtain ⟨other', hother', hid'⟩ := hkept other hother
    exact ⟨other', hother', hid'.trans hid⟩
  · intro log hlog other hother hid
    rcases mem_replace hother with rfl | ⟨hother, _⟩
    · have hid' : row.id = log.id := hadvances.same.id.symm.trans hid
      exact ⟨(h.behind log hlog row hrow hid').1.trans hadvances, .inr (hopen log hlog hid'.symm)⟩
    · exact h.behind log hlog other hother hid
  · intro log hlog other hother hle
    rcases mem_replace hother with rfl | ⟨hother, _⟩
    · rw [hadvances.same.id] at hle ⊢
      exact h.gapless log hlog row hrow hle
    · exact h.gapless log hlog other hother hle

/-- What the client receives of a cycle: nothing, or the new rows and some updates. -/
theorem flatten_cycleEvents (s : State) (received : Nat) :
    ((cycleEvents s).take received).flatten = [] ∨
      ∃ m, ((cycleEvents s).take received).flatten = s.batch ++ s.updates.take m := by
  have hsingle : ∀ logs : List TaskLog, (logs.map fun log => [log]).flatten = logs := by
    intro logs
    induction logs with
    | nil => rfl
    | cons log logs ih => simp [ih]
  cases received with
  | zero => exact .inl (by rw [take_zero]; rfl)
  | succ n =>
    right
    unfold cycleEvents
    by_cases hbatch : s.batch = []
    · refine ⟨n + 1, ?_⟩
      rw [if_pos hbatch, hbatch, nil_append, nil_append, ← map_take, hsingle]
    · refine ⟨n, ?_⟩
      rw [if_neg hbatch, cons_append, nil_append, take_succ_cons, flatten_cons, ← map_take, hsingle]

theorem gapless_received (h : Told s) (hstream : Streaming s) (m : Nat) :
    ∀ log ∈ s.sent ++ (s.batch ++ s.updates.take m), ∀ row ∈ s.rows, row.id ≤ log.id →
      ∃ log' ∈ s.sent ++ (s.batch ++ s.updates.take m), log'.id = row.id := by
  intro log hlog row hrow hle
  rcases mem_append.mp hlog with hlog | hlog
  · obtain ⟨log', hlog', hid⟩ := h.gapless log hlog row hrow hle
    exact ⟨log', mem_append_left _ hlog', hid⟩
  · have hlog' : log ∈ s.batch ++ s.updates :=
      (List.Sublist.append_left (take_sublist m s.updates) s.batch).subset hlog
    obtain ⟨log', hlog', hid⟩ :=
      hstream.covered row hrow (hle.trans (hstream.recent log hlog'))
    refine ⟨log', ?_, hid⟩
    rw [← append_assoc]
    exact mem_append_left _ hlog'

theorem Told.cuts (h : Told s) (hstream : Streaming s)
    (hreceived : received = [] ∨ ∃ m, received = s.batch ++ s.updates.take m) :
    Told (unstreamed s received) := by
  have hevents : eventsOf (unstreamed s received) = s.sent ++ received := append_nil _
  have hsub : (s.sent ++ received).Sublist (eventsOf s) := by
    refine List.Sublist.append_left ?_ s.sent
    rcases hreceived with rfl | ⟨m, rfl⟩
    · exact nil_sublist _
    · exact List.Sublist.append_left (take_sublist m s.updates) s.batch
  refine ⟨h.sorted, h.positive, ?_, ?_, ?_, ?_⟩
  · rw [hevents]
    exact fun log hlog => h.known log (hsub.subset hlog)
  · rw [hevents]
    exact fun log hlog => h.behind log (hsub.subset hlog)
  · rw [hevents]
    exact h.order.sublist hsub
  · show ∀ log ∈ s.sent ++ received, ∀ row ∈ s.rows, row.id ≤ log.id →
      ∃ log' ∈ s.sent ++ received, log'.id = row.id
    rcases hreceived with rfl | ⟨m, rfl⟩
    · rw [append_nil]
      exact h.gapless
    · exact gapless_received h hstream m

/-! ### The Open Stream -/

/-- What holds of the table and an open stream. -/
structure Opened (fingerprint : JsonObject → String) (s : State) : Prop where
  inv : Inv fingerprint s
  told : Told s
  streaming : Streaming s

theorem logType_unique {logType logType' : LogType} (h : Told s) (hid : Waits s logType id)
    (hid' : Waits s logType' id) : logType = logType' := by
  obtain ⟨row, hrow, rfl, rfl, _⟩ := hid
  obtain ⟨row', hrow', hsame, rfl, _⟩ := hid'
  rw [h.unique hrow hrow' hsame]

theorem Opened.pending_le (h : Opened fingerprint s) (hid : Pending s id) : id ≤ s.cursor := by
  rcases hid with hid | hid | ⟨previous, hid⟩
  · exact (h.inv.tools id hid).le
  · exact (h.inv.thinking id hid).le
  · exact (h.inv.assistant id previous hid).1.le

theorem pending_queryLogs (hid : Pending (s.queryLogs fingerprint) id) :
    Pending s id ∨ ∃ row ∈ s.fresh, row.id = id ∧ unfinished row = true := by
  rcases hid with hid | hid | ⟨previous, hid⟩
  · rcases mem_pending hid with hid | ⟨row, hrow, hrowId, hp⟩
    · exact .inl (.inl hid)
    · simp only [decide_eq_true_eq] at hp
      exact .inr ⟨row, hrow, hrowId, by simp [unfinished, hp.1, hp.2]⟩
  · rcases mem_pending hid with hid | ⟨row, hrow, hrowId, hp⟩
    · exact .inl (.inr (.inl hid))
    · simp only [decide_eq_true_eq] at hp
      exact .inr ⟨row, hrow, hrowId, by simp [unfinished, hp.1, hp.2]⟩
  · rcases mem_pendingAssistant hid with hid | ⟨row, hrow, hrowId, htype, hstreaming, _⟩
    · exact .inl (.inr (.inr ⟨previous, hid⟩))
    · exact .inr ⟨row, hrow, hrowId, by simp [unfinished, htype, hstreaming]⟩

theorem opened_queryLogs (h : Opened fingerprint s) (hphase : s.phase = .logs) :
    Opened fingerprint (s.queryLogs fingerprint) := by
  obtain ⟨hcursor, hfresh, hsplit⟩ := cursor_queryLogs h.inv
  obtain ⟨hbatch, hupdates⟩ := h.inv.cleared (by rw [hphase]; rfl)
  have hevents : eventsOf (s.queryLogs fingerprint) = eventsOf s ++ s.fresh := by
    show s.sent ++ (s.fresh ++ s.updates) = s.sent ++ (s.batch ++ s.updates) ++ s.fresh
    rw [hbatch, hupdates, append_nil, append_nil, append_nil]
  refine ⟨inv_queryLogs h.inv hphase,
    h.told.tells _ rfl rfl hevents fun log hlog => (hfresh log hlog).1, ?_, ?_, ?_⟩
  · intro log hlog
    have hlog : log ∈ s.fresh ++ s.updates := hlog
    rw [hupdates, append_nil] at hlog
    exact (hfresh log hlog).2.2
  · intro row hrow hle
    show ∃ log ∈ s.sent ++ s.fresh, log.id = row.id
    rcases hsplit row hrow hle with hold | hnew
    · obtain ⟨log, hlog, hid⟩ := h.streaming.covered row hrow hold
      rw [hbatch, append_nil] at hlog
      exact ⟨log, mem_append_left _ hlog, hid⟩
    · exact ⟨row, mem_append_right _ hnew, rfl⟩
  · intro id hid log hlog hlogId
    rw [hevents] at hlog
    rcases pending_queryLogs hid with hid | ⟨row, hrow, hrowId, hopen⟩
    · rcases mem_append.mp hlog with hlog | hlog
      · exact h.streaming.pending id hid log hlog hlogId
      · have hlt := (hfresh log hlog).2.1
        have hle := h.pending_le hid
        omega
    · have hsame : row.id = log.id := hrowId.trans hlogId.symm
      rcases mem_append.mp hlog with hlog | hlog
      · rcases (h.told.behind log hlog row (hfresh row hrow).1 hsame).2 with rfl | hopen'
        · exact hopen
        · exact hopen'
      · rw [← h.told.unique (hfresh log hlog).1 (hfresh row hrow).1 hsame]
        exact hopen

/-- A query adds updates that show rows as they are, and keeps waiting for those that run. -/
theorem Opened.queried (h : Opened fingerprint s) {t : State} (hinv : Inv fingerprint t)
    (hrows : t.rows = s.rows) (hcursor : t.cursor = s.cursor)
    (hsent : t.sent = s.sent) (hbatch : t.batch = s.batch) (hupdates : t.updates = s.updates ++ new)
    (hnew : ∀ log ∈ new, log ∈ s.rows ∧ log.id ≤ s.cursor)
    (hpending : ∀ id, Pending t id → Pending s id ∧
      ∀ log ∈ new, log.id = id → unfinished log = true) : Opened fingerprint t := by
  have hevents : eventsOf t = eventsOf s ++ new := by
    unfold eventsOf
    rw [hsent, hbatch, hupdates, append_assoc, append_assoc]
  refine ⟨hinv, h.told.tells t hrows hsent hevents fun log hlog => (hnew log hlog).1, ?_, ?_, ?_⟩
  · rw [hbatch, hupdates, hcursor, ← append_assoc]
    intro log hlog
    rcases mem_append.mp hlog with hlog | hlog
    · exact h.streaming.recent log hlog
    · exact (hnew log hlog).2
  · rw [hrows, hcursor, hsent, hbatch]
    exact h.streaming.covered
  · intro id hid log hlog hlogId
    obtain ⟨hold, hrest⟩ := hpending id hid
    rw [hevents] at hlog
    rcases mem_append.mp hlog with hlog | hlog
    · exact h.streaming.pending id hold log hlog hlogId
    · exact hrest log hlog hlogId

theorem hits_rows {ids : List Nat} {p : TaskLog → Bool} {logType : LogType} (h : Opened fingerprint s)
    (hids : ∀ id ∈ ids, Waits s logType id)
    (hloaded : ∀ row ∈ s.newLogs, row.id ∈ ids → p row = false) :
    ∀ log ∈ s.hits ids p, log ∈ s.rows ∧ log.id ≤ s.cursor ∧ Waits s logType log.id := by
  intro log hlog
  obtain ⟨row, hrow, hid, hread, _⟩ := mem_hits.mp hlog
  have hlogId : log.id = row.id := by rw [← hread, read_id]
  obtain rfl := hit_row h.inv hloaded hrow hlog hlogId
  exact ⟨hrow, (hids _ hid).le, hids _ hid⟩

theorem opened_queryTools (h : Opened fingerprint s) (hphase : s.phase = .tools) :
    Opened fingerprint s.queryTools := by
  have hhits := hits_rows (p := TaskLog.ended) h h.inv.tools fun row hrow =>
    (h.inv.loaded (by rw [hphase]; rfl) row hrow).1
  have hupdates : s.queryTools.updates = s.updates ++ s.hits s.pendingToolCalls TaskLog.ended := rfl
  refine h.queried (inv_queryTools h.inv hphase) rfl rfl rfl rfl hupdates
    (fun log hlog => ⟨(hhits log hlog).1, (hhits log hlog).2.1⟩) ?_
  rintro id (hid | hid | ⟨previous, hid⟩)
  · obtain ⟨hid, hmiss⟩ := mem_filter.mp hid
    refine ⟨.inl hid, fun log hlog hlogId => ?_⟩
    simp only [decide_eq_true_eq] at hmiss
    exact absurd (List.mem_map.mpr ⟨log, hlog, hlogId⟩) hmiss
  · refine ⟨.inr (.inl hid), fun log hlog hlogId => ?_⟩
    have hkind := logType_unique h.told (hlogId ▸ (hhits log hlog).2.2) (h.inv.thinking id hid)
    cases hkind
  · refine ⟨.inr (.inr ⟨previous, hid⟩), fun log hlog hlogId => ?_⟩
    have hkind := logType_unique h.told (hlogId ▸ (hhits log hlog).2.2)
      (h.inv.assistant id previous hid).1
    cases hkind

theorem opened_queryThinking (h : Opened fingerprint s) (hphase : s.phase = .thinking) :
    Opened fingerprint s.queryThinking := by
  have hhits := hits_rows (p := TaskLog.settled) h h.inv.thinking fun row hrow =>
    (h.inv.loaded (by rw [hphase]; rfl) row hrow).2.1
  have hupdates : s.queryThinking.updates =
      s.updates ++ s.hits s.pendingThinkingRows TaskLog.settled := rfl
  refine h.queried (inv_queryThinking h.inv hphase) rfl rfl rfl rfl hupdates
    (fun log hlog => ⟨(hhits log hlog).1, (hhits log hlog).2.1⟩) ?_
  rintro id (hid | hid | ⟨previous, hid⟩)
  · refine ⟨.inl hid, fun log hlog hlogId => ?_⟩
    have hkind := logType_unique h.told (hlogId ▸ (hhits log hlog).2.2) (h.inv.tools id hid)
    cases hkind
  · obtain ⟨hid, hmiss⟩ := mem_filter.mp hid
    refine ⟨.inr (.inl hid), fun log hlog hlogId => ?_⟩
    simp only [decide_eq_true_eq] at hmiss
    exact absurd (List.mem_map.mpr ⟨log, hlog, hlogId⟩) hmiss
  · refine ⟨.inr (.inr ⟨previous, hid⟩), fun log hlog hlogId => ?_⟩
    have hkind := logType_unique h.told (hlogId ▸ (hhits log hlog).2.2)
      (h.inv.assistant id previous hid).1
    cases hkind

theorem read_of_pending {previous : String} (h : Inv fingerprint s)
    (hpending : (id, previous) ∈ (s.queryAssistant fingerprint).pendingAssistantRows) :
    (∃ old, (id, old) ∈ s.pendingAssistantRows) ∧
      ∀ row ∈ s.rows, row.id = id → (s.read row).streaming = true := by
  obtain ⟨⟨id', old⟩, hold, hsome⟩ := mem_filterMap.mp hpending
  obtain ⟨row, hrow, rfl, -⟩ := (h.assistant id' old hold).1
  have hfind := find_seen h hrow hold
  unfold State.seen at hfind
  dsimp only at hsome
  rw [hfind] at hsome
  obtain ⟨hstreaming, heq⟩ := of_guarded hsome
  cases heq
  refine ⟨⟨old, hold⟩, fun other hother hid => ?_⟩
  rw [h.unique hrow hother hid]
  exact hstreaming

theorem changed_rows (h : Opened fingerprint s) (hphase : s.phase = .assistant) :
    ∀ log ∈ s.seen.filter (fun row =>
        (row.id, rowFingerprint fingerprint row) ∉ s.pendingAssistantRows),
      log ∈ s.rows ∧ s.read log = log ∧ Waits s .assistantText log.id := by
  intro log hlog
  obtain ⟨hseen, hchanged⟩ := mem_changed.mp hlog
  obtain ⟨row, hrow, ⟨previous, hpending⟩, rfl⟩ := mem_seen.mp hseen
  have hwaits := (h.inv.assistant _ _ hpending).1
  rcases read_cases s row with hread | ⟨hload, hid⟩
  · rw [hread]
    exact ⟨hrow, hread, hwaits⟩
  · -- a row that was loaded is waited for with its own fingerprint
    have hsame := ((h.inv.loaded (by rw [hphase]; rfl) _ hload).2.2 previous (by rwa [hid])).2
    rw [hsame, ← hid] at hpending
    exact absurd hpending hchanged

theorem opened_queryAssistant (h : Opened fingerprint s) (hphase : s.phase = .assistant) :
    Opened fingerprint (s.queryAssistant fingerprint) := by
  have hchanged := changed_rows h hphase
  have hupdates : (s.queryAssistant fingerprint).updates = s.updates ++ s.seen.filter (fun row =>
      (row.id, rowFingerprint fingerprint row) ∉ s.pendingAssistantRows) := rfl
  refine h.queried (inv_queryAssistant h.inv hphase) rfl rfl rfl rfl hupdates
    (fun log hlog => ⟨(hchanged log hlog).1, (hchanged log hlog).2.2.le⟩) ?_
  rintro id (hid | hid | ⟨previous, hid⟩)
  · refine ⟨.inl hid, fun log hlog hlogId => ?_⟩
    have hkind := logType_unique h.told (hlogId ▸ (hchanged log hlog).2.2) (h.inv.tools id hid)
    cases hkind
  · refine ⟨.inr (.inl hid), fun log hlog hlogId => ?_⟩
    have hkind := logType_unique h.told (hlogId ▸ (hchanged log hlog).2.2) (h.inv.thinking id hid)
    cases hkind
  · obtain ⟨⟨old, hold⟩, hstreaming⟩ := read_of_pending h.inv hid
    refine ⟨.inr (.inr ⟨old, hold⟩), fun log hlog hlogId => ?_⟩
    obtain ⟨hrow, hread, row, hwaiting, hrowId, htype, _⟩ := hchanged log hlog
    have hlive := hstreaming log hrow hlogId
    rw [hread] at hlive
    rw [h.told.unique hrow hwaiting hrowId] at htype
    simp [unfinished, htype, hlive]

theorem opened_queryStatus (h : Opened fingerprint s) (hphase : s.phase = .status) :
    Opened fingerprint s.queryStatus := by
  have hupdates : s.queryStatus.updates = s.updates ++ [] := (append_nil _).symm
  exact h.queried (inv_queryStatus h.inv hphase) rfl rfl rfl rfl hupdates nofun
    fun id hid => ⟨hid, nofun⟩

theorem opened_send {fastForward ended : Bool} (h : Opened fingerprint s)
    (hphase : s.phase = .send fastForward ended) : Opened fingerprint (s.send fastForward ended) := by
  have hsent : (s.send fastForward ended).sent = s.sent ++ (s.batch ++ s.updates) :=
    append_assoc _ _ _
  have hevents : eventsOf (s.send fastForward ended) = eventsOf s := by
    unfold eventsOf
    rw [hsent]
    exact append_nil _
  have hgapless := gapless_received h.told h.streaming s.updates.length
  rw [take_length] at hgapless
  refine ⟨inv_send h.inv hphase, ⟨h.told.sorted, h.told.positive, ?_, ?_, ?_, ?_⟩, ?_, ?_, ?_⟩
  · rw [hevents]
    exact h.told.known
  · rw [hevents]
    exact h.told.behind
  · rw [hevents]
    exact h.told.order
  · rw [hsent]
    exact hgapless
  · exact nofun
  · intro row hrow hle
    obtain ⟨log, hlog, hid⟩ := h.streaming.covered row hrow hle
    refine ⟨log, ?_, hid⟩
    show log ∈ (s.send fastForward ended).sent ++ []
    rw [append_nil, hsent, ← append_assoc]
    exact mem_append_left _ hlog
  · rw [hevents]
    exact h.streaming.pending

/-- **Step**: a step of the open stream. -/
theorem opened_stream (h : Opened fingerprint s) (hnext : s.next fingerprint .stream = some t) :
    Opened fingerprint t := by
  unfold State.next at hnext
  dsimp only at hnext
  split at hnext
  · next hphase => exact some.inj hnext ▸ opened_queryLogs h hphase
  · next hphase => exact some.inj hnext ▸ opened_queryTools h hphase
  · next hphase => exact some.inj hnext ▸ opened_queryThinking h hphase
  · next hphase => exact some.inj hnext ▸ opened_queryAssistant h hphase
  · next hphase => exact some.inj hnext ▸ opened_queryStatus h hphase
  · next fastForward ended hphase => exact some.inj hnext ▸ opened_send h hphase
  · cases hnext

/-! ### Writers -/

theorem unfinished_of_apply (h : Told s) (hrow : row ∈ s.rows)
    (happly : rewrite.apply row = some row') (honce : repeatable rewrite = false) :
    ∀ log ∈ eventsOf s, log.id = row.id → unfinished log = true := by
  intro log hlog hid
  obtain ⟨_, heffect⟩ := Rewrite.apply_spec happly
  have hopen : unfinished row = true := by
    unfold unfinished
    cases rewrite with
    | messageDelta preview charCount truncated | finalizeMessage text agent | interruptMessage =>
      rw [heffect.1]; exact heffect.2
    | interruptThinking observedAt => rw [heffect.1]; exact heffect.2.1
    | finalizeThinking text endedAt duration => cases honce
    | completeTool done => cases honce
    | settleDelegation => cases honce
  exact (h.behind log hlog row hrow hid.symm).1.unfinished hopen

/-- The open stream waits for a row that gets a rewrite that may come again, or has not sent it. -/
theorem pending_of_followed (hrepeat : repeatable rewrite = true)
    (h : Followed fingerprint s (.rewrite id rewrite)) : s.cursor < id ∨ Pending s id := by
  cases rewrite with
  | completeTool done => exact h.imp_right .inl
  | finalizeThinking text endedAt duration => exact h.imp_right fun hid => .inr (.inl hid)
  | settleDelegation => exact h.imp_right fun hid => .inl hid.1
  | messageDelta preview charCount truncated | finalizeMessage text agent | interruptMessage
  | interruptThinking observedAt =>
    cases hrepeat

/-- The table and an open stream, or the table alone. -/
structure Connected (fingerprint : JsonObject → String) (c : Connection) : Prop where
  told : Told c.server
  opened : c.connected = true → Opened fingerprint c.server
  closed : c.connected = false → c.server = unstreamed c.server []

theorem eventsOf_unstreamed (s : State) (received : List TaskLog) :
    eventsOf (unstreamed s received) = s.sent ++ received :=
  append_nil _

theorem unfinished_of_guard (h : Connected fingerprint c)
    (hguard : Resumed fingerprint c (.task (.rewrite row.id rewrite))) (hrow : row ∈ c.server.rows)
    (happly : rewrite.apply row = some row') :
    ∀ log ∈ eventsOf c.server, log.id = row.id → unfinished log = true := by
  obtain ⟨hfollowed, hheld⟩ := hguard
  cases hrepeat : repeatable rewrite with
  | false => exact unfinished_of_apply h.told hrow happly hrepeat
  | true =>
    intro log hlog hid
    have hsent : log ∈ c.server.sent → unfinished log = true := fun hlog =>
      unfinished_of_held h.told.order.left (hheld hrepeat) hlog hid
    cases hconnected : c.connected with
    | false =>
      rw [h.closed hconnected, eventsOf_unstreamed, append_nil] at hlog
      exact hsent hlog
    | true =>
      have hopened := h.opened hconnected
      rcases pending_of_followed hrepeat (hfollowed hconnected) with hlt | hpending
      · rcases mem_append.mp hlog with hlog | hlog
        · exact hsent hlog
        · have := hopened.streaming.recent log hlog
          omega
      · exact hopened.streaming.pending row.id hpending log hlog hid

theorem streaming_insert (h : Opened fingerprint s) (hpositive : 0 < row.id)
    (hlast : ∀ other ∈ s.rows, other.id < row.id) :
    Streaming { s with rows := s.rows ++ [row] } := by
  refine ⟨h.streaming.recent, fun other hother hle => ?_, h.streaming.pending⟩
  rcases mem_append.mp hother with hother | hother
  · exact h.streaming.covered other hother hle
  · have := h.inv.cursor_lt hpositive hlast
    rw [mem_singleton.mp hother] at hle
    exact absurd hle (Nat.not_le.mpr this)

theorem streaming_rewrite (h : Streaming s) (hrow : row ∈ s.rows) (hid : row'.id = row.id) :
    Streaming
      { s with rows := s.rows.map fun other => if other.id = row.id then row' else other } := by
  refine ⟨h.recent, fun other hother hle => ?_, h.pending⟩
  rcases mem_replace hother with rfl | ⟨hother, _⟩
  · rw [hid] at hle ⊢
    exact h.covered row hrow hle
  · exact h.covered other hother hle

/-- **Step**: a step of a writer. -/
theorem connected_writer {l : TaskLogStream.Label} (h : Connected fingerprint c)
    (hguard : Resumed fingerprint c (.task l)) (hl : l ≠ .stream)
    (hnext : c.server.next fingerprint l = some t) : Connected fingerprint { c with server := t } := by
  have hinv : c.connected = true → Followed fingerprint c.server l → Inv fingerprint t :=
    fun hconnected hfollowed => inv_next (h.opened hconnected).inv hfollowed hnext
  cases l with
  | stream => exact absurd rfl hl
  | insert row =>
    obtain ⟨⟨_, hpositive, hlast⟩, heq⟩ := ite_none_right_eq_some.mp hnext
    cases heq
    refine ⟨h.told.inserts hpositive hlast, fun hconnected => ?_, fun hclosed => ?_⟩
    · exact ⟨hinv hconnected (hguard hconnected), h.told.inserts hpositive hlast,
        streaming_insert (h.opened hconnected) hpositive hlast⟩
    · show { c.server with rows := c.server.rows ++ [row] } = _
      rw [h.closed hclosed]
      simp [unstreamed]
  | rewrite id rewrite =>
    obtain ⟨_, hsome⟩ := ite_none_right_eq_some.mp hnext
    obtain ⟨row, hfind, hmap⟩ := bind_eq_some_iff.mp hsome
    obtain ⟨row', happly, rfl⟩ := map_eq_some_iff.mp hmap
    have hid : row.id = id := by simpa using find?_some hfind
    subst hid
    have hrow := mem_of_find?_eq_some hfind
    have hadvances := advances_of_apply happly
    have htold := h.told.rewrites hrow hadvances (unfinished_of_guard h hguard hrow happly)
    refine ⟨htold, fun hconnected => ?_, fun hclosed => ?_⟩
    · exact ⟨hinv hconnected (hguard.1 hconnected), htold,
        streaming_rewrite (h.opened hconnected).streaming hrow hadvances.same.id⟩
    · dsimp only
      rw [h.closed hclosed]
      simp [unstreamed]
  | setStatus status =>
    obtain ⟨_, rfl⟩ := of_guarded hnext
    have htold : Told { c.server with taskStatus := status } :=
      ⟨h.told.sorted, h.told.positive, h.told.known, h.told.behind, h.told.order, h.told.gapless⟩
    refine ⟨htold, fun hconnected => ?_, fun hclosed => ?_⟩
    · have hopened := (h.opened hconnected).streaming
      exact ⟨hinv hconnected (hguard hconnected), htold, ⟨hopened.recent, hopened.covered,
        hopened.pending⟩⟩
    · dsimp only
      rw [h.closed hclosed]
      simp [unstreamed]

/-! ### The Resume Point -/

theorem foldl_max_mem (ids : List Nat) (n : Nat) : ids.foldl max n = n ∨ ids.foldl max n ∈ ids := by
  induction ids generalizing n with
  | nil => exact .inl rfl
  | cons id ids ih =>
    rw [foldl_cons]
    rcases ih (max n id) with heq | hmem
    · rcases Nat.le_total id n with hle | hle
      · exact .inl (heq.trans (max_eq_left hle))
      · right
        rw [heq, max_eq_right hle]
        exact mem_cons_self
    · exact .inr (mem_cons_of_mem _ hmem)

theorem sinceId_held (logs : List TaskLog) : computeStructuredStreamSinceId logs = 0 ∨
    ∃ log ∈ logs, computeStructuredStreamSinceId logs ≤ log.id := by
  unfold computeStructuredStreamSinceId
  split
  · rcases foldl_max_mem (logs.map (·.id)) 0 with hzero | hmem
    · exact .inl hzero
    · obtain ⟨log, hlog, hid⟩ := List.mem_map.mp hmem
      exact .inr ⟨log, hlog, hid.ge⟩
  · next least hleast =>
    obtain ⟨log, hlog, rfl⟩ := List.mem_map.mp (min?_mem hleast)
    exact .inr ⟨log, (mem_filter.mp hlog).1, Nat.sub_le _ _⟩

theorem sinceId_lt {logs : List TaskLog} (hlog : log ∈ logs) (hawaited : awaited log = true)
    (hpositive : 0 < log.id) : computeStructuredStreamSinceId logs < log.id := by
  have hmem : log.id ∈ (logs.filter awaited).map (·.id) :=
    List.mem_map_of_mem (mem_filter.mpr ⟨hlog, hawaited⟩)
  unfold computeStructuredStreamSinceId
  split
  · next hnone =>
    rw [min?_eq_none_iff.mp hnone] at hmem
    cases hmem
  · next least hleast =>
    have hle := (min?_eq_some_iff.mp hleast).2 log.id hmem
    omega

theorem held_of_le (h : Told s) (hcalls : ∀ log ∈ mergeTaskLogState [] s.sent,
      log.logType = .toolCall →
        log.id ≤ computeStructuredStreamSinceId (mergeTaskLogState [] s.sent) → log.ended = true)
    (hrow : row ∈ s.rows)
    (hle : row.id ≤ computeStructuredStreamSinceId (mergeTaskLogState [] s.sent)) :
    row ∈ mergeTaskLogState [] s.sent := by
  have hpositive := h.positive row hrow
  have horder : InOrder s.sent := h.order.left
  obtain ⟨log, hlog, hlogId⟩ : ∃ log ∈ s.sent, log.id = row.id := by
    rcases sinceId_held (mergeTaskLogState [] s.sent) with hzero | ⟨log, hlog, hsince⟩
    · omega
    · have hsent := (mem_of_lastEvent (((merged_spec horder).2 log).mp hlog)).1
      exact h.gapless log hsent row hrow (hle.trans hsince)
  obtain ⟨last, hlast, _⟩ := advances_last horder hlog
  obtain ⟨hsent, hlastId⟩ := mem_of_lastEvent hlast
  have hheld : last ∈ mergeTaskLogState [] s.sent := by
    refine ((merged_spec horder).2 last).mpr ?_
    rw [hlastId]
    exact hlast
  have hid : last.id = row.id := hlastId.trans hlogId
  rcases (h.behind last (mem_append_left _ hsent) row hrow hid.symm).2 with rfl | hopen
  · exact hheld
  · -- an unfinished row is a tool call, or it is behind the resume point
    exfalso
    have hawaited : awaited last = true → False := fun hawaited => by
      have := sinceId_lt hheld hawaited (by omega)
      omega
    unfold unfinished at hopen
    split at hopen
    · next htype =>
      rw [hcalls last hheld htype (by omega)] at hopen
      cases hopen
    · next htype => exact hawaited (by simp [awaited, htype, hopen])
    · next htype => exact hawaited (by simp [awaited, isAssistantStreaming, htype, hopen])
    · cases hopen

theorem not_awaited_of_le (h : Told s) (hrow : row ∈ s.rows)
    (hheld : row ∈ mergeTaskLogState [] s.sent)
    (hle : row.id ≤ computeStructuredStreamSinceId (mergeTaskLogState [] s.sent)) :
    awaited row = false := by
  cases hawaited : awaited row with
  | false => rfl
  | true => exact absurd hle (Nat.not_le.mpr (sinceId_lt hheld hawaited (h.positive row hrow)))

/-- The table with a stream that starts at the resume point. -/
def resumed (s : State) : State :=
  { s with cursor := computeStructuredStreamSinceId (mergeTaskLogState [] s.sent) }

/-- A resumed stream starts behind the rows that the client holds. -/
theorem opened_resumed (h : Told s) (hclosed : s = unstreamed s [])
    (hcalls : ∀ log ∈ mergeTaskLogState [] s.sent, log.logType = .toolCall →
      log.id ≤ computeStructuredStreamSinceId (mergeTaskLogState [] s.sent) → log.ended = true) :
    Opened fingerprint (resumed s) := by
  have hheld : ∀ row ∈ s.rows, row.id ≤ (resumed s).cursor → row ∈ mergeTaskLogState [] s.sent :=
    fun row hrow hle => held_of_le h hcalls hrow hle
  -- nothing below the new cursor is awaited
  have hnot : ∀ row ∈ s.rows, row.id ≤ (resumed s).cursor → awaited row = false :=
    fun row hrow hle => not_awaited_of_le h hrow (hheld row hrow hle) hle
  have hspec : ∀ log, log ∈ mergeTaskLogState [] s.sent ↔ lastEvent s.sent log.id = some log :=
    (merged_spec h.order.left).2
  have htold : Told (resumed s) :=
    ⟨h.sorted, h.positive, h.known, h.behind, h.order, h.gapless⟩
  obtain ⟨rows, taskStatus, phase, cursor, calls, thinking, live, newLogs, batch, updates, sent⟩ := s
  simp only [unstreamed, State.mk.injEq] at hclosed
  obtain ⟨_, _, rfl, rfl, rfl, rfl, rfl, rfl, rfl, rfl, _⟩ := hclosed
  have hshown : ∀ id, (resumed { rows, taskStatus, sent }).shown id = lastEvent sent id := by
    intro id
    show lastEvent (sent ++ [] ++ []) id = lastEvent sent id
    rw [append_nil, append_nil]
  refine ⟨?_, htold, nofun, ?_, ?_⟩
  · exact
      { sorted := h.sorted
        positive := h.positive
        cursor := by
          rcases sinceId_held (mergeTaskLogState [] sent) with hzero | ⟨log, hlog, hle⟩
          · exact .inl hzero
          · right
            have hsent := (mem_of_lastEvent ((hspec log).mp hlog)).1
            obtain ⟨row, hrow, hid⟩ := h.known log (mem_append_left _ hsent)
            exact ⟨row, hrow, hle.trans hid.ge⟩
        cleared := fun _ => ⟨rfl, rfl⟩
        held := fun row hrow hle => by
          refine ⟨row, ?_, SameRow.refl row, .inl rfl⟩
          rw [hshown]
          exact (hspec row).mp (hheld row hrow hle)
        only := fun id event hevent => by
          rw [hshown] at hevent
          obtain ⟨hsent, rfl⟩ := mem_of_lastEvent hevent
          exact h.known event (mem_append_left _ hsent)
        tools := nofun
        thinking := nofun
        opened := fun row hrow hle htype hopen => by
          have hrest := hnot row hrow hle
          simp [awaited, htype, hopen] at hrest
        assistant := nofun
        live := fun row hrow hle htype hstreaming => by
          have hrest := hnot row hrow hle
          simp [awaited, isAssistantStreaming, htype, hstreaming] at hrest
        loaded := nofun
        ended := nofun
        finished := nofun
        ready := fun _ _ => True.intro }
  · intro row hrow hle
    obtain ⟨hsent, _⟩ := mem_of_lastEvent ((hspec row).mp (hheld row hrow hle))
    exact ⟨row, mem_append_left _ hsent, rfl⟩
  · rintro id (hid | hid | ⟨previous, hid⟩)
    · cases hid
    · cases hid
    · cases hid

/-! ### Runs -/

theorem connected_init (hinit : (taskLogClient fingerprint).init c) : Connected fingerprint c := by
  obtain ⟨_, rfl, rows, status, rfl, hsorted, hpositive⟩ := hinit
  have htold : Told { rows := rows, taskStatus := status } :=
    ⟨hsorted, hpositive, nofun, nofun, .nil, nofun⟩
  refine ⟨htold, fun _ => ⟨inv_init hsorted hpositive, htold, nofun, fun row hrow hle => ?_, ?_⟩, nofun⟩
  · exact absurd (hpositive row hrow) (Nat.not_lt.mpr hle)
  · rintro id (hid | hid | ⟨previous, hid⟩)
    · cases hid
    · cases hid
    · cases hid

theorem connected_cut (h : Connected fingerprint c) (hconnected : c.connected = true)
    (hreceived : received = [] ∨ ∃ m, received = c.server.batch ++ c.server.updates.take m) :
    Connected fingerprint { server := unstreamed c.server received, connected := false } :=
  ⟨h.told.cuts (h.opened hconnected).streaming hreceived, nofun, fun _ => by simp [unstreamed]⟩

/-- **Step**: a step under the guard keeps what holds. -/
theorem connected_next {l : Label} (h : Connected fingerprint c) (hguard : Resumed fingerprint c l)
    (hnext : c.next fingerprint l = some c') : Connected fingerprint c' := by
  cases l with
  | task l =>
    by_cases hl : l = .stream
    · subst hl
      obtain ⟨hconnected, hmap⟩ := ite_none_right_eq_some.mp hnext
      obtain ⟨t, ht, rfl⟩ := map_eq_some_iff.mp hmap
      have hopened := opened_stream (h.opened hconnected) ht
      refine ⟨hopened.told, fun _ => hopened, fun hclosed => ?_⟩
      rw [hconnected] at hclosed
      cases hclosed
    · have hmap : (c.server.next fingerprint l).map (fun server => { c with server }) = some c' := by
        cases l with
        | stream => exact absurd rfl hl
        | insert row => exact hnext
        | rewrite id rewrite => exact hnext
        | setStatus status => exact hnext
      obtain ⟨t, ht, rfl⟩ := map_eq_some_iff.mp hmap
      exact connected_writer h hguard hl ht
  | cut received =>
    obtain ⟨hconnected, hcut⟩ := ite_none_right_eq_some.mp hnext
    split at hcut
    · cases hcut
    · rw [← some.inj hcut]
      exact connected_cut h hconnected (flatten_cycleEvents c.server received)
    · rw [← some.inj hcut]
      exact connected_cut h hconnected (.inl rfl)
  | reconnect =>
    obtain ⟨hclosed, heq⟩ := ite_none_left_eq_some.mp hnext
    have hclosed : c.connected = false := by simpa using hclosed
    have hopened : Opened fingerprint (resumed c.server) :=
      opened_resumed h.told (h.closed hclosed) hguard
    rw [← some.inj heq]
    exact ⟨hopened.told, fun _ => hopened, nofun⟩

end Proofs

/-! ### Results -/

/-- **Reconnecting**: after any number of cuts, the client of a stream that has ended holds the
    rows of the log, provided that each step meets `Resumed`. -/
theorem reconnected_client_shows_log (fingerprint : JsonObject → String) {c : Connection}
    (h : (taskLogClient fingerprint).Reachable (Resumed fingerprint) c) (hconnected : c.connected = true)
    (hdone : c.server.phase = .done) : HoldsRows fingerprint c := by
  have hinv : Connected fingerprint c :=
    h.invariant (fun _ => connected_init) fun _ _ _ hinv hguard hnext => connected_next hinv hguard hnext
  have hopened := (hinv.opened hconnected).inv
  have hready := hopened.ready (hopened.finished hdone)
  unfold Ready at hready
  rw [hdone] at hready
  obtain ⟨_, hshown⟩ := hready
  obtain ⟨hnodup, hmem⟩ := merged_spec hinv.told.order.left
  obtain ⟨hbatch, hupdates⟩ := hopened.cleared (by rw [hdone]; rfl)
  refine ⟨hnodup, fun row hrow => ?_, fun log hlog => ?_⟩
  · obtain ⟨event, hevent, hshows⟩ := hshown row hrow
    unfold State.shown at hevent
    rw [hbatch, hupdates, append_nil, append_nil] at hevent
    refine ⟨event, (hmem event).mpr ?_, hshows⟩
    rw [(mem_of_lastEvent hevent).2]
    exact hevent
  · have hsent := (mem_of_lastEvent ((hmem log).mp hlog)).1
    exact hinv.told.known log (mem_append_left _ hsent)

/-! ### A Cut that Is Made Good and a Cut that Is Not -/

def placeholder : TaskLog :=
  { id := 1, logType := .thinking, message := "", metadata := some [("status", .str "in_progress")] }

def thought : Rewrite :=
  .finalizeThinking { payloadId := none, preview := "Plan", charCount := 4, truncated := false }
    "2026-01-01T00:00:00+00:00" none

/-- The placeholder was received, then the connection was cut. -/
def placeholderCut : Connection :=
  { server := { rows := [placeholder], taskStatus := .running, sent := [placeholder] }
    connected := false }

def thoughtRow : TaskLog :=
  placeholder.withFields
    [("status", .str "completed"), ("payload_id", .null), ("char_count", .int 4),
      ("preview", .str "Plan"), ("truncated", .bool false),
      ("ended_at", .str "2026-01-01T00:00:00+00:00"), ("duration_ms", .null)]

def answer : TaskLog := { id := 2, logType := .other "harness_result", message := "Done" }

/-- The text and the answer came while the connection was cut, and the Task ended. -/
def thoughtCut : Connection :=
  { server := { rows := [thoughtRow, answer], taskStatus := .completed, sent := [placeholder] }
    connected := false }

def thoughtShown : Connection :=
  { server :=
      { rows := [thoughtRow, answer], taskStatus := .completed, phase := .done, cursor := 2,
        sent := [placeholder, thoughtRow, answer] } }

theorem stream_resumed (fingerprint : JsonObject → String) {n : Nat} :
    ∀ l ∈ List.replicate n (Label.task .stream), ∀ c, Resumed fingerprint c l := by
  intro l hl c
  rw [eq_of_mem_replicate hl]
  exact fun _ => True.intro

theorem reachable_thoughtShown (fingerprint : JsonObject → String) :
    (taskLogClient fingerprint).Reachable (Resumed fingerprint) thoughtShown := by
  have hread : (taskLogClient fingerprint).Run (Resumed fingerprint)
      { server := { rows := [], taskStatus := .running } }
      { server := { rows := [placeholder], taskStatus := .running } } :=
    .step (.refl _) (l := .task (.insert placeholder)) (fun _ => True.intro) rfl
  have hqueried : (taskLogClient fingerprint).Run (Resumed fingerprint)
      { server := { rows := [placeholder], taskStatus := .running } }
      { server :=
          { rows := [placeholder], taskStatus := .running, phase := .send false false, cursor := 1,
            pendingThinkingRows := [1], newLogs := [placeholder], batch := [placeholder] } } :=
    System.guarded_run_of_exec (stream_resumed fingerprint (n := 5)) rfl
  have hcut : (taskLogClient fingerprint).Run (Resumed fingerprint) _ placeholderCut :=
    .step (hread.trans hqueried) (l := .cut 1) True.intro rfl
  -- the client holds the placeholder as unfinished, so its text may come
  have hthought : (taskLogClient fingerprint).Run (Resumed fingerprint) placeholderCut thoughtCut := by
    refine .step (.step (.step (.refl _) (l := .task (.rewrite 1 thought)) ⟨nofun, fun _ => ?_⟩ rfl)
      (l := .task (.insert answer)) nofun rfl) (l := .task (.setStatus .completed)) nofun rfl
    intro log hlog _
    rw [mem_singleton.mp hlog]
    rfl
  have hresumed : Resumed fingerprint thoughtCut .reconnect := by
    intro log hlog htype
    rw [mem_singleton.mp hlog] at htype
    cases htype
  -- the first new connection is cut before it has read anything
  have hreconnect : (taskLogClient fingerprint).Run (Resumed fingerprint) thoughtCut
      { server := thoughtCut.server } :=
    .step (.step (.step (.refl _) (l := .reconnect) hresumed rfl) (l := .cut 0) True.intro rfl)
      (l := .reconnect) hresumed rfl
  have hshown : (taskLogClient fingerprint).Run (Resumed fingerprint)
      { server := thoughtCut.server } thoughtShown :=
    System.guarded_run_of_exec (stream_resumed fingerprint (n := 12)) rfl
  exact ⟨_, ⟨_, rfl, [], .running, rfl, .nil, by simp⟩,
    ((hcut.trans hthought).trans hreconnect).trans hshown⟩

/-- A placeholder whose text comes while the client is not connected, and two cuts. -/
theorem placeholder_shown_after_cut :
    thoughtShown.server.rows = [thoughtRow, answer] ∧ HoldsRows dumpMetadata thoughtShown :=
  have hreach := reachable_thoughtShown dumpMetadata
  ⟨rfl, reconnected_client_shows_log dumpMetadata hreach rfl rfl⟩

/-- A tool call that ends while the client is not connected: the next stream starts behind it, and
    does not wait for its end. -/
theorem call_end_lost :
    ∃ c, (taskLogClient dumpMetadata).Reachable System.anyStep c ∧ c.connected = true ∧
      c.server.phase = .done ∧ ¬ HoldsRows dumpMetadata c := by
  have hrun : (taskLogClient dumpMetadata).exec { server := { rows := [], taskStatus := .running } }
      [.task (.insert call), .task .stream, .task .stream, .task .stream, .task .stream,
        .task .stream, .cut 1, .reconnect, .task (.rewrite 1 (.completeTool callEnd)),
        .task (.setStatus .completed), .task .stream, .task .stream, .task .stream, .task .stream,
        .task .stream, .task .stream] =
      some { server :=
        { rows := [call.withFields (callEnd.rewrite [])], taskStatus := .completed, phase := .done,
          cursor := 1, sent := [call] } } := rfl
  refine ⟨_, System.reachable_of_exec ⟨_, rfl, [], .running, rfl, .nil, by simp⟩ hrun, rfl, rfl, ?_⟩
  rintro ⟨_, hshown, _⟩
  obtain ⟨log, hlog, _, hsame⟩ := hshown _ mem_cons_self
  rw [mem_singleton.mp hlog] at hsame
  exact absurd hsame (by decide +kernel)

end Codify.Api.TaskLogReconnect

import Codify.Api.Containers
import Codify.Framework.System
import Codify.Models

/-! # Raw Log Window

    The client of the raw log (src/features/tasks/useTaskLogStreams.ts) with the task poll of
    views/TaskView.vue. A text is its list of UTF-16 code units. The server appends chunks;
    it answers a snapshot with the text of all of them, and a stream delivers those behind its
    cursor in order.

    * **Window**: one chunk more, or a snapshot, gives the end of a longer text (`Window`).
    * **Invariant**: an open stream has delivered no more than what the window ends with.
    * **Result**: `raw_log_window`, and `snapshot_behind_stream` for a snapshot that was answered
      before the last batch.

    The loading flags, the structured log and failing requests are left out.
-/

namespace Codify.Api.RawLogWindow

open Codify Codify.Framework Codify.Api.Containers List Option

/-! ### The Window -/

/-- `RAW_LOG_WINDOW_MAX_CHARS`. -/
@[irreducible] def rawLogWindowMaxChars : Nat := 500000

structure LogWindow where
  text : List UInt16 := []
  truncated : Bool := false
  deriving DecidableEq

def boundRawLogWindow (text : List UInt16) : LogWindow :=
  if text.length ≤ rawLogWindowMaxChars then { text }
  else { text := text.rtake rawLogWindowMaxChars, truncated := true }

def appendRawLogWindow (current incoming : List UInt16) : LogWindow :=
  if incoming = [] then { text := current }
  else if rawLogWindowMaxChars ≤ incoming.length then
    { text := incoming.rtake rawLogWindowMaxChars
      truncated := 0 < current.length ∨ rawLogWindowMaxChars < incoming.length }
  else
    let boundedCurrent :=
      if rawLogWindowMaxChars < current.length then current.rtake rawLogWindowMaxChars else current
    let overflow := boundedCurrent.length + incoming.length - rawLogWindowMaxChars
    if 0 < overflow then { text := boundedCurrent.drop overflow ++ incoming, truncated := true }
    else
      { text := boundedCurrent ++ incoming, truncated := rawLogWindowMaxChars < current.length }

/-- The last characters of a text, marked unless they are all of it. -/
structure Window (text : List UInt16) (window : LogWindow) : Prop where
  last : window.text = text.rtake rawLogWindowMaxChars
  whole : window.truncated = false → window.text = text

theorem window_bound (text : List UInt16) : Window text (boundRawLogWindow text) := by
  unfold boundRawLogWindow
  split
  · next h => exact ⟨(rtake_of_length_le h).symm, fun _ => rfl⟩
  · exact ⟨rfl, nofun⟩

/-- A chunk is appended; what was cut once stays marked. -/
theorem Window.append {text : List UInt16} {window : LogWindow} (h : Window text window)
    (incoming : List UInt16) :
    Window (text ++ incoming)
      { appendRawLogWindow window.text incoming with
        truncated := window.truncated || (appendRawLogWindow window.text incoming).truncated } := by
  have hlen : window.text.length = min text.length rawLogWindowMaxChars := by
    rw [h.last, List.rtake, length_drop]
    omega
  unfold appendRawLogWindow
  by_cases hnil : incoming = []
  · simpa [hnil] using ⟨h.last, h.whole⟩
  rw [if_neg hnil]
  by_cases hlong : rawLogWindowMaxChars ≤ incoming.length
  · rw [if_pos hlong]
    refine ⟨(rtake_append_of_le hlong).symm, fun hwhole => ?_⟩
    simp only [Bool.or_eq_false_iff, decide_eq_false_iff_not, not_or, Nat.not_lt] at hwhole
    obtain ⟨hcut, hempty, hfit⟩ := hwhole
    rw [← h.whole hcut, length_eq_zero_iff.mp (Nat.le_zero.mp hempty)]
    exact rtake_of_length_le hfit
  have hfit : ¬ rawLogWindowMaxChars < window.text.length := by omega
  simp only [if_neg hlong, if_neg hfit]
  split
  · refine ⟨?_, by simp⟩
    show window.text.drop _ ++ incoming = _
    rw [rtake_append_of_length_le (Nat.le_of_not_le hlong), hlen, h.last, List.rtake, List.rtake,
      drop_drop]
    congr 2
    omega
  · next hroom =>
    have hpos := length_pos_of_ne_nil hnil
    have hall : window.text = text := by
      rw [h.last]
      exact rtake_of_length_le (by omega)
    refine ⟨?_, fun _ => by simp only [hall]⟩
    rw [hall] at hroom ⊢
    exact (rtake_of_length_le (by rw [length_append]; omega)).symm

/-! ### The Client -/

/-- Where a snapshot is awaited. -/
inductive Origin where
  | plain
  | reconnect
  | openTab

structure Request where
  id : Nat
  origin : Origin
  /-- The number of chunks in the answer, and `raw_logs_finalized`. -/
  answer : Option (Nat × Bool) := none

structure State where
  /-- The chunks of the server. -/
  chunks : List (List UInt16) := []
  /-- The status and the container of the Task, as last polled. -/
  status : Option TaskStatus := none
  hasContainer : Bool := false
  /-- `containerLogs` and `containerLogsTruncated`. -/
  containerLogs : LogWindow := {}
  rawLogSequenceNo : Nat := 0
  rawLogStreamFinished : Bool := false
  rawLogsFinalized : Bool := false
  rawTabOpen : Bool := false
  rawLogSnapshotRequest : Nat := 0
  rawLogReconnectInFlight : Bool := false
  /-- `rawLogSource`: the number of the last chunk that it has delivered. -/
  rawLogSource : Option Nat := none
  requests : List Request := []
  /-- Polls that saw the Task leave the active states, and wait in `fetchLogs`. -/
  leaving : Nat := 0
  /-- Polls that saw it become active, and wait for the catalog. -/
  restarting : Nat := 0

namespace State

variable (s : State)

def isActive : Bool := s.status.any TaskStatus.active

def shouldStreamRawLogs : Bool :=
  s.status.any fun status => status.active || status.terminal && !s.rawLogsFinalized

def closeRawLogStream : State := { s with rawLogSource := none }

def connectRawLogStream : State :=
  if !s.hasContainer || !s.shouldStreamRawLogs then s.closeRawLogStream
  else if s.rawLogSource.isSome || s.rawLogStreamFinished then s
  else { s with rawLogSource := some s.rawLogSequenceNo }

/-- The next chunk of the stream, in the loop over its batch. -/
def receive : State :=
  match s.rawLogSource with
  | none => s
  | some sent =>
    match s.chunks[sent]? with
    | none => s
    | some content =>
      if sent + 1 ≤ s.rawLogSequenceNo then { s with rawLogSource := some (sent + 1) }
      else
        let nextWindow := appendRawLogWindow s.containerLogs.text content
        { s with
          rawLogSource := some (sent + 1)
          rawLogSequenceNo := sent + 1
          containerLogs := { nextWindow with
            truncated := s.containerLogs.truncated || nextWindow.truncated } }

/-- The request of `fetchRawLogSnapshot`. -/
def fetchRawLogSnapshot (origin : Origin) : State :=
  { s with
    rawLogSnapshotRequest := s.rawLogSnapshotRequest + 1
    requests := s.requests ++ [{ id := s.rawLogSnapshotRequest + 1, origin }] }

/-- What `fetchRawLogSnapshot` does with its result. -/
def takeSnapshot (sequenceNo : Nat) (finalized : Bool) : State :=
  { s with
    containerLogs := boundRawLogWindow (s.chunks.take sequenceNo).flatten
    rawLogSequenceNo := sequenceNo
    rawLogsFinalized := finalized }

def reconnectRawLogStream : State :=
  if s.rawLogReconnectInFlight || s.rawLogStreamFinished then s
  else if !s.rawTabOpen || !s.shouldStreamRawLogs then s
  else
    { s with rawLogReconnectInFlight := true }.closeRawLogStream.fetchRawLogSnapshot .reconnect

def openRawLogTab : State :=
  if s.isActive then { s with rawTabOpen := true }.reconnectRawLogStream
  else { s with rawTabOpen := true }.fetchRawLogSnapshot .openTab

/-- What follows an awaited snapshot. -/
def resume (loaded : Bool) : Origin → State
  | .plain => s
  | .reconnect =>
    let s := { s with rawLogReconnectInFlight := false }
    if loaded && s.rawTabOpen && s.shouldStreamRawLogs then s.connectRawLogStream else s
  | .openTab => if loaded && s.shouldStreamRawLogs then s.connectRawLogStream else s

/-- The reply to a request. -/
def reply (request : Request) (answer : Nat × Bool) : State :=
  if request.id = s.rawLogSnapshotRequest then
    (s.takeSnapshot answer.1 answer.2).resume true request.origin
  else s.resume false request.origin

/-- `resetLogsState`, with `resetLogStreams`. -/
def resetLogsState : State :=
  { s with
    containerLogs := {}
    rawLogSequenceNo := 0
    rawLogStreamFinished := false
    rawLogsFinalized := false
    rawLogSnapshotRequest := s.rawLogSnapshotRequest + 1
    rawLogSource := none }

/-- The timer of TaskView. -/
def pollTimer : State :=
  if s.isActive || s.rawTabOpen && s.shouldStreamRawLogs then
    if s.rawTabOpen && s.rawLogSource.isNone then s.reconnectRawLogStream else s
  else s.closeRawLogStream

end State

inductive Label where
  /-- The server stores a chunk. -/
  | append (content : List UInt16)
  /-- The Task is polled. -/
  | poll (status : TaskStatus) (hasContainer : Bool)
  | logsFetched
  | restart
  | timer
  | openTab
  | closeTab
  /-- A batch of so many chunks. -/
  | batch (size : Nat)
  | error
  | done
  /-- The server answers a request. -/
  | answer (i : Nat) (finalized : Bool)
  | reply (i : Nat)

def next (s : State) : Label → Option State
  | .append content => some { s with chunks := s.chunks ++ [content] }
  | .poll status hasContainer =>
    some
      { s with
        status := some status
        hasContainer
        leaving := if s.isActive && !status.active then s.leaving + 1 else s.leaving
        restarting := if !s.isActive && status.active then s.restarting + 1 else s.restarting }
  | .logsFetched =>
    if 0 < s.leaving then
      some (if s.rawTabOpen then { s with leaving := s.leaving - 1 }.fetchRawLogSnapshot .plain
        else { s with leaving := s.leaving - 1 })
    else none
  | .restart =>
    if 0 < s.restarting then some { s with restarting := s.restarting - 1 }.resetLogsState else none
  | .timer => some s.pollTimer
  | .openTab => some s.openRawLogTab
  | .closeTab => some { s with rawTabOpen := false }.closeRawLogStream
  | .batch size => if s.rawLogSource.isSome then some (State.receive^[size] s) else none
  | .error => if s.rawLogSource.isSome then some s.closeRawLogStream else none
  | .done =>
    if s.rawLogSource.isSome then
      some ({ s with rawLogStreamFinished := true, rawLogsFinalized := true
        }.closeRawLogStream.fetchRawLogSnapshot .plain)
    else none
  | .answer i finalized =>
    s.requests[i]?.map fun request =>
      let answer := request.answer.getD (s.chunks.length, finalized)
      { s with requests := s.requests.set i { request with answer := some answer } }
  | .reply i =>
    s.requests[i]?.bind fun request =>
      request.answer.map ({ s with requests := s.requests.eraseIdx i }.reply request)

def rawLog : System State Label where
  init s := ∃ chunks, s = { chunks }
  next := next

/-- A snapshot that is taken while a stream is open holds what the stream has delivered. -/
def current (s : State) : Label → Bool
  | .reply i =>
    s.requests[i]?.all fun request =>
      request.id ≠ s.rawLogSnapshotRequest ||
        request.answer.all fun answer => s.rawLogSource.all (· ≤ answer.1)
  | _ => true

/-! ### No Gaps -/

def NoGaps (s : State) : Prop :=
  Window (s.chunks.take s.rawLogSequenceNo).flatten s.containerLogs

structure Inv (s : State) : Prop where
  noGaps : NoGaps s
  stored : s.rawLogSequenceNo ≤ s.chunks.length
  source : ∀ sent ∈ s.rawLogSource, sent ≤ s.rawLogSequenceNo
  answers : ∀ request ∈ s.requests, ∀ answer ∈ request.answer, answer.1 ≤ s.chunks.length

namespace Inv

variable {s : State}

theorem closed (h : Inv s) : Inv s.closeRawLogStream :=
  { h with source := fun _ hnone => nomatch hnone }

theorem connected (h : Inv s) : Inv s.connectRawLogStream := by
  unfold State.connectRawLogStream
  split
  · exact h.closed
  split
  · exact h
  · exact { h with source := fun sent hsent => (some.inj hsent).ge }

theorem requested {origin : Origin} (h : Inv s) : Inv (s.fetchRawLogSnapshot origin) :=
  { h with
    answers := fun request hmem => by
      rcases mem_append.mp hmem with hmem | hmem
      · exact h.answers request hmem
      · rw [mem_singleton.mp hmem]
        nofun }

theorem reconnected (h : Inv s) : Inv s.reconnectRawLogStream := by
  unfold State.reconnectRawLogStream
  split
  · exact h
  split
  · exact h
  · exact requested (closed ⟨h.1, h.2, h.3, h.4⟩)

theorem received (h : Inv s) : Inv s.receive := by
  unfold State.receive
  split
  · exact h
  next sent hsource =>
  have hsent := h.source sent hsource
  split
  · exact h
  next content hcontent =>
  split
  · next hle => exact { h with source := fun _ heq => some.inj heq ▸ hle }
  next hgt =>
  -- the chunk is the one behind the window
  obtain rfl : sent = s.rawLogSequenceNo := by omega
  obtain ⟨hlt, rfl⟩ := List.getElem?_eq_some_iff.mp hcontent
  refine ⟨?_, hlt, fun _ heq => (some.inj heq).ge, h.answers⟩
  have hwindow := h.noGaps.append s.chunks[s.rawLogSequenceNo]
  rwa [← flatten_concat, take_concat_get' _ _ hlt] at hwindow

theorem snapshot (h : Inv s) {sequenceNo : Nat} (hle : sequenceNo ≤ s.chunks.length)
    (hsource : ∀ sent ∈ s.rawLogSource, sent ≤ sequenceNo) (finalized : Bool) :
    Inv (s.takeSnapshot sequenceNo finalized) :=
  ⟨window_bound _, hle, hsource, h.answers⟩

theorem resumed {loaded : Bool} {origin : Origin} (h : Inv s) : Inv (s.resume loaded origin) := by
  cases origin with
  | plain => exact h
  | reconnect =>
    dsimp only [State.resume]
    split
    · exact connected ⟨h.1, h.2, h.3, h.4⟩
    · exact ⟨h.1, h.2, h.3, h.4⟩
  | openTab =>
    dsimp only [State.resume]
    split
    · exact h.connected
    · exact h

/-- Each step of the server or the client keeps the invariant. -/
theorem step {l : Label} {t : State} (h : Inv s) (hcurrent : current s l)
    (hnext : next s l = some t) : Inv t := by
  cases l with
  | append content =>
    cases hnext
    have hmore : s.chunks.length ≤ (s.chunks ++ [content]).length := by simp
    refine ⟨?_, h.stored.trans hmore, h.source, fun request hmem answer hanswer =>
      (h.answers request hmem answer hanswer).trans hmore⟩
    rw [NoGaps, take_append_of_le_length h.stored]
    exact h.noGaps
  | poll => cases hnext; exact ⟨h.1, h.2, h.3, h.4⟩
  | logsFetched =>
    obtain ⟨-, rfl⟩ := of_guarded hnext
    split
    · exact requested ⟨h.1, h.2, h.3, h.4⟩
    · exact ⟨h.1, h.2, h.3, h.4⟩
  | restart =>
    obtain ⟨-, rfl⟩ := of_guarded hnext
    exact ⟨window_bound [], Nat.zero_le _, nofun, h.answers⟩
  | timer =>
    cases hnext
    unfold State.pollTimer
    split
    · split
      · exact h.reconnected
      · exact h
    · exact h.closed
  | openTab =>
    cases hnext
    unfold State.openRawLogTab
    split
    · exact reconnected ⟨h.1, h.2, h.3, h.4⟩
    · exact requested ⟨h.1, h.2, h.3, h.4⟩
  | closeTab => cases hnext; exact closed ⟨h.1, h.2, h.3, h.4⟩
  | batch size =>
    obtain ⟨-, rfl⟩ := of_guarded hnext
    exact Function.Iterate.rec Inv h (fun _ => received) size
  | error =>
    obtain ⟨-, rfl⟩ := of_guarded hnext
    exact h.closed
  | done =>
    obtain ⟨-, rfl⟩ := of_guarded hnext
    exact requested (closed ⟨h.1, h.2, h.3, h.4⟩)
  | answer i finalized =>
    obtain ⟨request, hrequest, rfl⟩ := map_eq_some_iff.mp hnext
    refine { h with answers := fun other hmem answer hanswer => ?_ }
    rcases mem_or_eq_of_mem_set hmem with hmem | rfl
    · exact h.answers other hmem answer hanswer
    · obtain rfl := some.inj hanswer
      cases hold : request.answer with
      | none => exact le_rfl
      | some old => exact h.answers request (mem_of_getElem? hrequest) old hold
  | reply i =>
    obtain ⟨request, hrequest, hnext⟩ := bind_eq_some_iff.mp hnext
    obtain ⟨answer, hanswer, rfl⟩ := map_eq_some_iff.mp hnext
    have hrest : Inv { s with requests := s.requests.eraseIdx i } :=
      { h with answers := fun other hmem => h.answers other (mem_of_mem_eraseIdx hmem) }
    unfold State.reply
    split
    · next hlatest =>
      have hsource : s.rawLogSource.all (· ≤ answer.1) := by
        simpa [current, hrequest, hanswer, show request.id = s.rawLogSnapshotRequest from hlatest]
          using hcurrent
      refine (hrest.snapshot (h.answers request (mem_of_getElem? hrequest) answer hanswer)
        (fun sent hsent => ?_) answer.2).resumed
      rw [show s.rawLogSource = some sent from hsent] at hsource
      exact of_decide_eq_true hsource
    · exact hrest.resumed

end Inv

/-- As long as no snapshot is taken that is behind the open stream, the view shows the end of the
    chunks up to its sequence number. -/
theorem raw_log_window (s : State) (h : rawLog.Reachable (fun s l => current s l) s) : NoGaps s := by
  have hinit : ∀ s, rawLog.init s → Inv s := by
    rintro s ⟨chunks, rfl⟩
    exact ⟨window_bound [], Nat.zero_le _, nofun, nofun⟩
  exact (h.invariant hinit fun _ _ _ hinv hcurrent hnext => hinv.step hcurrent hnext).noGaps

/-- The tab is opened on a running Task; the stream starts behind the first chunk. -/
def opened : List Label :=
  [.poll .running true, .restart, .openTab, .append [65], .answer 0 false, .reply 0]

theorem raw_log_window_opened :
    ∃ s, rawLog.execWhile (fun s l => current s l) {} (opened ++ [.append [66], .batch 1]) = some s ∧
      s.containerLogs.text = [65, 66] ∧ NoGaps s := by
  have hs := show rawLog.execWhile (fun s l => current s l) {}
    (opened ++ [.append [66], .batch 1]) = some _ from rfl
  exact ⟨_, hs, by decide +kernel, raw_log_window _ ⟨{}, ⟨[], rfl⟩, System.run_of_execWhile hs⟩⟩

/-- The poll asks for a snapshot while the stream is open; its answer is older than the next
    batch. -/
theorem snapshot_behind_stream :
    ∃ s, rawLog.Reachable System.anyStep s ∧ s.chunks = [[65], [66], [67]] ∧
      s.rawLogSequenceNo = 3 ∧ s.containerLogs = ⟨[65, 67], false⟩ ∧ ¬ NoGaps s := by
  have hs := System.reachable_of_exec (by exact ⟨[], rfl⟩)
    (show rawLog.exec {} (opened ++ [.poll .completed true, .logsFetched, .answer 0 false,
      .append [66], .batch 1, .reply 0, .append [67], .batch 1]) = some _ from rfl)
  exact ⟨_, hs, by decide +kernel, by decide +kernel, by decide +kernel,
    fun h => absurd h.last (by decide +kernel)⟩

end Codify.Api.RawLogWindow

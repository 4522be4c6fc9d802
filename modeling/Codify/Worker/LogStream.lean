import Codify.Framework.JsonLines
import Codify.Framework.System
import Codify.Framework.Utf8Replace

/-! # The Log Stream of a Container

    `stream_logs_to_db` (app/core/worker_log_stream.py). Two threads schedule
    callbacks on the event loop: one for each chunk of the log and one when the log
    ends, one when the container has exited. The callbacks put their items into a
    bounded queue, from which one coroutine reads.

    * **Loss**: an item that meets a full queue is lost, and so is a marker
      (`Label.callback`).
    * **Guard**: at most one of the two markers is lost, and the deadline does not
      overtake a marker on its way (`KeepsMarker`).
    * **Result**: `finished_container_reported`, and the burst that loses both
      markers.

    Log lines of the logger are left out. Time is counted in microseconds.
-/

namespace Codify.Worker.LogStream

open Codify.Framework Codify.Framework.JsonText List

/-! ### The State -/

/-- An item of `log_queue`. -/
inductive Item where
  | chunk (bytes : List UInt8)
  /-- `_STREAM_END`. -/
  | streamEnd
  /-- `_CONTAINER_EXITED`. -/
  | containerExited
  deriving DecidableEq

def Item.isMarker : Item → Bool
  | .chunk _ => false
  | _ => true

/-- `_stream_thread`. -/
inductive StreamThread where
  | streaming
  /-- `_STREAM_END` is scheduled. -/
  | closed
  deriving DecidableEq

/-- `_wait_thread`. -/
inductive WaitThread where
  | waiting
  /-- `container.wait` has returned or raised. -/
  | answered
  /-- `_wait_done` is set. -/
  | done
  /-- `_CONTAINER_EXITED` is scheduled. -/
  | finished
  deriving DecidableEq

/-- What `stream_logs_to_db` returns. -/
structure Outcome where
  exitCode : Int
  logs : List Char
  chunkIndex : Nat
  timedOut : Bool
  deriving DecidableEq

/-- Where the coroutine stands. -/
inductive Phase where
  /-- The head of the loop. -/
  | top
  /-- In `wait_for(log_queue.get())`. -/
  | receiving
  /-- The deadline has passed, and the threads are joined. -/
  | timedOut
  /-- Out of the loop, and the stream thread is joined. -/
  | ended
  /-- In `_wait_done.wait`, until that time at most. -/
  | awaiting (till : Nat)
  /-- In the second `container.wait`. -/
  | fallback
  | returned (outcome : Outcome)
  deriving DecidableEq

/-- The threads, the event loop and the coroutine. -/
structure State where
  now : Nat := 0
  stream : StreamThread := .streaming
  wait : WaitThread := .waiting
  /-- `_container_exit_code`. -/
  exitCode : Option Int := none
  /-- The callbacks that are scheduled. -/
  ready : List Item := []
  /-- `log_queue`. -/
  queue : List Item := []
  /-- The items that met a full queue. -/
  dropped : List Item := []
  /-- The items that the coroutine has taken. -/
  taken : List Item := []
  phase : Phase := .top
  deadline : Nat
  containerExited : Bool := false
  buffer : List (List Char) := []
  allLines : List (List Char) := []
  lastFlush : Nat := 0
  chunkIndex : Nat := 0
  deriving DecidableEq

open State

/-- `maxsize` of `log_queue`. -/
def capacity : Nat := 5000

def second : Nat := 1000000

/-- `_POST_EXIT_DRAIN_SECONDS`. -/
def postExitDrain : Nat := 30 * second

/-- `flush_interval`. -/
def flushInterval : Nat := 10 * second

/-- `max_buffer_lines`. -/
def maxBufferLines : Nat := 200

/-! ### The Coroutine -/

variable (n : Nat) (s : State)

/-- `"".join(all_lines)`. -/
def State.logs : List Char := s.allLines.flatten

def State.finish (exitCode : Int) (timedOut : Bool) : State :=
  { s with phase := .returned ⟨exitCode, s.logs, s.chunkIndex, timedOut⟩ }

/-- The last flush of the buffer, which is not emptied. -/
def State.flushRest : State :=
  if s.buffer.isEmpty then s else { s with chunkIndex := s.chunkIndex + 1 }

def State.flush : State :=
  { s with
    chunkIndex := s.chunkIndex + 1
    buffer := []
    lastFlush := s.now }

def State.check : State :=
  if s.deadline ≤ s.now then { s.flushRest with phase := .timedOut }
  else { s with phase := .receiving }

def State.giveUp : State :=
  match s.containerExited, s.exitCode with
  | true, some code => s.finish code false
  | _, _ => s.finish (-1) true

/-- `wait_for` times out. -/
def State.idle : State :=
  let s := { s with phase := .top }
  if !s.buffer.isEmpty && s.lastFlush + flushInterval ≤ s.now then s.flush else s

variable (bytes : List UInt8)

def State.append : State :=
  let lines := splitlinesKeepends (decodeReplace bytes)
  let s := { s with
    buffer := s.buffer ++ lines
    allLines := s.allLines ++ lines
    phase := .top }
  if maxBufferLines ≤ s.buffer.length || s.lastFlush + flushInterval ≤ s.now then s.flush else s

/-- An item that was taken from the queue. -/
def State.handle : Item → State
  | .streamEnd => { s.flushRest with phase := .ended }
  | .containerExited =>
    { s with
      containerExited := true
      deadline := min s.deadline (s.now + postExitDrain)
      phase := .top }
  | .chunk bytes => s.append bytes

def State.readExitCode : State :=
  match s.exitCode with
  | some code => s.finish code false
  | none => { s with phase := .awaiting (s.now + max (s.deadline - s.now) (30 * second)) }

/-- Behind `_wait_done.wait`. -/
def State.resume : State :=
  match s.exitCode with
  | some code => s.finish code false
  | none =>
    if s.wait = .done ∨ s.wait = .finished then { s with phase := .fallback }
    else s.finish (-1) false

/-! ### The System -/

/-- A step of a thread, of the loop or of the coroutine. -/
inductive Label where
  | tick (elapsed : Nat)
  /-- The stream thread schedules a chunk. -/
  | streamChunk (bytes : List UInt8)
  /-- The log has ended or failed. -/
  | streamCloses
  /-- `container.wait` returns. -/
  | containerExits (code : Int)
  /-- `container.wait` raises. -/
  | waitFails
  | setDone
  | announceExit
  /-- The loop runs the first callback. -/
  | callback
  | check
  | giveUp
  | receive
  | receiveTimeout
  | readExitCode
  | resume
  /-- The second `container.wait` answers, or raises. -/
  | fallbackAnswer (code : Option Int)
  deriving DecidableEq

/-- `put_nowait`; the item is lost when the queue is full. -/
def State.put (item : Item) : State :=
  if s.queue.length < capacity then { s with queue := s.queue ++ [item] }
  else { s with dropped := s.dropped ++ [item] }

/-- The loop can run callbacks: the coroutine joins no thread. -/
def Phase.yields : Phase → Bool
  | .timedOut | .ended => false
  | _ => true

def State.next : Label → Option State
  | .tick elapsed => some { s with now := s.now + elapsed }
  | .streamChunk bytes =>
    if s.stream = .streaming then some { s with ready := s.ready ++ [.chunk bytes] } else none
  | .streamCloses =>
    if s.stream = .streaming then
      some { s with stream := .closed, ready := s.ready ++ [.streamEnd] }
    else none
  | .containerExits code =>
    if s.wait = .waiting then some { s with wait := .answered, exitCode := some code } else none
  | .waitFails => if s.wait = .waiting then some { s with wait := .answered } else none
  | .setDone => if s.wait = .answered then some { s with wait := .done } else none
  | .announceExit =>
    if s.wait = .done then
      some { s with wait := .finished, ready := s.ready ++ [.containerExited] }
    else none
  | .callback =>
    match s.ready with
    | item :: rest => if s.phase.yields then some ({ s with ready := rest }.put item) else none
    | [] => none
  | .check => if s.phase = .top then some s.check else none
  | .giveUp => if s.phase = .timedOut then some s.giveUp else none
  | .receive =>
    match s.queue with
    | item :: rest =>
      if s.phase = .receiving then
        some ({ s with queue := rest, taken := s.taken ++ [item] }.handle item)
      else none
    | [] => none
  | .receiveTimeout => if s.phase = .receiving then some s.idle else none
  | .readExitCode => if s.phase = .ended then some s.readExitCode else none
  | .resume =>
    match s.phase with
    | .awaiting till =>
      if s.wait = .done ∨ s.wait = .finished ∨ till ≤ s.now then some s.resume else none
    | _ => none
  | .fallbackAnswer code =>
    if s.phase = .fallback then some (s.finish (code.getD (-1)) false) else none

/-- `stream_logs_to_db` with a timeout, in seconds. -/
def logStream (timeout : Nat) : System State Label where
  init := fun s => s = { deadline := timeout * second }
  next := State.next

/-! ### Frames -/

variable {s s' t : State} {l : Label} {timeout : Nat}

/-- A state without the lines that were read and the phase of the coroutine. -/
structure Shared where
  now : Nat
  stream : StreamThread
  wait : WaitThread
  exitCode : Option Int
  ready : List Item
  queue : List Item
  dropped : List Item
  taken : List Item
  deadline : Nat
  containerExited : Bool

/-- What the threads, the loop and the coroutine share. -/
def State.shared (s : State) : Shared :=
  ⟨s.now, s.stream, s.wait, s.exitCode, s.ready, s.queue, s.dropped, s.taken, s.deadline,
    s.containerExited⟩

theorem shared_flushRest (s : State) : s.flushRest.shared = s.shared := by
  unfold flushRest
  split
  · rfl
  · rfl

theorem shared_check (s : State) : s.check.shared = s.shared := by
  unfold State.check
  split
  · exact shared_flushRest s
  · rfl

theorem shared_giveUp (s : State) : s.giveUp.shared = s.shared := by
  unfold State.giveUp
  split
  · rfl
  · rfl

theorem shared_idle (s : State) : s.idle.shared = s.shared := by
  unfold idle
  dsimp only
  split
  · rfl
  · rfl

theorem shared_append (s : State) (bytes : List UInt8) : (s.append bytes).shared = s.shared := by
  unfold append
  dsimp only
  split
  · rfl
  · rfl

theorem shared_readExitCode (s : State) : s.readExitCode.shared = s.shared := by
  unfold State.readExitCode
  split
  · rfl
  · rfl

theorem shared_resume (s : State) : s.resume.shared = s.shared := by
  unfold State.resume
  split
  · rfl
  · split
    · rfl
    · rfl

theorem phase_idle (s : State) : s.idle.phase = .top := by
  unfold idle
  dsimp only
  split
  · rfl
  · rfl

theorem phase_append (s : State) (bytes : List UInt8) : (s.append bytes).phase = .top := by
  unfold append
  dsimp only
  split
  · rfl
  · rfl

theorem phase_handle_ended (s : State) : (s.handle .streamEnd).phase = .ended := rfl

/-! ### The Invariant -/

def Shared.items (c : Shared) : List Item := c.ready ++ c.queue ++ c.dropped ++ c.taken

def Shared.Silent (c : Shared) : Prop := c.exitCode = none ∧ c.wait ≠ .waiting

/-- Each marker is scheduled once and is then in one place, and the coroutine knows of the exit
    when it has taken its marker. -/
structure Shared.Sound (timeout : Nat) (c : Shared) : Prop where
  ends : c.items.count .streamEnd = if c.stream = .closed then 1 else 0
  exits : c.items.count .containerExited = if c.wait = .finished then 1 else 0
  exited : c.containerExited = true ↔ .containerExited ∈ c.taken
  code : c.exitCode.isSome → c.wait ≠ .waiting
  deadline : c.containerExited = false → c.deadline = timeout * second

def Shared.InPhase (timeout : Nat) (c : Shared) : Phase → Prop
  | .top | .receiving => .streamEnd ∉ c.taken
  | .timedOut => .streamEnd ∉ c.taken ∧ c.deadline ≤ c.now
  | .ended => True
  | .awaiting till => timeout * second ≤ till ∨ c.Silent
  | .fallback => c.Silent
  | .returned outcome =>
    (c.exitCode = some outcome.exitCode ∧ outcome.timedOut = false) ∨
      timeout * second ≤ c.now ∨ c.Silent

/-- The invariant of every run. -/
structure Inv (timeout : Nat) (s : State) : Prop where
  sound : s.shared.Sound timeout
  phase : s.shared.InPhase timeout s.phase

/-- What a step that the coroutine does not take leaves alone. -/
structure Shared.Later (c c' : Shared) : Prop where
  now : c.now ≤ c'.now
  taken : c'.taken = c.taken
  deadline : c'.deadline = c.deadline
  containerExited : c'.containerExited = c.containerExited
  code : ∀ code, c.exitCode = some code → c'.exitCode = some code
  silent : c.Silent → c'.Silent

theorem InPhase.later {c c' : Shared} {phase : Phase} (hlater : c.Later c')
    (h : c.InPhase timeout phase) : c'.InPhase timeout phase := by
  obtain ⟨hnow, htaken, hdeadline, -, hcode, hsilent⟩ := hlater
  cases phase with
  | top | receiving =>
    show Item.streamEnd ∉ c'.taken
    rw [htaken]
    exact h
  | timedOut =>
    show Item.streamEnd ∉ c'.taken ∧ c'.deadline ≤ c'.now
    rw [htaken, hdeadline]
    exact ⟨h.1, h.2.trans hnow⟩
  | ended => trivial
  | awaiting till => exact h.imp id hsilent
  | fallback => exact hsilent h
  | returned outcome =>
    rcases h with ⟨hknown, hflag⟩ | hlate | hnever
    · exact .inl ⟨hcode _ hknown, hflag⟩
    · exact .inr (.inl (hlate.trans hnow))
    · exact .inr (.inr (hsilent hnever))

theorem finished_of_exited {c : Shared} (h : c.Sound timeout) (hexited : c.containerExited = true) :
    c.wait = .finished := by
  have hmem : Item.containerExited ∈ c.items :=
    mem_append_right _ (h.exited.mp hexited)
  have hcount := count_pos_iff.mpr hmem
  by_contra hne
  rw [h.exits, if_neg hne] at hcount
  omega

/-! ### Threads and Callbacks -/

attribute [local simp] shared State.next

theorem items_put (s : State) (item : Item) :
    ((s.put item).shared.items).Perm (item :: s.shared.items) := by
  unfold put
  split
  · show (s.ready ++ (s.queue ++ [item]) ++ s.dropped ++ s.taken).Perm _
    simp only [append_assoc, cons_append, nil_append]
    rw [← append_assoc]
    refine perm_middle.trans ?_
    simp [Shared.items]
  · show (s.ready ++ s.queue ++ (s.dropped ++ [item]) ++ s.taken).Perm _
    simp only [append_assoc, cons_append, nil_append]
    rw [← append_assoc, ← append_assoc]
    refine perm_middle.trans ?_
    simp [Shared.items]

theorem phase_put (s : State) (item : Item) : (s.put item).phase = s.phase := by
  unfold put
  split
  · rfl
  · rfl

theorem later_put (s : State) (item : Item) : s.shared.Later (s.put item).shared := by
  unfold put
  split
  · exact ⟨Nat.le_refl _, rfl, rfl, rfl, fun _ h => h, id⟩
  · exact ⟨Nat.le_refl _, rfl, rfl, rfl, fun _ h => h, id⟩

variable {item : Item} {rest : List Item} {code : Int}

theorem inv_callback (h : Inv timeout s)
    (hready : s.ready = item :: rest) : Inv timeout ({ s with ready := rest }.put item) := by
  have hlater := later_put { s with ready := rest } item
  have hitems : ({ s with ready := rest }.put item).shared.items.Perm s.shared.items := by
    have hput := items_put { s with ready := rest } item
    have hrest : item :: ({ s with ready := rest } : State).shared.items = s.shared.items := by
      simp [Shared.items, hready]
    rwa [hrest] at hput
  have hthreads : ({ s with ready := rest }.put item).stream = s.stream ∧
      ({ s with ready := rest }.put item).wait = s.wait ∧
      ({ s with ready := rest }.put item).exitCode = s.exitCode := by
    unfold put
    split
    · exact ⟨rfl, rfl, rfl⟩
    · exact ⟨rfl, rfl, rfl⟩
  obtain ⟨hstream, hwait, hcode⟩ := hthreads
  have hsame : s.shared.Later ({ s with ready := rest }.put item).shared :=
    ⟨hlater.now, hlater.taken, hlater.deadline, hlater.containerExited, hlater.code, hlater.silent⟩
  refine ⟨⟨?_, ?_, ?_, ?_, ?_⟩, ?_⟩
  · rw [hitems.count_eq]
    show _ = if (put _ item).stream = .closed then 1 else 0
    rw [hstream]
    exact h.sound.ends
  · rw [hitems.count_eq]
    show _ = if (put _ item).wait = .finished then 1 else 0
    rw [hwait]
    exact h.sound.exits
  · rw [hsame.containerExited, hsame.taken]
    exact h.sound.exited
  · show ({ s with ready := rest }.put item).exitCode.isSome →
      ({ s with ready := rest }.put item).wait ≠ .waiting
    rw [hcode, hwait]
    exact h.sound.code
  · rw [hsame.containerExited, hsame.deadline]
    exact h.sound.deadline
  · rw [phase_put]
    exact InPhase.later hsame h.phase

theorem inv_thread (h : Inv timeout s) (hphase : s'.phase = s.phase)
    (hlater : s.shared.Later s'.shared)
    (hends : s'.shared.items.count .streamEnd = if s'.stream = .closed then 1 else 0)
    (hexits : s'.shared.items.count .containerExited = if s'.wait = .finished then 1 else 0)
    (hcode : s'.exitCode.isSome → s'.wait ≠ .waiting) : Inv timeout s' := by
  refine ⟨⟨hends, hexits, ?_, hcode, ?_⟩, ?_⟩
  · rw [hlater.containerExited, hlater.taken]
    exact h.sound.exited
  · rw [hlater.containerExited, hlater.deadline]
    exact h.sound.deadline
  · rw [hphase]
    exact InPhase.later hlater h.phase

theorem inv_coroutine (h : Inv timeout s) (hshared : s'.shared = s.shared)
    (hphase : s.shared.InPhase timeout s'.phase) : Inv timeout s' := by
  refine ⟨?_, ?_⟩
  · rw [hshared]
    exact h.sound
  · rw [hshared]
    exact hphase

/-! ### The Coroutine's Steps -/

theorem inv_check (h : Inv timeout s) (hphase : s.phase = .top) : Inv timeout s.check := by
  have htaken := h.phase
  rw [hphase] at htaken
  apply inv_coroutine h (shared_check s)
  unfold State.check
  split
  · next hlate => exact ⟨htaken, hlate⟩
  · exact htaken

theorem inv_idle (h : Inv timeout s) (hphase : s.phase = .receiving) : Inv timeout s.idle := by
  have htaken := h.phase
  rw [hphase] at htaken
  apply inv_coroutine h (shared_idle s)
  rw [phase_idle]
  exact htaken

theorem inv_giveUp (h : Inv timeout s) (hphase : s.phase = .timedOut) : Inv timeout s.giveUp := by
  have htimed := h.phase
  rw [hphase] at htimed
  apply inv_coroutine h (shared_giveUp s)
  unfold State.giveUp
  split
  · next code hflag hcode => exact .inl ⟨hcode, rfl⟩
  next hunknown =>
  by_cases hflag : s.containerExited = true
  · -- The exit marker was taken, so the wait thread has ended without a code.
    have hfinished : s.wait = .finished := finished_of_exited h.sound hflag
    have hcode : s.exitCode = none := by
      cases hcode : s.exitCode with
      | none => rfl
      | some code => exact absurd hcode (hunknown code hflag)
    exact .inr (.inr ⟨hcode, by show s.wait ≠ _; rw [hfinished]; decide⟩)
  · have hdeadline : s.deadline = timeout * second :=
      h.sound.deadline (Bool.eq_false_iff.mpr hflag)
    refine .inr (.inl ?_)
    rw [← hdeadline]
    exact htimed.2

theorem inv_readExitCode (h : Inv timeout s) : Inv timeout s.readExitCode := by
  apply inv_coroutine h (shared_readExitCode s)
  unfold State.readExitCode
  split
  · next code hcode => exact .inl ⟨hcode, rfl⟩
  next hcode =>
  by_cases hflag : s.containerExited = true
  · have hfinished : s.wait = .finished := finished_of_exited h.sound hflag
    exact .inr ⟨hcode, by show s.wait ≠ _; rw [hfinished]; decide⟩
  · have hdeadline : s.deadline = timeout * second :=
      h.sound.deadline (Bool.eq_false_iff.mpr hflag)
    refine .inl ?_
    omega

theorem inv_resume {till : Nat} (h : Inv timeout s) (hphase : s.phase = .awaiting till)
    (henabled : s.wait = .done ∨ s.wait = .finished ∨ till ≤ s.now) : Inv timeout s.resume := by
  have hawaiting := h.phase
  rw [hphase] at hawaiting
  apply inv_coroutine h (shared_resume s)
  unfold State.resume
  split
  · next code hcode => exact .inl ⟨hcode, rfl⟩
  next hcode =>
  split
  · next hdone =>
    refine ⟨hcode, ?_⟩
    show s.wait ≠ .waiting
    rcases hdone with hdone | hdone
    · rw [hdone]
      decide
    · rw [hdone]
      decide
  · next hrunning =>
    have hlate : till ≤ s.now := by
      rcases henabled with hdone | hdone | hlate
      · exact absurd (.inl hdone) hrunning
      · exact absurd (.inr hdone) hrunning
      · exact hlate
    rcases hawaiting with htill | hsilent
    · exact .inr (.inl (htill.trans hlate))
    · exact .inr (.inr hsilent)

theorem inv_fallbackAnswer (h : Inv timeout s) (hphase : s.phase = .fallback)
    (code : Option Int) : Inv timeout (s.finish (code.getD (-1)) false) := by
  have hsilent := h.phase
  rw [hphase] at hsilent
  exact inv_coroutine h rfl (.inr (.inr hsilent))

theorem inv_receive (h : Inv timeout s)
    (hphase : s.phase = .receiving) (hqueue : s.queue = item :: rest) :
    Inv timeout ({ s with queue := rest, taken := s.taken ++ [item] }.handle item) := by
  have htaken := h.phase
  rw [hphase] at htaken
  obtain ⟨hends, hexits, hexited, hcode, hdeadline⟩ := h.sound
  have hitems : ∀ marker : Item,
      (s.ready ++ rest ++ s.dropped ++ (s.taken ++ [item])).count marker =
        s.shared.items.count marker := by
    intro marker
    simp only [Shared.items, shared, hqueue, count_append, count_cons, count_nil]
    omega
  cases item with
  | chunk bytes =>
    have hother : ∀ marker : Item, marker.isMarker = true →
        (marker ∈ s.taken ++ [.chunk bytes] ↔ marker ∈ s.taken) := by
      intro marker hmarker
      cases marker with
      | chunk _ => cases hmarker
      | streamEnd => simp
      | containerExited => simp
    refine ⟨?_, ?_⟩
    · show (shared (append _ bytes)).Sound timeout
      rw [shared_append]
      exact ⟨(hitems _).trans hends, (hitems _).trans hexits,
        hexited.trans (hother .containerExited rfl).symm, hcode, hdeadline⟩
    · show (shared (append _ bytes)).InPhase timeout (append _ bytes).phase
      rw [shared_append, phase_append]
      exact fun hmem => htaken ((hother .streamEnd rfl).mp hmem)
  | streamEnd =>
    refine ⟨?_, trivial⟩
    show (shared { flushRest _ with phase := Phase.ended }).Sound timeout
    have hshared : ∀ u : State, (shared { u.flushRest with phase := Phase.ended }) =
        u.shared := fun u => shared_flushRest u
    rw [hshared]
    refine ⟨(hitems _).trans hends, (hitems _).trans hexits, hexited.trans ?_, hcode, hdeadline⟩
    show Item.containerExited ∈ s.taken ↔ Item.containerExited ∈ s.taken ++ [Item.streamEnd]
    simp
  | containerExited =>
    refine ⟨⟨(hitems _).trans hends, (hitems _).trans hexits, ?_, hcode, ?_⟩, ?_⟩
    · exact ⟨fun _ => mem_append_right _ mem_cons_self, fun _ => rfl⟩
    · intro hflag
      cases hflag
    · show Item.streamEnd ∉ s.taken ++ [Item.containerExited]
      intro hmem
      rcases mem_append.mp hmem with hmem | hmem
      · exact htaken hmem
      · simp at hmem

/-! ### Runs -/

theorem inv_init (timeout : Nat) : Inv timeout { deadline := timeout * second } where
  sound := ⟨rfl, rfl, by simp, fun h => (nomatch h), fun _ => rfl⟩
  phase := not_mem_nil

/-- **Step**: every step keeps the invariant. -/
theorem inv_next (h : Inv timeout s) (hstep : s.next l = some s') : Inv timeout s' := by
  obtain ⟨hends, hexits, -, hcode, -⟩ := h.sound
  have hsent : ∀ item marker : Item,
      (s.ready ++ [item] ++ s.queue ++ s.dropped ++ s.taken).count marker =
        s.shared.items.count marker + [item].count marker := by
    intro item marker
    simp only [Shared.items, shared, count_append]
    omega
  cases l with
  | tick elapsed =>
    cases hstep
    exact inv_thread h rfl ⟨Nat.le_add_right _ _, rfl, rfl, rfl, fun _ h => h, id⟩ hends hexits hcode
  | streamChunk bytes =>
    obtain ⟨-, rfl⟩ := of_guarded hstep
    exact inv_thread h rfl ⟨Nat.le_refl _, rfl, rfl, rfl, fun _ h => h, id⟩
      ((hsent _ _).trans hends) ((hsent _ _).trans hexits) hcode
  | streamCloses =>
    obtain ⟨hstreaming, rfl⟩ := of_guarded hstep
    have hnone : s.shared.items.count .streamEnd = 0 := by
      rw [hends, if_neg (by rw [show s.shared.stream = _ from hstreaming]; decide)]
    refine inv_thread h rfl ⟨Nat.le_refl _, rfl, rfl, rfl, fun _ h => h, id⟩ ?_
      ((hsent _ _).trans hexits) hcode
    refine (hsent _ _).trans ?_
    rw [hnone]
    rfl
  | containerExits code =>
    obtain ⟨hwaiting, rfl⟩ := of_guarded hstep
    have hnone : s.exitCode = none := by
      cases hknown : s.exitCode with
      | none => rfl
      | some code => exact absurd hwaiting (hcode (by rw [show s.shared.exitCode = _ from hknown]; rfl))
    refine inv_thread h rfl ⟨Nat.le_refl _, rfl, rfl, rfl, ?_, ?_⟩ hends ?_ (fun _ => by simp)
    · intro code hknown
      rw [show s.shared.exitCode = _ from hnone] at hknown
      cases hknown
    · exact fun hsilent => absurd hwaiting hsilent.2
    · refine hexits.trans ?_
      rw [show s.shared.wait = _ from hwaiting]
      rfl
  | waitFails =>
    obtain ⟨hwaiting, rfl⟩ := of_guarded hstep
    refine inv_thread h rfl ⟨Nat.le_refl _, rfl, rfl, rfl, fun _ h => h, ?_⟩ hends ?_
      (fun _ => by simp)
    · exact fun hsilent => ⟨hsilent.1, by simp⟩
    · refine hexits.trans ?_
      rw [show s.shared.wait = _ from hwaiting]
      rfl
  | setDone =>
    obtain ⟨hanswered, rfl⟩ := of_guarded hstep
    refine inv_thread h rfl ⟨Nat.le_refl _, rfl, rfl, rfl, fun _ h => h, ?_⟩ hends ?_
      (fun _ => by simp)
    · exact fun hsilent => ⟨hsilent.1, by simp⟩
    · refine hexits.trans ?_
      rw [show s.shared.wait = _ from hanswered]
      rfl
  | announceExit =>
    obtain ⟨hdone, rfl⟩ := of_guarded hstep
    have hnone : s.shared.items.count .containerExited = 0 := by
      rw [hexits, if_neg (by rw [show s.shared.wait = _ from hdone]; decide)]
    refine inv_thread h rfl ⟨Nat.le_refl _, rfl, rfl, rfl, fun _ h => h, ?_⟩
      ((hsent _ _).trans hends) ?_ (fun _ => by simp)
    · exact fun hsilent => ⟨hsilent.1, by simp⟩
    · refine (hsent _ _).trans ?_
      rw [hnone]
      rfl
  | callback =>
    dsimp only [State.next] at hstep
    split at hstep
    · next item rest hready =>
      obtain ⟨-, rfl⟩ := of_guarded hstep
      exact inv_callback h hready
    · cases hstep
  | check =>
    obtain ⟨hphase, rfl⟩ := of_guarded hstep
    exact inv_check h hphase
  | giveUp =>
    obtain ⟨hphase, rfl⟩ := of_guarded hstep
    exact inv_giveUp h hphase
  | receive =>
    dsimp only [State.next] at hstep
    split at hstep
    · next item rest hqueue =>
      obtain ⟨hphase, rfl⟩ := of_guarded hstep
      exact inv_receive h hphase hqueue
    · cases hstep
  | receiveTimeout =>
    obtain ⟨hphase, rfl⟩ := of_guarded hstep
    exact inv_idle h hphase
  | readExitCode =>
    obtain ⟨-, rfl⟩ := of_guarded hstep
    exact inv_readExitCode h
  | resume =>
    dsimp only [State.next] at hstep
    split at hstep
    · next till hphase =>
      obtain ⟨henabled, rfl⟩ := of_guarded hstep
      exact inv_resume h hphase henabled
    · cases hstep
  | fallbackAnswer code =>
    obtain ⟨hphase, rfl⟩ := of_guarded hstep
    exact inv_fallbackAnswer h hphase code

/-! ### The Markers -/

def Finished (s : State) : Prop := s.stream = .closed ∧ s.wait = .finished

/-- Both threads have finished, all their callbacks have run, and the queue is drained. -/
def Drained (s : State) : Prop := Finished s ∧ s.ready = [] ∧ s.queue = []

def Received (s : State) : Prop := .streamEnd ∈ s.taken ∨ .containerExited ∈ s.taken

def BothLost (s : State) : Prop := .streamEnd ∈ s.dropped ∧ .containerExited ∈ s.dropped

/-- At most one marker is lost, and the deadline does not overtake a marker on its way to a
    coroutine that does not know of the exit. -/
def KeepsMarker (s : State) : Label → Prop
  | .callback =>
    ∀ item ∈ s.ready.head?, item.isMarker → capacity ≤ s.queue.length →
      ∀ lost ∈ s.dropped, ¬ lost.isMarker
  | .check =>
    s.containerExited = false → s.deadline ≤ s.now →
      ∀ item ∈ s.ready ++ s.queue, ¬ item.isMarker
  | _ => True

instance (s : State) (l : Label) : Decidable (KeepsMarker s l) := by
  unfold KeepsMarker
  split
  · infer_instance
  · infer_instance
  · infer_instance

/-- **Conservation**: the coroutine of a drained stream has a marker unless both were lost. -/
theorem drained_received_iff (h : Inv timeout s) (hdrained : Drained s) :
    Received s ↔ ¬ BothLost s := by
  obtain ⟨⟨hclosed, hfinished⟩, hready, hqueue⟩ := hdrained
  have hends := h.sound.ends
  have hexits := h.sound.exits
  simp only [Shared.items, shared, hready, hqueue, hclosed, hfinished, nil_append,
    count_append, if_true] at hends hexits
  unfold Received BothLost
  simp only [← count_pos_iff]
  omega

/-- Only the callback drops an item, when it finds the queue full. -/
theorem dropped_next (hstep : s.next l = some s') :
    s'.dropped = s.dropped ∨ ∃ item ∈ s.ready.head?, l = .callback ∧
      capacity ≤ s.queue.length ∧ s'.dropped = s.dropped ++ [item] := by
  cases l with
  | callback =>
    dsimp only [State.next] at hstep
    split at hstep
    · next item rest hready =>
      obtain ⟨-, rfl⟩ := of_guarded hstep
      unfold put
      split
      · exact .inl rfl
      next hfull =>
      rw [hready]
      exact .inr ⟨item, rfl, rfl, Nat.not_lt.mp hfull, rfl⟩
    · cases hstep
  | tick elapsed =>
    cases hstep
    exact .inl rfl
  | receive =>
    dsimp only [State.next] at hstep
    split at hstep
    · next item rest hqueue =>
      obtain ⟨-, rfl⟩ := of_guarded hstep
      cases item with
      | chunk bytes => exact .inl (congrArg Shared.dropped (shared_append _ bytes))
      | streamEnd => exact .inl (congrArg Shared.dropped (shared_flushRest _))
      | containerExited => exact .inl rfl
    · cases hstep
  | resume =>
    dsimp only [State.next] at hstep
    split at hstep
    · obtain ⟨-, rfl⟩ := of_guarded hstep
      exact .inl (congrArg Shared.dropped (shared_resume s))
    · cases hstep
  | check =>
    obtain ⟨-, rfl⟩ := of_guarded hstep
    exact .inl (congrArg Shared.dropped (shared_check s))
  | giveUp =>
    obtain ⟨-, rfl⟩ := of_guarded hstep
    exact .inl (congrArg Shared.dropped (shared_giveUp s))
  | receiveTimeout =>
    obtain ⟨-, rfl⟩ := of_guarded hstep
    exact .inl (congrArg Shared.dropped (shared_idle s))
  | readExitCode =>
    obtain ⟨-, rfl⟩ := of_guarded hstep
    exact .inl (congrArg Shared.dropped (shared_readExitCode s))
  | _ =>
    obtain ⟨-, rfl⟩ := of_guarded hstep
    exact .inl rfl

theorem not_bothLost_next (h : ¬ BothLost s) (hguard : KeepsMarker s l)
    (hstep : s.next l = some s') : ¬ BothLost s' := by
  rcases dropped_next hstep with heq | ⟨item, hitem, rfl, hfull, heq⟩
  · unfold BothLost
    rw [heq]
    exact h
  · rintro ⟨hend, hexit⟩
    rw [heq] at hend hexit
    cases hmarker : item.isMarker with
    | true =>
      have hkept := hguard item hitem hmarker hfull
      rcases mem_append.mp hend with hend | hend
      · exact hkept _ hend rfl
      · rcases mem_append.mp hexit with hexit | hexit
        · exact hkept _ hexit rfl
        · -- One item is not both markers.
          rw [mem_singleton] at hend hexit
          rw [← hend] at hexit
          cases hexit
    | false =>
      have hold : ∀ marker : Item, marker.isMarker = true → marker ∈ s.dropped ++ [item] →
          marker ∈ s.dropped := by
        intro marker htrue hmem
        rcases mem_append.mp hmem with hmem | hmem
        · exact hmem
        · rw [mem_singleton.mp hmem, hmarker] at htrue
          cases htrue
      exact h ⟨hold _ rfl hend, hold _ rfl hexit⟩

/-! ### The Exit Code -/

/-- The phases that lead to the exit code. -/
def Settling (code : Int) (containerExited : Bool) : Phase → Prop
  | .timedOut => containerExited = true
  | .fallback => False
  | .returned outcome => outcome.exitCode = code ∧ outcome.timedOut = false
  | _ => True

/-- The container has exited with the code, the log has ended, and the coroutine is on the way to
    return the code. -/
structure Settled (code : Int) (s : State) : Prop where
  finished : Finished s
  known : s.exitCode = some code
  phase : Settling code s.containerExited s.phase

theorem settled_of_finished (h : Inv timeout s) (hknown : s.exitCode = some code)
    (hfinished : Finished s) (hearly : s.now < timeout * second) : Settled code s := by
  have hsilent : ¬ s.shared.Silent := by
    intro hsilent
    rw [show s.exitCode = none from hsilent.1] at hknown
    cases hknown
  have hphase := h.phase
  refine ⟨hfinished, hknown, ?_⟩
  cases hat : s.phase with
  | timedOut =>
    rw [hat] at hphase
    by_contra hflag
    have hdeadline : s.deadline = timeout * second :=
      h.sound.deadline (Bool.eq_false_iff.mpr hflag)
    have hlate : s.deadline ≤ s.now := hphase.2
    omega
  | fallback =>
    rw [hat] at hphase
    exact hsilent hphase
  | returned outcome =>
    rw [hat] at hphase
    rcases hphase with ⟨hcode, hflag⟩ | hlate | hnever
    · have hcode : s.exitCode = some outcome.exitCode := hcode
      rw [hcode] at hknown
      exact ⟨Option.some.inj hknown, hflag⟩
    · exact absurd hlate (Nat.not_le.mpr hearly)
    · exact absurd hnever hsilent
  | _ => trivial

/-- A deadline that passes without a marker on its way comes behind the exit. -/
theorem exited_of_late (h : Inv timeout s) (hfinished : Finished s) (hlost : ¬ BothLost s)
    (hphase : s.phase = .top) (hguard : KeepsMarker s .check) (hlate : s.deadline ≤ s.now) :
    s.containerExited = true := by
  by_contra hflag
  have hnone := hguard (Bool.eq_false_iff.mpr hflag) hlate
  have htaken := h.phase
  rw [hphase] at htaken
  have hexited : Item.containerExited ∉ s.taken := fun hmem => hflag (h.sound.exited.mpr hmem)
  have hgone : ∀ marker : Item, marker.isMarker = true → s.shared.items.count marker = 1 →
      marker ∉ s.taken → marker ∈ s.dropped := by
    intro marker hmarker hcount hnot
    have hmem : marker ∈ s.shared.items := count_pos_iff.mp (by omega)
    rcases mem_append.mp hmem with hmem | hmem
    · rcases mem_append.mp hmem with hmem | hmem
      · exact absurd hmarker (hnone marker hmem)
      · exact hmem
    · exact absurd hmem hnot
  have hends := h.sound.ends
  have hexits := h.sound.exits
  rw [if_pos (show s.shared.stream = _ from hfinished.1)] at hends
  rw [if_pos (show s.shared.wait = _ from hfinished.2)] at hexits
  exact hlost ⟨hgone _ rfl hends htaken, hgone _ rfl hexits hexited⟩

/-- **Step**: a guarded step keeps the coroutine on the way to the code. -/
theorem settled_next (h : Inv timeout s) (hlost : ¬ BothLost s)
    (hsettled : Settled code s) (hguard : KeepsMarker s l) (hstep : s.next l = some s') :
    Settled code s' := by
  obtain ⟨⟨hclosed, hfinished⟩, hknown, hphase⟩ := hsettled
  have hcoroutine : ∀ {u : State}, u.shared = s.shared →
      Settling code s.containerExited u.phase → Settled code u := by
    intro u hshared hat
    have hflag : u.containerExited = s.containerExited :=
      congrArg Shared.containerExited hshared
    refine ⟨⟨?_, ?_⟩, ?_, by rw [hflag]; exact hat⟩
    · exact (congrArg Shared.stream hshared).trans hclosed
    · exact (congrArg Shared.wait hshared).trans hfinished
    · exact (congrArg Shared.exitCode hshared).trans hknown
  cases l with
  | tick elapsed =>
    cases hstep
    exact ⟨⟨hclosed, hfinished⟩, hknown, hphase⟩
  | streamChunk bytes =>
    simp [hclosed] at hstep
  | streamCloses =>
    simp [hclosed] at hstep
  | containerExits code | waitFails | setDone | announceExit =>
    simp [hfinished] at hstep
  | callback =>
    dsimp only [State.next] at hstep
    split at hstep
    · obtain ⟨-, rfl⟩ := of_guarded hstep
      unfold put
      split
      · exact ⟨⟨hclosed, hfinished⟩, hknown, hphase⟩
      · exact ⟨⟨hclosed, hfinished⟩, hknown, hphase⟩
    · cases hstep
  | check =>
    obtain ⟨htop, rfl⟩ := of_guarded hstep
    apply hcoroutine (shared_check s)
    unfold State.check
    split
    · next hlate => exact exited_of_late h ⟨hclosed, hfinished⟩ hlost htop hguard hlate
    · trivial
  | giveUp =>
    obtain ⟨htimed, rfl⟩ := of_guarded hstep
    rw [htimed] at hphase
    have hflag : s.containerExited = true := hphase
    apply hcoroutine (shared_giveUp s)
    unfold State.giveUp
    rw [hflag, hknown]
    exact ⟨rfl, rfl⟩
  | receive =>
    dsimp only [State.next] at hstep
    split at hstep
    · next item rest hqueue =>
      obtain ⟨-, rfl⟩ := of_guarded hstep
      cases item with
      | chunk bytes =>
        have hshared := shared_append { s with queue := rest, taken := s.taken ++ [.chunk bytes] } bytes
        refine ⟨⟨?_, ?_⟩, ?_, ?_⟩
        · exact (congrArg Shared.stream hshared).trans hclosed
        · exact (congrArg Shared.wait hshared).trans hfinished
        · exact (congrArg Shared.exitCode hshared).trans hknown
        · show Settling code _ (append _ bytes).phase
          rw [phase_append]
          trivial
      | streamEnd =>
        have hshared := shared_flushRest { s with queue := rest, taken := s.taken ++ [.streamEnd] }
        refine ⟨⟨?_, ?_⟩, ?_, trivial⟩
        · exact (congrArg Shared.stream hshared).trans hclosed
        · exact (congrArg Shared.wait hshared).trans hfinished
        · exact (congrArg Shared.exitCode hshared).trans hknown
      | containerExited => exact ⟨⟨hclosed, hfinished⟩, hknown, trivial⟩
    · cases hstep
  | receiveTimeout =>
    obtain ⟨-, rfl⟩ := of_guarded hstep
    apply hcoroutine (shared_idle s)
    rw [phase_idle]
    trivial
  | readExitCode =>
    obtain ⟨-, rfl⟩ := of_guarded hstep
    apply hcoroutine (shared_readExitCode s)
    unfold State.readExitCode
    rw [hknown]
    exact ⟨rfl, rfl⟩
  | resume =>
    dsimp only [State.next] at hstep
    split at hstep
    · obtain ⟨-, rfl⟩ := of_guarded hstep
      apply hcoroutine (shared_resume s)
      unfold State.resume
      rw [hknown]
      exact ⟨rfl, rfl⟩
    · cases hstep
  | fallbackAnswer code =>
    obtain ⟨hfallback, -⟩ := Option.ite_none_right_eq_some.mp hstep
    rw [hfallback] at hphase
    cases hphase

/-! ### The Way Out -/

/-- A guarded run from a state, as long as the two markers are not lost. -/
abbrev GuardedRun (timeout : Nat) : State → State → Prop := (logStream timeout).Run KeepsMarker

/-- What guarded runs keep. -/
structure OnTheWay (timeout : Nat) (code : Int) (s : State) : Prop where
  inv : Inv timeout s
  marker : ¬ BothLost s
  settled : Settled code s

theorem onTheWay_next (h : OnTheWay timeout code s) (hguard : KeepsMarker s l)
    (hstep : s.next l = some s') : OnTheWay timeout code s' :=
  ⟨inv_next h.inv hstep, not_bothLost_next h.marker hguard hstep,
    settled_next h.inv h.marker h.settled hguard hstep⟩

theorem onTheWay_run (h : OnTheWay timeout code s) (hrun : GuardedRun timeout s t) :
    OnTheWay timeout code t :=
  hrun.preserves (fun _ _ _ hs hguard hstep => onTheWay_next hs hguard hstep) h

def Returns (timeout : Nat) (s : State) : Prop :=
  ∃ t outcome, GuardedRun timeout s t ∧ t.phase = .returned outcome

theorem Returns.step (hguard : KeepsMarker s l) (hstep : s.next l = some s')
    (h : Returns timeout s') : Returns timeout s := by
  obtain ⟨t, outcome, hrun, hreturned⟩ := h
  exact ⟨t, outcome, hrun.cons hguard hstep, hreturned⟩

theorem returns_of_left (h : Settled code s)
    (hphase : s.phase ≠ .top ∧ s.phase ≠ .receiving) : Returns timeout s := by
  have hleave : ∀ {l : Label} {u : State}, KeepsMarker s l → s.next l = some u →
      (∃ outcome, u.phase = .returned outcome) → Returns timeout s := by
    rintro l u hguard hstep ⟨outcome, hreturned⟩
    exact .step hguard hstep ⟨u, outcome, .refl u, hreturned⟩
  have hsettling := h.phase
  cases hat : s.phase with
  | top => exact absurd hat hphase.1
  | receiving => exact absurd hat hphase.2
  | timedOut =>
    apply hleave (l := .giveUp) trivial (if_pos hat)
    unfold State.giveUp
    split
    · exact ⟨_, rfl⟩
    · exact ⟨_, rfl⟩
  | ended =>
    apply hleave (l := .readExitCode) trivial (if_pos hat)
    unfold State.readExitCode
    rw [h.known]
    exact ⟨_, rfl⟩
  | awaiting till =>
    have hstep : s.next .resume = some s.resume := by
      dsimp only [State.next]
      rw [hat]
      exact if_pos (.inr (.inl h.finished.2))
    apply hleave (l := .resume) trivial hstep
    unfold State.resume
    rw [h.known]
    exact ⟨_, rfl⟩
  | fallback =>
    rw [hat] at hsettling
    cases hsettling
  | returned outcome => exact ⟨s, outcome, .refl s, hat⟩

theorem returns_of_late (h : OnTheWay timeout code s) (hphase : s.phase = .top)
    (hflag : s.containerExited = true) (hlate : s.deadline ≤ s.now) : Returns timeout s := by
  have hguard : KeepsMarker s .check := by
    intro hunknown
    rw [hflag] at hunknown
    cases hunknown
  have hstep : s.next .check = some s.check := if_pos hphase
  apply Returns.step hguard hstep
  apply returns_of_left (onTheWay_next h hguard hstep).settled
  unfold State.check
  rw [if_pos hlate]
  exact ⟨by simp, by simp⟩

theorem returns_of_drained (h : OnTheWay timeout code s)
    (hphase : s.phase = .receiving) (hready : s.ready = []) (hqueue : s.queue = []) :
    Returns timeout s := by
  have htaken := h.inv.phase
  rw [hphase] at htaken
  have hreceived : Received s :=
    (drained_received_iff h.inv ⟨h.settled.finished, hready, hqueue⟩).mpr h.marker
  have hflag : s.containerExited = true :=
    h.inv.sound.exited.mpr (hreceived.resolve_left htaken)
  have htick : s.next (.tick s.deadline) = some { s with now := s.now + s.deadline } := rfl
  apply Returns.step (l := .tick s.deadline) trivial htick
  have hlater := onTheWay_next h (l := .tick s.deadline) trivial htick
  have hidle : State.next { s with now := s.now + s.deadline } .receiveTimeout =
      some (idle { s with now := s.now + s.deadline }) := if_pos hphase
  apply Returns.step (l := .receiveTimeout) trivial hidle
  have hshared := shared_idle { s with now := s.now + s.deadline }
  have hwoken := onTheWay_next hlater (l := .receiveTimeout) trivial hidle
  refine returns_of_late hwoken (phase_idle _) ?_ ?_
  · exact (congrArg Shared.containerExited hshared).trans hflag
  · rw [show (idle _).deadline = _ from congrArg Shared.deadline hshared,
      show (idle _).now = _ from congrArg Shared.now hshared]
    exact Nat.le_add_left _ _

/-- The steps that the loop still has to take. -/
def State.toDo (s : State) : Nat :=
  4 * s.ready.length + 2 * s.queue.length + if s.phase = .top then 1 else 0

/-- **Progress**: before the deadline the loop and the coroutine drain the queue. -/
theorem returns_of_early (hmeasure : s.toDo ≤ n) (h : OnTheWay timeout code s)
    (hearly : s.now < timeout * second) : Returns timeout s := by
  induction n using Nat.strongRecOn generalizing s with
  | ind n ih =>
    by_cases hloop : s.phase = .top ∨ s.phase = .receiving
    · rcases hloop with htop | hreceiving
      · by_cases hlate : s.deadline ≤ s.now
        · -- Only the exit moves the deadline to the front.
          have hflag : s.containerExited = true := by
            by_contra hflag
            have hdeadline : s.deadline = timeout * second :=
              h.inv.sound.deadline (Bool.eq_false_iff.mpr hflag)
            omega
          exact returns_of_late h htop hflag hlate
        · have hguard : KeepsMarker s .check := fun _ hpassed => absurd hpassed hlate
          have hstep : s.next .check = some s.check := if_pos htop
          have hcheck : s.check = { s with phase := .receiving } := if_neg hlate
          apply Returns.step hguard hstep
          refine ih (s.toDo - 1) ?_ ?_ (onTheWay_next h hguard hstep) ?_
          · have : 0 < s.toDo := by simp [toDo, htop]
            omega
          · rw [hcheck]
            simp [toDo, htop]
          · rw [hcheck]
            exact hearly
      · cases hqueue : s.queue with
        | nil =>
          cases hready : s.ready with
          | nil => exact returns_of_drained h hreceiving hready hqueue
          | cons item rest =>
            have hguard : KeepsMarker s .callback := by
              intro _ _ _ hfull
              rw [hqueue] at hfull
              exact absurd hfull (by decide)
            have hput : ({ s with ready := rest } : State).put item =
                { s with ready := rest, queue := [item] } := by
              simp [put, hqueue, capacity]
            have hstep : s.next .callback = some { s with ready := rest, queue := [item] } := by
              dsimp only [State.next]
              rw [hready]
              dsimp only
              rw [if_pos (by rw [hreceiving]; rfl), hput]
            apply Returns.step hguard hstep
            refine ih (s.toDo - 1) ?_ ?_ (onTheWay_next h hguard hstep) hearly
            · have : 0 < s.toDo := by
                simp only [toDo, hready, length_cons]
                omega
              omega
            · simp only [toDo, hready, hqueue, hreceiving, length_cons, length_nil]
              omega
        | cons item rest =>
          have hstep : s.next .receive =
              some (handle { s with queue := rest, taken := s.taken ++ [item] } item) := by
            dsimp only [State.next]
            rw [hqueue]
            exact if_pos hreceiving
          apply Returns.step (l := .receive) trivial hstep
          have hnext := onTheWay_next h (l := .receive) trivial hstep
          have hpos : 2 ≤ s.toDo := by
            simp only [toDo, hqueue, length_cons]
            omega
          have hless : ∀ {u : State}, u.ready = s.ready → u.queue = rest → u.toDo ≤ s.toDo - 1 := by
            intro u hready hshort
            simp only [toDo, hready, hshort, hqueue, hreceiving, length_cons]
            split
            · simp
              omega
            · simp
              omega
          cases item with
          | chunk bytes =>
            have hshared := shared_append
              { s with queue := rest, taken := s.taken ++ [.chunk bytes] } bytes
            refine ih (s.toDo - 1) (by omega) ?_ hnext ?_
            · exact hless (congrArg Shared.ready hshared) (congrArg Shared.queue hshared)
            · have hnow : (append _ bytes).now = s.now := congrArg Shared.now hshared
              show (append _ bytes).now < _
              rw [hnow]
              exact hearly
          | streamEnd =>
            exact returns_of_left hnext.settled
              ⟨by rw [phase_handle_ended]; simp, by rw [phase_handle_ended]; simp⟩
          | containerExited => exact ih (s.toDo - 1) (by omega) (hless rfl rfl) hnext hearly
    · exact returns_of_left h.settled (not_or.mp hloop)

/-- The markers reach the coroutine, and the exit of the container before the deadline is what the
    function returns. -/
structure ExitReported (timeout : Nat) (s : State) : Prop where
  received : Drained s → Received s
  returned : ∀ code, s.exitCode = some code → Finished s → s.now < timeout * second →
    ∀ t outcome, GuardedRun timeout s t → t.phase = .returned outcome →
      outcome.exitCode = code ∧ outcome.timedOut = false
  returns : ∀ code, s.exitCode = some code → Finished s → s.now < timeout * second →
    Returns timeout s

/-- **Exit**: in every run that keeps a marker, a drained stream has reported its end or the exit,
    and a container that has exited before the deadline is never taken for a timeout. -/
theorem finished_container_reported (timeout : Nat) (s : State)
    (hs : (logStream timeout).Reachable KeepsMarker s) : ExitReported timeout s := by
  have hinv : Inv timeout s ∧ ¬ BothLost s := by
    refine hs.invariant (P := fun s => Inv timeout s ∧ ¬ BothLost s) ?_ ?_
    · rintro _ rfl
      exact ⟨inv_init timeout, fun hlost => absurd hlost.1 not_mem_nil⟩
    · intro u l u' hu hguard hstep
      exact ⟨inv_next hu.1 hstep, not_bothLost_next hu.2 hguard hstep⟩
  obtain ⟨hinv, hlost⟩ := hinv
  have hway : ∀ code, s.exitCode = some code → Finished s → s.now < timeout * second →
      OnTheWay timeout code s := fun code hknown hfinished hearly =>
    ⟨hinv, hlost, settled_of_finished hinv hknown hfinished hearly⟩
  refine ⟨fun hdrained => (drained_received_iff hinv hdrained).mpr hlost, ?_, ?_⟩
  · intro code hknown hfinished hearly t outcome hrun hreturned
    have hsettling := (onTheWay_run (hway code hknown hfinished hearly) hrun).settled.phase
    rw [hreturned] at hsettling
    exact hsettling
  · intro code hknown hfinished hearly
    exact returns_of_early s.toDo (Nat.le_refl _) (hway code hknown hfinished hearly) hearly

instance (s : State) : Decidable (Drained s) := inferInstanceAs (Decidable ((_ ∧ _) ∧ _ ∧ _))

/-- A container that writes one line and exits. -/
def quietSchedule : List Label :=
  [.streamChunk [104, 105, 10], .containerExits 0, .setDone, .announceExit, .streamCloses,
    .callback, .callback, .callback, .check, .receive, .check, .receive, .check, .receive]

theorem quiet_container_reported :
    ∃ s, Drained s ∧ s.exitCode = some 0 ∧ s.now < 60 * second ∧ ExitReported 60 s := by
  have hrun : ∃ s ∈ (logStream 60).execWhile KeepsMarker { deadline := 60 * second } quietSchedule,
      Drained s ∧ s.exitCode = some 0 ∧ s.now < 60 * second := by
    decide +kernel
  obtain ⟨s, hexec, hdrained, hcode, hearly⟩ := hrun
  exact ⟨s, hdrained, hcode, hearly,
    finished_container_reported 60 s ⟨_, rfl, System.run_of_execWhile hexec⟩⟩

/-! ### A Burst -/

abbrev AnyRun (timeout : Nat) : State → State → Prop := (logStream timeout).Run System.anyStep

theorem AnyRun.cons (hstep : s.next l = some s') (h : AnyRun timeout s' t) : AnyRun timeout s t :=
  System.Run.cons trivial hstep h

theorem AnyRun.snoc (h : AnyRun timeout s t) (hstep : t.next l = some s') : AnyRun timeout s s' :=
  System.Run.step h trivial hstep

theorem run_chunks (h : s.stream = .streaming) :
    AnyRun timeout s { s with ready := s.ready ++ List.replicate n (.chunk bytes) } := by
  induction n with
  | zero =>
    rw [replicate_zero, append_nil]
    exact .refl s
  | succ n ih =>
    have hstep : State.next { s with ready := s.ready ++ List.replicate n (.chunk bytes) }
        (.streamChunk bytes) =
          some { s with ready := s.ready ++ List.replicate (n + 1) (.chunk bytes) } := by
      rw [replicate_succ', ← append_assoc]
      exact if_pos h
    exact AnyRun.snoc ih hstep

theorem run_fill (item : Item) (hready : s.ready = List.replicate n item ++ rest)
    (hphase : s.phase = .top) (hroom : s.queue.length + n ≤ capacity) :
    AnyRun timeout s { s with ready := rest, queue := s.queue ++ List.replicate n item } := by
  induction n generalizing s with
  | zero =>
    have hsame : s.ready = rest := hready
    rw [replicate_zero, append_nil, ← hsame]
    exact .refl s
  | succ n ih =>
    have hput : ({ s with ready := List.replicate n item ++ rest } : State).put item =
        { s with ready := List.replicate n item ++ rest, queue := s.queue ++ [item] } := by
      exact if_pos (by show s.queue.length < capacity; omega)
    have hstep : s.next .callback =
        some { s with ready := List.replicate n item ++ rest, queue := s.queue ++ [item] } := by
      dsimp only [State.next]
      rw [hready, replicate_succ]
      dsimp only [cons_append]
      rw [if_pos (by rw [hphase]; rfl), hput]
    have hlength : (s.queue ++ [item]).length + n ≤ capacity := by
      rw [length_append, length_singleton]
      omega
    have hrest := ih (s := { s with ready := List.replicate n item ++ rest, queue := s.queue ++ [item] })
      rfl hphase hlength
    have hqueue : s.queue ++ [item] ++ List.replicate n item =
        s.queue ++ List.replicate (n + 1) item := by
      rw [append_assoc, replicate_succ, singleton_append]
    rw [hqueue] at hrest
    exact AnyRun.cons hstep hrest

theorem run_drain (hqueue : s.queue = List.replicate n (.chunk bytes)) (hphase : s.phase = .top)
    (hearly : s.now < s.deadline) :
    ∃ t, AnyRun timeout s t ∧ t.phase = .top ∧ t.shared =
      { s.shared with queue := [], taken := s.taken ++ List.replicate n (.chunk bytes) } := by
  induction n generalizing s with
  | zero =>
    refine ⟨s, .refl s, hphase, ?_⟩
    rw [replicate_zero, append_nil, ← show s.queue = [] from hqueue]
    rfl
  | succ n ih =>
    have hcheck : s.next .check = some { s with phase := .receiving } := by
      dsimp only [State.next]
      rw [if_pos hphase, State.check, if_neg (Nat.not_le.mpr hearly)]
    have hreceive : State.next { s with phase := .receiving } .receive =
        some (append { s with
          phase := .receiving
          queue := List.replicate n (.chunk bytes)
          taken := s.taken ++ [.chunk bytes] } bytes) := by
      rw [hqueue, replicate_succ]
      rfl
    have hshared := shared_append { s with
      phase := .receiving
      queue := List.replicate n (.chunk bytes)
      taken := s.taken ++ [.chunk bytes] } bytes
    have hstays : (append { s with
        phase := .receiving
        queue := List.replicate n (.chunk bytes)
        taken := s.taken ++ [.chunk bytes] } bytes).now < (append { s with
        phase := .receiving
        queue := List.replicate n (.chunk bytes)
        taken := s.taken ++ [.chunk bytes] } bytes).deadline := by
      rw [show State.now _ = s.now from congrArg Shared.now hshared,
        show State.deadline _ = s.deadline from congrArg Shared.deadline hshared]
      exact hearly
    obtain ⟨t, hrun, htop, ht⟩ := ih (congrArg Shared.queue hshared) (phase_append _ _) hstays
    refine ⟨t, AnyRun.cons hcheck (AnyRun.cons hreceive hrun), htop, ?_⟩
    rw [ht, hshared, show State.taken _ = _ from congrArg Shared.taken hshared]
    simp [replicate_succ]

/-- The chunks of the burst: one line each, and as many as the queue holds. -/
def burst : List Item := List.replicate capacity (.chunk [10])

/-- The log has ended and the container has exited before the loop comes to the callbacks. -/
def scheduled : State where
  deadline := 60 * second
  stream := .closed
  wait := .finished
  exitCode := some 0
  ready := burst ++ [.streamEnd, .containerExited]

def overrun : State :=
  { scheduled with ready := [], queue := burst, dropped := [.streamEnd, .containerExited] }

theorem run_overrun : AnyRun 60 { deadline := 60 * second } overrun := by
  have hchunks : AnyRun 60 { deadline := 60 * second }
      { deadline := 60 * second, ready := burst } := run_chunks capacity [10] rfl
  have hthreads : AnyRun 60 { deadline := 60 * second, ready := burst } scheduled := by
    refine AnyRun.cons (l := .streamCloses) rfl (AnyRun.cons (l := .containerExits 0) rfl
      (AnyRun.cons (l := .setDone) rfl (AnyRun.cons (l := .announceExit) rfl ?_)))
    rw [append_assoc]
    exact .refl scheduled
  have hfill : AnyRun 60 scheduled
      { scheduled with ready := [.streamEnd, .containerExited], queue := burst } :=
    run_fill capacity (.chunk [10]) rfl rfl (by simp [scheduled])
  have hfull : ¬ burst.length < capacity := by simp [burst]
  have hlost : AnyRun 60
      { scheduled with ready := [.streamEnd, .containerExited], queue := burst } overrun := by
    have hfirst : State.next
        { scheduled with ready := [.streamEnd, .containerExited], queue := burst } .callback =
          some { scheduled with
            ready := [.containerExited], queue := burst, dropped := [.streamEnd] } := by
      show some (put _ _) = _
      unfold put
      rw [if_neg hfull]
      rfl
    have hsecond : State.next
        { scheduled with
          ready := [.containerExited], queue := burst, dropped := [.streamEnd] } .callback =
            some overrun := by
      show some (put _ _) = _
      unfold put
      rw [if_neg hfull]
      rfl
    exact AnyRun.cons hfirst (AnyRun.cons hsecond (.refl _))
  exact ((hchunks.trans hthreads).trans hfill).trans hlost

theorem timesOut_of_unaware (hphase : s.phase = .top) (hunaware : s.containerExited = false)
    (hearly : s.now < s.deadline) :
    ∃ t outcome, AnyRun timeout s t ∧ t.phase = .returned outcome ∧
      outcome.exitCode = -1 ∧ outcome.timedOut = true := by
  have hcheck : s.next .check = some { s with phase := .receiving } := by
    dsimp only [State.next]
    rw [if_pos hphase, State.check, if_neg (Nat.not_le.mpr hearly)]
  let late : State := idle { s with phase := .receiving, now := s.now + s.deadline }
  have hidle : State.next { s with phase := .receiving, now := s.now + s.deadline } .receiveTimeout =
      some late := rfl
  have hshared : late.shared = { s.shared with now := s.now + s.deadline } :=
    shared_idle { s with phase := .receiving, now := s.now + s.deadline }
  have hlate : late.deadline ≤ late.now := by
    rw [show late.deadline = s.deadline from congrArg Shared.deadline hshared,
      show late.now = s.now + s.deadline from congrArg Shared.now hshared]
    omega
  have hpassed : late.next .check = some { late.flushRest with phase := .timedOut } := by
    dsimp only [State.next]
    rw [if_pos (phase_idle _), State.check, if_pos hlate]
  have hflag : ({ late.flushRest with phase := .timedOut } : State).containerExited = false := by
    have hrest := congrArg Shared.containerExited ((shared_flushRest late).trans hshared)
    exact hrest.trans hunaware
  have hreturned : State.next { late.flushRest with phase := .timedOut } .giveUp =
      some (finish { late.flushRest with phase := .timedOut } (-1) true) := by
    show some (State.giveUp _) = _
    unfold State.giveUp
    rw [hflag]
  exact ⟨_, _, AnyRun.cons hcheck (AnyRun.cons (l := .tick s.deadline) rfl
    (AnyRun.cons hidle (AnyRun.cons hpassed (AnyRun.cons hreturned (.refl _))))), rfl, rfl, rfl⟩

/-- A burst at the exit: both markers are lost, and the exit is taken for a timeout. -/
theorem burst_loses_markers :
    ∃ s, (logStream 60).Reachable System.anyStep s ∧ Drained s ∧ ¬ Received s ∧
      s.exitCode = some 0 ∧ s.now < 60 * second ∧
      ∃ t outcome, AnyRun 60 s t ∧ t.phase = .returned outcome ∧
        outcome.exitCode = -1 ∧ outcome.timedOut = true := by
  have hdrain : ∃ t, AnyRun 60 overrun t ∧ t.phase = .top ∧ t.shared =
      { overrun.shared with queue := [], taken := overrun.taken ++ burst } :=
    run_drain capacity [10] rfl rfl (by decide)
  obtain ⟨s, hrun, hphase, hshared⟩ := hdrain
  have htaken : s.taken = List.replicate capacity (.chunk [10]) :=
    congrArg Shared.taken hshared
  have hnot : ∀ marker : Item, marker.isMarker = true → marker ∉ s.taken := by
    intro marker hmarker hmem
    rw [htaken] at hmem
    rw [eq_of_mem_replicate hmem] at hmarker
    cases hmarker
  have hdeadline : s.deadline = 60 * second := congrArg Shared.deadline hshared
  have hnow : s.now = 0 := congrArg Shared.now hshared
  refine ⟨s, ⟨_, rfl, run_overrun.trans hrun⟩,
    ⟨⟨congrArg Shared.stream hshared, congrArg Shared.wait hshared⟩,
      congrArg Shared.ready hshared, congrArg Shared.queue hshared⟩,
    fun hreceived => hreceived.elim (hnot _ rfl) (hnot _ rfl),
    congrArg Shared.exitCode hshared, ?_, ?_⟩
  · rw [hnow]
    decide
  · apply timesOut_of_unaware hphase (congrArg Shared.containerExited hshared)
    rw [hnow, hdeadline]
    decide

end Codify.Worker.LogStream

import Codify.Harness.PiOwnerJournal

/-! # Reopening the Gate after a Drained Follow-up

    A follow-up that Pi accepts while the gate is closing arms a marker in the
    owner, and the next `agent_start` or `turn_start` record carries the marker
    to the translator. The backend reopens the gate on it.

    The marker is set by the dispatch coroutine and read by the read loop. The
    loop resolves the coroutine's future when it has read the response, but the
    coroutine only runs on when the loop waits: a `readline` that finds its line
    in the buffer and a `drain` below the high-water mark do not wait. So the
    steps of the two interleave freely, and the loop may take the next record
    before the coroutine has run on.
-/

namespace Codify.Harness.PiOwnerReopen

open Codify.Framework Option
open Codify.Framework.JsonText
open Codify.Harness.PiOwner (Dict Owner Future)

/-! ### State -/

/-- A line of Pi's stdout. -/
inductive Line where
  | record (record : Dict)
  /-- No JSON, or no dict. -/
  | other

/-- Where the read loop is. -/
inductive Loop where
  /-- In front of `readline`. -/
  | reading
  /-- The line is written to the translator and not handled any further. -/
  | draining (line : Line)
  | stopped

/-- `reopen_after`. -/
structure Marker where
  commandId : Json
  nativeId : String

/-- One owner with the queue between Pi and its read loop. -/
structure State where
  /-- The journals and the memory the control requests work on. -/
  core : PiOwner.State
  /-- What Pi has written and the loop has not read. -/
  stdout : List Line := []
  loop : Loop := .reading
  commandMetadata : List (String × JsonObject) := []
  reopenAfter : Option Marker := none
  /-- The dicts written to the translator. -/
  forwarded : List JsonObject := []

/-! ### The Read Loop -/

/-- The record with the metadata of the command it answers. -/
def annotateResponse (commandMetadata : List (String × JsonObject)) (record : JsonObject) :
    JsonObject :=
  if (record.get "type").isStr "response" then
    match (PiOwner.responseId record).bind fun id => commandMetadata.lookup id with
    | some metadata => record.set "__command_ack" (.obj metadata)
    | none => record
  else record

/-- `record.get("type") in {"agent_start", "turn_start"}`. -/
def isStart (record : JsonObject) : Bool :=
  (record.get "type").isStr "agent_start" || (record.get "type").isStr "turn_start"

/-- The value of `__pi_reopen_after`. -/
def Marker.toJson (m : Marker) : Json :=
  .obj [("command_id", m.commandId), ("native_id", .str m.nativeId)]

/-- The record with the marker, if one is armed and the record starts a turn. -/
def annotateStart (reopenAfter : Option Marker) (record : JsonObject) :
    JsonObject × Option Marker :=
  match reopenAfter with
  | some m =>
    if isStart record then (record.set "__pi_reopen_after" m.toJson, none)
    else (record, some m)
  | none => (record, none)

/-- The loop reads a line and writes it to the translator. An unhashable type ends the loop. -/
def State.take (s : State) : Line → State
  | .other => { s with loop := .draining .other }
  | .record d =>
    if (d.1.get "type").hashable then
      let (record, reopenAfter) :=
        annotateStart s.reopenAfter (annotateResponse s.commandMetadata d.1)
      { s with
        loop := .draining (.record d)
        reopenAfter
        forwarded := s.forwarded ++ [record] }
    else { s with loop := .stopped }

/-! ### The Dispatch Coroutine -/

/-- A closing follow-up that Pi has accepted and whose coroutine has not run on. -/
def acknowledged (o : Owner) : Option Marker := do
  let fl ← o.inflight
  match o.futures[fl.request]? with
  | some (.resolved response) =>
    if (response.get "success").truthy && (fl.frame.1.get "type").isStr "follow_up" &&
        (fl.frame.1.get "control_gate").isStr "closing" then
      some ⟨fl.frame.1.get "command_id", fl.nativeId⟩
    else none
  | _ => none

/-- The marker that the coroutine in flight is about to set. -/
def State.owed (s : State) : Option Marker := s.core.owner.bind acknowledged

section System

variable (F : FloatText)

/-- The entry of `command_metadata` that a dispatch writes. -/
def metadataOf (s : PiOwner.State) (frame : JsonObject) (now : String) :
    Option (String × JsonObject) :=
  match s.owner with
  | none => none
  | some o =>
    if (frame.get "type").isStr "close" then none
    else
      match PiOwner.prepare F s o frame with
      | .ok (_, nativeId) =>
        some (nativeId, [("command_id", frame.get "command_id"),
          ("sequence_no", frame.get "sequence_no"),
          ("payload_digest", frame.get "payload_digest"), ("_delivered_at", .str now)])
      | .error _ => none

/-- The steps. -/
inductive Label where
  /-- Pi writes a line. -/
  | emit (line : Line)
  /-- The loop reads a line and writes it to the translator. -/
  | take
  /-- The rest of the loop's body. -/
  | settle
  /-- `dispatch(frame)` up to its wait. -/
  | dispatch (frame : Dict) (now : String)
  /-- The dispatch in flight runs on. -/
  | resume
  /-- `stdin.drain()` raises in the dispatch in flight. -/
  | drainFailed
  | handshake (command : String) (message : Json)
  | timeout (request : Nat)
  /-- The translator exits. -/
  | fail
  /-- Pi exits. -/
  | exit
  /-- Pi's stdout ends. -/
  | eof
  /-- The loop ends with an error. -/
  | broken

/-- A step that only concerns the control requests. -/
def State.stepCore (s : State) (l : PiOwner.Label) : Option State :=
  (PiOwner.next F s.core l).map fun core => { s with core }

def next (s : State) : Label → Option State
  | .emit line => some { s with stdout := s.stdout ++ [line] }
  | .take =>
    match s.loop, s.stdout with
    | .reading, line :: stdout => some ({ s with stdout }.take line)
    | _, _ => none
  | .settle =>
    match s.loop with
    -- the metadata only adds a key that the coroutine does not read
    | .draining (.record d) => ({ s with loop := .reading }).stepCore F (.read d)
    | .draining .other => some { s with loop := .reading }
    | _ => none
  | .dispatch frame now =>
    (s.stepCore F (.dispatch frame none)).map fun s' =>
      match metadataOf F s.core frame.1 now with
      | some entry =>
        { s' with
          commandMetadata := entry :: s.commandMetadata.filter (·.1 ≠ entry.1) }
      | none => s'
  | .resume =>
    (s.stepCore F (.resume none)).map fun s' =>
      { s' with reopenAfter := s.owed.or s.reopenAfter }
  | .drainFailed => s.stepCore F .drainFailed
  | .handshake command message => s.stepCore F (.handshake command message)
  | .timeout request => s.stepCore F (.timeout request)
  | .fail => s.stepCore F .fail
  | .exit => s.stepCore F .exit
  | .eof =>
    match s.loop, s.stdout with
    | .reading, [] => ({ s with loop := .stopped }).stepCore F .eof
    | _, _ => none
  | .broken => do
    let s ← ({ s with loop := .stopped }).stepCore F .fail
    s.stepCore F .eof

/-- An owner that has just started over a runtime directory. -/
def reopenSystem : System State Label where
  init s := (∃ taskId attemptId, s.core.owner = some { taskId, attemptId }) ∧
    s = { core := s.core }
  next := next F

end System

/-! ### The Property -/

def State.startNext (s : State) : Bool :=
  match s.stdout with
  | .record d :: _ => isStart d.1
  | _ => false

theorem startNext_iff {s : State} : s.startNext = true ↔
    ∃ d rest, s.stdout = .record d :: rest ∧ isStart d.1 = true := by
  unfold State.startNext
  constructor
  · intro h
    split at h
    · next d rest hstdout => exact ⟨d, rest, hstdout, h⟩
    · cases h
  · rintro ⟨d, rest, hstdout, hd⟩
    rw [hstdout]
    exact hd

/-- The step takes a record that starts a turn. -/
def TakesStart (s : State) (l : Label) : Prop := l = .take ∧ s.startNext = true

/-- The loop has read Pi's acceptance of a closing follow-up. -/
def Acknowledges (F : FloatText) (s s' : State) (m : Marker) : Prop :=
  next F s .settle = some s' ∧ s.owed = none ∧ s'.owed = some m

/-- The coroutine of an accepted closing follow-up runs on before the loop takes a record that
    starts a turn, its own write does not fail meanwhile, and no other closing follow-up arms
    its marker while one is armed. -/
def InOrder (s : State) (l : Label) : Prop :=
  (TakesStart s l → s.owed = none) ∧ (l = .drainFailed → s.owed = none) ∧
    (l = .resume → s.owed ≠ none → s.reopenAfter = none)

/-! ### What Keeps the Debt -/

section Kept

variable {F : FloatText} {o o' : Owner} {m : Marker}

/-- The dispatch in flight is a closing follow-up with this identity, and its future holds
    Pi's acceptance. -/
theorem acknowledged_eq_some_iff : acknowledged o = some m ↔
    ∃ fl response, o.inflight = some fl ∧ o.futures[fl.request]? = some (.resolved response) ∧
      ((response.get "success").truthy && (fl.frame.1.get "type").isStr "follow_up" &&
        (fl.frame.1.get "control_gate").isStr "closing") = true ∧
      m = ⟨fl.frame.1.get "command_id", fl.nativeId⟩ := by
  unfold acknowledged
  constructor
  · intro h
    obtain ⟨fl, hfl, h⟩ := bind_eq_some_iff.mp h
    split at h
    · next response hfuture =>
      split at h
      · next hok => exact ⟨fl, response, hfl, hfuture, hok, (some.inj h).symm⟩
      · cases h
    · cases h
  · rintro ⟨fl, response, hfl, hfuture, hok, rfl⟩
    rw [hfl]
    show (match o.futures[fl.request]? with
      | some (.resolved response) => _
      | _ => none) = _
    rw [hfuture]
    exact if_pos hok

/-- A step that keeps the dispatch in flight and its resolved future keeps the debt. -/
theorem acknowledged_kept (h : acknowledged o = some m) (hfl : o'.inflight = o.inflight)
    (hfutures : ∀ (i : Nat) (r : JsonObject), o.futures[i]? = some (.resolved r) →
      o'.futures[i]? = some (.resolved r)) : acknowledged o' = some m := by
  obtain ⟨fl, response, hinflight, hfuture, hok, hm⟩ := acknowledged_eq_some_iff.mp h
  exact acknowledged_eq_some_iff.mpr
    ⟨fl, response, hfl.trans hinflight, hfutures _ _ hfuture, hok, hm⟩

theorem settle_resolved {futures : List Future} {i : Nat} {r : JsonObject}
    (h : futures[i]? = some (.resolved r)) (j : Nat) (result : Future) :
    (PiOwner.settle futures j result)[i]? = some (.resolved r) := by
  unfold PiOwner.settle
  split
  · next hwaiting =>
    have hne : j ≠ i := by
      rintro rfl
      rw [h] at hwaiting
      cases hwaiting
    rw [List.getElem?_set_ne hne]
    exact h
  · exact h

theorem read_kept (record : JsonObject) (h : acknowledged o = some m) :
    acknowledged (o.read record) = some m := by
  unfold Owner.read
  split
  · exact acknowledged_kept h rfl fun _ _ hr => hr
  · split
    · exact acknowledged_kept h rfl fun _ _ hr => settle_resolved hr _ _
    · exact h

theorem fail_kept (h : acknowledged o = some m) : acknowledged o.fail = some m := by
  refine acknowledged_kept h rfl ?_
  intro i r hr
  show (o.pending.foldl (fun futures p => PiOwner.settle futures p.2 .failed) o.futures)[i]? = _
  generalize o.pending = pending
  generalize o.futures = futures at hr
  induction pending generalizing futures with
  | nil => exact hr
  | cons p rest ih => exact ih _ (settle_resolved hr _ _)

theorem eof_kept (h : acknowledged o = some m) : acknowledged o.eof = some m := by
  unfold Owner.eof
  split
  · exact acknowledged_kept (fail_kept h) rfl fun _ _ hr => hr
  · exact acknowledged_kept h rfl fun _ _ hr => hr

/-- The lock keeps every other command out; the close marker only sets a flag. -/
theorem dispatch_kept {c c' : PiOwner.State} {frame : Dict} {cut : Option Nat}
    (ho : c.owner = some o) (h : acknowledged o = some m)
    (hn : PiOwner.next F c (.dispatch frame cut) = some c') :
    c'.owner.bind acknowledged = some m := by
  obtain ⟨fl, -, hfl, -⟩ := acknowledged_eq_some_iff.mp h
  have hkeep : c.owner.bind acknowledged = some m := by
    rw [ho]
    exact h
  unfold PiOwner.next at hn
  rw [ho] at hn
  simp only [PiOwner.stepOwner, hfl, isSome_some, true_and] at hn
  split at hn
  · cases hn
  next hclose =>
  cases hn
  unfold PiOwner.dispatch
  rw [if_pos (by simpa using hclose)]
  unfold PiOwner.dispatchClose
  split
  · exact hkeep
  · split
    · exact hkeep
    · exact acknowledged_kept h rfl fun _ _ hr => hr

/-- The steps of the owner between Pi's acceptance and the rest of the dispatch. -/
def Between : PiOwner.Label → Prop
  | .start _ _ | .crash | .resume _ | .drainFailed => False
  | _ => True

theorem core_kept {c c' : PiOwner.State} {l : PiOwner.Label} (hl : Between l)
    (h : c.owner.bind acknowledged = some m) (hn : PiOwner.next F c l = some c') :
    c'.owner.bind acknowledged = some m := by
  obtain ⟨o, ho, hack⟩ := bind_eq_some_iff.mp h
  have hstep : PiOwner.stepOwner F c o l = some c' := by
    unfold PiOwner.next at hn
    rw [ho] at hn
    exact hn
  cases l with
  | start taskId attemptId | crash | resume cut | drainFailed =>
    exact absurd hl (by simp [Between])
  | dispatch frame cut => exact dispatch_kept ho hack hn
  | handshake command message =>
    cases hstep
    refine acknowledged_kept hack rfl ?_
    intro i r hr
    obtain ⟨hi, -⟩ := List.getElem?_eq_some_iff.mp hr
    show (o.futures ++ [.waiting])[i]? = _
    rw [List.getElem?_append_left hi]
    exact hr
  | read record =>
    cases hstep
    exact read_kept record.1 hack
  | timeout request =>
    cases hstep
    exact acknowledged_kept hack rfl fun _ _ hr => settle_resolved hr _ _
  | fail =>
    cases hstep
    exact fail_kept hack
  | eof =>
    cases hstep
    exact eof_kept hack
  | exit =>
    cases hstep
    exact acknowledged_kept hack rfl fun _ _ hr => hr

end Kept

/-! ### The Marker Is in Place -/

section Reopen

variable {F : FloatText} {s s' : State} {m : Marker}

/-- The marker is set, or its coroutine is still about to set it. -/
def Armed (m : Marker) (s : State) : Prop := s.owed = some m ∨ s.reopenAfter = some m

theorem stepCore_eq_some {l : PiOwner.Label} (h : s.stepCore F l = some s') :
    ∃ core, PiOwner.next F s.core l = some core ∧ s' = { s with core } := by
  obtain ⟨core, hcore, rfl⟩ := map_eq_some_iff.mp h
  exact ⟨core, hcore, rfl⟩

theorem Armed.core {l : PiOwner.Label} (h : Armed m s) (hl : Between l)
    (hn : s.stepCore F l = some s') : Armed m s' := by
  obtain ⟨core, hcore, rfl⟩ := stepCore_eq_some hn
  rcases h with howed | hset
  · left
    exact core_kept hl howed hcore
  · right
    exact hset

theorem isStart_annotateResponse (metadata : List (String × JsonObject)) (record : JsonObject) :
    isStart (annotateResponse metadata record) = isStart record := by
  unfold annotateResponse
  split
  · split
    · simp [isStart]
    · rfl
  · rfl

theorem hashable_of_isStart {record : JsonObject} (h : isStart record = true) :
    (record.get "type").hashable = true := by
  unfold isStart at h
  cases htype : record.get "type" with
  | arr items | obj fields =>
    rw [htype] at h
    exact absurd h (by simp [Json.isStr, Json.asString])
  | _ => rfl

theorem annotateStart_other {record : JsonObject} (h : isStart record = false)
    (reopenAfter : Option Marker) : annotateStart reopenAfter record = (record, reopenAfter) := by
  cases reopenAfter with
  | none => rfl
  | some m =>
    show (if isStart record then _ else _) = _
    rw [if_neg (by simp [h])]

/-- The marker stays owed or set until a start is taken. -/
theorem Armed.step (h : Armed m s) {l : Label} (hguard : InOrder s l) (hother : ¬ TakesStart s l)
    (hn : next F s l = some s') : Armed m s' := by
  cases l with
  | emit line =>
    cases hn
    exact h
  | take =>
    unfold next at hn
    simp only at hn
    split at hn
    · next line stdout hloop hstdout =>
      cases hn
      cases line with
      | other => exact h
      | record d =>
        -- the record is no start, so the marker stays
        have hstart : isStart d.1 = false := by
          by_contra hne
          exact hother ⟨rfl, startNext_iff.mpr ⟨d, stdout, hstdout, by simpa using hne⟩⟩
        simp only [State.take]
        split
        · rw [annotateStart_other ((isStart_annotateResponse _ _).trans hstart)]
          exact h
        · exact h
    · cases hn
  | settle =>
    unfold next at hn
    simp only at hn
    split at hn
    · exact Armed.core (s := { s with loop := .reading }) h (by trivial) hn
    · cases hn
      exact h
    · cases hn
  | dispatch frame now =>
    obtain ⟨s₁, hcore, hs'⟩ := map_eq_some_iff.mp hn
    have harmed : Armed m s₁ := h.core (by trivial) hcore
    split at hs'
    · subst hs'
      exact harmed
    · subst hs'
      exact harmed
  | resume =>
    obtain ⟨s₁, hcore, rfl⟩ := map_eq_some_iff.mp hn
    right
    rcases h with howed | hset
    · show s.owed.or s.reopenAfter = _
      rw [howed]
      rfl
    · -- a second closing follow-up would overwrite the marker
      have hnone : s.owed = none := by
        by_contra hne
        have := hguard.2.2 rfl hne
        rw [hset] at this
        cases this
      show s.owed.or s.reopenAfter = _
      rw [hnone]
      exact hset
  | drainFailed =>
    obtain ⟨core, -, rfl⟩ := stepCore_eq_some hn
    rcases h with howed | hset
    · rw [hguard.2.1 rfl] at howed
      cases howed
    · right
      exact hset
  | handshake command message | timeout request | fail | exit => exact h.core (by trivial) hn
  | eof =>
    unfold next at hn
    simp only at hn
    split at hn
    · exact Armed.core (s := { s with loop := .stopped }) h (by trivial) hn
    · cases hn
  | broken =>
    obtain ⟨s₁, hfail, heof⟩ := bind_eq_some_iff.mp hn
    exact (Armed.core (s := { s with loop := .stopped }) h (by trivial) hfail).core (by trivial) heof

/-- The record that starts the next turn goes to the translator with what is armed. -/
theorem take_start (hstart : s.startNext = true) (hn : next F s .take = some s') :
    ∃ d rest, s.stdout = .record d :: rest ∧ isStart d.1 = true ∧
      s'.forwarded = s.forwarded ++
        [(annotateStart s.reopenAfter (annotateResponse s.commandMetadata d.1)).1] := by
  obtain ⟨d, rest, hstdout, hd⟩ := startNext_iff.mp hstart
  refine ⟨d, rest, hstdout, hd, ?_⟩
  unfold next at hn
  simp only [hstdout] at hn
  split at hn
  · next line stdout hloop heq =>
    obtain ⟨rfl, rfl⟩ := List.cons.inj heq
    cases hn
    simp only [State.take, hashable_of_isStart hd, if_true]
  · cases hn

theorem annotateResponse_get (metadata : List (String × JsonObject)) (record : JsonObject)
    {key : String} (hkey : key ≠ "__command_ack") :
    (annotateResponse metadata record).get key = record.get key := by
  unfold annotateResponse
  split
  · split
    · exact JsonObject.get_set_ne _ hkey _
    · rfl
  · rfl

end Reopen

/-! ### A Drained Follow-up Reopens the Gate -/

/-- Once the loop has read Pi's acceptance of a closing follow-up, the first record that starts
    a turn reaches the translator with the identity of that command, in every run that keeps
    the order. -/
theorem drained_follow_up_reopens (F : FloatText) {s s₁ s₂ s₃ : State} {m : Marker}
    (hack : Acknowledges F s s₁ m)
    (hrun : (reopenSystem F).Run (fun s l => InOrder s l ∧ ¬ TakesStart s l) s₁ s₂)
    (hguard : InOrder s₂ .take) (hstart : s₂.startNext = true)
    (hn : next F s₂ .take = some s₃) :
    ∃ record, s₃.forwarded = s₂.forwarded ++ [record] ∧
      record.get "__pi_reopen_after" = m.toJson := by
  have harmed : Armed m s₂ := by
    refine hrun.preserves ?_ (.inl hack.2.2)
    intro t l t' ht hg hstep
    exact ht.step hg.1 hg.2 hstep
  have hnone : s₂.owed = none := hguard.1 ⟨rfl, hstart⟩
  rcases harmed with howed | hset
  · rw [hnone] at howed
    cases howed
  · obtain ⟨d, rest, -, hd, hforwarded⟩ := take_start hstart hn
    have hann : isStart (annotateResponse s₂.commandMetadata d.1) = true :=
      (isStart_annotateResponse _ _).trans hd
    refine ⟨_, hforwarded, ?_⟩
    rw [hset, annotateStart, if_pos hann]
    exact JsonObject.get_set_self _ _ _

/-- A follow-up dispatched while the gate is closing. -/
def followUpFrame : JsonObject :=
  [("command_id", .str "c-1"), ("task_id", .int 7), ("attempt_id", .str "a-1"),
   ("control_gate", .str "closing"), ("sequence_no", .int 1), ("type", .str "follow_up"),
   ("payload", .obj [("text", .str "go on")]), ("native_request_id", .str "1000001")]

def acceptance : JsonObject :=
  [("type", .str "response"), ("id", .int 1000001), ("success", .bool true)]

def agentStart : JsonObject := [("type", .str "agent_start")]

def freshOwner : State := { core := { owner := some { taskId := some 7, attemptId := some "a-1" } } }

/-- The follow-up is dispatched, Pi accepts it and starts the turn, and the loop has read the
    acceptance. -/
def untilTaken : List Label :=
  [.dispatch ⟨followUpFrame, rfl⟩ "2025-01-01T00:00:00+00:00", .emit (.record ⟨acceptance, rfl⟩),
   .emit (.record ⟨agentStart, rfl⟩), .take]

def followUpMarker : Marker := ⟨.str "c-1", "1000001"⟩

/-- What a state owes and has armed, as far as it can be compared. -/
def identity (m : Marker) : Option String × String := (m.commandId.asString, m.nativeId)

theorem eq_of_identity {m : Marker} (h : identity m = (some "c-1", "1000001")) :
    m = followUpMarker := by
  obtain ⟨hcommand, hnative⟩ := Prod.mk.inj h
  have hid : m.commandId = .str "c-1" := Json.isStr_iff.mp (by rw [Json.isStr, hcommand]; rfl)
  cases m
  simp only at hid hnative
  rw [hid, hnative]
  rfl

/-- The coroutine runs on between the two records, and the turn carries the marker. -/
theorem drained_follow_up_reopens_in_order :
    ∃ s₂ s₃ : State, ∃ record : JsonObject, next .fraction s₂ .take = some s₃ ∧
      s₃.forwarded = s₂.forwarded ++ [record] ∧
      record.get "__pi_reopen_after" = followUpMarker.toJson := by
  have hrun : (((reopenSystem .fraction).exec freshOwner untilTaken).bind fun s =>
      (next .fraction s .settle).bind fun s₁ => (next .fraction s₁ .resume).bind fun s₂ =>
      (next .fraction s₂ .take).map fun _ =>
        (s.owed.isNone, s₁.owed.map identity, s₁.reopenAfter.isNone, s₂.owed.isNone,
          s₂.startNext)) =
      some (true, some (some "c-1", "1000001"), true, true, true) := by
    decide +kernel
  obtain ⟨s, -, hrun⟩ := bind_eq_some_iff.mp hrun
  obtain ⟨s₁, hsettle, hrun⟩ := bind_eq_some_iff.mp hrun
  obtain ⟨s₂, hresume, hrun⟩ := bind_eq_some_iff.mp hrun
  obtain ⟨s₃, htake, hrun⟩ := map_eq_some_iff.mp hrun
  simp only [Prod.mk.injEq, isNone_iff_eq_none] at hrun
  obtain ⟨howed, hidentity, hunset, howed₂, hstart⟩ := hrun
  obtain ⟨m, hm, hidentity⟩ := map_eq_some_iff.mp hidentity
  obtain rfl := eq_of_identity hidentity
  have hresumes : InOrder s₁ .resume ∧ ¬ TakesStart s₁ .resume := by
    refine ⟨⟨?_, ?_, fun _ _ => hunset⟩, ?_⟩
    · intro h
      cases h.1
    · intro h
      cases h
    · intro h
      cases h.1
  obtain ⟨record, hforwarded, hmarker⟩ :=
    drained_follow_up_reopens .fraction ⟨hsettle, howed, hm⟩
      (.step (.refl s₁) hresumes hresume) ⟨fun _ => howed₂, by simp, by simp⟩ hstart htake
  exact ⟨s₂, s₃, record, htake, hforwarded, hmarker⟩

def unmarked : Line → Bool
  | .record d => (d.1.get "__pi_reopen_after").isNull
  | .other => true

theorem isNull_iff {value : Json} : value.isNull = true ↔ value = .null := by
  cases value <;> simp [Json.isNull]

/-- The loop finds the next record in its buffer and takes it before the coroutine has run on:
    the turn starts without the marker. -/
theorem marker_set_too_late :
    ∃ s s₁ s₃ : State, ∃ record : JsonObject, (reopenSystem .fraction).Reachable System.anyStep s ∧
      Acknowledges .fraction s s₁ followUpMarker ∧ s₁.startNext = true ∧
      next .fraction s₁ .take = some s₃ ∧ s₃.forwarded = s₁.forwarded ++ [record] ∧
      record.get "__pi_reopen_after" = .null := by
  have hrun : (((reopenSystem .fraction).exec freshOwner untilTaken).bind fun s =>
      (next .fraction s .settle).bind fun s₁ => (next .fraction s₁ .take).map fun _ =>
        (s.owed.isNone, s₁.owed.map identity, s₁.reopenAfter.isNone, s₁.startNext,
          s₁.stdout.all unmarked)) =
      some (true, some (some "c-1", "1000001"), true, true, true) := by
    decide +kernel
  obtain ⟨s, hexec, hrun⟩ := bind_eq_some_iff.mp hrun
  obtain ⟨s₁, hsettle, hrun⟩ := bind_eq_some_iff.mp hrun
  obtain ⟨s₃, htake, hrun⟩ := map_eq_some_iff.mp hrun
  simp only [Prod.mk.injEq, isNone_iff_eq_none] at hrun
  obtain ⟨howed, hidentity, hunset, hstart, hunmarked⟩ := hrun
  obtain ⟨m, hm, hidentity⟩ := map_eq_some_iff.mp hidentity
  obtain rfl := eq_of_identity hidentity
  have hinit : (reopenSystem .fraction).init freshOwner := ⟨⟨some 7, some "a-1", rfl⟩, rfl⟩
  obtain ⟨d, rest, hstdout, -, hforwarded⟩ := take_start hstart htake
  refine ⟨s, s₁, s₃, _, System.reachable_of_exec hinit hexec, ⟨hsettle, howed, hm⟩, hstart, htake,
    hforwarded, ?_⟩
  have hd : unmarked (.record d) = true :=
    List.all_eq_true.mp hunmarked _ (by rw [hstdout]; exact List.mem_cons_self)
  rw [hunset]
  show (annotateResponse s₁.commandMetadata d.1).get "__pi_reopen_after" = .null
  rw [annotateResponse_get _ _ (by decide)]
  exact isNull_iff.mp hd

end Codify.Harness.PiOwnerReopen

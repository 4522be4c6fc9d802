import Codify.Framework.Coalesce
import Codify.Framework.JsonEquality
import Codify.Harness.PiEvents

/-! # Batched Deltas of OpenCode

    `_emit_message_delta` (deploy/worker-entrypoint/harness/adapters/opencode_events.py) writes the
    first fragment of a message at once and holds its continuation back until the batch is large
    or old, or until something else is written.

    * **Invariant**: what is written with what is held back has the runs of the fragments as they
      came (`Carries`).
    * **Result**: `delta_batching`.
-/

namespace Codify.Harness.OpenCodeDeltas

open Codify.Framework List Option
open Codify.Harness.PiEvents (Event attributed)

/-! ### Emitting -/

/-- `identity`: the message of a delta and the snapshot of its agent. -/
structure Identity where
  messageId : Json
  agent : Option JsonObject

/-- `_same_delta_identity`. -/
def sameDeltaIdentity (left right : Identity) : Bool :=
  left.messageId.pyEq right.messageId && decide (left.agent = right.agent)

/-- `pending_delta`. -/
structure PendingDelta where
  identity : Identity
  text : String
  firstRawLine : Nat
  lastRawLine : Nat
  firstMonotonic : Rat

/-- The events that are written, `pending_delta` and `last_delta_identity`. -/
structure Output where
  events : List Event := []
  pending : Option PendingDelta := none
  lastIdentity : Option Identity := none
  /-- How often the clock has been read. -/
  readings : Nat := 0

/-- `_DELTA_BATCH_MAX_BYTES`. -/
def deltaBatchMaxBytes : Nat := 1024

/-- `_DELTA_BATCH_MAX_AGE_SECONDS`. -/
def deltaBatchMaxAgeSeconds : Rat := 1 / 4

variable (agent : Option JsonObject)

/-- The event that is written for an agent. -/
def eventOf (type : String) (payload : JsonObject) (rawLine : Nat) : Event :=
  match agent with
  | some agent => ⟨type, attributed agent type payload, rawLine⟩
  | none => ⟨type, payload, rawLine⟩

/-- The event of a fragment. -/
def deltaEvent (content : String) (rawLine : Nat) : Event :=
  eventOf agent "message.delta" [("content", .str content), ("role", .str "assistant")] rawLine

/-- The event of a batch. -/
def PendingDelta.event (batch : PendingDelta) : Event :=
  deltaEvent batch.identity.agent batch.text batch.lastRawLine

namespace Output

/-- `_emit` behind its flush. -/
def write (o : Output) (event : Event) : Output := { o with events := o.events ++ [event] }

/-- `_flush_pending_delta`. -/
def flush (preserveIdentity : Bool) (o : Output) : Output :=
  match o.pending with
  | none => if preserveIdentity then o else { o with lastIdentity := none }
  | some batch =>
    { (if batch.text ≠ "" then o.write batch.event else o) with
      pending := none
      lastIdentity := if preserveIdentity then some batch.identity else none }

/-- `_emit`. -/
def emit (o : Output) (agent : Option JsonObject) (type : String) (payload : JsonObject)
    (rawLine : Nat) : Output :=
  (if type ≠ "message.delta" then o.flush false else o).write (eventOf agent type payload rawLine)

variable (monotonic : Nat → Rat) (content : String)

/-- A fragment joins the batch, which is flushed when it is large or old. -/
def extend (rawLine : Nat) (batch : PendingDelta) (o : Output) : Output :=
  let batch := { batch with text := batch.text ++ content, lastRawLine := rawLine }
  let o := { o with pending := some batch }
  if deltaBatchMaxBytes ≤ batch.text.utf8ByteSize then o.flush true
  else
    let now := monotonic o.readings
    let o := { o with readings := o.readings + 1 }
    if deltaBatchMaxAgeSeconds ≤ now - batch.firstMonotonic then o.flush true else o

/-- A fragment without a batch: it opens one if it continues the last delta. -/
def start (identity : Identity) (rawLine : Nat) (o : Output) : Output :=
  if o.lastIdentity.any fun last => sameDeltaIdentity last identity then
    { o with
      pending := some ⟨identity, content, rawLine, rawLine, monotonic o.readings⟩
      readings := o.readings + 1 }
  else
    { o.emit identity.agent "message.delta"
        [("content", .str content), ("role", .str "assistant")] rawLine with
      lastIdentity := some identity }

/-- `_emit_message_delta`. -/
def emitMessageDelta (messageId : Json) (rawLine : Nat) (agent : Option JsonObject) (o : Output) :
    Output :=
  if content = "" then o
  else
    match o.pending with
    | none => o.start monotonic content ⟨messageId, agent⟩ rawLine
    | some batch =>
      if sameDeltaIdentity batch.identity ⟨messageId, agent⟩ then
        o.extend monotonic content rawLine batch
      else (o.flush false).start monotonic content ⟨messageId, agent⟩ rawLine

end Output

/-! ### Calls -/

/-- A call of the translator. -/
inductive Call where
  /-- `_emit_message_delta`. -/
  | delta (content : String) (messageId : Json) (rawLine : Nat) (agent : Option JsonObject)
  /-- `_emit`. -/
  | emit (type : String) (payload : JsonObject) (rawLine : Nat) (agent : Option JsonObject)

variable (monotonic : Nat → Rat)

def Call.run (o : Output) : Call → Output
  | .delta content messageId rawLine agent =>
    o.emitMessageDelta monotonic content messageId rawLine agent
  | .emit type payload rawLine agent => o.emit agent type payload rawLine

variable (calls : List Call)

def runCalls : Output := calls.foldl (Call.run monotonic) {}

/-- The events once the last batch is flushed. -/
def batched : List Event := ((runCalls monotonic calls).flush false).events

/-- What a call writes when nothing is held back. -/
def Call.written : Call → List Event
  | .delta content _ rawLine agent =>
    if content = "" then [] else [deltaEvent agent content rawLine]
  | .emit type payload rawLine agent => [eventOf agent type payload rawLine]

def unbatched : List Event := calls.flatMap Call.written

/-! ### Runs of Deltas -/

def contentOf (event : Event) : String := (event.payload.get "content").asString.getD ""

/-- Deltas of one agent are joined. -/
def joins (a b : Event) : Bool :=
  a.type == "message.delta" && b.type == "message.delta" &&
    decide (a.payload.get "agent" = b.payload.get "agent")

/-- Two deltas as one: their contents one after the other, at the line of the second. -/
def join (a b : Event) : Event :=
  { a with
    payload := a.payload.set "content" (.str (contentOf a ++ contentOf b))
    rawLine := b.rawLine }

theorem set_set (d : JsonObject) (key : String) (value value' : Json) :
    (d.set key value).set key value' = d.set key value' := by
  induction d with
  | nil => simp [JsonObject.set]
  | cons p rest ih =>
    by_cases hkey : p.1 = key
    · simp [JsonObject.set, hkey]
    · simp [JsonObject.set, hkey, ih]

theorem contentOf_join (a b : Event) : contentOf (join a b) = contentOf a ++ contentOf b := by
  simp [contentOf, join, Json.asString]

/-- Runs of deltas of one agent. -/
def deltaRuns : Joining Event where
  joins
  join
  join_left a b c h := by
    simp only [joins, Bool.and_eq_true, decide_eq_true_eq] at h
    simp [joins, h.2, join, h.1.1, beq_iff_eq.mp h.1.2]
  join_right a b c h := by
    simp only [joins, Bool.and_eq_true, decide_eq_true_eq] at h
    simp [joins, join, beq_iff_eq.mp h.1.1]
  join_assoc a b c := by
    have hleft : join (join a b) c = { join a b with
        payload := a.payload.set "content" (.str (contentOf (join a b) ++ contentOf c))
        rawLine := c.rawLine } := by
      unfold join
      rw [set_set]
    rw [hleft, contentOf_join, String.append_assoc, ← contentOf_join b c]
    rfl

theorem agent_deltaEvent (content : String) (rawLine : Nat) :
    (deltaEvent agent content rawLine).payload.get "agent" =
      (agent.map Json.obj).getD .null := by
  cases agent with
  | none => rfl
  | some agent => rfl

theorem type_deltaEvent (content : String) (rawLine : Nat) :
    (deltaEvent agent content rawLine).type = "message.delta" := by
  cases agent with
  | none => rfl
  | some agent => rfl

theorem joins_deltaEvent (text content : String) (rawLine rawLine' : Nat) :
    joins (deltaEvent agent text rawLine) (deltaEvent agent content rawLine') = true := by
  unfold joins
  simp only [agent_deltaEvent, type_deltaEvent, beq_self_eq_true, decide_true, Bool.and_self]

/-- The fragments of an agent become the fragment of their contents. -/
theorem join_deltaEvent (text content : String) (rawLine rawLine' : Nat) :
    join (deltaEvent agent text rawLine) (deltaEvent agent content rawLine') =
      deltaEvent agent (text ++ content) rawLine' := by
  cases agent with
  | none => rfl
  | some agent => rfl

/-! ### The Invariant -/

variable {monotonic : Nat → Rat} {o : Output} {events : List Event} {calls : List Call}

def Output.held (o : Output) : List Event := (o.pending.map PendingDelta.event).toList

/-- What is written and held back has the runs of `events`, and a batch is not empty. -/
structure Carries (o : Output) (events : List Event) : Prop where
  runs : deltaRuns.coalesce (o.events ++ o.held) = deltaRuns.coalesce events
  filled : ∀ batch, o.pending = some batch → batch.text ≠ ""

theorem Carries.written (h : Carries o events) (hpending : o.pending = none) :
    deltaRuns.coalesce o.events = deltaRuns.coalesce events := by
  have hruns := h.runs
  rwa [Output.held, hpending, map_none, toList_none, append_nil] at hruns

theorem pending_flush (preserveIdentity : Bool) (o : Output) :
    (o.flush preserveIdentity).pending = none := by
  unfold Output.flush
  split
  · next hpending =>
    split
    · exact hpending
    · exact hpending
  · rfl

/-- A flush writes what is held back. -/
theorem Carries.flush (h : Carries o events) (preserveIdentity : Bool) :
    Carries (o.flush preserveIdentity) events := by
  unfold Output.flush
  split
  · split
    · exact h
    · exact ⟨h.runs, h.filled⟩
  · next batch hpending =>
    have hruns := h.runs
    rw [Output.held, hpending] at hruns
    refine ⟨?_, by simp⟩
    rw [if_pos (h.filled batch hpending)]
    simpa [Output.held, Output.write] using hruns

/-- What is written next comes behind everything else. -/
theorem Carries.write (h : Carries o events) (hpending : o.pending = none) (event : Event) :
    Carries (o.write event) (events ++ [event]) where
  runs := by
    rw [Output.held]
    simpa [Output.write, hpending] using deltaRuns.coalesce_append (h.written hpending) [event]
  filled := by simp [Output.write, hpending]

/-- **Emit**: any other event is written behind what was held back. -/
theorem Carries.emit (h : Carries o events) {type : String} (htype : type ≠ "message.delta")
    (agent : Option JsonObject) (payload : JsonObject) (rawLine : Nat) :
    Carries (o.emit agent type payload rawLine) (events ++ [eventOf agent type payload rawLine]) := by
  unfold Output.emit
  rw [if_pos htype]
  exact (h.flush false).write (pending_flush false o) _

/-- A fragment that joins the batch comes behind it. -/
theorem Carries.extend (h : Carries o events) {batch : PendingDelta} (hpending : o.pending = some batch)
    {content : String} (hcontent : content ≠ "") (rawLine : Nat) :
    Carries (o.extend monotonic content rawLine batch)
      (events ++ [deltaEvent batch.identity.agent content rawLine]) := by
  have hruns := h.runs
  rw [Output.held, hpending] at hruns
  have hnext := deltaRuns.coalesce_append hruns [deltaEvent batch.identity.agent content rawLine]
  have hjoin := deltaRuns.coalesce_join o.events
    (joins_deltaEvent batch.identity.agent batch.text content batch.lastRawLine rawLine)
  rw [show deltaRuns.join _ _ = _ from join_deltaEvent batch.identity.agent batch.text content
    batch.lastRawLine rawLine] at hjoin
  have hcarries : ∀ readings, Carries
      { o with
        pending := some { batch with text := batch.text ++ content, lastRawLine := rawLine }
        readings := readings }
      (events ++ [deltaEvent batch.identity.agent content rawLine]) :=
    fun readings => ⟨hjoin.symm.trans hnext, by simp [hcontent]⟩
  unfold Output.extend
  dsimp only
  split
  · exact (hcarries _).flush true
  · split
    · exact (hcarries _).flush true
    · exact hcarries _

/-- A fragment without a batch comes behind what is written. -/
theorem Carries.start (h : Carries o events) (hpending : o.pending = none) {content : String}
    (hcontent : content ≠ "") (identity : Identity) (rawLine : Nat) :
    Carries (o.start monotonic content identity rawLine)
      (events ++ [deltaEvent identity.agent content rawLine]) := by
  have hwrite := h.write hpending (deltaEvent identity.agent content rawLine)
  unfold Output.start
  split
  · refine ⟨?_, by simp [hcontent]⟩
    have hruns := hwrite.written hpending
    exact hruns
  · exact ⟨hwrite.runs, hwrite.filled⟩

/-- **Delta**: a fragment is carried on. -/
theorem Carries.emitMessageDelta (h : Carries o events) (content : String) (messageId : Json)
    (rawLine : Nat) (agent : Option JsonObject) :
    Carries (o.emitMessageDelta monotonic content messageId rawLine agent)
      (events ++ if content = "" then [] else [deltaEvent agent content rawLine]) := by
  unfold Output.emitMessageDelta
  by_cases hcontent : content = ""
  · rw [if_pos hcontent, if_pos hcontent, append_nil]
    exact h
  rw [if_neg hcontent, if_neg hcontent]
  split
  · next hpending => exact h.start hpending hcontent ⟨messageId, agent⟩ rawLine
  next batch hpending =>
  split
  · next hsame =>
    obtain ⟨-, hagent⟩ := Bool.and_eq_true_iff.mp hsame
    obtain rfl : batch.identity.agent = agent := of_decide_eq_true hagent
    exact h.extend hpending hcontent rawLine
  · exact (h.flush false).start (pending_flush false o) hcontent ⟨messageId, agent⟩ rawLine

/-! ### The Byte Limit -/

/-- A batch is shorter than the limit and a fragment that was sent. -/
def Bounded (calls : List Call) (o : Output) : Prop :=
  ∀ batch, o.pending = some batch → ∃ content messageId rawLine agent,
    Call.delta content messageId rawLine agent ∈ calls ∧
    batch.text.utf8ByteSize < deltaBatchMaxBytes + content.utf8ByteSize

theorem pending_emit (o : Output) (agent : Option JsonObject) (type : String) (payload : JsonObject)
    (rawLine : Nat) :
    (o.emit agent type payload rawLine).pending = o.pending ∨
      (o.emit agent type payload rawLine).pending = none := by
  unfold Output.emit
  split
  · exact .inr (pending_flush false o)
  · exact .inl rfl

/-- A fragment leaves no batch, a batch below the limit, or a batch of its own. -/
theorem pending_emitMessageDelta {content : String} {messageId : Json} {rawLine : Nat}
    {agent : Option JsonObject} {batch : PendingDelta}
    (h : (o.emitMessageDelta monotonic content messageId rawLine agent).pending = some batch) :
    o.pending = some batch ∨ batch.text.utf8ByteSize < deltaBatchMaxBytes ∨ batch.text = content := by
  have hstart : ∀ o : Output, o.pending = none →
      (o.start monotonic content ⟨messageId, agent⟩ rawLine).pending = some batch →
      batch.text = content := by
    intro o hnone hstarted
    unfold Output.start at hstarted
    split at hstarted
    · cases hstarted
      rfl
    · change o.pending = some batch at hstarted
      rw [hnone] at hstarted
      cases hstarted
  unfold Output.emitMessageDelta at h
  split at h
  · exact .inl h
  split at h
  · next hpending => exact .inr (.inr (hstart o hpending h))
  · split at h
    · unfold Output.extend at h
      dsimp only at h
      split at h
      · rw [pending_flush] at h
        cases h
      next hlimit =>
      split at h
      · rw [pending_flush] at h
        cases h
      · cases h
        exact .inr (.inl (not_le.mp hlimit))
    · exact .inr (.inr (hstart _ (pending_flush false o) h))

/-! ### The Result -/

/-- **Batching**: when no delta goes around `_emit_message_delta`, the batched events have the runs
    of the unbatched ones, and every batch stays below the limit and one fragment. -/
theorem delta_batching (monotonic : Nat → Rat) (calls : List Call)
    (hemit : ∀ type payload rawLine agent, Call.emit type payload rawLine agent ∈ calls →
      type ≠ "message.delta") :
    deltaRuns.coalesce (batched monotonic calls) = deltaRuns.coalesce (unbatched calls) ∧
      ∀ before after, calls = before ++ after → Bounded before (runCalls monotonic before) := by
  have hrun : ∀ before after, calls = before ++ after →
      Carries (runCalls monotonic before) (unbatched before) ∧
        Bounded before (runCalls monotonic before) := by
    intro before
    induction before using reverseRecOn with
    | nil => exact fun _ _ => ⟨⟨rfl, by simp [runCalls]⟩, by simp [Bounded, runCalls]⟩
    | append_singleton before call ih =>
      intro after hcalls
      obtain ⟨hcarries, hbounded⟩ := ih (call :: after) (by rw [hcalls, append_assoc]; rfl)
      have hmem : call ∈ calls := by simp [hcalls]
      have hnext : runCalls monotonic (before ++ [call]) =
          Call.run monotonic (runCalls monotonic before) call := foldl_append ..
      have hwritten : unbatched (before ++ [call]) = unbatched before ++ call.written := by
        simp [unbatched]
      have hkept : ∀ batch, (runCalls monotonic before).pending = some batch → ∃ content messageId
          rawLine agent, Call.delta content messageId rawLine agent ∈ before ++ [call] ∧
            batch.text.utf8ByteSize < deltaBatchMaxBytes + content.utf8ByteSize := by
        intro batch hpending
        obtain ⟨content, messageId, rawLine, agent, hsent, hless⟩ := hbounded batch hpending
        exact ⟨content, messageId, rawLine, agent, mem_append_left _ hsent, hless⟩
      rw [hnext, hwritten]
      cases call with
      | delta content messageId rawLine agent =>
        refine ⟨hcarries.emitMessageDelta content messageId rawLine agent, ?_⟩
        intro batch hpending
        rcases pending_emitMessageDelta hpending with hsame | hless | htext
        · exact hkept batch hsame
        · exact ⟨content, messageId, rawLine, agent, by simp, by omega⟩
        · refine ⟨content, messageId, rawLine, agent, by simp, ?_⟩
          rw [htext, deltaBatchMaxBytes]
          omega
      | emit type payload rawLine agent =>
        refine ⟨hcarries.emit (hemit _ _ _ _ hmem) agent payload rawLine, ?_⟩
        intro batch hpending
        rcases pending_emit (runCalls monotonic before) agent type payload rawLine with hsame | hnone
        · exact hkept batch (hsame ▸ hpending)
        · rw [Call.run, hnone] at hpending
          cases hpending
  refine ⟨?_, fun before after hcalls => (hrun before after hcalls).2⟩
  obtain ⟨hcarries, -⟩ := hrun calls [] (append_nil calls).symm
  exact (hcarries.flush false).written (pending_flush false _)

/-- Two fragments of a message, and another call. -/
def streamed (last : Call) : List Call :=
  [.delta "a" (.str "m") 1 none, .delta "b" (.str "m") 2 none, last]

theorem delta_batching_completed :
    deltaRuns.coalesce (batched (fun _ => 0) (streamed (.emit "message.completed" [] 3 none))) =
      deltaRuns.coalesce (unbatched (streamed (.emit "message.completed" [] 3 none))) := by
  refine (delta_batching (fun _ => 0) _ ?_).1
  intro type payload rawLine agent hmem
  simp only [streamed, mem_cons, not_mem_nil, or_false, reduceCtorEq, false_or,
    Call.emit.injEq] at hmem
  rw [hmem.1]
  decide

/-- A delta that is emitted directly overtakes the batch: `acb` for `abc`. -/
theorem direct_delta_overtakes :
    deltaRuns.coalesce (batched (fun _ => 0)
        (streamed (.emit "message.delta" [("content", .str "c")] 3 none))) ≠
      deltaRuns.coalesce
        (unbatched (streamed (.emit "message.delta" [("content", .str "c")] 3 none))) :=
  fun h => absurd (congrArg (List.map contentOf) h) (by decide +kernel)

end Codify.Harness.OpenCodeDeltas

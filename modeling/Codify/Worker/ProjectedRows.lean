import Codify.Framework.Json

/-! # Projected Rows

    The rows of `task_logs` that `WorkerEventProjector`
    (app/core/worker_event_projector.py) rewrites in place: live assistant text,
    thinking placeholders and tool calls. A rewrite changes the metadata of a row
    only. The texts, the ids of payloads and the times that it writes are given.

    The last section says when the log stream takes a row for finished.
-/

namespace Codify.Worker

open Codify.Framework Option JsonObject

/-- `TaskLog.log_type`. -/
inductive LogType where
  | toolCall
  | thinking
  | assistantText
  | other (name : String)
  deriving DecidableEq

/-- One row of `task_logs`; `log_metadata` is NULL or an object. -/
structure TaskLog where
  id : Nat
  logType : LogType
  message : String := ""
  createdAt : Int := 0
  metadata : Option JsonObject := none

variable (row : TaskLog)

/-- The metadata, `{}` when there is none. -/
def TaskLog.fields : JsonObject := row.metadata.getD []

def TaskLog.withFields (fields : JsonObject) : TaskLog := { row with metadata := some fields }

/-! ### Rewrites -/

/-- What `create_payload` and `_preview` make of a text; no payload for an empty one. -/
structure StoredText where
  payloadId : Option Nat
  preview : String
  charCount : Nat
  truncated : Bool

def StoredText.fields (text : StoredText) : JsonObject :=
  [("payload_id", (text.payloadId.map fun id => Json.int id).getD .null),
    ("char_count", .int text.charCount), ("preview", .str text.preview),
    ("truncated", .bool text.truncated)]

/-- `duration_ms`. -/
def durationField (duration : Option Int) : Json := (duration.map Json.int).getD .null

/-- What a `tool.completed` event brings. -/
structure ToolCompletion where
  error : Bool
  /-- The id, the truncation and the length of the output, when there is one. -/
  output : Option (Nat × Bool × Nat)
  subagent : Option JsonObject
  /-- The native or the observed time of the end. -/
  endedAt : String
  endedAt_ne : endedAt ≠ ""
  nativeEnd : Bool
  duration : Option Int
  exitCode : Option Json
  errorMessage : Option String

def setSome (fields : JsonObject) (key : String) (value : Option Json) : JsonObject :=
  match value with
  | some value => fields.set key value
  | none => fields

/-- The metadata of a completed tool call. -/
def ToolCompletion.rewrite (done : ToolCompletion) (fields : JsonObject) : JsonObject :=
  let fields := fields.set "error" (.bool done.error)
  let fields :=
    match done.output with
    | some (id, truncated, length) =>
      fields.update [("output_payload_id", .int id), ("output_truncated", .bool truncated),
        ("output_char_count", .int length)]
    | none => fields
  let fields := setSome fields "subagent" (done.subagent.map Json.obj)
  let fields := fields.set "ended_at" (.str done.endedAt)
  let native := fields.get "duration_source" matches .str "native"
  let fields :=
    fields.set "duration_source" (.str (if native && done.nativeEnd then "native" else "observed"))
  let fields := setSome fields "duration_ms" (done.duration.map Json.int)
  let fields := setSome fields "exit_code" done.exitCode
  setSome fields "error_message" (done.errorMessage.map Json.str)

/-- A rewrite of one row. -/
inductive Rewrite where
  /-- `_project_message_delta` on a live row. -/
  | messageDelta (preview : String) (charCount : Nat) (truncated : Bool)
  /-- `_finalize_message_log`. -/
  | finalizeMessage (text : StoredText) (agent : Option JsonObject)
  /-- `_interrupt_streaming_messages`. -/
  | interruptMessage
  /-- `_finalize_thinking_row`. -/
  | finalizeThinking (text : StoredText) (endedAt : String) (duration : Option Int)
  /-- `_interrupt_thinking_rows` and `reasoning_summary.interrupted`. -/
  | interruptThinking (observedAt : String)
  /-- `_project_tool_completed`. -/
  | completeTool (done : ToolCompletion)
  /-- `_settle_open_delegations`. -/
  | settleDelegation

/-- `metadata.get("streaming") is True`. -/
def TaskLog.streaming (row : TaskLog) : Bool := row.fields.get "streaming" matches .bool true

/-- `metadata.get("status") == status`. -/
def TaskLog.hasStatus (status : String) : Bool :=
  match row.fields.get "status" with
  | .str text => text == status
  | _ => false

/-- The rewritten row; `none` when the projector leaves it alone. -/
def Rewrite.apply (rewrite : Rewrite) (row : TaskLog) : Option TaskLog :=
  match rewrite, row.logType with
  | .messageDelta preview charCount truncated, .assistantText =>
    if row.streaming then
      some (row.withFields (row.fields.update [("streaming", .bool true), ("preview", .str preview),
        ("char_count", .int charCount), ("truncated", .bool truncated)]))
    else none
  | .finalizeMessage text agent, .assistantText =>
    if row.streaming then
      some (row.withFields
        (setSome ((row.fields.update text.fields).erase "streaming") "agent" (agent.map Json.obj)))
    else none
  | .interruptMessage, .assistantText =>
    if row.streaming then
      some (row.withFields
        (row.fields.update [("streaming", .bool false), ("interrupted", .bool true)]))
    else none
  | .finalizeThinking text endedAt duration, .thinking =>
    if row.hasStatus "completed" then none
    else
      some (row.withFields ((row.fields.update text.fields).update [("status", .str "completed"),
        ("ended_at", .str endedAt), ("duration_ms", durationField duration)]))
  | .interruptThinking observedAt, .thinking =>
    if row.hasStatus "in_progress" then
      some (row.withFields (row.fields.update [("status", .str "interrupted"),
        ("ended_at", .str observedAt), ("duration_ms", .null)]))
    else none
  | .completeTool done, .toolCall => some (row.withFields (done.rewrite row.fields))
  | .settleDelegation, .toolCall =>
    match row.fields.get "subagent" with
    | .obj subagent =>
      if (JsonObject.get subagent "status").truthy then none
      else
        some (row.withFields (row.fields.set "subagent"
          (.obj (JsonObject.set subagent "status" (.str "cancelled")))))
    | _ => none
  | _, _ => none

/-! ### Completion -/

/-- `metadata.get("ended_at")`. -/
def TaskLog.ended : Bool := (row.fields.get "ended_at").truthy

/-- `metadata.get("status") in ("completed", "interrupted")`. -/
def TaskLog.settled : Bool := row.hasStatus "completed" || row.hasStatus "interrupted"

variable {rewrite : Rewrite} {row row' : TaskLog}

/-- The rows agree but for the metadata. -/
structure SameRow (row row' : TaskLog) : Prop where
  id : row'.id = row.id
  logType : row'.logType = row.logType
  message : row'.message = row.message
  createdAt : row'.createdAt = row.createdAt

theorem SameRow.refl (row : TaskLog) : SameRow row row := ⟨rfl, rfl, rfl, rfl⟩

theorem SameRow.trans {row'' : TaskLog} (h : SameRow row row') (h' : SameRow row' row'') :
    SameRow row row'' :=
  ⟨h'.id.trans h.id, h'.logType.trans h.logType, h'.message.trans h.message,
    h'.createdAt.trans h.createdAt⟩

theorem sameRow_withFields (row : TaskLog) (fields : JsonObject) :
    SameRow row (row.withFields fields) := ⟨rfl, rfl, rfl, rfl⟩

theorem get_setSome_ne {fields : JsonObject} {key key' : String} {value : Option Json}
    (h : key' ≠ key) : (setSome fields key value).get key' = fields.get key' := by
  unfold setSome
  split
  · exact get_set_ne _ h _
  · rfl

/-- Which rows a rewrite is for, and how it leaves them. -/
def Rewrite.Effect (rewrite : Rewrite) (row row' : TaskLog) : Prop :=
  match rewrite with
  | .messageDelta .. | .finalizeMessage .. | .interruptMessage =>
    row.logType = .assistantText ∧ row.streaming = true
  | .finalizeThinking .. => row.logType = .thinking ∧ row'.settled = true
  | .interruptThinking _ =>
    row.logType = .thinking ∧ row.hasStatus "in_progress" = true ∧ row'.settled = true
  | .completeTool _ => row.logType = .toolCall ∧ row'.ended = true
  | .settleDelegation => row.logType = .toolCall ∧ row'.ended = row.ended

theorem ended_of_rewrite (done : ToolCompletion) (fields : JsonObject) :
    ((done.rewrite fields).get "ended_at").truthy = true := by
  unfold ToolCompletion.rewrite
  dsimp only
  rw [get_setSome_ne (by decide), get_setSome_ne (by decide), get_setSome_ne (by decide),
    get_set_ne _ (by decide), get_set_self]
  simpa [Json.truthy] using done.endedAt_ne

theorem settled_of_status {fields : JsonObject} (status : String)
    (h : fields.get "status" = .str status) (hstatus : status = "completed" ∨ status = "interrupted") :
    (row.withFields fields).settled = true := by
  unfold TaskLog.settled TaskLog.hasStatus TaskLog.withFields TaskLog.fields
  dsimp only [getD_some]
  rw [h]
  rcases hstatus with rfl | rfl
  · rfl
  · rfl

/-- **Rewrites**: one row of its kind, and only the metadata. -/
theorem Rewrite.apply_spec (h : rewrite.apply row = some row') :
    SameRow row row' ∧ rewrite.Effect row row' := by
  unfold Rewrite.apply at h
  split at h
  · next htype =>
    obtain ⟨hstreaming, hrow⟩ := ite_none_right_eq_some.mp h
    rw [← some.inj hrow]
    exact ⟨sameRow_withFields _ _, htype, hstreaming⟩
  · next htype =>
    obtain ⟨hstreaming, hrow⟩ := ite_none_right_eq_some.mp h
    rw [← some.inj hrow]
    exact ⟨sameRow_withFields _ _, htype, hstreaming⟩
  · next htype =>
    obtain ⟨hstreaming, hrow⟩ := ite_none_right_eq_some.mp h
    rw [← some.inj hrow]
    exact ⟨sameRow_withFields _ _, htype, hstreaming⟩
  · next text endedAt duration htype =>
    obtain ⟨-, hrow⟩ := ite_none_left_eq_some.mp h
    rw [← some.inj hrow]
    refine ⟨sameRow_withFields _ _, htype, settled_of_status "completed" ?_ (by simp)⟩
    simp [update]
  · next observedAt htype =>
    obtain ⟨hopen, hrow⟩ := ite_none_right_eq_some.mp h
    rw [← some.inj hrow]
    refine ⟨sameRow_withFields _ _, htype, hopen, settled_of_status "interrupted" ?_ (by simp)⟩
    simp [update]
  · next done htype =>
    rw [← some.inj h]
    exact ⟨sameRow_withFields _ _, htype, ended_of_rewrite done row.fields⟩
  · next htype =>
    split at h
    · next subagent hsubagent =>
      obtain ⟨-, hrow⟩ := ite_none_left_eq_some.mp h
      rw [← some.inj hrow]
      refine ⟨sameRow_withFields _ _, htype, ?_⟩
      unfold TaskLog.ended TaskLog.withFields TaskLog.fields
      dsimp only [getD_some]
      rw [get_set_ne _ (by decide)]
    · cases h
  · cases h

theorem streaming_of_apply (h : rewrite.apply row = some row') (htype : row.logType = .assistantText) :
    row.streaming = true := by
  obtain ⟨-, heffect⟩ := Rewrite.apply_spec h
  cases rewrite with
  | messageDelta preview charCount truncated => exact heffect.2
  | finalizeMessage text agent => exact heffect.2
  | interruptMessage => exact heffect.2
  | finalizeThinking text endedAt duration | interruptThinking observedAt | completeTool done
  | settleDelegation =>
    rw [heffect.1] at htype; cases htype

theorem not_open_of_settled (h : row.settled = true) : row.hasStatus "in_progress" = false := by
  unfold TaskLog.settled TaskLog.hasStatus at h
  unfold TaskLog.hasStatus
  cases hstatus : row.fields.get "status" with
  | str text =>
    rw [hstatus] at h
    by_cases htext : text = "in_progress"
    · subst htext
      revert h
      decide
    · simpa using htext
  | null => rfl
  | bool b => rfl
  | int n => rfl
  | float x => rfl
  | arr items => rfl
  | obj fields => rfl

end Codify.Worker

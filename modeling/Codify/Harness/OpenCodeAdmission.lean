import Codify.Harness.Protocol

/-! # Session Admission of the OpenCode Bridge

    `_record_session_id`, `_record_session_identity` and `_SessionAdmission` of
    adapters/opencode_bridge.py. The server's event stream is global: it carries
    the records of every session, and the bridge lets through those of its root
    session and of the sessions that descend from it.

    * **Readers**: the session a record belongs to, and the session and parent a
      lifecycle record declares. The two look in different places.
    * **Links**: a session is linked to the root once a chain of declarations from
      the root to it has been seen.
    * **Admission**: the registered sessions are exactly the linked ones.
-/

namespace Codify.Harness.OpenCodeBridge

open Codify.Framework Codify.Harness List

/-! ### Reading Records -/

/-- `isinstance(value, str) and value.strip()`, stripped. -/
def sessionText (value : Json) : Option String :=
  match value.asString with
  | none => none
  | some text => if strip text = "" then none else some (strip text)

variable (parents : List String) (record : JsonObject)

/-- `record.get("type") in {"session.created", "session.updated", "session.deleted"}`. -/
def isLifecycle : Bool :=
  ["session.created", "session.updated", "session.deleted"].any (record.get "type").isStr

/-- The values under `sessionID` and `sessionId` of a dict. -/
def sessionKeys (value : Json) : List Json :=
  match value.asObject with
  | none => []
  | some fields => [fields.get "sessionID", fields.get "sessionId"]

/-- The places of a container where the session id may stand, in order. -/
def sessionPlaces (container : Json) : List Json :=
  match container.asObject with
  | none => []
  | some fields =>
    sessionKeys container ++ sessionKeys (fields.get "part") ++ sessionKeys (fields.get "info") ++
      match (fields.get "info").asObject with
      | none => []
      | some info => if isLifecycle record then [info.get "id"] else []

/-- `_record_session_id`. -/
def recordSessionId : Option String :=
  (sessionPlaces record (record.get "properties") ++
    sessionPlaces record (record.get "data")).findSome? sessionText

/-- The session and the parent one container of a lifecycle record declares. -/
def containerIdentity (container : Json) : Option (String × Option String) :=
  match container.asObject with
  | none => none
  | some fields =>
    let info := (fields.get "info").asObject.getD fields
    let sessionId := ((info.get "id").orElse (info.get "sessionID")).orElse (info.get "sessionId")
    let parentId := (info.get "parentID").orElse (info.get "parentId")
    match sessionText sessionId with
    | none => none
    | some id => some (id, sessionText parentId)

/-- `_record_session_identity`; `none` stands for `(None, None)`. -/
def recordSessionIdentity : Option (String × Option String) :=
  if isLifecycle record then
    match containerIdentity (record.get "properties") with
    | some identity => some identity
    | none => containerIdentity (record.get "data")
  else none

/-- The parent and the child a record declares. -/
def Declares (parent child : String) : Prop :=
  recordSessionIdentity record = some (child, some parent)

/-! ### Links -/

/-- A session is linked to the root by the declarations of `seen`, parents before children. -/
inductive Linked (root : String) : List JsonObject → String → Prop where
  | root (seen : List JsonObject) : Linked root seen root
  | child {before after : List JsonObject} {record : JsonObject} {parent child : String}
      (hparent : Linked root before parent) (hdeclares : Declares record parent child) :
      Linked root (before ++ record :: after) child

/-- A record of the root or of a session linked to it, or a liveness record of the server;
    `seen` ends with the record. -/
def Own (root : String) (seen : List JsonObject) (record : JsonObject) : Prop :=
  match recordSessionId record with
  | some session => Linked root seen session
  | none => (record.get "type").isStr "server.connected" ∨ (record.get "type").isStr "server.heartbeat"

def Foreign (root : String) (seen : List JsonObject) (record : JsonObject) : Prop :=
  ∃ session, recordSessionId record = some session ∧ ¬ Linked root seen session

section Links

variable {root : String}

/-- A link is by the declarations before the last record, or the last record makes it. -/
theorem linked_concat {seen : List JsonObject} {record : JsonObject} {session : String} :
    Linked root (seen ++ [record]) session ↔
      Linked root seen session ∨ ∃ parent, Linked root seen parent ∧ Declares record parent session := by
  constructor
  · generalize hall : seen ++ [record] = all
    intro h
    cases h with
    | root => exact .inl (.root seen)
    | @child before after declaring parent _ hparent hdeclares =>
      rcases eq_nil_or_concat after with rfl | ⟨init, last, rfl⟩
      · obtain ⟨rfl, hlast⟩ := append_inj' hall rfl
        obtain ⟨rfl, -⟩ := List.cons.inj hlast
        exact .inr ⟨parent, hparent, hdeclares⟩
      · rw [concat_eq_append, ← cons_append, ← append_assoc] at hall
        obtain ⟨rfl, -⟩ := append_inj' hall rfl
        exact .inl (.child hparent hdeclares)
  · rintro (h | ⟨parent, hparent, hdeclares⟩)
    · cases h with
      | root => exact .root _
      | child hparent hdeclares =>
        rw [append_assoc, cons_append]
        exact .child hparent hdeclares
    · exact .child hparent hdeclares

end Links

/-! ### Admission -/

/-- `_SessionAdmission.register` on the registered ids: the id is new, its parent is
    registered. -/
def newSession : Option String :=
  match recordSessionIdentity record with
  | some (session, some parent) =>
    if session ∈ parents then none else if parent ∈ parents then some session else none
  | _ => none

def register : List String := parents ++ (newSession parents record).toList

/-- `_SessionAdmission.admits`. -/
def admits : Bool :=
  match recordSessionId record with
  | some session => parents.contains session
  | none => (record.get "type").isStr "server.connected" || (record.get "type").isStr "server.heartbeat"

/-- The registered sessions are the linked ones. -/
def Registered (root : String) (seen : List JsonObject) (parents : List String) : Prop :=
  ∀ session, session ∈ parents ↔ Linked root seen session

section Admission

variable {root : String} {seen : List JsonObject} {parents : List String} {record : JsonObject}

theorem newSession_eq_some_iff {session : String} :
    newSession parents record = some session ↔
      session ∉ parents ∧ ∃ parent ∈ parents, Declares record parent session := by
  unfold newSession Declares
  constructor
  · intro h
    split at h
    · next child parent hidentity =>
      by_cases hnew : child ∈ parents
      · rw [if_pos hnew] at h
        exact nomatch h
      by_cases hparent : parent ∈ parents
      · rw [if_neg hnew, if_pos hparent] at h
        cases h
        exact ⟨hnew, parent, hparent, hidentity⟩
      · rw [if_neg hnew, if_neg hparent] at h
        exact nomatch h
    · exact nomatch h
  · rintro ⟨hnew, parent, hparent, hidentity⟩
    rw [hidentity]
    show (if session ∈ parents then none else if parent ∈ parents then some session else none) = _
    rw [if_neg hnew, if_pos hparent]

theorem registered_root : Registered root [] [root] := by
  intro session
  constructor
  · intro h
    rw [mem_singleton.mp h]
    exact .root []
  · intro h
    generalize hseen : ([] : List JsonObject) = seen at h
    cases h with
    | root => exact mem_singleton_self root
    | child hparent hdeclares => exact absurd hseen.symm (by simp)

theorem registered_register (h : Registered root seen parents) :
    Registered root (seen ++ [record]) (register parents record) := by
  intro session
  rw [linked_concat, register, mem_append, Option.mem_toList, newSession_eq_some_iff, h session]
  constructor
  · rintro (hold | ⟨-, parent, hparent, hdeclares⟩)
    · exact .inl hold
    · exact .inr ⟨parent, (h parent).mp hparent, hdeclares⟩
  · rintro (hold | ⟨parent, hparent, hdeclares⟩)
    · exact .inl hold
    · by_cases hold : Linked root seen session
      · exact .inl hold
      · exact .inr ⟨fun hmem => hold hmem, parent, (h parent).mpr hparent, hdeclares⟩

theorem admits_iff (h : Registered root seen parents) :
    admits parents record = true ↔ Own root seen record := by
  unfold admits Own
  split
  · next session hsession => rw [contains_iff_mem, h session]
  · next hsession => rw [Bool.or_eq_true]

end Admission

end Codify.Harness.OpenCodeBridge

import Codify.Harness.EventValidation

/-! # How Validation Fails

    `validate_event_by_schema` is to fail with a `HarnessProtocolError` only. It asks
    five sets for a value of the event that may be a list or a dict, and it reads the
    usage of a usage event with `.get` whatever it is. The interpreter adds limits of
    its own: the scan for hidden reasoning goes down the stack with the nesting of
    the payload, and `str` and `repr` do not print every value.

    * **Rules**: `Declared` for a computation and what it calls (`declared_bind_iff`).
    * **Values**: the values that raise another error when they are reached
      (`BadValue`).
    * **Limits**: the validators within an `Interpreter`, which agree with the others
      until a limit is reached (`validateWithin_eq`).
    * **Result**: `validation_declared_iff`.
-/

namespace Codify.Harness.ValidationErrors

open Codify.Framework Codify.Harness Codify.Harness.EventValidation

variable {α β : Type} {py : Python} {event payload : JsonObject} {schema eventType : String}
  {v2 : Bool} {value : Json}

/-! ### Declared Errors -/

/-- A `HarnessProtocolError`. -/
def declared : EventError → Bool
  | .protocol .. => true
  | _ => false

/-- The computation returns, or raises a `HarnessProtocolError`. -/
def Declared (x : Except EventError α) : Prop := ∀ e, x = .error e → declared e = true

theorem declared_ok (a : α) : Declared (.ok a : Except EventError α) := nofun

theorem declared_pure (a : α) : Declared (pure a : Except EventError α) := declared_ok a

theorem declared_protocolError (message : String) :
    Declared (.error (protocolError message) : Except EventError α) := by
  intro e he
  rw [← Except.error.inj he]
  rfl

theorem declared_require {condition : Bool} {e : EventError} (he : declared e = true) :
    Declared (require condition e) := by
  unfold require
  split
  · exact declared_ok ()
  · intro e' he'
    rw [← Except.error.inj he']
    exact he

theorem declared_bind_iff {x : Except EventError α} {f : α → Except EventError β} :
    Declared (x >>= f) ↔ Declared x ∧ ∀ a, x = .ok a → Declared (f a) := by
  cases x with
  | error e =>
    constructor
    · intro h
      exact ⟨fun e' he' => h e' (congrArg Except.error (Except.error.inj he')), nofun⟩
    · rintro ⟨h, -⟩ e' he'
      exact h e' (congrArg Except.error (Except.error.inj he'))
  | ok a =>
    constructor
    · intro h
      refine ⟨declared_ok a, ?_⟩
      intro a' ha'
      cases ha'
      exact h
    · rintro ⟨-, h⟩
      exact h a rfl

theorem declared_bind {x : Except EventError α} {f : α → Except EventError β} (hx : Declared x)
    (hf : ∀ a, Declared (f a)) : Declared (x >>= f) := declared_bind_iff.mpr ⟨hx, fun a _ => hf a⟩

theorem declared_forM {check : String → Except EventError Unit} (h : ∀ key, Declared (check key))
    (keys : List String) : Declared (keys.forM check) := by
  induction keys with
  | nil => exact declared_ok ()
  | cons key keys ih => exact declared_bind (h key) fun _ => ih

theorem declared_memberOf_iff {strings : List String} :
    Declared (memberOf value strings) ↔ value.hashable = true := by
  unfold memberOf
  split
  · next h => exact iff_of_true (declared_ok _) h
  next h =>
  refine iff_of_false ?_ h
  intro hdeclared
  cases hdeclared _ rfl

/-! ### Checks without a Set -/

theorem declared_validateIdentityText (value : Json) (field : String) :
    Declared (validateIdentityText value field) := by
  unfold validateIdentityText
  split
  · exact declared_require rfl
  · exact declared_protocolError _

theorem declared_rejectUnknownKeys (value : JsonObject) (allowed : List String) (field : String) :
    Declared (rejectUnknownKeys value allowed field) := declared_require rfl

theorem declared_validateAgentRef (value : Json) (field : String) :
    Declared (validateAgentRef value field) := by
  unfold validateAgentRef
  split
  · exact declared_protocolError _
  · refine declared_bind (declared_rejectUnknownKeys _ _ _) fun _ => ?_
    refine declared_bind (declared_require rfl) fun _ => ?_
    refine declared_bind (declared_validateIdentityText _ _) fun _ => ?_
    refine declared_bind (declared_validateIdentityText _ _) fun _ => ?_
    refine declared_bind (declared_validateIdentityText _ _) fun _ => ?_
    exact declared_require rfl

theorem declared_validateUsageNumbers (usage : JsonObject) (field : String) :
    Declared (validateUsageNumbers usage field) := by
  unfold validateUsageNumbers
  refine declared_bind (declared_forM (fun _ => declared_require rfl) _) fun _ => ?_
  exact declared_bind (declared_require rfl) fun _ => declared_require rfl

theorem declared_validateSubagentUsage (value : Json) (field : String) :
    Declared (validateSubagentUsage value field) := by
  unfold validateSubagentUsage
  split
  · exact declared_protocolError _
  · refine declared_bind (declared_rejectUnknownKeys _ _ _) fun _ => ?_
    exact declared_validateUsageNumbers _ _

theorem declared_parseTimestamp (py : Python) (value : Json) : Declared (parseTimestamp py value) := by
  unfold parseTimestamp
  split
  · exact declared_protocolError _
  · refine declared_bind (declared_require rfl) fun _ => ?_
    split
    · exact declared_protocolError _
    · exact declared_require rfl

theorem declared_validateRawRef (value : Json) : Declared (validateRawRef value) := by
  unfold validateRawRef
  split
  · exact declared_ok ()
  · split
    · exact declared_protocolError _
    · exact declared_bind (declared_require rfl) fun _ => declared_require rfl

theorem declared_validateV2Harness (harness : JsonObject) :
    Declared (validateV2Harness harness) := by
  unfold validateV2Harness
  split
  · exact declared_protocolError _
  · refine declared_bind (declared_require rfl) fun _ => ?_
    refine declared_bind (declared_require rfl) fun _ => ?_
    split
    · exact declared_protocolError _
    · exact declared_bind (declared_require rfl) fun _ => declared_require rfl

theorem declared_validateHarness (value : Json) (v2 : Bool) :
    Declared (validateHarness value v2) := by
  unfold validateHarness
  split
  · exact declared_protocolError _
  · refine declared_bind (declared_forM (fun _ => declared_require rfl) _) fun _ => ?_
    refine declared_bind ?_ fun _ => declared_ok _
    unfold onlyIf
    split
    · exact declared_validateV2Harness _
    · exact declared_ok ()

theorem declared_validatePayload (value : Json) : Declared (validatePayload value) := by
  unfold validatePayload
  split
  · exact declared_protocolError _
  · exact declared_bind (declared_require rfl) fun _ => declared_ok _

theorem declared_validateEnvelope (py : Python) (event : JsonObject) (schema : String) :
    Declared (validateEnvelope py event schema) := by
  unfold validateEnvelope
  refine declared_bind (declared_require rfl) fun _ => ?_
  refine declared_bind (declared_require rfl) fun _ => ?_
  refine declared_bind (declared_require rfl) fun _ => ?_
  refine declared_bind (declared_require rfl) fun _ => ?_
  refine declared_bind (declared_require rfl) fun _ => ?_
  exact declared_bind (declared_parseTimestamp _ _) fun _ => declared_require rfl

theorem declared_normalizeEventType (text : String) (payload : JsonObject) (rawRef : Json)
    (extra : List String) : Declared (normalizeEventType text payload rawRef extra) := by
  unfold normalizeEventType
  split
  · exact declared_ok _
  · split
    · intro e he
      rw [← Except.error.inj he]
      rfl
    · exact declared_ok _

/-! ### Values That Raise -/

/-- The payload names neither an agent nor a subagent. -/
def Unattributed (payload : JsonObject) : Prop :=
  (payload.get "agent").isNull = true ∧ (payload.get "subagent").isNull = true

/-- A subagent that is fine up to its status, which is a list or a dict. -/
def BadSubagent (value : Json) : Prop :=
  ∃ subagent, value.asObject = some subagent ∧
    rejectUnknownKeys subagent subagentRefKeys "payload.subagent" = .ok () ∧
    validateIdentityText (subagent.get "id") "payload.subagent.id" = .ok () ∧
    validateIdentityText (subagent.get "parent_id") "payload.subagent.parent_id" = .ok () ∧
    validateIdentityText (subagent.get "role") "payload.subagent.role" = .ok () ∧
    (subagent.get "status").hashable = false

/-- A failure whose kind is a list or a dict. -/
def BadFailure (payload : JsonObject) : Prop :=
  ∃ failure, (payload.get "failure").asObject = some failure ∧
    (failure.get "kind").hashable = false

/-- A value of the payload that raises another error, where the checks before it pass. -/
inductive BadValue (v2 : Bool) (payload : JsonObject) : String → Prop where
  /-- A usage that is truthy and no dict. -/
  | usage {eventType : String} (htype : eventType = "usage.updated" ∨ eventType = "usage.final")
      (htruthy : (payload.get "usage").truthy = true)
      (hobject : (payload.get "usage").asObject = none) : BadValue v2 payload eventType
  | rejectionCode (hv2 : v2 = true)
      (hkeys : requireKeys "control.command.rejected" payload
        ["command_id", "payload_digest", "sequence_no", "rejection_code"] = .ok ())
      (hmessage : (payload.get "rejection_message").asString.isSome = true)
      (hcode : (payload.get "rejection_code").hashable = false) :
      BadValue v2 payload "control.command.rejected"
  | subagent {eventType : String} (htype : eventType ∈ delegationEventTypes)
      (hagent : (payload.get "agent").isNull = true ∨
        validateAgentRef (payload.get "agent") "payload.agent" = .ok ())
      (hsubagent : BadSubagent (payload.get "subagent")) : BadValue v2 payload eventType
  | runStatus (hagents : Unattributed payload) (hstatus : (payload.get "status").hashable = false) :
      BadValue v2 payload "run.failed"
  | runFailure (hagents : Unattributed payload)
      (hstatus : memberOf (payload.get "status") ["failed", "cancelled", "protocol_error"] = .ok true)
      (hsuccess : payload.get "success" = .bool false) (hfailure : BadFailure payload) :
      BadValue v2 payload "run.failed"
  | harnessFailure (hagents : Unattributed payload) (hfailure : BadFailure payload) :
      BadValue v2 payload "harness.failed"

theorem isNull_iff : value.isNull = true ↔ value = .null := by
  cases value with
  | null => exact iff_of_true rfl rfl
  | _ => exact iff_of_false (by nofun) (by nofun)

theorem declared_usageSource_iff : Declared (usageSource value) ↔
    ¬ (value.truthy = true ∧ value.asObject = none) := by
  unfold usageSource
  by_cases htruthy : value.truthy = true
  · rw [htruthy]
    cases hobject : value.asObject with
    | none =>
      refine iff_of_false (fun h => ?_) (fun h => h ⟨rfl, rfl⟩)
      cases h _ rfl
    | some source => exact iff_of_true (declared_ok _) nofun
  · rw [Bool.not_eq_true] at htruthy
    rw [htruthy]
    exact iff_of_true (declared_ok _) nofun

theorem declared_normalizeUsage_iff : Declared (normalizeUsage value) ↔
    ¬ (value.truthy = true ∧ value.asObject = none) := by
  rw [← declared_usageSource_iff]
  unfold normalizeUsage
  rw [declared_bind_iff]
  refine and_iff_left fun source _ => ?_
  refine declared_bind (declared_validateUsageNumbers _ _) fun _ => ?_
  exact declared_bind (declared_require rfl) fun _ => declared_ok _

theorem declared_knownFailure_iff : Declared (knownFailure value) ↔
    ∀ failure, value.asObject = some failure → (failure.get "kind").hashable = true := by
  unfold knownFailure
  cases value.asObject with
  | none => exact iff_of_true (declared_ok _) nofun
  | some failure =>
    dsimp only
    rw [declared_memberOf_iff]
    constructor
    · intro h other hother
      rw [← Option.some.inj hother]
      exact h
    · intro h
      exact h failure rfl

theorem declared_knownFailure : Declared (knownFailure (payload.get "failure")) ↔
    ¬ BadFailure payload := by
  rw [declared_knownFailure_iff]
  constructor
  · rintro h ⟨failure, hfailure, hkind⟩
    rw [h failure hfailure] at hkind
    cases hkind
  · intro h failure hfailure
    by_contra hkind
    exact h ⟨failure, hfailure, Bool.eq_false_iff.mpr hkind⟩

theorem declared_validateDelegationSubagent_iff :
    Declared (validateDelegationSubagent value "payload.subagent") ↔ ¬ BadSubagent value := by
  unfold validateDelegationSubagent BadSubagent
  cases hobject : value.asObject with
  | none =>
    refine iff_of_true (declared_protocolError _) ?_
    rintro ⟨subagent, hsubagent, -⟩
    cases hsubagent
  | some subagent =>
    dsimp only
    have hrest : ∀ status : Json, Declared (do
        if !status.isNull then
          let known ← memberOf status subagentStatuses
          require known
            (protocolError s!"payload.subagent.status must be one of ['cancelled', 'completed', 'failed']")
        if !(subagent.get "usage").isNull then
          validateSubagentUsage (subagent.get "usage") "payload.subagent.usage") ↔
        status.hashable = true := by
      intro status
      have husage : Declared (if !(subagent.get "usage").isNull then
          validateSubagentUsage (subagent.get "usage") "payload.subagent.usage" else pure ()) := by
        split
        · exact declared_validateSubagentUsage _ _
        · exact declared_ok ()
      by_cases hnull : status.isNull = true
      · rw [isNull_iff] at hnull
        subst hnull
        exact iff_of_true (declared_bind (declared_ok ()) fun _ => husage) rfl
      · have hbranch : (!status.isNull) = true := by simpa using hnull
        rw [if_pos hbranch, declared_bind_iff, declared_memberOf_iff]
        refine and_iff_left fun known _ => ?_
        exact declared_bind (declared_require rfl) fun _ => husage
    constructor
    · rintro h ⟨other, hother, hkeys, hid, hparent, hrole, hstatus⟩
      cases hother
      have h := (declared_bind_iff.mp h).2 () hkeys
      have h := (declared_bind_iff.mp h).2 () hid
      have h := (declared_bind_iff.mp h).2 () hparent
      have h := (declared_bind_iff.mp h).2 () hrole
      rw [(hrest (subagent.get "status")).mp h] at hstatus
      cases hstatus
    · intro h
      refine declared_bind_iff.mpr ⟨declared_rejectUnknownKeys _ _ _, fun _ hkeys => ?_⟩
      refine declared_bind_iff.mpr ⟨declared_validateIdentityText _ _, fun _ hid => ?_⟩
      refine declared_bind_iff.mpr ⟨declared_validateIdentityText _ _, fun _ hparent => ?_⟩
      refine declared_bind_iff.mpr ⟨declared_validateIdentityText _ _, fun _ hrole => ?_⟩
      refine (hrest (subagent.get "status")).mpr ?_
      by_contra hstatus
      exact h ⟨subagent, rfl, hkeys, hid, hparent, hrole, Bool.eq_false_iff.mpr hstatus⟩

/-! ### Rules -/

theorem not_badSubagent_of_isNull (h : value.isNull = true) : ¬ BadSubagent value := by
  rw [isNull_iff] at h
  subst h
  rintro ⟨subagent, hsubagent, -⟩
  cases hsubagent

theorem delegation_attributed {eventType : String} (h : eventType ∈ delegationEventTypes) :
    eventType ∈ agentAttributedEventTypes := by
  have hall : ∀ t ∈ delegationEventTypes, t ∈ agentAttributedEventTypes := by decide
  exact hall eventType h

theorem declared_validateAgentAttribution_iff :
    Declared (validateAgentAttribution eventType payload) ↔
      ¬ (eventType ∈ delegationEventTypes ∧ ((payload.get "agent").isNull = true ∨
          validateAgentRef (payload.get "agent") "payload.agent" = .ok ()) ∧
        BadSubagent (payload.get "subagent")) := by
  have htail : Declared (if (!(payload.get "subagent").isNull) = true then do
        require (eventType ∈ delegationEventTypes)
          (protocolError s!"{eventType} must not carry payload.subagent")
        validateDelegationSubagent (payload.get "subagent") "payload.subagent"
      else pure ()) ↔
      ¬ (eventType ∈ delegationEventTypes ∧ BadSubagent (payload.get "subagent")) := by
    by_cases hnull : (payload.get "subagent").isNull = true
    · rw [hnull]
      exact iff_of_true (declared_ok ()) fun h => not_badSubagent_of_isNull hnull h.2
    · have hbranch : (!(payload.get "subagent").isNull) = true := by simpa using hnull
      rw [if_pos hbranch, declared_bind_iff, declared_validateDelegationSubagent_iff,
        and_iff_right (declared_require rfl)]
      simp only [require_eq_ok_iff, decide_eq_true_eq, not_and, forall_const]
  unfold validateAgentAttribution
  dsimp only
  by_cases hagent : (payload.get "agent").isNull = true
  · rw [hagent]
    exact htail.trans (by simp)
  · have hbranch : (!(payload.get "agent").isNull) = true := by simpa using hagent
    rw [if_pos hbranch, declared_bind_iff, and_iff_right (declared_require rfl)]
    constructor
    · rintro h ⟨htype, href, hbad⟩
      have hattributed : require (eventType ∈ agentAttributedEventTypes)
          (protocolError s!"{eventType} must not carry payload.agent") = .ok () := by
        rw [require_eq_ok_iff, decide_eq_true_eq]
        exact delegation_attributed htype
      have h := (declared_bind_iff.mp (h () hattributed)).2 () (href.resolve_left hagent)
      exact htail.mp h ⟨htype, hbad⟩
    · intro h _ _
      rw [declared_bind_iff]
      refine ⟨declared_validateAgentRef _ _, fun _ href => htail.mpr ?_⟩
      rintro ⟨htype, hbad⟩
      exact h ⟨htype, .inr href, hbad⟩

theorem declared_requireKeys (eventType : String) (payload : JsonObject) (keys : List String) :
    Declared (requireKeys eventType payload keys) := declared_forM (fun _ => declared_require rfl) _

theorem declared_validateControlEvent_iff (htype : eventType ∈ controlEventTypes) :
    Declared (validateControlEvent eventType payload) ↔
      ¬ (eventType = "control.command.rejected" ∧
        requireKeys "control.command.rejected" payload
          ["command_id", "payload_digest", "sequence_no", "rejection_code"] = .ok () ∧
        (payload.get "rejection_message").asString.isSome = true ∧
        (payload.get "rejection_code").hashable = false) := by
  unfold validateControlEvent
  simp only [controlEventTypes, List.mem_cons, List.not_mem_nil, or_false] at htype
  rcases htype with rfl | rfl | rfl
  · refine iff_of_true ?_ fun h => absurd h.1 (by decide)
    exact declared_bind (declared_requireKeys _ _ _) fun _ => declared_ok ()
  · rw [if_neg (by decide), if_pos rfl, declared_bind_iff,
      and_iff_right (declared_requireKeys _ _ _)]
    constructor
    · rintro h ⟨-, hkeys, hmessage, hcode⟩
      have h := (declared_bind_iff.mp (h () hkeys)).2 () (require_eq_ok_iff.mpr hmessage)
      rw [declared_memberOf_iff.mp (declared_bind_iff.mp h).1] at hcode
      cases hcode
    · intro h _ hkeys
      rw [declared_bind_iff]
      refine ⟨declared_require rfl, fun _ hmessage => ?_⟩
      rw [declared_bind_iff, declared_memberOf_iff]
      constructor
      · by_contra hcode
        exact h ⟨rfl, hkeys, require_eq_ok_iff.mp hmessage, Bool.eq_false_iff.mpr hcode⟩
      · intro known _
        exact declared_bind (declared_require rfl) fun _ => declared_ok ()
  · refine iff_of_true ?_ fun h => absurd h.1 (by decide)
    exact declared_require rfl

theorem success_of_unsuccessful (h : (match value with
    | .bool false => true
    | _ => false) = true) : value = .bool false := by
  split at h
  · rfl
  · cases h

theorem declared_validateEventPayload_iff :
    Declared (validateEventPayload eventType payload) ↔
      ¬ (eventType = "run.failed" ∧ ((payload.get "status").hashable = false ∨
          memberOf (payload.get "status") ["failed", "cancelled", "protocol_error"] = .ok true ∧
            payload.get "success" = .bool false ∧ BadFailure payload)) ∧
        ¬ (eventType = "harness.failed" ∧ BadFailure payload) := by
  unfold validateEventPayload
  dsimp only
  by_cases hrun : eventType = "run.failed"
  · subst hrun
    have hother : ¬ ("run.failed" = "harness.failed" ∧ BadFailure payload) :=
      fun h => absurd h.1 (by decide)
    rw [if_neg (by decide), if_neg (by decide), if_neg (by decide), if_pos rfl, declared_bind_iff,
      declared_memberOf_iff, and_iff_left hother]
    constructor
    · rintro ⟨hstatus, h⟩ ⟨-, hbad | ⟨hknown, hsuccess, hfailure⟩⟩
      · rw [hstatus] at hbad
        cases hbad
      · have h := (declared_bind_iff.mp (h true hknown)).2 () rfl
        rw [hsuccess] at h
        have h := (declared_bind_iff.mp h).2 () rfl
        exact declared_knownFailure.mp (declared_bind_iff.mp h).1 hfailure
    · intro h
      have hstatus : (payload.get "status").hashable = true := by
        by_contra hbad
        exact h ⟨rfl, .inl (Bool.eq_false_iff.mpr hbad)⟩
      refine ⟨hstatus, fun known hknown => ?_⟩
      refine declared_bind_iff.mpr ⟨declared_require rfl, fun _ htrue => ?_⟩
      refine declared_bind_iff.mpr ⟨declared_require rfl, fun _ hunsuccessful => ?_⟩
      refine declared_bind_iff.mpr ⟨declared_knownFailure.mpr fun hfailure => ?_,
        fun _ _ => declared_require rfl⟩
      rw [require_eq_ok_iff] at htrue hunsuccessful
      subst htrue
      exact h ⟨rfl, .inr ⟨hknown, success_of_unsuccessful hunsuccessful, hfailure⟩⟩
  by_cases hharness : eventType = "harness.failed"
  · subst hharness
    rw [if_neg (by decide), if_neg (by decide), if_neg (by decide), if_neg (by decide), if_pos rfl,
      declared_bind_iff, and_iff_left (fun _ _ => declared_require rfl), declared_knownFailure,
      and_iff_right (fun h => absurd h.1 (by decide))]
    exact ⟨fun h hbad => h hbad.2, fun h hbad => h ⟨rfl, hbad⟩⟩
  · refine iff_of_true ?_ ⟨fun h => hrun h.1, fun h => hharness h.1⟩
    split
    · exact declared_require rfl
    · split
      · exact declared_require rfl
      · split
        · exact declared_bind (declared_require rfl) fun _ => declared_require rfl
        · exact declared_ok ()

/-- The control events are no others of the events that have rules. -/
theorem control_apart : ∀ t ∈ controlEventTypes, t ∉ delegationEventTypes ∧ t ∉ knownEventTypes ∧
    t ≠ "run.failed" ∧ t ≠ "harness.failed" := by decide

theorem usage_apart (h : eventType = "usage.updated" ∨ eventType = "usage.final") :
    eventType ∉ controlEventTypes ∧ eventType ∉ delegationEventTypes ∧ eventType ≠ "run.failed" ∧
      eventType ≠ "harness.failed" := by
  rcases h with rfl | rfl <;> decide

/-- Only a delegation and a failure hold a value that may raise. -/
theorem declared_plain (payload : JsonObject) (hdelegation : eventType ∉ delegationEventTypes)
    (hrun : eventType ≠ "run.failed") (hharness : eventType ≠ "harness.failed") :
    Declared (validateAgentAttribution eventType payload) ∧
      Declared (validateEventPayload eventType payload) := by
  rw [declared_validateAgentAttribution_iff, declared_validateEventPayload_iff]
  exact ⟨fun h => hdelegation h.1, fun h => hrun h.1, fun h => hharness h.1⟩

/-- A type that may not be attributed passes only without agent and subagent. -/
theorem unattributed_iff (h : eventType ∉ agentAttributedEventTypes) :
    validateAgentAttribution eventType payload = .ok () ↔ Unattributed payload := by
  have hsub : eventType ∉ delegationEventTypes := fun hmem => h (delegation_attributed hmem)
  unfold validateAgentAttribution Unattributed
  dsimp only
  cases (payload.get "agent").isNull with
  | false => simp [h]
  | true =>
    cases (payload.get "subagent").isNull with
    | false => simp [hsub]
    | true => simp

theorem onlyIf_control (h : eventType ∉ controlEventTypes) :
    onlyIf (v2 && decide (eventType ∈ controlEventTypes)) (validateControlEvent eventType payload) =
      .ok () := by
  rw [decide_eq_false h, Bool.and_false]
  rfl

/-- Every error of the payload rules is declared, unless a value is bad. -/
theorem declared_rules_iff (hknown : eventType ∈ controlEventTypes → v2 = true)
    (husage : ¬ (eventType = "usage.updated" ∨ eventType = "usage.final")) :
    Declared (validatePayloadRules v2 eventType payload) ↔ ¬ BadValue v2 payload eventType := by
  unfold validatePayloadRules
  by_cases hcontrol : eventType ∈ controlEventTypes
  · obtain ⟨hdelegation, -, hrun, hharness⟩ := control_apart eventType hcontrol
    have hplain := declared_plain payload hdelegation hrun hharness
    have hv2 := hknown hcontrol
    subst hv2
    -- a control event runs its own check, and no other rule is about it
    have honly : onlyIf (true && decide (eventType ∈ controlEventTypes))
        (validateControlEvent eventType payload) = validateControlEvent eventType payload := by
      rw [decide_eq_true hcontrol]
      rfl
    rw [honly, declared_bind_iff, declared_validateControlEvent_iff hcontrol,
      and_iff_left fun _ _ => declared_bind hplain.1 fun _ => hplain.2, not_iff_not]
    constructor
    · rintro ⟨rfl, hkeys, hmessage, hcode⟩
      exact .rejectionCode rfl hkeys hmessage hcode
    · intro hbad
      cases hbad with
      | usage htype => exact absurd htype husage
      | rejectionCode hv2 hkeys hmessage hcode => exact ⟨rfl, hkeys, hmessage, hcode⟩
      | subagent htype => exact absurd htype hdelegation
      | runStatus | runFailure | harnessFailure => exact absurd hcontrol (by decide)
  · rw [onlyIf_control hcontrol]
    show Declared (validateAgentAttribution eventType payload >>= fun _ => _) ↔ _
    rw [declared_bind_iff, declared_validateAgentAttribution_iff]
    constructor
    · rintro ⟨hattribution, hpayload⟩ hbad
      have hrun : eventType ∉ agentAttributedEventTypes → Unattributed payload →
          Declared (validateEventPayload eventType payload) :=
        fun hnot hagents => hpayload () ((unattributed_iff hnot).mpr hagents)
      cases hbad with
      | usage htype => exact husage htype
      | rejectionCode => exact hcontrol (by decide)
      | subagent htype hagent hsubagent => exact hattribution ⟨htype, hagent, hsubagent⟩
      | runStatus hagents hstatus =>
        exact (declared_validateEventPayload_iff.mp (hrun (by decide) hagents)).1
          ⟨rfl, .inl hstatus⟩
      | runFailure hagents hstatus hsuccess hfailure =>
        exact (declared_validateEventPayload_iff.mp (hrun (by decide) hagents)).1
          ⟨rfl, .inr ⟨hstatus, hsuccess, hfailure⟩⟩
      | harnessFailure hagents hfailure =>
        exact (declared_validateEventPayload_iff.mp (hrun (by decide) hagents)).2 ⟨rfl, hfailure⟩
    · intro hgood
      refine ⟨fun h => hgood (.subagent h.1 h.2.1 h.2.2), ?_⟩
      intro _ hattribution
      rw [declared_validateEventPayload_iff]
      constructor
      · rintro ⟨rfl, hbad⟩
        have hagents := (unattributed_iff (by decide)).mp hattribution
        rcases hbad with hstatus | ⟨hstatus, hsuccess, hfailure⟩
        · exact hgood (.runStatus hagents hstatus)
        · exact hgood (.runFailure hagents hstatus hsuccess hfailure)
      · rintro ⟨rfl, hfailure⟩
        exact hgood (.harnessFailure ((unattributed_iff (by decide)).mp hattribution) hfailure)

theorem known_of_badValue (h : BadValue v2 payload eventType) :
    eventType ∈ knownEventTypes ∨ eventType ∈ extraTypes v2 := by
  cases h with
  | usage htype =>
    rcases htype with rfl | rfl
    · exact .inl (by decide)
    · exact .inl (by decide)
  | rejectionCode hv2 =>
    subst hv2
    exact .inr (by decide)
  | subagent htype =>
    left
    have hall : ∀ t ∈ delegationEventTypes, t ∈ knownEventTypes := by decide
    exact hall eventType htype
  | runStatus | runFailure | harnessFailure => exact .inl (by decide)

theorem not_badValue_diagnostic : ¬ BadValue v2 payload "diagnostic" := by
  intro h
  generalize htype : "diagnostic" = eventType at h
  cases h with
  | usage h => subst htype; exact absurd h (by decide)
  | subagent h => subst htype; exact absurd h (by decide)
  | rejectionCode | runStatus | runFailure | harnessFailure => exact absurd htype (by decide)

theorem v2_of_control (h : eventType ∈ knownEventTypes ∨ eventType ∈ extraTypes v2)
    (hcontrol : eventType ∈ controlEventTypes) : v2 = true := by
  cases v2 with
  | true => rfl
  | false =>
    have hknown : eventType ∈ knownEventTypes := h.resolve_right List.not_mem_nil
    exact absurd hknown (control_apart eventType hcontrol).2.1

theorem declared_typed_iff (h : eventType ∈ knownEventTypes ∨ eventType ∈ extraTypes v2) :
    (Declared (normalizePayload eventType payload) ∧
      ∀ normalized, normalizePayload eventType payload = .ok normalized →
        Declared (validatePayloadRules v2 eventType normalized)) ↔
      ¬ BadValue v2 payload eventType := by
  by_cases husage : eventType = "usage.updated" ∨ eventType = "usage.final"
  · obtain ⟨hcontrol, hdelegation, hrun, hharness⟩ := usage_apart husage
    have hrules : ∀ normalized, Declared (validatePayloadRules v2 eventType normalized) := by
      intro normalized
      obtain ⟨hattribution, hpayload⟩ := declared_plain normalized hdelegation hrun hharness
      rw [validatePayloadRules, onlyIf_control hcontrol]
      exact declared_bind (declared_ok ()) fun _ => declared_bind hattribution fun _ => hpayload
    rw [and_iff_left fun normalized _ => hrules normalized]
    unfold normalizePayload
    rw [if_pos husage, declared_bind_iff, and_iff_left fun _ _ => declared_pure _,
      declared_normalizeUsage_iff, not_iff_not]
    constructor
    · rintro ⟨htruthy, hobject⟩
      exact .usage husage htruthy hobject
    · intro hbad
      cases hbad with
      | usage _ htruthy hobject => exact ⟨htruthy, hobject⟩
      | rejectionCode | runStatus | runFailure | harnessFailure => exact absurd husage (by decide)
      | subagent htype => exact absurd htype hdelegation
  · have hnormal : normalizePayload eventType payload = .ok payload := if_neg husage
    rw [hnormal, and_iff_right (declared_ok _), ← declared_rules_iff (v2_of_control h) husage]
    simp

/-! ### The Whole Event -/

/-- An event of one of the two schemas that passes the checks of its envelope. -/
def Passes (py : Python) (event : JsonObject) (schema : String) (v2 : Bool) (payload : JsonObject) :
    Prop :=
  (event.get "schema").isStr schema = true ∧ validateEnvelope py event schema = .ok () ∧
    (∃ harness, validateHarness (event.get "harness") v2 = .ok harness) ∧
    validatePayload (event.get "payload") = .ok payload ∧
    validateRawRef (event.get "raw_ref") = .ok ()

/-- A value of the event raises another error. -/
def Mistyped (py : Python) (event : JsonObject) : Prop :=
  ∃ schema v2 payload, ((schema, v2) = (canonicalEventSchema, false) ∨
      (schema, v2) = (canonicalEventSchemaV2, true)) ∧
    Passes py event schema v2 payload ∧ BadValue v2 payload (typeOf py event)

theorem declared_core_iff (hschema : (event.get "schema").isStr schema = true) :
    Declared (validateEventCore py event schema v2) ↔
      ¬ ∃ payload, Passes py event schema v2 payload ∧ BadValue v2 payload (typeOf py event) := by
  unfold validateEventCore
  constructor
  · rintro h ⟨payload, ⟨-, henvelope, ⟨harness, hharness⟩, hpayload, hrawRef⟩, hbad⟩
    have hknown := known_of_badValue hbad
    have h := (declared_bind_iff.mp h).2 () henvelope
    have h := (declared_bind_iff.mp h).2 harness hharness
    have h := (declared_bind_iff.mp h).2 payload hpayload
    have h := (declared_bind_iff.mp h).2 () hrawRef
    have h := (declared_bind_iff.mp h).2 (typeOf py event, payload)
      (normalizeEventType_known hknown (event.get "raw_ref"))
    have h := declared_bind_iff.mp h
    refine (declared_typed_iff hknown).mp ⟨h.1, fun normalized hnormal => ?_⟩ hbad
    exact (declared_bind_iff.mp (h.2 normalized hnormal)).1
  · intro hgood
    refine declared_bind_iff.mpr ⟨declared_validateEnvelope _ _ _, fun _ henvelope => ?_⟩
    refine declared_bind_iff.mpr ⟨declared_validateHarness _ _, fun harness hharness => ?_⟩
    refine declared_bind_iff.mpr ⟨declared_validatePayload _, fun raw hpayload => ?_⟩
    refine declared_bind_iff.mpr ⟨declared_validateRawRef _, fun _ hrawRef => ?_⟩
    refine declared_bind_iff.mpr ⟨declared_normalizeEventType _ _ _ _, ?_⟩
    rintro ⟨eventType, payload⟩ htype
    have hfine : ¬ BadValue v2 payload eventType := by
      intro hbad
      rcases normalizeEventType_cases htype with ⟨-, rfl, rfl⟩ | ⟨-, rfl, -⟩
      · exact hgood ⟨_, ⟨hschema, henvelope, ⟨harness, hharness⟩, hpayload, hrawRef⟩, hbad⟩
      · -- no value of a diagnostic is asked for
        exact not_badValue_diagnostic hbad
    have hrest := (declared_typed_iff (known_of_normalizeEventType htype)).mpr hfine
    refine declared_bind_iff.mpr ⟨hrest.1, fun normalized hnormal => ?_⟩
    exact declared_bind (hrest.2 normalized hnormal) fun _ => declared_pure _

/-- A computation that fails in the declared way returns or raises a `HarnessProtocolError`. -/
theorem declared_iff {x : Except EventError α} :
    Declared x ↔ (∃ a, x = .ok a) ∨ ∃ message code, x = .error (.protocol message code) := by
  cases x with
  | ok a => exact iff_of_true (declared_ok a) (.inl ⟨a, rfl⟩)
  | error e =>
    cases e with
    | protocol message code =>
      refine iff_of_true ?_ (.inr ⟨message, code, rfl⟩)
      intro e he
      rw [← Except.error.inj he]
      rfl
    | _ =>
      refine iff_of_false (fun h => absurd (h _ rfl) Bool.false_ne_true) ?_
      rintro (⟨a, ha⟩ | ⟨message, code, he⟩)
      · cases ha
      · cases he

theorem declared_bySchema_iff (py : Python) (event : JsonObject) :
    Declared (validateEventBySchema py event) ↔ ¬ Mistyped py event := by
  unfold validateEventBySchema Mistyped
  dsimp only
  by_cases hv1 : (event.get "schema").isStr canonicalEventSchema = true
  · rw [if_pos hv1, declared_core_iff hv1, not_iff_not]
    constructor
    · rintro ⟨payload, hpasses, hbad⟩
      exact ⟨_, _, payload, .inl rfl, hpasses, hbad⟩
    · rintro ⟨schema, v2, payload, heq | heq, hpasses, hbad⟩
      · obtain ⟨rfl, rfl⟩ := Prod.mk.inj heq
        exact ⟨payload, hpasses, hbad⟩
      · obtain ⟨rfl, rfl⟩ := Prod.mk.inj heq
        exact absurd (Json.isStr_unique hv1 hpasses.1) (by decide)
  · rw [if_neg hv1]
    by_cases hv2 : (event.get "schema").isStr canonicalEventSchemaV2 = true
    · rw [if_pos hv2, declared_core_iff hv2, not_iff_not]
      constructor
      · rintro ⟨payload, hpasses, hbad⟩
        exact ⟨_, _, payload, .inr rfl, hpasses, hbad⟩
      · rintro ⟨schema, v2, payload, heq | heq, hpasses, hbad⟩
        · obtain ⟨rfl, rfl⟩ := Prod.mk.inj heq
          exact absurd hpasses.1 hv1
        · obtain ⟨rfl, rfl⟩ := Prod.mk.inj heq
          exact ⟨payload, hpasses, hbad⟩
    · rw [if_neg hv2]
      refine iff_of_true (declared_protocolError _) ?_
      rintro ⟨schema, v2, payload, heq | heq, hpasses, -⟩
      · obtain ⟨rfl, rfl⟩ := Prod.mk.inj heq
        exact hv1 hpasses.1
      · obtain ⟨rfl, rfl⟩ := Prod.mk.inj heq
        exact hv2 hpasses.1

/-! ### The Limits of the Interpreter -/

structure Interpreter where
  /-- The frames that are left when the scan for hidden reasoning starts. -/
  frames : Nat
  /-- `str` and `repr` print the value: it is not nested too deeply and no integer in it is too
      long. -/
  prints : Json → Bool

mutual

/-- `_contains_hidden_reasoning` with the given frames left: a call takes one, and in a list `any`
    and its generator take one each. -/
def scan : Json → Nat → Option Bool
  | .obj fields, frames + 1 => scanFields fields frames
  | .arr items, frames + 3 => scanItems items frames
  | .arr _, _ => none
  | _, 0 => none
  | _, _ + 1 => some false
termination_by structural x => x

def scanFields : List (String × Json) → Nat → Option Bool
  | [], _ => some false
  | p :: rest, frames =>
    (scanField p frames).bind fun found => if found then some true else scanFields rest frames
termination_by structural x => x

def scanField : String × Json → Nat → Option Bool
  | (key, child), frames =>
    if lower key ∈ hiddenReasoningKeys then some true else scan child frames
termination_by structural x => x

def scanItems : List Json → Nat → Option Bool
  | [], _ => some false
  | child :: rest, frames =>
    (scan child frames).bind fun found => if found then some true else scanItems rest frames
termination_by structural x => x

end

mutual

/-- A scan that gets through finds what there is. -/
theorem scan_eq : ∀ (value : Json) (frames : Nat) (found : Bool),
    scan value frames = some found → found = containsHiddenReasoning value
  | .obj fields, frames + 1, found, h => scanFields_eq fields frames found h
  | .arr items, frames + 3, found, h => scanItems_eq items frames found h
  | .null, _ + 1, _, h => (Option.some.inj h).symm
  | .bool _, _ + 1, _, h => (Option.some.inj h).symm
  | .int _, _ + 1, _, h => (Option.some.inj h).symm
  | .float _, _ + 1, _, h => (Option.some.inj h).symm
  | .str _, _ + 1, _, h => (Option.some.inj h).symm

theorem scanFields_eq : ∀ (fields : List (String × Json)) (frames : Nat) (found : Bool),
    scanFields fields frames = some found → found = fieldsContainHiddenReasoning fields
  | [], _, _, h => (Option.some.inj h).symm
  | p :: rest, frames, found, h => by
    obtain ⟨first, hfirst, hrest⟩ := Option.bind_eq_some_iff.mp h
    have hsame := scanField_eq p frames first hfirst
    rw [fieldsContainHiddenReasoning, ← hsame]
    cases first with
    | true => exact (Option.some.inj hrest).symm
    | false => exact scanFields_eq rest frames found hrest

theorem scanField_eq : ∀ (p : String × Json) (frames : Nat) (found : Bool),
    scanField p frames = some found → found = fieldContainsHiddenReasoning p
  | (key, child), frames, found, h => by
    unfold scanField at h
    unfold fieldContainsHiddenReasoning
    split at h
    · next hkey =>
      rw [decide_eq_true hkey]
      exact (Option.some.inj h).symm
    · next hkey =>
      rw [decide_eq_false hkey]
      exact scan_eq child frames found h

theorem scanItems_eq : ∀ (items : List Json) (frames : Nat) (found : Bool),
    scanItems items frames = some found → found = itemsContainHiddenReasoning items
  | [], _, _, h => (Option.some.inj h).symm
  | child :: rest, frames, found, h => by
    obtain ⟨first, hfirst, hrest⟩ := Option.bind_eq_some_iff.mp h
    have hsame := scan_eq child frames first hfirst
    rw [itemsContainHiddenReasoning, ← hsame]
    cases first with
    | true => exact (Option.some.inj hrest).symm
    | false => exact scanItems_eq rest frames found hrest

end

variable (interp : Interpreter)

/-- The checks on the payload, with the scan on the stack that is left. -/
def validatePayloadWithin (payload : Json) : Except EventError JsonObject :=
  match payload.asObject with
  | none => .error (protocolError "payload must be an object")
  | some fields =>
    match scan payload interp.frames with
    | none => .error .interpreterError
    | some hidden => do
      require (!hidden) (protocolError "payload contains a forbidden hidden-reasoning field")
      return fields

/-- `str(event.get("type") or "")`. -/
def eventTypeTextWithin (py : Python) (value : Json) : Except EventError String :=
  if value.truthy && value.asString.isNone && !interp.prints value then .error .interpreterError
  else .ok (eventTypeText py value)

/-- `_validate_event_core`. -/
def validateCoreWithin (py : Python) (event : JsonObject) (schema : String) (v2 : Bool) :
    Except EventError JsonObject := do
  validateEnvelope py event schema
  let _ ← validateHarness (event.get "harness") v2
  let payload ← validatePayloadWithin interp (event.get "payload")
  validateRawRef (event.get "raw_ref")
  let typeText ← eventTypeTextWithin interp py (event.get "type")
  let (eventType, payload) ←
    normalizeEventType typeText payload (event.get "raw_ref") (if v2 then v2AuditEventTypes else [])
  let payload ← normalizePayload eventType payload
  validatePayloadRules v2 eventType payload
  return (event.set "type" (.str eventType)).set "payload" (.obj payload)

/-- `validate_event_by_schema`. -/
def validateWithin (py : Python) (event : JsonObject) : Except EventError JsonObject :=
  let schema := event.get "schema"
  if schema.isStr canonicalEventSchema then
    validateCoreWithin interp py event canonicalEventSchema false
  else if schema.isStr canonicalEventSchemaV2 then
    validateCoreWithin interp py event canonicalEventSchemaV2 true
  else if interp.prints schema then
    let found := py.repr schema
    .error (protocolError s!"unsupported event schema: {found}")
  else .error .interpreterError

/-- An event of a known schema reaches a limit: the scan of its payload does not get through, or
    its type is no string and is not printed. -/
def coreExhausts (py : Python) (event : JsonObject) (schema : String) (v2 : Bool) : Bool :=
  let payload := event.get "payload"
  let type := event.get "type"
  decide (validateEnvelope py event schema = .ok ()) &&
    (validateHarness (event.get "harness") v2).toBool && payload.asObject.isSome &&
    match scan payload interp.frames with
    | none => true
    | some hidden => !hidden && decide (validateRawRef (event.get "raw_ref") = .ok ()) &&
        (type.truthy && type.asString.isNone && !interp.prints type)

/-- The event reaches a limit of the interpreter. -/
def exhausts (py : Python) (event : JsonObject) : Bool :=
  let schema := event.get "schema"
  if schema.isStr canonicalEventSchema then coreExhausts interp py event canonicalEventSchema false
  else if schema.isStr canonicalEventSchemaV2 then
    coreExhausts interp py event canonicalEventSchemaV2 true
  else !interp.prints schema

theorem validateCoreWithin_eq (py : Python) (event : JsonObject) (schema : String) (v2 : Bool) :
    validateCoreWithin interp py event schema v2 =
      if coreExhausts interp py event schema v2 then .error .interpreterError
      else validateEventCore py event schema v2 := by
  unfold validateCoreWithin coreExhausts validateEventCore
  cases henvelope : validateEnvelope py event schema with
  | error e => simp
  | ok u =>
  cases hharness : validateHarness (event.get "harness") v2 with
  | error e => simp [Except.toBool]
  | ok harness =>
  unfold validatePayloadWithin validatePayload
  cases hobject : (event.get "payload").asObject with
  | none => simp [hobject]
  | some fields =>
  cases hscan : scan (event.get "payload") interp.frames with
  | none => simp [Except.toBool, hobject, hscan]
  | some hidden =>
  rw [← scan_eq _ _ _ hscan]
  cases hidden with
  | true => simp [require, hscan]
  | false =>
  cases hrawRef : validateRawRef (event.get "raw_ref") with
  | error e => simp [require, hscan]
  | ok u =>
  unfold eventTypeTextWithin
  cases hprints : (event.get "type").truthy && (event.get "type").asString.isNone &&
      !interp.prints (event.get "type") with
  | true => simp [require, Except.toBool, hobject, hscan, hprints]
  | false => simp [require, hscan, hprints]

theorem validateWithin_eq (py : Python) (event : JsonObject) :
    validateWithin interp py event =
      if exhausts interp py event then .error .interpreterError
      else validateEventBySchema py event := by
  unfold validateWithin exhausts validateEventBySchema
  dsimp only
  split_ifs <;> simp_all [validateCoreWithin_eq]

/-- **Validation fails in the declared way**, unless a value of the wrong type or a limit of the
    interpreter is reached. -/
theorem validation_declared_iff (py : Python) (event : JsonObject) :
    ((∃ n, validateWithin interp py event = .ok n) ∨
        ∃ message code, validateWithin interp py event = .error (.protocol message code)) ↔
      ¬ Mistyped py event ∧ exhausts interp py event = false := by
  rw [← declared_iff, validateWithin_eq]
  cases exhausts interp py event with
  | true =>
    refine iff_of_false ?_ (by simp)
    intro hdeclared
    cases hdeclared _ rfl
  | false => simp [declared_bySchema_iff]

/-- A failed run whose failure kind is a list: the set of kinds is asked for it. -/
def failedRun : JsonObject :=
  [("schema", .str canonicalEventSchema), ("event_id", .str "e1"), ("attempt_id", .str "a1"),
    ("seq", .int 1), ("occurred_at", .str "2026-01-01T00:00:00Z"), ("type", .str "harness.failed"),
    ("task_id", .int 1),
    ("harness", .obj [("key", .str "pi"), ("adapter_version", .str "1"), ("cli_version", .str "1")]),
    ("payload", .obj [("failure", .obj [("kind", .arr [])])])]

/-- The default recursion limit, and a `str` that prints everything. -/
def plainInterpreter : Interpreter where
  frames := 1000
  prints := fun _ => true

theorem list_kind_raises : ∃ event : JsonObject,
    ¬ ((∃ n, validateWithin plainInterpreter zonedPython event = .ok n) ∨
      ∃ message code, validateWithin plainInterpreter zonedPython event =
        .error (.protocol message code)) := by
  refine ⟨failedRun, ?_⟩
  have hraises : (match validateWithin plainInterpreter zonedPython failedRun with
      | .error .typeError => true
      | _ => false) = true := by decide +kernel
  rintro (⟨n, h⟩ | ⟨message, code, h⟩)
  · rw [h] at hraises
    cases hraises
  · rw [h] at hraises
    cases hraises

/-- `n` lists around an empty one. -/
def nested : Nat → Json
  | 0 => .arr []
  | n + 1 => .arr [nested n]

/-- No stack is deep enough for every payload. -/
theorem scan_nested (n frames : Nat) (h : frames < 3 * n + 3) : scan (nested n) frames = none := by
  induction n generalizing frames with
  | zero =>
    obtain rfl | rfl | rfl : frames = 0 ∨ frames = 1 ∨ frames = 2 := by omega
    all_goals rfl
  | succ n ih =>
    match frames, h with
    | 0, _ => rfl
    | 1, _ => rfl
    | 2, _ => rfl
    | frames + 3, h =>
      have hinner := ih frames (by omega)
      simp [nested, scan, scanItems, hinner]

end Codify.Harness.ValidationErrors

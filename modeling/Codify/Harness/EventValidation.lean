import Codify.Framework.JsonPath
import Codify.Harness.Protocol

/-! # Validating an Event Again

    A record is validated when the stream is read and once more when it is ingested.
    The second validation reads what the first has normalized, so the normalized event
    has to pass its own checks. An event of an unknown type does not when it is
    downgraded: its `raw_ref` is copied into the payload, where the check for hidden
    reasoning has not looked.

    * **Parts**: what a valid event has passed (`Validated`).
    * **Result**: `validation_idempotent_iff`.
-/

namespace Codify.Harness.EventValidation

open Codify.Framework Codify.Harness List JsonObject

variable {py : Python} {event n : JsonObject} {schema eventType : String} {v2 : Bool}
  {payload normalized usage : JsonObject} {value : Json}

/-! ### What a Valid Event Has Passed -/

/-- The types that a schema knows besides the common ones. -/
def extraTypes (v2 : Bool) : List String := if v2 then v2AuditEventTypes else []

/-- An event that `_validate_event_core` accepts, and its payload at each stage. -/
structure Validated (py : Python) (event : JsonObject) (schema : String) (v2 : Bool)
    (raw : JsonObject) (eventType : String) (payload normalized : JsonObject) : Prop where
  envelope : validateEnvelope py event schema = .ok ()
  harness : ∃ harness, validateHarness (event.get "harness") v2 = .ok harness
  object : validatePayload (event.get "payload") = .ok raw
  rawRef : validateRawRef (event.get "raw_ref") = .ok ()
  typed : normalizeEventType (eventTypeText py (event.get "type")) raw (event.get "raw_ref")
    (extraTypes v2) = .ok (eventType, payload)
  normal : normalizePayload eventType payload = .ok normalized
  rules : validatePayloadRules v2 eventType normalized = .ok ()

/-- The event with its type and its payload. -/
def result (event : JsonObject) (eventType : String) (payload : JsonObject) : JsonObject :=
  (event.set "type" (.str eventType)).set "payload" (.obj payload)

theorem validateEventCore_eq_ok_iff : validateEventCore py event schema v2 = .ok n ↔
    ∃ raw eventType payload normalized,
      Validated py event schema v2 raw eventType payload normalized ∧
        n = result event eventType normalized := by
  constructor
  · intro h
    simp only [validateEventCore, unit_bind_eq_ok_iff] at h
    obtain ⟨henvelope, h⟩ := h
    obtain ⟨harness, hharness, h⟩ := bind_eq_ok_iff.mp h
    obtain ⟨raw, hpayload, h⟩ := bind_eq_ok_iff.mp h
    simp only [unit_bind_eq_ok_iff] at h
    obtain ⟨hrawRef, h⟩ := h
    obtain ⟨⟨eventType, payload⟩, htype, h⟩ := bind_eq_ok_iff.mp h
    obtain ⟨normalized, hnormalized, h⟩ := bind_eq_ok_iff.mp h
    simp only [unit_bind_eq_ok_iff, pure_eq_ok, Except.ok.injEq] at h
    exact ⟨raw, eventType, payload, normalized,
      ⟨henvelope, ⟨harness, hharness⟩, hpayload, hrawRef, htype, hnormalized, h.1⟩, h.2.symm⟩
  · rintro ⟨raw, eventType, payload, normalized, hvalid, rfl⟩
    obtain ⟨harness, hharness⟩ := hvalid.harness
    have htype := hvalid.typed
    unfold extraTypes at htype
    unfold validateEventCore
    rw [hvalid.envelope, hharness, hvalid.object, hvalid.rawRef]
    show (normalizeEventType _ raw _ _ >>= _) = _
    rw [htype]
    show (normalizePayload eventType payload >>= _) = _
    rw [hvalid.normal]
    show (validatePayloadRules v2 eventType normalized >>= _) = _
    rw [hvalid.rules]
    rfl

theorem validateEventBySchema_eq_ok_iff : validateEventBySchema py event = .ok n ↔
    ((event.get "schema").isStr canonicalEventSchema = true ∧
        validateEventCore py event canonicalEventSchema false = .ok n) ∨
      ((event.get "schema").isStr canonicalEventSchema = false ∧
        (event.get "schema").isStr canonicalEventSchemaV2 = true ∧
        validateEventCore py event canonicalEventSchemaV2 true = .ok n) := by
  unfold validateEventBySchema
  dsimp only
  cases (event.get "schema").isStr canonicalEventSchema with
  | true => simp
  | false =>
    cases (event.get "schema").isStr canonicalEventSchemaV2 with
    | true => simp
    | false => simp

/-! ### Fields of the Result -/

variable {key text : String} {fields raw : JsonObject} {extra : List String} {rawRef : Json}

theorem get_result (htype : key ≠ "type") (hpayload : key ≠ "payload") :
    (result event eventType payload).get key = event.get key := by
  unfold result
  rw [get_set_ne _ hpayload, get_set_ne _ htype]

theorem type_result : (result event eventType payload).get "type" = .str eventType := by
  unfold result
  rw [get_set_ne _ (by decide), get_set_self]

theorem payload_result : (result event eventType payload).get "payload" = .obj payload :=
  get_set_self _ _ _

theorem result_result : result (result event eventType payload) eventType payload =
    result event eventType payload := by
  have htype : (result event eventType payload).lookup "type" = some (.str eventType) := by
    unfold result
    rw [lookup_set, lookup_set]
    rfl
  have hpayload : (result event eventType payload).lookup "payload" = some (.obj payload) := by
    unfold result
    rw [lookup_set]
    rfl
  show ((result event eventType payload).set "type" _).set "payload" _ = _
  rw [set_eq_self htype, set_eq_self hpayload]

theorem has_result (h : event.has key = true) :
    (result event eventType payload).has key = true := by
  unfold has result at *
  rw [lookup_set, lookup_set]
  split
  · rfl
  · split
    · rfl
    · exact h

theorem validateEnvelope_result (h : validateEnvelope py event schema = .ok ()) :
    validateEnvelope py (result event eventType payload) schema = .ok () := by
  have hget : ∀ key, key ≠ "type" → key ≠ "payload" →
      (result event eventType payload).get key = event.get key := fun key => get_result
  simp only [validateEnvelope, unit_bind_eq_ok_iff, require_eq_ok_iff] at h ⊢
  rw [hget "schema" (by decide) (by decide), hget "event_id" (by decide) (by decide),
    hget "attempt_id" (by decide) (by decide), hget "seq" (by decide) (by decide),
    hget "occurred_at" (by decide) (by decide), hget "task_id" (by decide) (by decide)]
  refine ⟨?_, h.2⟩
  rw [List.isEmpty_iff, filter_eq_nil_iff] at h ⊢
  intro key hkey
  have hhas : event.has key = true := by simpa using h.1 key hkey
  simp [has_result hhas]

/-! ### Hidden Reasoning -/

theorem fieldsContain_iff :
    fieldsContainHiddenReasoning fields = true ↔
      ∃ p ∈ fields, fieldContainsHiddenReasoning p = true := by
  induction fields with
  | nil => simp [fieldsContainHiddenReasoning]
  | cons p rest ih => simp [fieldsContainHiddenReasoning, ih]

theorem contains_obj_eq_false_iff :
    containsHiddenReasoning (.obj fields) = false ↔
      ∀ p ∈ fields, lower p.1 ∉ hiddenReasoningKeys ∧ containsHiddenReasoning p.2 = false := by
  rw [← Bool.not_eq_true, show containsHiddenReasoning (.obj fields) =
    fieldsContainHiddenReasoning fields from rfl, fieldsContain_iff]
  constructor
  · intro h p hp
    have hnot : fieldContainsHiddenReasoning p = false :=
      Bool.eq_false_iff.mpr fun hin => h ⟨p, hp, hin⟩
    obtain ⟨key, child⟩ := p
    simpa [fieldContainsHiddenReasoning] using hnot
  · rintro h ⟨⟨key, child⟩, hp, hin⟩
    have := h _ hp
    simp [fieldContainsHiddenReasoning, this.1, this.2] at hin

theorem contains_get (h : containsHiddenReasoning (.obj fields) = false)
    (key : String) : containsHiddenReasoning (fields.get key) = false := by
  unfold JsonObject.get
  cases hlookup : fields.lookup key with
  | none => rfl
  | some v => exact (contains_obj_eq_false_iff.mp h _ (OrderedDict.mem_of_lookup hlookup)).2

theorem contains_set
    (h : containsHiddenReasoning (.obj fields) = false) (hkey : lower key ∉ hiddenReasoningKeys)
    (hvalue : containsHiddenReasoning value = false) :
    containsHiddenReasoning (.obj (fields.set key value)) = false := by
  rw [contains_obj_eq_false_iff] at h ⊢
  intro p hp
  rcases JsonText.mem_set hp with hp | rfl
  · exact h p hp
  · exact ⟨hkey, hvalue⟩

/-! ### Usage -/

/-- The portable usage object of a source. -/
def portable (source : JsonObject) : JsonObject :=
  [("input_tokens", source.get "input_tokens"),
   ("cached_input_tokens", source.get "cached_input_tokens"),
   ("output_tokens", source.get "output_tokens"),
   ("reasoning_tokens", source.get "reasoning_tokens"),
   ("cost", source.get "cost"),
   ("currency", source.get "currency"),
   ("engine_fields", (source.get "engine_fields").orElse (.obj []))]

theorem normalizeUsage_eq_ok_iff : normalizeUsage value = .ok usage ↔
    ∃ source, usageSource value = .ok source ∧ usage = portable source ∧
      validateUsageNumbers (portable source) "usage" = .ok () ∧
      ((portable source).get "engine_fields").asObject.isSome = true := by
  unfold normalizeUsage
  rw [bind_eq_ok_iff]
  apply exists_congr
  intro source
  apply and_congr_right
  intro _
  show (validateUsageNumbers (portable source) "usage" >>= fun _ => _) = .ok usage ↔ _
  simp only [unit_bind_eq_ok_iff, require_eq_ok_iff, pure_eq_ok, Except.ok.injEq]
  constructor
  · rintro ⟨hnumbers, hengine, husage⟩
    exact ⟨husage.symm, hnumbers, hengine⟩
  · rintro ⟨husage, hnumbers, hengine⟩
    exact ⟨hnumbers, hengine, husage.symm⟩

theorem portable_portable (source : JsonObject) : portable (portable source) = portable source := by
  have hengine : ((portable source).get "engine_fields").orElse (.obj []) =
      (portable source).get "engine_fields" := by
    show Json.orElse (Json.orElse _ _) _ = Json.orElse _ _
    unfold Json.orElse
    split
    · rfl
    · rfl
  show [_, _, _, _, _, _, ("engine_fields", _)] = _
  rw [hengine]
  rfl

theorem normalizeUsage_again (h : normalizeUsage value = .ok usage) :
    normalizeUsage (.obj usage) = .ok usage := by
  obtain ⟨source, -, rfl, hnumbers, hengine⟩ := normalizeUsage_eq_ok_iff.mp h
  rw [normalizeUsage_eq_ok_iff]
  refine ⟨portable source, rfl, (portable_portable source).symm, ?_, ?_⟩
  · rw [portable_portable]
    exact hnumbers
  · rw [portable_portable]
    exact hengine

theorem portable_key (key : String) (h : key ∈ usageTokenKeys ++ ["cost", "currency", "engine_fields"]) :
    lower key ∉ hiddenReasoningKeys := by
  have hall : (usageTokenKeys ++ ["cost", "currency", "engine_fields"]).all
      (fun key => decide (lower key ∉ hiddenReasoningKeys)) = true := by decide +kernel
  exact of_decide_eq_true (all_eq_true.mp hall key h)

theorem contains_portable {source : JsonObject}
    (h : containsHiddenReasoning (.obj source) = false) :
    containsHiddenReasoning (.obj (portable source)) = false := by
  have hengine : containsHiddenReasoning ((source.get "engine_fields").orElse (.obj [])) = false := by
    unfold Json.orElse
    split
    · exact contains_get h _
    · rfl
  rw [contains_obj_eq_false_iff]
  intro p hp
  simp only [portable, mem_cons, not_mem_nil, or_false] at hp
  rcases hp with rfl | rfl | rfl | rfl | rfl | rfl | rfl
  · exact ⟨portable_key "input_tokens" (by decide), contains_get h _⟩
  · exact ⟨portable_key "cached_input_tokens" (by decide), contains_get h _⟩
  · exact ⟨portable_key "output_tokens" (by decide), contains_get h _⟩
  · exact ⟨portable_key "reasoning_tokens" (by decide), contains_get h _⟩
  · exact ⟨portable_key "cost" (by decide), contains_get h _⟩
  · exact ⟨portable_key "currency" (by decide), contains_get h _⟩
  · exact ⟨portable_key "engine_fields" (by decide), hengine⟩

theorem contains_normalizeUsage (h : containsHiddenReasoning value = false)
    (husage : normalizeUsage value = .ok usage) :
    containsHiddenReasoning (.obj usage) = false := by
  obtain ⟨source, hsource, rfl, -⟩ := normalizeUsage_eq_ok_iff.mp husage
  apply contains_portable
  unfold usageSource at hsource
  split at hsource
  · cases hsource
    rfl
  · cases value with
    | obj fields =>
      cases hsource
      exact h
    | _ => cases hsource

/-! ### The Payload -/

theorem normalizePayload_again (h : normalizePayload eventType payload = .ok normalized) :
    normalizePayload eventType normalized = .ok normalized := by
  unfold normalizePayload at h ⊢
  by_cases husage : eventType = "usage.updated" ∨ eventType = "usage.final"
  · rw [if_pos husage] at h ⊢
    obtain ⟨usage, hnormal, hset⟩ := bind_eq_ok_iff.mp h
    obtain rfl : payload.set "usage" (.obj usage) = normalized := Except.ok.inj hset
    rw [get_set_self, normalizeUsage_again hnormal]
    show Except.ok _ = _
    rw [set_eq_self (by rw [lookup_set, if_pos rfl])]
  · rw [if_neg husage]

theorem contains_normalizePayload (h : containsHiddenReasoning (.obj payload) = false)
    (hnormal : normalizePayload eventType payload = .ok normalized) :
    containsHiddenReasoning (.obj normalized) = false := by
  unfold normalizePayload at hnormal
  split at hnormal
  · obtain ⟨usage, husage, hset⟩ := bind_eq_ok_iff.mp hnormal
    obtain rfl : payload.set "usage" (.obj usage) = normalized := Except.ok.inj hset
    exact contains_set h (by decide) (contains_normalizeUsage (contains_get h _) husage)
  · cases hnormal
    exact h

theorem validatePayload_eq_ok_iff : validatePayload value = .ok payload ↔
    value = .obj payload ∧ containsHiddenReasoning (.obj payload) = false := by
  unfold validatePayload
  cases value with
  | obj fields =>
    simp only [Json.asObject, unit_bind_eq_ok_iff, require_eq_ok_iff, pure_eq_ok,
      Except.ok.injEq, Json.obj.injEq, Bool.not_eq_true']
    constructor
    · rintro ⟨hhidden, rfl⟩
      exact ⟨rfl, hhidden⟩
    · rintro ⟨rfl, hhidden⟩
      exact ⟨hhidden, rfl⟩
  | _ => simp [Json.asObject]

/-! ### The Type -/

def typeOf (py : Python) (event : JsonObject) : String := eventTypeText py (event.get "type")

def downgraded (eventType : String) (rawRef : Json) : JsonObject :=
  [("code", .str "unknown_event_type"), ("original_type", .str eventType),
   ("raw_ref", if rawRef.truthy then rawRef else .null)]

theorem eventTypeText_str (text : String) : eventTypeText py (.str text) = text := by
  unfold eventTypeText Json.truthy
  by_cases h : text = ""
  · simp [h]
  · simp [h, Json.asString]

theorem normalizeEventType_cases
    (h : normalizeEventType text raw rawRef extra = .ok (eventType, payload)) :
    ((text ∈ knownEventTypes ∨ text ∈ extra) ∧ eventType = text ∧ payload = raw) ∨
      (¬ (text ∈ knownEventTypes ∨ text ∈ extra) ∧ eventType = "diagnostic" ∧
        payload = downgraded text rawRef) := by
  unfold normalizeEventType at h
  split at h
  · next hknown =>
    cases h
    exact .inl ⟨hknown, rfl, rfl⟩
  · next hunknown =>
    split at h
    · cases h
    · cases h
      exact .inr ⟨hunknown, rfl, rfl⟩

theorem normalizeEventType_known
    (h : text ∈ knownEventTypes ∨ text ∈ extra) (rawRef : Json) :
    normalizeEventType text raw rawRef extra = .ok (text, raw) := if_pos h

theorem known_of_normalizeEventType
    (h : normalizeEventType text raw rawRef extra = .ok (eventType, payload)) :
    eventType ∈ knownEventTypes ∨ eventType ∈ extra := by
  rcases normalizeEventType_cases h with ⟨hknown, rfl, -⟩ | ⟨-, rfl, -⟩
  · exact hknown
  · exact .inl (by decide)

theorem contains_downgraded (text : String) (h : validateRawRef rawRef = .ok ()) :
    containsHiddenReasoning (.obj (downgraded text rawRef)) = containsHiddenReasoning rawRef := by
  have hcopy : containsHiddenReasoning (if rawRef.truthy then rawRef else .null) =
      containsHiddenReasoning rawRef := by
    split
    · rfl
    next hfalse =>
    -- an accepted `raw_ref` that is not truthy is null
    cases rawRef with
    | null => rfl
    | obj fields =>
      cases fields with
      | nil => exact absurd h (by decide +kernel)
      | cons p rest => exact absurd rfl hfalse
    | _ => cases h
  have hkeys : ["code", "original_type", "raw_ref"].all
      (fun key => decide (lower key ∉ hiddenReasoningKeys)) = true := by decide +kernel
  have hkey : ∀ key ∈ ["code", "original_type", "raw_ref"], lower key ∉ hiddenReasoningKeys :=
    fun key hmem => of_decide_eq_true (all_eq_true.mp hkeys key hmem)
  rw [← hcopy, Bool.eq_iff_iff, ← not_iff_not, Bool.not_eq_true, Bool.not_eq_true,
    contains_obj_eq_false_iff]
  constructor
  · intro hfields
    exact (hfields ("raw_ref", if rawRef.truthy then rawRef else .null) (by simp [downgraded])).2
  · intro hraw p hp
    simp only [downgraded, mem_cons, not_mem_nil, or_false] at hp
    rcases hp with rfl | rfl | rfl
    · exact ⟨hkey "code" (by decide), rfl⟩
    · exact ⟨hkey "original_type" (by decide), rfl⟩
    · exact ⟨hkey "raw_ref" (by decide), hraw⟩

/-! ### Twice -/

/-- A normalized event passes the checks of its schema again exactly when its payload hides
    nothing. -/
theorem validateEventCore_again
    (h : Validated py event schema v2 raw eventType payload normalized) :
    validateEventCore py (result event eventType normalized) schema v2 =
        .ok (result event eventType normalized) ↔
      containsHiddenReasoning (.obj normalized) = false := by
  rw [validateEventCore_eq_ok_iff]
  constructor
  · rintro ⟨again, _, _, _, hagain, -⟩
    have hpayload := hagain.object
    rw [payload_result, validatePayload_eq_ok_iff] at hpayload
    rw [Json.obj.inj hpayload.1]
    exact hpayload.2
  · intro hhidden
    have hharness : (result event eventType normalized).get "harness" = event.get "harness" :=
      get_result (by decide) (by decide)
    have hrawRef : (result event eventType normalized).get "raw_ref" = event.get "raw_ref" :=
      get_result (by decide) (by decide)
    refine ⟨normalized, eventType, normalized, normalized, ?_, result_result.symm⟩
    exact
      { envelope := validateEnvelope_result h.envelope
        harness := by rw [hharness]; exact h.harness
        object := by
          rw [payload_result, validatePayload_eq_ok_iff]
          exact ⟨rfl, hhidden⟩
        rawRef := by rw [hrawRef]; exact h.rawRef
        typed := by
          rw [type_result, eventTypeText_str]
          exact normalizeEventType_known (known_of_normalizeEventType h.typed) _
        normal := normalizePayload_again h.normal
        rules := h.rules }

/-- The payload hides nothing unless the event was downgraded with a `raw_ref` that does. -/
theorem contains_validated
    (h : Validated py event schema v2 raw eventType payload normalized) :
    containsHiddenReasoning (.obj normalized) = false ↔
      (typeOf py event ∈ knownEventTypes ∨ typeOf py event ∈ extraTypes v2) ∨
        containsHiddenReasoning (event.get "raw_ref") = false := by
  have hraw := (validatePayload_eq_ok_iff.mp h.object).2
  rcases normalizeEventType_cases h.typed with ⟨hknown, -, rfl⟩ | ⟨hunknown, rfl, rfl⟩
  · exact iff_of_true (contains_normalizePayload hraw h.normal) (.inl hknown)
  · have hnormal : downgraded (typeOf py event) (event.get "raw_ref") = normalized :=
      Except.ok.inj h.normal
    rw [← hnormal, contains_downgraded _ h.rawRef]
    exact (or_iff_right hunknown).symm

/-- The event has a type that its schema knows, so it is not downgraded. -/
def KnownType (py : Python) (event : JsonObject) : Prop :=
  typeOf py event ∈ knownEventTypes ∨
    (event.get "schema").isStr canonicalEventSchemaV2 = true ∧ typeOf py event ∈ v2AuditEventTypes

/-- **Validating twice is validating once**, unless a downgraded event refers to its raw record
    with a hidden-reasoning key. -/
theorem validation_idempotent_iff (h : validateEventBySchema py event = .ok n) :
    validateEventBySchema py n = .ok n ↔
      KnownType py event ∨ containsHiddenReasoning (event.get "raw_ref") = false := by
  unfold KnownType
  rcases validateEventBySchema_eq_ok_iff.mp h with ⟨hv1, hcore⟩ | ⟨hnot, hv2, hcore⟩
  · obtain ⟨raw, eventType, payload, normalized, hvalid, rfl⟩ :=
      validateEventCore_eq_ok_iff.mp hcore
    have hnotV2 : (event.get "schema").isStr canonicalEventSchemaV2 ≠ true :=
      fun h2 => absurd (Json.isStr_unique hv1 h2) (by decide)
    have hagain : validateEventBySchema py (result event eventType normalized) =
        validateEventCore py (result event eventType normalized) canonicalEventSchema false := by
      unfold validateEventBySchema
      rw [get_result (by decide) (by decide)]
      exact if_pos hv1
    rw [hagain, validateEventCore_again hvalid, contains_validated hvalid]
    simp [extraTypes, hnotV2]
  · obtain ⟨raw, eventType, payload, normalized, hvalid, rfl⟩ :=
      validateEventCore_eq_ok_iff.mp hcore
    have hagain : validateEventBySchema py (result event eventType normalized) =
        validateEventCore py (result event eventType normalized) canonicalEventSchemaV2 true := by
      unfold validateEventBySchema
      rw [get_result (by decide) (by decide)]
      dsimp only
      rw [if_neg (by rw [hnot]; exact Bool.false_ne_true), if_pos hv2]
    rw [hagain, validateEventCore_again hvalid, contains_validated hvalid]
    simp [extraTypes, hv2]

/-! ### A Downgraded Event -/

/-- An event of an unknown type, with a note in its reference to the raw record. -/
def downgradedEvent (key : String) : JsonObject :=
  [("schema", .str canonicalEventSchema), ("event_id", .str "e1"), ("attempt_id", .str "a1"),
    ("seq", .int 1), ("occurred_at", .str "2026-01-01T00:00:00Z"), ("type", .str "engine.notice"),
    ("task_id", .int 1),
    ("harness", .obj [("key", .str "pi"), ("adapter_version", .str "1"), ("cli_version", .str "1")]),
    ("payload", .obj []),
    ("raw_ref", .obj [("stream", .str "harness-events/pi.jsonl"), ("line", .int 1),
      (key, .str "note")])]

/-- Without a hidden-reasoning key the event is validated twice. -/
theorem downgraded_event_kept : ∃ n,
    validateEventBySchema zonedPython (downgradedEvent "comment") = .ok n ∧
      validateEventBySchema zonedPython n = .ok n := by
  have h := show validateEventBySchema zonedPython (downgradedEvent "comment") = .ok _ from rfl
  exact ⟨_, h, (validation_idempotent_iff h).mpr (.inr (by decide +kernel))⟩

/-- With one the normalized event is refused. -/
theorem hidden_raw_ref_refused : ∃ n,
    validateEventBySchema zonedPython (downgradedEvent "thinking") = .ok n ∧
      validateEventBySchema zonedPython n ≠ .ok n := by
  refine ⟨_, show validateEventBySchema zonedPython (downgradedEvent "thinking") = .ok _ from rfl, ?_⟩
  intro hagain
  exact nomatch (show Except.error _ = _ from hagain)

end Codify.Harness.EventValidation

import Codify.Framework.GoJsonBytes
import Codify.ProviderRequestOptions

/-! # Model Proxy

    `applyProviderOptions` of the proxy of a Task (deploy/worker-kit/model-proxy/main.go): it
    merges the options of the Provider into the body of a model request, or refuses the request.

    * **Guards**: a compressed, unreadable or large body is refused.
    * **Decoding**: the decoder reads one value and leaves the rest of the body unread.
    * **Result**: what is forwarded is the merge of the object that the body was, if and only if
      nothing but white space follows that object (`forwards_merge_iff`).
-/

namespace Codify.Worker.ModelProxy

open Codify.Framework Codify.Framework.GoJson Codify.ProviderRequestOptions List

/-! ### The Model -/

/-- A `map[string]any`. -/
abbrev Members := SortedMap String Value

/-- `http.Request.Body`: what can be read, and whether it ends with an error. -/
structure Body where
  bytes : List UInt8
  failed : Bool := false

structure Request where
  /-- The values of each header, under its canonical name. -/
  header : List (String × List String) := []
  body : Body
  contentLength : Int
  transferEncoding : List String := []

variable (r : Request)

/-- `Header.Get`. -/
def Request.get (name : String) : String := ((r.header.lookup name).bind List.head?).getD ""

/-- `Header.Del`. -/
def del (header : List (String × List String)) (name : String) : List (String × List String) :=
  header.filter (·.1 ≠ name)

def maxRequestBodyBytes : Nat := 64 * 2 ^ 20

def errorCodeNonJSON : String := "non_json_request_body"
def errorCodeCompressed : String := "compressed_request_body"
def errorCodeTooLarge : String := "request_body_too_large"
def errorCodeUnreadable : String := "request_body_unreadable"

/-- `maxNestingDepth` of the decoder. -/
def maxNestingDepth : Nat := 10000

/-- `unicode.IsSpace`. -/
def isSpace (c : Char) : Bool :=
  let n := c.toNat
  (9 ≤ n && n ≤ 13) || n == 32 || n == 0x85 || n == 0xA0 || n == 0x1680 ||
    (0x2000 ≤ n && n ≤ 0x200A) || n == 0x2028 || n == 0x2029 || n == 0x202F || n == 0x205F ||
    n == 0x3000

variable (payload : List UInt8)

/-- What `Decode` reads, and what it leaves. -/
def decode : Option (Value × List Char) :=
  readValue maxNestingDepth (skipSpace (decodeRunes payload))

def decodeJSONObject : Option Members :=
  match decode payload with
  | some (.obj members, _) => some members
  | _ => none

/-- The bytes of a map; a map that was decoded has no number that the encoder refuses. -/
def encodeJSONObject (members : Members) : List UInt8 := encodeUtf8 (encode (.obj members))

mutual

def mergeOption (merged : Members) : String × Value → Members
  | (key, value) =>
    if key ∈ reservedRequestFields then merged
    else SortedMap.set merged key (mergedValue (List.lookup key merged) value)
termination_by structural p => p

/-- What an option makes of the value that is there. -/
def mergedValue (base : Option Value) : Value → Value
  | .obj incoming =>
    match base with
    | some (.obj base) => .obj (mergeOptions base incoming)
    | _ => .obj incoming
  | value => value
termination_by structural value => value

/-- The loop over the options, in any order: each writes its own key. -/
def mergeOptions (merged : Members) : List (String × Value) → Members
  | [] => merged
  | p :: rest => mergeOptions (mergeOption merged p) rest
termination_by structural options => options

end

def mergeProviderOptions (body options : Members) : Members := mergeOptions body options

def Request.withMerged (encoded : List UInt8) : Request :=
  { header := del (del r.header "Content-Length") "Transfer-Encoding"
    body := { bytes := encoded }
    contentLength := encoded.length
    transferEncoding := [] }

/-- The request that is forwarded, or an error code. -/
def applyProviderOptions (options : Members) (r : Request) : Except String Request :=
  if options = [] then .ok r
  else if r.get "Content-Encoding" ≠ "" then .error errorCodeCompressed
  -- at most one byte more than the limit is read
  else if r.body.failed ∧ r.body.bytes.length ≤ maxRequestBodyBytes then .error errorCodeUnreadable
  else if maxRequestBodyBytes < r.body.bytes.length then .error errorCodeTooLarge
  else if (decodeRunes r.body.bytes).all isSpace then .error errorCodeNonJSON
  else
    match decodeJSONObject r.body.bytes with
    | none => .error errorCodeNonJSON
    | some body => .ok (r.withMerged (encodeJSONObject (mergeProviderOptions body options)))

/-! ### What Is Promised -/

/-- The bytes are one JSON object, up to white space. -/
def IsObject (members : Members) : Prop :=
  ∃ before text after depth, decodeRunes payload = before ++ (text ++ after) ∧ Blank before ∧
    Blank after ∧ Spells depth text (.obj members)

/-- The options as they were decoded. -/
structure Options where
  members : Members
  ordered : Ordered (.obj members)

/-- What is forwarded is the merge of the object that the body was. -/
def ForwardsMerge (options : Options) (r : Request) : Prop :=
  ∀ forwarded, applyProviderOptions options.members r = .ok forwarded →
    ∃ body, IsObject r.body.bytes body ∧
      IsObject forwarded.body.bytes (mergeProviderOptions body options.members)

/-- The guards in front of the decoder let the request pass. -/
def Readable : Prop :=
  r.get "Content-Encoding" = "" ∧ r.body.failed = false ∧ r.body.bytes.length ≤ maxRequestBodyBytes

/-- Nothing but white space follows the object that the body starts with, if it starts with one. -/
def NothingFollows : Prop := ∀ members rest, decode payload = some (.obj members, rest) → Blank rest

section Proofs

variable {options : Members} {r forwarded : Request} {merged members : Members} {value : Value}
  {key : String} {rest : List Char} {payload : List UInt8}

/-! ### The Merge -/

theorem mergeOption_eq (merged : Members) (p : String × Value) : mergeOption merged p =
    if p.1 ∈ reservedRequestFields then merged
    else SortedMap.set merged p.1 (mergedValue (List.lookup p.1 merged) p.2) := by
  cases p
  rfl

theorem ordered_set (h : Ordered (.obj merged)) (hvalue : Ordered value) (key : String) :
    Ordered (.obj (SortedMap.set merged key value)) := by
  cases h with
  | obj hsorted hmembers =>
    refine .obj (hsorted.set key value) fun p hp => ?_
    rcases SortedMap.mem_set hp with rfl | hp
    · exact hvalue
    · exact hmembers p hp

theorem ordered_of_lookup (h : Ordered (.obj merged)) (hvalue : List.lookup key merged = some value) :
    Ordered value := by
  cases h with
  | obj hsorted hmembers => exact hmembers (key, value) (OrderedDict.mem_of_lookup hvalue)

theorem ordered_mergeOptions (h : Ordered (.obj merged))
    (hvalues : ∀ p ∈ options, ∀ base, (∀ value, base = some value → Ordered value) →
      Ordered (mergedValue base p.2)) : Ordered (.obj (mergeOptions merged options)) := by
  induction options generalizing merged with
  | nil =>
    rw [mergeOptions]
    exact h
  | cons p options ih =>
    rw [mergeOptions, mergeOption_eq]
    refine ih ?_ fun q hq => hvalues q (mem_cons_of_mem p hq)
    split
    · exact h
    · exact ordered_set h (hvalues p mem_cons_self _ fun value hvalue =>
        ordered_of_lookup h hvalue) p.1

theorem ordered_mergedValue (h : Ordered value) (base : Option Value)
    (hbase : ∀ value, base = some value → Ordered value) : Ordered (mergedValue base value) := by
  induction h generalizing base with
  | null => exact .null
  | bool b => exact .bool b
  | number n => exact .number n
  | str s => exact .str s
  | arr hitems _ => exact .arr hitems
  | obj hsorted hmembers ih =>
    unfold mergedValue
    split
    · exact ordered_mergeOptions (hbase _ rfl) ih
    · exact .obj hsorted hmembers

/-- **Merge**: the merge of ordered maps is ordered. -/
theorem ordered_mergeProviderOptions (hbody : Ordered (.obj members)) (h : Ordered (.obj options)) :
    Ordered (.obj (mergeProviderOptions members options)) := by
  cases h with
  | obj hsorted hmembers =>
    exact ordered_mergeOptions hbody fun p hp => ordered_mergedValue (hmembers p hp)

/-! ### Decoding -/

theorem decode_sound (h : decode payload = some (value, rest)) :
    ∃ before text, decodeRunes payload = before ++ (text ++ rest) ∧ Blank before ∧
      Spells maxNestingDepth text value := by
  obtain ⟨before, hbefore, hpayload⟩ := skipSpace_eq (decodeRunes payload)
  obtain ⟨text, htext, hspells⟩ := readValue_sound _ _ _ _ h
  exact ⟨before, text, by rw [← htext]; exact hpayload, hbefore, hspells⟩

theorem not_all_space (h : decode payload = some (.obj members, rest)) :
    (decodeRunes payload).all isSpace = false := by
  obtain ⟨before, text, hpayload, _, hspells⟩ := decode_sound h
  have hbrace : '\x7b' ∈ decodeRunes payload := by
    rw [hpayload]
    rcases hspells with h | ⟨_, _, _, _, heq⟩ | ⟨inner, _, _, rfl, _⟩
    · cases h
    · cases heq
    · simp
  rw [all_eq_false]
  exact ⟨_, hbrace, by decide⟩

theorem blank_of_isObject {body : Members} (h : IsObject payload body)
    (hdecode : decode payload = some (.obj members, rest)) : members = body ∧ Blank rest := by
  obtain ⟨before, text, after, depth, hpayload, hbefore, hafter, hspells⟩ := h
  obtain ⟨text', hrest, hspells'⟩ := readValue_sound _ _ _ _ hdecode
  obtain ⟨c, tail, rfl, hc, _⟩ := starts_spells hspells
  rw [hpayload, cons_append, skipSpace_blank hbefore hc] at hrest
  obtain ⟨hmembers, rfl⟩ := object_unique hspells' hspells hrest.symm
  exact ⟨hmembers, hafter⟩

theorem isObject_encodeJSONObject (h : Ordered (.obj members)) :
    IsObject (encodeJSONObject members) members := by
  obtain ⟨depth, hspells⟩ := spells_encode h
  refine ⟨[], _, [], depth, ?_, blank_nil, blank_nil, hspells⟩
  unfold encodeJSONObject
  rw [decodeRunes_encodeUtf8, append_nil, nil_append]

/-! ### Requests -/

/-- **Forwarding**: when a request with options is forwarded, and as what. -/
theorem applyProviderOptions_eq_ok_iff (hoptions : options ≠ []) :
    applyProviderOptions options r = .ok forwarded ↔
      Readable r ∧ ∃ members rest, decode r.body.bytes = some (.obj members, rest) ∧
        forwarded = r.withMerged (encodeJSONObject (mergeProviderOptions members options)) := by
  unfold applyProviderOptions Readable
  rw [if_neg hoptions]
  constructor
  · intro h
    split at h
    · cases h
    next hencoding =>
    split at h
    · cases h
    next hfailed =>
    split at h
    · cases h
    next hlength =>
    split at h
    · cases h
    · have hlength := Nat.le_of_not_lt hlength
      refine ⟨⟨not_not.mp hencoding, ?_, hlength⟩, ?_⟩
      · simpa [hlength] using hfailed
      · unfold decodeJSONObject at h
        split at h
        · cases h
        next members hmembers =>
        split at hmembers
        · next body rest hdecode =>
          cases hmembers
          exact ⟨members, rest, hdecode, (Except.ok.inj h).symm⟩
        · cases hmembers
  · rintro ⟨⟨hencoding, hfailed, hlength⟩, members, rest, hdecode, rfl⟩
    have hobject : decodeJSONObject r.body.bytes = some members := by
      unfold decodeJSONObject
      rw [hdecode]
    rw [if_neg (not_not.mpr hencoding), if_neg (by simp [hfailed]), if_neg (Nat.not_lt.mpr hlength),
      not_all_space hdecode, if_neg Bool.false_ne_true, hobject]

end Proofs

/-! ### Results -/

/-- **The forwarded request**: it is the merge of the object that the body was, if and only if the
    request is refused in front of the decoder or nothing follows the object. -/
theorem forwards_merge_iff (options : Options) (r : Request) (hoptions : options.members ≠ []) :
    ForwardsMerge options r ↔ ¬ Readable r ∨ NothingFollows r.body.bytes := by
  constructor
  · intro h
    by_cases hreadable : Readable r
    · right
      intro members rest hdecode
      have hok := (applyProviderOptions_eq_ok_iff hoptions).mpr
        ⟨hreadable, members, rest, hdecode, rfl⟩
      obtain ⟨body, hbody, _⟩ := h _ hok
      exact (blank_of_isObject hbody hdecode).2
    · exact .inl hreadable
  · rintro h forwarded hok
    obtain ⟨hreadable, members, rest, hdecode, rfl⟩ := (applyProviderOptions_eq_ok_iff hoptions).mp hok
    have hblank := h.resolve_left (not_not.mpr hreadable) members rest hdecode
    obtain ⟨before, text, hpayload, hbefore, hspells⟩ := decode_sound hdecode
    exact ⟨members, ⟨before, text, rest, _, hpayload, hbefore, hblank, hspells⟩,
      isObject_encodeJSONObject
        (ordered_mergeProviderOptions (ordered_of_spells hspells) options.ordered)⟩

/-! ### A Body that Is Merged and a Body that Goes On -/

def temperature : Options where
  members := [("temperature", .number ⟨['1'], by decide⟩)]
  ordered := .obj (pairwise_singleton _ _) (by simp [Ordered.number])

def request (text : List Char) : Request :=
  { body := { bytes := encodeUtf8 text }, contentLength := (encodeUtf8 text).length }

theorem readable_request {text : List Char} (h : (encodeUtf8 text).length ≤ maxRequestBodyBytes) :
    Readable (request text) :=
  ⟨rfl, rfl, h⟩

theorem decode_request (text : List Char) :
    decode (request text).body.bytes = readValue maxNestingDepth (skipSpace text) := by
  unfold decode request
  dsimp only
  rw [decodeRunes_encodeUtf8]

/-- An object with a blank behind it. -/
theorem blank_behind_object_forwarded : ForwardsMerge temperature (request ['\x7b', '\x7d', ' ']) := by
  refine (forwards_merge_iff temperature _ (by simp [temperature])).mpr (.inr ?_)
  intro members rest hdecode
  rw [decode_request] at hdecode
  have hread : readValue maxNestingDepth (skipSpace ['\x7b', '\x7d', ' ']) = some (.obj [], [' ']) := rfl
  rw [hread] at hdecode
  cases hdecode
  intro c hc
  rw [mem_singleton.mp hc]
  rfl

/-- An object that something else follows: it is merged and forwarded as if nothing did. -/
theorem trailing_text_forwarded :
    ¬ ∀ (options : Options) (r : Request), options.members ≠ [] → ForwardsMerge options r := by
  intro h
  have hread : readValue maxNestingDepth (skipSpace ['\x7b', '\x7d', 'x']) = some (.obj [], ['x']) := rfl
  have hdecode : decode (request ['\x7b', '\x7d', 'x']).body.bytes = some (.obj [], ['x']) :=
    (decode_request _).trans hread
  have hne : temperature.members ≠ [] := by simp [temperature]
  have hok := (applyProviderOptions_eq_ok_iff hne).mpr
    ⟨readable_request (by decide), [], ['x'], hdecode, rfl⟩
  obtain ⟨body, hbody, _⟩ := h temperature _ hne _ hok
  have hblank := (blank_of_isObject hbody hdecode).2 'x' mem_cons_self
  exact absurd hblank (by decide)

end Codify.Worker.ModelProxy

import Mathlib.Data.List.Permutation
import Codify.Framework.JsonPath

/-! # Provider Request Options

    `provider_options` is a JSON object that an administrator wants in every
    model request. The backend (app/core/provider_request_options.py) validates
    it and merges it into the body of its connection test; the Worker's proxy
    (deploy/worker-kit/model-proxy/main.go) merges it into the live request.

    * **Two merges**: Python's walks the options in their order. Go's ranges over
      maps in any order, so it is a relation here (`ProxyMerge`).
    * **Agreement**: every result of the proxy is the backend's, as a tree
      (`merge_provider_options_agree`), reserved fields and untouched paths stay, and a second
      merge changes nothing.
    * **Full application**: which accepted options are dropped below the top
      level (`applied_iff_not_shadowed`).
-/

namespace Codify.ProviderRequestOptions

open Codify.Framework Codify.Framework.Json List Option JsonText JsonObject

/-! ### Reserved Fields -/

/-- `RESERVED_REQUEST_FIELDS`, `reservedRequestFields`. -/
def reservedRequestFields : List String :=
  ["model", "messages", "input", "instructions", "tools", "tool_choice", "stream",
   "stream_options"]

/-- A JSON object, with each key once at every depth: a dict or a map. -/
def Dict : Type := { fields : JsonObject // keysUnique (.obj fields) }

/-- `validate_provider_request_options`: whether the options are accepted. -/
def validateProviderRequestOptions (options : Json) : Bool :=
  match options with
  | .obj fields => fields.all fun p => decide (p.1 ∉ reservedRequestFields)
  | _ => false

/-! ### The Backend's Merge -/

mutual

def mergeItem (merged : JsonObject) : String × Json → JsonObject
  | (key, value) =>
    if key ∈ reservedRequestFields then merged
    else merged.set key (mergeValue (merged.get key) value)
termination_by structural p => p

/-- What replaces the current value of a key. -/
def mergeValue (current : Json) : Json → Json
  | .obj incoming =>
    match current with
    | .obj base => .obj (mergeItems base incoming)
    | _ => .obj incoming
  | value => value
termination_by structural value => value

/-- `merge_provider_request_options`: the loop over the options. -/
def mergeItems (merged : JsonObject) : List (String × Json) → JsonObject
  | [] => merged
  | p :: rest => mergeItems (mergeItem merged p) rest
termination_by structural items => items

end

/-- `merge_provider_request_options`. -/
def mergeProviderRequestOptions (body options : JsonObject) : JsonObject := mergeItems body options

/-! ### The Proxy's Merge -/

/-- The loop of `mergeProviderOptions` over the items of `options` that are still to come, in the
    order in which the map yields them. -/
inductive ProxyLoop : JsonObject → List (String × Json) → JsonObject → Prop where
  | done (merged : JsonObject) : ProxyLoop merged [] merged
  | reserved {merged result : JsonObject} {key : String} {value : Json}
      {rest : List (String × Json)} (hkey : key ∈ reservedRequestFields)
      (hrest : ProxyLoop merged rest result) : ProxyLoop merged ((key, value) :: rest) result
  | recurse {merged result base incoming copy items inner : JsonObject} {key : String}
      {rest : List (String × Json)} (hkey : key ∉ reservedRequestFields)
      (hbase : merged.get key = .obj base) (hcopy : copy.Perm base) (hitems : items.Perm incoming)
      (hinner : ProxyLoop copy items inner) (hrest : ProxyLoop (merged.set key (.obj inner)) rest result) :
      ProxyLoop merged ((key, .obj incoming) :: rest) result
  | replace {merged result : JsonObject} {key : String} {value : Json}
      {rest : List (String × Json)} (hkey : key ∉ reservedRequestFields)
      (hplain : (merged.get key).asObject = none ∨ value.asObject = none)
      (hrest : ProxyLoop (merged.set key value) rest result) :
      ProxyLoop merged ((key, value) :: rest) result

/-- `mergeProviderOptions`: the body is copied and the options are ranged over, each in any
    order. -/
def ProxyMerge (body options result : JsonObject) : Prop :=
  ∃ copy items : JsonObject, copy.Perm body ∧ items.Perm options ∧ ProxyLoop copy items result

/-! ### Keys -/

variable {body options merged result : JsonObject} {key : String} {value : Json}

theorem nodup_of_keysUnique (h : keysUnique (.obj options)) :
    (options.map (·.1)).Nodup := (keysUnique_obj_iff.mp h).1

theorem keysUnique_of_mem (h : keysUnique (.obj options)) {p : String × Json}
    (hp : p ∈ options) : keysUnique p.2 := (keysUnique_obj_iff.mp h).2 p hp

theorem keysUnique_of_lookup (h : keysUnique (.obj options))
    (hlookup : options.lookup key = some value) : keysUnique value :=
  keysUnique_of_mem h (OrderedDict.mem_of_lookup hlookup)

theorem keysUnique_cons {p : String × Json} {rest : JsonObject}
    (h : keysUnique (.obj (p :: rest))) :
    p.1 ∉ rest.map (·.1) ∧ keysUnique p.2 ∧ keysUnique (.obj rest) := by
  obtain ⟨hnodup, hvalues⟩ := keysUnique_obj_iff.mp h
  obtain ⟨hnew, hrest⟩ := nodup_cons.mp hnodup
  refine ⟨hnew, hvalues p mem_cons_self, keysUnique_obj_iff.mpr ⟨hrest, ?_⟩⟩
  intro q hq
  exact hvalues q (mem_cons_of_mem _ hq)

theorem lookup_eq_none {rest : JsonObject} (h : key ∉ rest.map (·.1)) : rest.lookup key = none := by
  rw [List.lookup_eq_none_iff]
  intro p hp
  simpa using fun heq => h (List.mem_map.mpr ⟨p, hp, heq.symm⟩)

theorem lookup_perm (h : keysUnique (.obj options)) {copy : JsonObject}
    (hcopy : copy.Perm options) (key : String) : copy.lookup key = options.lookup key := by
  have hcopied : (copy.map (·.1)).Nodup := (hcopy.map _).nodup_iff.mpr (nodup_of_keysUnique h)
  apply Option.ext
  intro v
  rw [OrderedDict.lookup_eq_some_iff hcopied, OrderedDict.lookup_eq_some_iff (nodup_of_keysUnique h),
    hcopy.mem_iff]

theorem keysUnique_perm (h : keysUnique (.obj options)) {copy : JsonObject}
    (hcopy : copy.Perm options) : keysUnique (.obj copy) := by
  rw [keysUnique_obj_iff] at h ⊢
  refine ⟨(hcopy.map _).nodup_iff.mpr h.1, ?_⟩
  intro p hp
  exact h.2 p (hcopy.mem_iff.mp hp)

/-! ### What One Merge Does to a Key -/

@[simp] theorem mergeItems_nil (merged : JsonObject) : mergeItems merged [] = merged := rfl

@[simp] theorem mergeItems_cons (merged : JsonObject) (p : String × Json)
    (rest : List (String × Json)) :
    mergeItems merged (p :: rest) = mergeItems (mergeItem merged p) rest := rfl

theorem mergeValue_obj (base incoming : JsonObject) :
    mergeValue (.obj base) (.obj incoming) = .obj (mergeItems base incoming) := rfl

theorem mergeValue_replace {current value : Json}
    (h : current.asObject = none ∨ value.asObject = none) : mergeValue current value = value := by
  cases value with
  | obj incoming =>
    rcases h with hcurrent | hvalue
    · cases current <;> first | rfl | cases hcurrent
    · cases hvalue
  | _ => rfl

theorem lookup_mergeItem (merged : JsonObject) (p : String × Json) (key : String) :
    (mergeItem merged p).lookup key =
      if p.1 ∉ reservedRequestFields ∧ key = p.1 then some (mergeValue (merged.get key) p.2)
      else merged.lookup key := by
  obtain ⟨k, v⟩ := p
  unfold mergeItem
  by_cases hreserved : k ∈ reservedRequestFields
  · simp [hreserved]
  · by_cases hkey : key = k
    · subst hkey
      simp [hreserved, lookup_set]
    · simp [hreserved, lookup_set, hkey]

attribute [local simp] lookup_cons

/-- **The merge, key by key**: reserved keys and keys without an option stay, every other key gets
    its option. -/
theorem lookup_mergeItems {items : List (String × Json)} (h : (items.map (·.1)).Nodup)
    (merged : JsonObject) (key : String) :
    (mergeItems merged items).lookup key =
      if key ∈ reservedRequestFields then merged.lookup key
      else
        match items.lookup key with
        | none => merged.lookup key
        | some v => some (mergeValue (merged.get key) v) := by
  induction items generalizing merged with
  | nil => simp
  | cons p rest ih =>
    obtain ⟨k, v⟩ := p
    obtain ⟨hnot, hrest⟩ := nodup_cons.mp h
    rw [mergeItems_cons, ih hrest, JsonObject.get, lookup_mergeItem]
    by_cases hreserved : key ∈ reservedRequestFields
    · simp only [hreserved, if_true]
      rw [if_neg]
      rintro ⟨hk, rfl⟩
      exact hk hreserved
    · by_cases hkey : key = k
      · subst hkey
        simp [hreserved, lookup_eq_none hnot]
      · simp [hreserved, hkey, beq_false_of_ne hkey, JsonObject.get]

theorem lookup_mergeItems_of_lookup (h : keysUnique (.obj options))
    (hkey : key ∉ reservedRequestFields) (hlookup : options.lookup key = some value) :
    (mergeItems merged options).lookup key = some (mergeValue (merged.get key) value) := by
  rw [lookup_mergeItems (nodup_of_keysUnique h), if_neg hkey, hlookup]

theorem lookup_mergeItems_kept (h : keysUnique (.obj options))
    (hkey : key ∈ reservedRequestFields ∨ options.lookup key = none) :
    (mergeItems merged options).lookup key = merged.lookup key := by
  rw [lookup_mergeItems (nodup_of_keysUnique h)]
  rcases hkey with hreserved | hnone
  · rw [if_pos hreserved]
  · rw [hnone]
    split <;> rfl

/-! ### The Proxy Merges the Same -/

/-- What a run of the proxy's loop leaves, key by key: the backend's result as trees. -/
def MergedBy (merged : JsonObject) (items : List (String × Json)) (result : JsonObject) : Prop :=
  ∀ key, (key ∈ reservedRequestFields ∨ items.lookup key = none →
      result.lookup key = merged.lookup key) ∧
    (key ∉ reservedRequestFields → ∀ v, items.lookup key = some v →
      ∃ w, result.lookup key = some w ∧ Same w (mergeValue (merged.get key) v))

theorem MergedBy.same {base incoming copy items : JsonObject} (h : MergedBy copy items result)
    (hbase : keysUnique (.obj base)) (hincoming : keysUnique (.obj incoming))
    (hcopy : copy.Perm base) (hitems : items.Perm incoming) :
    Same (.obj result) (.obj (mergeItems base incoming)) := by
  refine same_obj_of_lookup fun key => ?_
  have hbaseKey := lookup_perm hbase hcopy key
  have hitemKey := lookup_perm hincoming hitems key
  by_cases hkept : key ∈ reservedRequestFields ∨ items.lookup key = none
  · rw [(h key).1 hkept, lookup_mergeItems_kept hincoming (by rwa [← hitemKey]), hbaseKey]
    cases base.lookup key with
    | none => exact .inl ⟨rfl, rfl⟩
    | some v => exact .inr ⟨v, v, rfl, rfl, .refl v⟩
  · rw [not_or] at hkept
    obtain ⟨v, hv⟩ := ne_none_iff_exists'.mp hkept.2
    obtain ⟨w, hw, hsame⟩ := (h key).2 hkept.1 v hv
    refine .inr ⟨w, _, hw, lookup_mergeItems_of_lookup hincoming hkept.1 (hitemKey ▸ hv), ?_⟩
    rwa [JsonObject.get, hbaseKey] at hsame

theorem MergedBy.cons {rest : List (String × Json)} {after : JsonObject} {w : Json}
    (hkey : key ∉ reservedRequestFields) (hnew : key ∉ rest.map (·.1))
    (hafter : after = merged.set key w) (hw : Same w (mergeValue (merged.get key) value))
    (h : MergedBy after rest result) : MergedBy merged ((key, value) :: rest) result := by
  subst hafter
  intro key'
  have hgone : rest.lookup key = none := lookup_eq_none hnew
  by_cases heq : key' = key
  · subst heq
    refine ⟨?_, ?_⟩
    · rintro (hreserved | hnone)
      · exact absurd hreserved hkey
      · simp at hnone
    · intro _ v hv
      obtain rfl : value = v := by simpa using hv
      exact ⟨w, by rw [(h key').1 (.inr hgone), lookup_set, if_pos rfl], hw⟩
  · have hlookup : ((key, value) :: rest).lookup key' = rest.lookup key' := by
      simp [beq_false_of_ne heq]
    have hkept := h key'
    rw [get_set_ne _ heq, lookup_set, if_neg heq] at hkept
    rwa [hlookup]

/-- What the proxy's loop ends in is merged key by key. -/
theorem mergedBy_of_proxyLoop {items : List (String × Json)} (h : ProxyLoop merged items result)
    (hitems : keysUnique (.obj items))
    (hmerged : ∀ p ∈ items, keysUnique (merged.get p.1)) :
    MergedBy merged items result := by
  induction h with
  | done merged => exact fun key => ⟨fun _ => rfl, fun _ v hv => by simp at hv⟩
  | @reserved merged result key value rest hkey hrest ih =>
    obtain ⟨-, -, hbelow⟩ := keysUnique_cons hitems
    have hmergedBy := ih hbelow fun p hp => hmerged p (mem_cons_of_mem _ hp)
    intro key'
    by_cases heq : key' = key
    · subst heq
      exact ⟨fun _ => (hmergedBy key').1 (.inl hkey), fun hnot => absurd hkey hnot⟩
    · have hlookup : ((key, value) :: rest).lookup key' = rest.lookup key' := by
        simp [beq_false_of_ne heq]
      rw [hlookup]
      exact hmergedBy key'
  | @recurse merged result base incoming copy items inner key rest hkey hbase hcopy hperm hinner
      hrest ihInner ih =>
    obtain ⟨hnew, hincoming, hbelow⟩ := keysUnique_cons hitems
    have hbaseUnique : keysUnique (.obj base) := by
      have hget := hmerged _ mem_cons_self
      rwa [hbase] at hget
    have hsame : Same (.obj inner) (.obj (mergeItems base incoming)) :=
      (ihInner (keysUnique_perm hincoming hperm) fun p _ =>
        keysUnique_get (keysUnique_perm hbaseUnique hcopy) p.1).same
        hbaseUnique hincoming hcopy hperm
    refine MergedBy.cons hkey hnew rfl ?_ (ih hbelow ?_)
    · rw [hbase]
      exact hsame
    · intro p hp
      rw [get_set_ne _ fun heq => hnew (List.mem_map.mpr ⟨p, hp, heq⟩)]
      exact hmerged p (mem_cons_of_mem _ hp)
  | @replace merged result key value rest hkey hplain hrest ih =>
    obtain ⟨hnew, -, hbelow⟩ := keysUnique_cons hitems
    refine MergedBy.cons hkey hnew rfl ?_ (ih hbelow ?_)
    · rw [mergeValue_replace hplain]
      exact .refl value
    · intro p hp
      rw [get_set_ne _ fun heq => hnew (List.mem_map.mpr ⟨p, hp, heq⟩)]
      exact hmerged p (mem_cons_of_mem _ hp)

theorem same_of_proxyMerge (hbody : keysUnique (.obj body))
    (hoptions : keysUnique (.obj options)) (h : ProxyMerge body options result) :
    Same (.obj result) (.obj (mergeProviderRequestOptions body options)) := by
  obtain ⟨copy, items, hcopy, hitems, hloop⟩ := h
  refine (mergedBy_of_proxyLoop hloop (keysUnique_perm hoptions hitems) ?_).same hbody hoptions
    hcopy hitems
  intro p _
  exact keysUnique_get (keysUnique_perm hbody hcopy) p.1

/-- The loop ends in `mergeItems`. -/
theorem proxyLoop_mergeItems (value : Json) :
    ∀ incoming, value = .obj incoming → ∀ merged,
      ProxyLoop merged incoming (mergeItems merged incoming) := by
  induction value using objInduction with
  | hleaf v hv =>
    rintro incoming rfl
    cases hv
  | hobj fields ih =>
    rintro incoming hfields
    obtain rfl : fields = incoming := Json.obj.inj hfields
    clear hfields
    induction fields with
    | nil => exact fun merged => .done merged
    | cons p rest ihRest =>
      intro merged
      obtain ⟨key, value⟩ := p
      have hrest := ihRest fun q hq => ih q (mem_cons_of_mem _ hq)
      rw [mergeItems_cons]
      by_cases hkey : key ∈ reservedRequestFields
      · have hitem : mergeItem merged (key, value) = merged := by simp [mergeItem, hkey]
        rw [hitem]
        exact .reserved hkey (hrest merged)
      · have hitem : mergeItem merged (key, value) =
            merged.set key (mergeValue (merged.get key) value) := by simp [mergeItem, hkey]
        rw [hitem]
        by_cases hplain : (merged.get key).asObject = none ∨ value.asObject = none
        · rw [mergeValue_replace hplain]
          exact .replace hkey hplain (hrest _)
        · -- both are objects, so the proxy merges them in a run of its own
          rw [not_or] at hplain
          cases hbase : merged.get key with
          | obj base =>
            cases value with
            | obj incoming =>
              rw [mergeValue_obj]
              exact .recurse hkey hbase (.refl base) (.refl incoming)
                (ih _ mem_cons_self incoming rfl base) (hrest _)
            | _ => exact absurd rfl hplain.2
          | _ => exact absurd (by rw [hbase]; rfl) hplain.1

theorem proxyMerge_total (body options : JsonObject) :
    ProxyMerge body options (mergeProviderRequestOptions body options) :=
  ⟨body, options, .refl body, .refl options, proxyLoop_mergeItems (.obj options) options rfl body⟩

/-! ### What the Options Do Not Touch -/

/-- The options hold nothing at the path, and no replacement for anything above it. -/
def untouched (options : JsonObject) : List String → Bool
  | [] => false
  | key :: path =>
    match options.lookup key with
    | none => true
    | some (.obj incoming) => untouched incoming path
    | some _ => false

theorem atPath_of_untouched (hoptions : keysUnique (.obj options)) {path : List String}
    (hpath : untouched options path = true) (h : (Json.obj body).atPath path = some value) :
    (Json.obj (mergeItems body options)).atPath path = some value := by
  induction path generalizing body options with
  | nil => cases hpath
  | cons key path ih =>
    by_cases hkept : key ∈ reservedRequestFields ∨ options.lookup key = none
    · rwa [atPath_cons, lookup_mergeItems_kept hoptions hkept, ← atPath_cons]
    · rw [not_or] at hkept
      obtain ⟨v, hv⟩ := ne_none_iff_exists'.mp hkept.2
      rw [untouched, hv] at hpath
      cases v with
      | obj incoming =>
        rw [atPath_cons, lookup_mergeItems_of_lookup hoptions hkept.1 hv]
        cases path with
        | nil => cases hpath
        | cons next path =>
          -- the path goes on in the body, so the body has an object here
          obtain ⟨u, hu, hrest⟩ := bind_eq_some_iff.mp h
          obtain ⟨base, rfl, -⟩ := exists_obj_of_atPath_cons hrest
          have hget : body.get key = .obj base := by rw [JsonObject.get, hu]; rfl
          rw [hget, mergeValue_obj]
          exact ih (keysUnique_of_lookup hoptions hv) hpath hrest
      | _ => cases hpath

/-! ### A Second Merge -/

theorem mergeItems_eq_self {items : List (String × Json)}
    (h : ∀ p ∈ items, p.1 ∉ reservedRequestFields →
      ∃ v, merged.lookup p.1 = some v ∧ mergeValue v p.2 = v) :
    mergeItems merged items = merged := by
  induction items with
  | nil => rfl
  | cons p rest ih =>
    have hitem : mergeItem merged p = merged := by
      obtain ⟨key, value⟩ := p
      unfold mergeItem
      by_cases hkey : key ∈ reservedRequestFields
      · rw [if_pos hkey]
      · obtain ⟨v, hv, hvalue⟩ := h _ mem_cons_self hkey
        rw [if_neg hkey, JsonObject.get, hv, getD_some, hvalue]
        exact set_eq_self hv
    rw [mergeItems_cons, hitem]
    exact ih fun q hq => h q (mem_cons_of_mem _ hq)

theorem mergeValue_self (value : Json) (h : keysUnique value) :
    mergeValue value value = value := by
  induction value using objInduction with
  | hleaf v hv => exact mergeValue_replace (.inl hv)
  | hobj fields ih =>
    rw [mergeValue_obj, mergeItems_eq_self]
    intro p hp _
    refine ⟨p.2, (OrderedDict.lookup_eq_some_iff (nodup_of_keysUnique h)).mpr hp, ih p hp ?_⟩
    exact keysUnique_of_mem h hp

theorem mergeValue_mergeValue (value : Json) (h : keysUnique value) (current : Json) :
    mergeValue (mergeValue current value) value = mergeValue current value := by
  induction value using objInduction generalizing current with
  | hleaf v hv => rw [mergeValue_replace (.inr hv), mergeValue_replace (.inr hv)]
  | hobj fields ih =>
    cases current with
    | obj base =>
      rw [mergeValue_obj, mergeValue_obj, mergeItems_eq_self]
      intro p hp hkey
      have hlookup := (OrderedDict.lookup_eq_some_iff (nodup_of_keysUnique h)).mpr hp
      exact ⟨_, lookup_mergeItems_of_lookup h hkey hlookup, ih p hp (keysUnique_of_mem h hp) _⟩
    | _ => exact mergeValue_self (.obj fields) h

theorem merge_idempotent (hoptions : keysUnique (.obj options)) (body : JsonObject) :
    mergeItems (mergeItems body options) options = mergeItems body options :=
  Json.obj.inj (mergeValue_mergeValue (.obj options) hoptions (.obj body))

theorem same_mergeValue (value : Json) (hvalue : keysUnique value) {v w : Json}
    (h : Same v w) : Same (mergeValue v value) (mergeValue w value) := by
  induction value using objInduction generalizing v w with
  | hleaf u hu =>
    rw [mergeValue_replace (.inr hu), mergeValue_replace (.inr hu)]
    exact .refl u
  | hobj fields ih =>
    cases hv : v.asObject with
    | none =>
      rw [h.eq_of_leaf hv]
      exact .refl _
    | some base =>
      obtain rfl : v = .obj base := by cases v <;> first | cases hv; rfl | cases hv
      obtain ⟨base', hw⟩ := h.atPath_of_obj (atPath_nil (.obj base))
      obtain rfl : w = .obj base' := by simpa using hw
      have hgets := same_obj_iff.mp h
      rw [mergeValue_obj, mergeValue_obj, same_obj_iff]
      intro key path
      by_cases hkept : key ∈ reservedRequestFields ∨ fields.lookup key = none
      · rw [lookup_mergeItems_kept hvalue hkept, lookup_mergeItems_kept hvalue hkept]
        exact hgets key path
      · rw [not_or] at hkept
        obtain ⟨u, hu⟩ := ne_none_iff_exists'.mp hkept.2
        rw [lookup_mergeItems_of_lookup hvalue hkept.1 hu,
          lookup_mergeItems_of_lookup hvalue hkept.1 hu]
        refine ih (key, u) (OrderedDict.mem_of_lookup hu) (keysUnique_of_lookup hvalue hu) ?_ path
        exact same_get h key

/-! ### Agreement -/

/-- **The two merges agree**: the proxy finishes, and in every order of its maps its result is the
    backend's tree; reserved fields and untouched paths keep their values, and merging the same
    options again changes nothing on either side. -/
theorem merge_provider_options_agree (body options : Dict) :
    ProxyMerge body.1 options.1 (mergeProviderRequestOptions body.1 options.1) ∧
    (∀ result : Dict, ProxyMerge body.1 options.1 result.1 →
      Same (.obj result.1) (.obj (mergeProviderRequestOptions body.1 options.1)) ∧
      (∀ key ∈ reservedRequestFields, ∀ path, ((Json.obj result.1).atPath (key :: path)).map leaf =
          ((Json.obj body.1).atPath (key :: path)).map leaf) ∧
      (∀ path v, untouched options.1 path = true → (Json.obj body.1).atPath path = some v →
        ∃ w, (Json.obj result.1).atPath path = some w ∧ Same v w) ∧
      ∀ again : Dict, ProxyMerge result.1 options.1 again.1 →
        Same (.obj again.1) (.obj result.1)) ∧
    (∀ key ∈ reservedRequestFields,
      (mergeProviderRequestOptions body.1 options.1).lookup key = body.1.lookup key) ∧
    (∀ path v, untouched options.1 path = true → (Json.obj body.1).atPath path = some v →
      (Json.obj (mergeProviderRequestOptions body.1 options.1)).atPath path = some v) ∧
    mergeProviderRequestOptions (mergeProviderRequestOptions body.1 options.1) options.1 =
      mergeProviderRequestOptions body.1 options.1 := by
  have hreserved : ∀ key ∈ reservedRequestFields,
      (mergeProviderRequestOptions body.1 options.1).lookup key = body.1.lookup key :=
    fun key hkey => lookup_mergeItems_kept options.2 (.inl hkey)
  have hidempotent := merge_idempotent options.2 body.1
  refine ⟨proxyMerge_total _ _, ?_, hreserved, ?_, hidempotent⟩
  · intro result hresult
    have hsame := same_of_proxyMerge body.2 options.2 hresult
    refine ⟨hsame, ?_, ?_, ?_⟩
    · intro key hkey path
      rw [hsame (key :: path), atPath_cons, hreserved key hkey, atPath_cons]
    · intro path v hpath hv
      exact hsame.symm.atPath_some (atPath_of_untouched options.2 hpath hv)
    · intro again hagain
      -- a second merge of the proxy is the backend's merge of the first result
      have hsecond := same_of_proxyMerge result.2 options.2 hagain
      have hmerged := same_mergeValue (.obj options.1) options.2 hsame
      rw [mergeValue_obj, mergeValue_obj] at hmerged
      refine (hsecond.trans hmerged).trans ?_
      rw [mergeProviderRequestOptions, hidempotent]
      exact hsame.symm
  · intro path v hpath hv
    exact atPath_of_untouched options.2 hpath hv

/-! ### Accepted Options Below the Top Level -/

/-- A leaf of the options: a value that is no object, or an empty object where the body has
    none. -/
def IsLeaf (body options : JsonObject) (path : List String) (value : Json) : Prop :=
  (Json.obj options).atPath path = some value ∧
    (value.asObject = none ∨
      value = .obj [] ∧ ((Json.obj body).atPath path).bind Json.asObject = none)

/-- Every leaf of the options is found in the result. -/
def Applied (body options result : JsonObject) : Prop :=
  ∀ path value, IsLeaf body options path value → (Json.obj result).atPath path = some value

/-- Walking down the path, the merge comes to a reserved name: as long as the body has objects it
    is walked along with the options. -/
def reserves (body : JsonObject) : List String → Bool
  | [] => false
  | key :: path =>
    decide (key ∈ reservedRequestFields) ||
      match body.get key with
      | .obj base => reserves base path
      | _ => false

/-- The merge comes to a reserved name below the top level. -/
def shadowed (body : JsonObject) : List String → Bool
  | [] => false
  | key :: path =>
    match body.get key with
    | .obj base => reserves base path
    | _ => false

/-- At a leaf the merged object has the option, unless the path is reserved. -/
theorem atPath_mergeItems (hoptions : keysUnique (.obj options)) {path : List String}
    (h : IsLeaf body options path value) :
    (Json.obj (mergeItems body options)).atPath path =
      if reserves body path then (Json.obj body).atPath path else some value := by
  induction path generalizing body options with
  | nil =>
    obtain ⟨hat, hleaf⟩ := h
    obtain rfl : Json.obj options = value := by simpa using hat
    rcases hleaf with hplain | ⟨-, hbody⟩
    · cases hplain
    · cases hbody
  | cons key path ih =>
    obtain ⟨u, hu, hrest⟩ := bind_eq_some_iff.mp h.1
    by_cases hkey : key ∈ reservedRequestFields
    · have hreserves : reserves body (key :: path) = true := by simp [reserves, hkey]
      rw [atPath_cons, lookup_mergeItems_kept hoptions (.inl hkey), if_pos hreserves, atPath_cons]
    · rw [atPath_cons, lookup_mergeItems_of_lookup hoptions hkey hu, bind_some]
      by_cases hplain : (body.get key).asObject = none ∨ u.asObject = none
      · -- the option replaces what the body has, so all of it is there
        rw [mergeValue_replace hplain, hrest]
        have hreserves : reserves body (key :: path) = false := by
          rcases hplain with hbody | hvalue
          · simp only [reserves, hkey, decide_false, Bool.false_or]
            cases hget : body.get key with
            | obj base => rw [hget] at hbody; cases hbody
            | _ => rfl
          · cases path with
            | nil =>
              simp only [reserves, hkey, decide_false, Bool.false_or]
              cases body.get key <;> rfl
            | cons next path => rw [atPath_cons_of_asObject_eq_none hvalue] at hrest; cases hrest
        rw [hreserves]
        rfl
      · rw [not_or] at hplain
        cases hget : body.get key with
        | obj base =>
          cases u with
          | obj incoming =>
            have hbody : (Json.obj body).atPath (key :: path) = (Json.obj base).atPath path := by
              rw [atPath_cons]
              cases hlookup : body.lookup key with
              | none => simp [JsonObject.get, hlookup] at hget
              | some w =>
                obtain rfl : w = .obj base := by simpa [JsonObject.get, hlookup] using hget
                rfl
            -- both sides are objects, so the leaf is one level down
            have hinner : IsLeaf base incoming path value := by
              refine ⟨hrest, ?_⟩
              rw [← hbody]
              exact h.2
            have hreserves : reserves body (key :: path) = reserves base path := by
              simp only [reserves, hkey, decide_false, Bool.false_or, hget]
            rw [mergeValue_obj, ih (keysUnique_of_lookup hoptions hu) hinner, hreserves, hbody]
          | _ => exact absurd rfl hplain.2
        | _ => exact absurd (by rw [hget]; rfl) hplain.1

theorem reserves_eq_shadowed (haccepted : validateProviderRequestOptions (.obj options) = true)
    {path : List String} (h : IsLeaf body options path value) :
    reserves body path = shadowed body path := by
  cases path with
  | nil => rfl
  | cons key path =>
    obtain ⟨u, hu, -⟩ := bind_eq_some_iff.mp h.1
    have hkey : key ∉ reservedRequestFields := by
      have hall := List.all_eq_true.mp haccepted (key, u) (OrderedDict.mem_of_lookup hu)
      simpa using hall
    simp only [reserves, shadowed, hkey, decide_false, Bool.false_or]

theorem atPath_leaf_of_same {v w : Json} (h : Same v w) {path : List String}
    (hat : v.atPath path = some value) (hleaf : value.asObject = none ∨ value = .obj []) :
    w.atPath path = some value := by
  rcases hleaf with hplain | rfl
  · exact h.atPath_of_leaf hat hplain
  · obtain ⟨u, hu, hsame⟩ := h.atPath_some hat
    rw [hu, hsame.symm.eq_nil]

/-- **Full application**: an accepted options object is applied in full by both merges exactly when
    each of its leaves that the merge meets below a nested reserved name already has its value in
    the body. -/
theorem applied_iff_not_shadowed (body options : Dict)
    (haccepted : validateProviderRequestOptions (.obj options.1) = true) :
    (Applied body.1 options.1 (mergeProviderRequestOptions body.1 options.1) ∧
      ∀ result, ProxyMerge body.1 options.1 result → Applied body.1 options.1 result) ↔
    ∀ path value, IsLeaf body.1 options.1 path value → shadowed body.1 path = true →
      (Json.obj body.1).atPath path = some value := by
  constructor
  · rintro ⟨happlied, -⟩ path value hleaf hshadowed
    have hat := atPath_mergeItems options.2 hleaf
    rw [reserves_eq_shadowed haccepted hleaf, if_pos hshadowed] at hat
    rw [← hat]
    exact happlied path value hleaf
  · intro hkept
    have happlied : Applied body.1 options.1 (mergeProviderRequestOptions body.1 options.1) := by
      intro path value hleaf
      have hat := atPath_mergeItems options.2 hleaf
      rw [reserves_eq_shadowed haccepted hleaf] at hat
      rw [mergeProviderRequestOptions, hat]
      split
      · next hshadowed => exact hkept path value hleaf hshadowed
      · rfl
    refine ⟨happlied, ?_⟩
    intro result hresult path value hleaf
    have hsame := same_of_proxyMerge body.2 options.2 hresult
    refine atPath_leaf_of_same hsame.symm (happlied path value hleaf) ?_
    rcases hleaf.2 with hplain | ⟨hempty, -⟩
    · exact .inl hplain
    · exact .inr hempty

/-- A nested option, over a body that has no object there. -/
def metadataOptions : Dict :=
  ⟨[("metadata", .obj [("model", .str "x")])], by decide⟩

theorem applied_metadata_options :
    validateProviderRequestOptions (.obj metadataOptions.1) = true ∧
      (Applied [] metadataOptions.1 (mergeProviderRequestOptions [] metadataOptions.1) ∧
        ∀ result, ProxyMerge [] metadataOptions.1 result → Applied [] metadataOptions.1 result) := by
  refine ⟨by decide, (applied_iff_not_shadowed ⟨[], by decide⟩ metadataOptions (by decide)).mpr ?_⟩
  intro path value _ hshadowed
  cases path with
  | nil => cases hshadowed
  | cons key path => cases hshadowed

/-- The same options over a body that has one: the option is dropped. -/
theorem nested_model_dropped :
    validateProviderRequestOptions (.obj metadataOptions.1) = true ∧
      IsLeaf [("metadata", .obj [])] metadataOptions.1 ["metadata", "model"] (.str "x") ∧
      mergeProviderRequestOptions [("metadata", .obj [])] metadataOptions.1 =
        [("metadata", .obj [])] ∧
      ¬ Applied [("metadata", .obj [])] metadataOptions.1
        (mergeProviderRequestOptions [("metadata", .obj [])] metadataOptions.1) := by
  have hleaf : IsLeaf [("metadata", .obj [])] metadataOptions.1 ["metadata", "model"] (.str "x") :=
    ⟨rfl, .inl rfl⟩
  have hmerged : mergeProviderRequestOptions [("metadata", .obj [])] metadataOptions.1 =
      [("metadata", .obj [])] := rfl
  refine ⟨by decide, hleaf, hmerged, fun happlied => ?_⟩
  have hat := happlied _ _ hleaf
  rw [hmerged] at hat
  cases hat

end Codify.ProviderRequestOptions

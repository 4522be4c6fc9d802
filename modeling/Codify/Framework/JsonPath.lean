import Codify.Framework.JsonRoundTrip

/-! # Key Paths of JSON Objects

    A JSON value seen as a tree of objects: a key path leads through objects to
    a value (`Json.atPath`), and two values are the same tree (`Json.Same`) when the
    same paths lead to objects and the same paths lead to the same other values.
    The order of an object's items is not part of the tree, so maps without an
    order can be compared with dicts.
-/

namespace Codify.Framework

open List Option

theorem JsonObject.set_eq_self {d : JsonObject} {key : String} {value : Json}
    (h : d.lookup key = some value) : d.set key value = d := by
  induction d with
  | nil => cases h
  | cons p rest ih =>
    obtain ⟨k, v⟩ := p
    by_cases hk : k = key
    · subst hk
      obtain rfl : v = value := by simpa [lookup_cons] using h
      simp [JsonObject.set]
    · have hrest : rest.lookup key = some value := by
        simpa [lookup_cons, beq_false_of_ne (Ne.symm hk)] using h
      simp [JsonObject.set, hk, ih hrest]

namespace Json

theorem objInduction {P : Json → Prop} (hleaf : ∀ v : Json, v.asObject = none → P v)
    (hobj : ∀ fields : JsonObject, (∀ p ∈ fields, P p.2) → P (.obj fields)) : ∀ v, P v :=
  value
where
  value : (v : Json) → P v
    | .obj items => hobj items (fields items)
    | .null => hleaf _ rfl
    | .bool _ => hleaf _ rfl
    | .int _ => hleaf _ rfl
    | .float _ => hleaf _ rfl
    | .str _ => hleaf _ rfl
    | .arr _ => hleaf _ rfl
  fields : (items : List (String × Json)) → ∀ p ∈ items, P p.2
    | [] => fun _ hp => absurd hp not_mem_nil
    | q :: rest => fun p hp =>
      (mem_cons.mp hp).elim (fun heq => heq ▸ field q) (fields rest p)
  field : (p : String × Json) → P p.2
    | (_, v) => value v

def atPath : Json → List String → Option Json
  | v, [] => some v
  | .obj fields, key :: path => (fields.lookup key).bind (Json.atPath · path)
  | _, _ :: _ => none

@[simp] theorem atPath_nil (v : Json) : v.atPath [] = some v := by cases v <;> rfl

@[simp] theorem atPath_cons (fields : JsonObject) (key : String) (path : List String) :
    (Json.obj fields).atPath (key :: path) = (fields.lookup key).bind (Json.atPath · path) := rfl

variable {v w : Json} {a b : JsonObject}

theorem atPath_cons_of_asObject_eq_none (h : v.asObject = none) (key : String)
    (path : List String) : v.atPath (key :: path) = none := by
  cases v <;> first | rfl | cases h

theorem atPath_append (v : Json) (path more : List String) :
    v.atPath (path ++ more) = (v.atPath path).bind (Json.atPath · more) := by
  induction path generalizing v with
  | nil => simp
  | cons key path ih =>
    cases v with
    | obj fields =>
      cases hu : fields.lookup key with
      | none => simp [hu]
      | some u => simp [hu, ih u]
    | _ => rfl

theorem exists_obj_of_atPath_cons {key : String} {path : List String}
    (h : v.atPath (key :: path) = some w) :
    ∃ fields : JsonObject, v = .obj fields ∧ ∃ u, fields.lookup key = some u ∧ u.atPath path = some w := by
  cases v with
  | obj fields =>
    obtain ⟨u, hu, hw⟩ := bind_eq_some_iff.mp h
    exact ⟨fields, rfl, u, hu, hw⟩
  | _ => cases h

/-- The value itself when it is no object. -/
def leaf : Json → Option Json
  | .obj _ => none
  | v => some v

@[simp] theorem leaf_obj (fields : JsonObject) : (Json.obj fields).leaf = none := rfl

theorem leaf_of_asObject_eq_none (h : v.asObject = none) : v.leaf = some v := by
  cases v <;> first | rfl | cases h

theorem eq_of_leaf_eq_some (h : v.leaf = some w) : v = w := by
  cases v <;> first | exact some.inj h | cases h

/-! ### The Same Tree -/

/-- The same paths lead to objects, and the same paths to the same other values. -/
def Same (v w : Json) : Prop := ∀ path, (v.atPath path).map leaf = (w.atPath path).map leaf

namespace Same

theorem refl (v : Json) : Same v v := fun _ => rfl

variable {v w u : Json} {path : List String}

theorem symm (h : Same v w) : Same w v := fun path => (h path).symm

theorem trans (huv : Same u v) (hvw : Same v w) : Same u w :=
  fun path => (huv path).trans (hvw path)

theorem eq_of_leaf (h : Same v w) (hv : v.asObject = none) : w = v := by
  have hroot := h []
  simp only [atPath_nil, map_some, leaf_of_asObject_eq_none hv, Option.some.injEq] at hroot
  exact eq_of_leaf_eq_some hroot.symm

/-- A path that leads to a value that is no object leads to it in both trees. -/
theorem atPath_of_leaf (h : Same v w) (hat : v.atPath path = some u)
    (hu : u.asObject = none) : w.atPath path = some u := by
  have hpath := h path
  rw [hat, map_some, leaf_of_asObject_eq_none hu] at hpath
  obtain ⟨u', hu', hleaf⟩ := map_eq_some_iff.mp hpath.symm
  rw [hu', eq_of_leaf_eq_some hleaf]

theorem atPath_of_obj (h : Same v w) {fields : JsonObject}
    (hat : v.atPath path = some (.obj fields)) :
    ∃ fields' : JsonObject, w.atPath path = some (.obj fields') := by
  have hpath := h path
  rw [hat, map_some, leaf_obj] at hpath
  obtain ⟨u, hu, hleaf⟩ := map_eq_some_iff.mp hpath.symm
  cases u with
  | obj fields' => exact ⟨fields', hu⟩
  | _ => cases hleaf

theorem atPath_some {v w u : Json} (h : Same v w) {path : List String}
    (hat : v.atPath path = some u) : ∃ u', w.atPath path = some u' ∧ Same u u' := by
  have hpath := h path
  rw [hat, map_some] at hpath
  obtain ⟨u', hu', -⟩ := map_eq_some_iff.mp hpath.symm
  refine ⟨u', hu', fun more => ?_⟩
  have hmore := h (path ++ more)
  rwa [atPath_append, atPath_append, hat, hu'] at hmore

theorem eq_nil (h : Same v (.obj [])) : v = .obj [] := by
  obtain ⟨fields, hv⟩ := h.symm.atPath_of_obj (atPath_nil (.obj []))
  rw [atPath_nil, Option.some.injEq] at hv
  subst hv
  cases fields with
  | nil => rfl
  | cons p rest =>
    have hkey := h [p.1]
    simp at hkey

end Same

/-- Objects are the same tree when they have the same keys with the same trees under them. -/
theorem same_obj_iff :
    Same (.obj a) (.obj b) ↔ ∀ key path, ((a.lookup key).bind (Json.atPath · path)).map leaf =
        ((b.lookup key).bind (Json.atPath · path)).map leaf := by
  constructor
  · intro h key path
    exact h (key :: path)
  · intro h path
    cases path with
    | nil => rfl
    | cons key path => exact h key path

theorem same_get (h : Same (.obj a) (.obj b)) (key : String) :
    Same (a.get key) (b.get key) := by
  cases ha : a.lookup key with
  | none =>
    have hroot := same_obj_iff.mp h key []
    cases hb : b.lookup key with
    | none =>
      rw [JsonObject.get, JsonObject.get, ha, hb]
      exact .refl _
    | some w => simp [ha, hb] at hroot
  | some v =>
    obtain ⟨w, hw, hsame⟩ := @Same.atPath_some _ _ v h [key] (by simp [ha])
    have hb : b.lookup key = some w := by simpa [bind_eq_some_iff] using hw
    rw [JsonObject.get, JsonObject.get, ha, hb]
    exact hsame

theorem same_obj_of_lookup
    (h : ∀ key, (a.lookup key = none ∧ b.lookup key = none) ∨
      ∃ v w, a.lookup key = some v ∧ b.lookup key = some w ∧ Same v w) :
    Same (.obj a) (.obj b) := by
  rw [same_obj_iff]
  intro key path
  rcases h key with ⟨ha, hb⟩ | ⟨v, w, ha, hb, hvw⟩
  · rw [ha, hb]
  · rw [ha, hb]
    exact hvw path

end Json

end Codify.Framework

import Codify.Framework.Json

/-! # Decidable Equality of Documents

    Two documents are the same when they are built the same way, with the items of
    their dicts in the same order. Python's `==` (`Json.pyEq`) is coarser.
-/

namespace Codify.Framework.Json

mutual

def same : Json → Json → Bool
  | .null, .null => true
  | .bool a, .bool b => a == b
  | .int m, .int n => decide (m = n)
  | .float x, .float y => decide (x = y)
  | .str s, .str t => decide (s = t)
  | .arr items, .arr items' => sameItems items items'
  | .obj fields, .obj fields' => sameFields fields fields'
  | _, _ => false
termination_by structural v => v

def sameItems : List Json → List Json → Bool
  | [], [] => true
  | v :: rest, v' :: rest' => same v v' && sameItems rest rest'
  | _, _ => false
termination_by structural v => v

def sameField : String × Json → String × Json → Bool
  | (key, v), p => decide (key = p.1) && same v p.2
termination_by structural v => v

def sameFields : List (String × Json) → List (String × Json) → Bool
  | [], [] => true
  | p :: rest, p' :: rest' => sameField p p' && sameFields rest rest'
  | _, _ => false
termination_by structural v => v

end

mutual

theorem same_iff : ∀ v v' : Json, same v v' = true ↔ v = v'
  | .null, v' => by cases v' <;> simp [same]
  | .bool a, v' => by cases v' <;> simp [same]
  | .int m, v' => by cases v' <;> simp [same]
  | .float x, v' => by cases v' <;> simp [same]
  | .str s, v' => by cases v' <;> simp [same]
  | .arr items, v' => by
    cases v' with
    | arr items' => simpa [same] using sameItems_iff items items'
    | _ => simp [same]
  | .obj fields, v' => by
    cases v' with
    | obj fields' => simpa [same] using sameFields_iff fields fields'
    | _ => simp [same]
termination_by structural v => v

theorem sameItems_iff : ∀ items items' : List Json, sameItems items items' = true ↔ items = items'
  | [], items' => by cases items' <;> simp [sameItems]
  | v :: rest, items' => by
    cases items' with
    | nil => simp [sameItems]
    | cons v' rest' => simp [sameItems, same_iff v v', sameItems_iff rest rest']
termination_by structural items => items

theorem sameField_iff : ∀ p p' : String × Json, sameField p p' = true ↔ p = p'
  | (key, v), (key', v') => by simp [sameField, same_iff v v']
termination_by structural p => p

theorem sameFields_iff : ∀ fields fields' : List (String × Json),
    sameFields fields fields' = true ↔ fields = fields'
  | [], fields' => by cases fields' <;> simp [sameFields]
  | p :: rest, fields' => by
    cases fields' with
    | nil => simp [sameFields]
    | cons p' rest' => simp [sameFields, sameField_iff p p', sameFields_iff rest rest']
termination_by structural fields => fields

end

instance : DecidableEq Json := fun v v' => decidable_of_iff _ (same_iff v v')

end Codify.Framework.Json

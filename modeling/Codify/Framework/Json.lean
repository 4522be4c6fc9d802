import Codify.Framework.OrderedDict
import Mathlib.Data.List.DropRight
import Mathlib.Data.Rat.Defs

/-! # JSON Values as Python Sees Them

    JSON documents loaded by Python's `json`: an object is a dict, kept as its
    items in insertion order, and the two number types stay apart. Equality is
    Python's `==` (`Json.pyEq`): dicts compare without order and `True`, `1`
    and `1.0` are equal. The text predicates are those of `str`.
-/

namespace Codify.Framework

/-- A JSON floating-point number, up to what comparison and printing can see. -/
inductive JsonFloat where
  | finite (q : Rat)
  | negZero
  | posInf
  | negInf
  | nan
  deriving DecidableEq, Repr

def JsonFloat.toRat? : JsonFloat → Option Rat
  | .finite q => some q
  | .negZero => some 0
  | _ => none

/-- `x < 0`. -/
def JsonFloat.isNegative : JsonFloat → Bool
  | .finite q => q < 0
  | .negInf => true
  | _ => false

/-- `x == y` on floats. -/
def JsonFloat.pyEq (x y : JsonFloat) : Bool :=
  match x.toRat?, y.toRat? with
  | some p, some q => p == q
  | none, none => x == y && x != .nan
  | _, _ => false

/-- A JSON document. -/
inductive Json where
  | null
  | bool (b : Bool)
  | int (n : Int)
  | float (x : JsonFloat)
  | str (s : String)
  | arr (items : List Json)
  | obj (fields : List (String × Json))
  deriving Repr

abbrev JsonObject := List (String × Json)

namespace JsonObject

variable (d : JsonObject) (key : String)

/-- `d.get(key)`: the value, or `null` when the key is missing. -/
def get : Json := (d.lookup key).getD .null

/-- `key in d`. -/
def has : Bool := (d.lookup key).isSome

/-- `d[key] = value`: in place when the key exists, else at the end. -/
def set : JsonObject → String → Json → JsonObject
  | [], key, value => [(key, value)]
  | (k, v) :: rest, key, value =>
    if k = key then (k, value) :: rest else (k, v) :: set rest key value

/-- `d.pop(key, None)`. -/
def erase : JsonObject := d.filter fun p => p.1 != key

/-- `d.update(fields)`; also `{**d, **fields}`. -/
def update (d fields : JsonObject) : JsonObject :=
  fields.foldl (fun d p => d.set p.1 p.2) d

/-- `list(d)`. -/
def keys : List String := d.map (·.1)

theorem set_eq (value : Json) : d.set key value = OrderedDict.set d key value := by
  induction d with
  | nil => rfl
  | cons p rest ih => rw [set, OrderedDict.set, ih]

theorem lookup_set (key key' : String) (value : Json) :
    (d.set key value).lookup key' = if key' = key then some value else d.lookup key' := by
  rw [set_eq, OrderedDict.lookup_set]

@[simp] theorem get_set_self (value : Json) : (d.set key value).get key = value := by
  simp [get, lookup_set]

@[simp] theorem get_set_ne {key key' : String} (h : key' ≠ key) (value : Json) :
    (d.set key value).get key' = d.get key' := by
  simp [get, lookup_set, h]

end JsonObject

namespace Json

/-- A number `n` against a float. -/
def intEqFloat (n : Int) (x : JsonFloat) : Bool := x.toRat? == some (n : Rat)

def boolToInt (b : Bool) : Int := if b then 1 else 0

/- The four functions recurse on the left value; the right one is looked up. -/
mutual

/-- Python's `==`. -/
def pyEq : Json → Json → Bool
  | .null, .null => true
  | .bool a, .bool b => a == b
  | .bool a, .int b => boolToInt a == b
  | .bool a, .float b => intEqFloat (boolToInt a) b
  | .int a, .bool b => a == boolToInt b
  | .int a, .int b => a == b
  | .int a, .float b => intEqFloat a b
  | .float a, .bool b => intEqFloat (boolToInt b) a
  | .float a, .int b => intEqFloat b a
  | .float a, .float b => a.pyEq b
  | .str a, .str b => a == b
  | .arr a, .arr b => pyEqItems a b
  | .obj a, .obj b => a.length == b.length && pyEqFields a b
  | _, _ => false
termination_by structural x => x

/-- `==` on lists. -/
def pyEqItems : List Json → List Json → Bool
  | [], [] => true
  | a :: as, b :: bs => pyEq a b && pyEqItems as bs
  | _, _ => false
termination_by structural x => x

/-- Every item of a dict has an equal item in the other one. -/
def pyEqFields : List (String × Json) → List (String × Json) → Bool
  | [], _ => true
  | p :: rest, b => pyEqField p b && pyEqFields rest b
termination_by structural x => x

/-- One item of a dict has an equal item in the other one. -/
def pyEqField : String × Json → List (String × Json) → Bool
  | (key, value), b =>
    match b.lookup key with
    | some other => pyEq value other
    | none => false
termination_by structural x => x

end

/-- `isinstance(value, Mapping)`, with the mapping. -/
def asObject : Json → Option JsonObject
  | .obj fields => some fields
  | _ => none

/-- `isinstance(value, str)`, with the string. -/
def asString : Json → Option String
  | .str s => some s
  | _ => none

/-- `isinstance(value, int) and not isinstance(value, bool)`, with the integer. -/
def asInt : Json → Option Int
  | .int n => some n
  | _ => none

/-- `isinstance(value, list)`, with the items. -/
def asList : Json → Option (List Json)
  | .arr items => some items
  | _ => none

/-- `value is None`. -/
def isNull : Json → Bool
  | .null => true
  | _ => false

/-- `bool(value)`. -/
def truthy : Json → Bool
  | .null => false
  | .bool b => b
  | .int n => n != 0
  | .float x => x.toRat? != some 0
  | .str s => s != ""
  | .arr items => !items.isEmpty
  | .obj fields => !fields.isEmpty

/-- `value or other`. -/
def orElse (value other : Json) : Json := if value.truthy then value else other

/-- Whether `hash(value)` is defined: lists and dicts raise `TypeError`. -/
def hashable : Json → Bool
  | .arr _ => false
  | .obj _ => false
  | _ => true

/-- `value == s` for a string `s`. -/
def isStr (value : Json) (s : String) : Bool := value.asString == some s

theorem isStr_iff {value : Json} {s : String} : value.isStr s = true ↔ value = .str s := by
  cases value <;> simp [isStr, asString]

theorem isStr_unique {value : Json} {s t : String} (hs : value.isStr s = true)
    (ht : value.isStr t = true) : s = t := by
  rw [isStr_iff.mp hs] at ht
  exact Json.str.inj (isStr_iff.mp ht)

end Json

/-! ### Text -/

/-- The code points `str.strip` removes. -/
def isSpace (c : Char) : Bool :=
  let n := c.toNat
  (9 ≤ n && n ≤ 13) || (28 ≤ n && n ≤ 32) || n == 0x85 || n == 0xa0 || n == 0x1680 ||
    (0x2000 ≤ n && n ≤ 0x200a) || n == 0x2028 || n == 0x2029 || n == 0x202f || n == 0x205f ||
    n == 0x3000

/-- `not s.strip()`. -/
def blank (s : String) : Bool := s.toList.all isSpace

/-- `s.strip()`. -/
def strip (s : String) : String :=
  String.ofList ((s.toList.dropWhile isSpace).reverse.dropWhile isSpace).reverse

theorem strip_strip (s : String) : strip (strip s) = strip s := by
  have htoList : (strip s).toList = (s.toList.dropWhile isSpace).rdropWhile isSpace := by
    simp [strip, List.rdropWhile]
  have hprefix : (s.toList.dropWhile isSpace).rdropWhile isSpace <+: s.toList.dropWhile isSpace :=
    List.rdropWhile_prefix _ _
  have hhead : ((strip s).toList).dropWhile isSpace = (strip s).toList := by
    rw [htoList, List.dropWhile_eq_self_iff]
    intro hl
    have hget := hprefix.getElem hl
    rw [hget]
    exact List.dropWhile_get_zero_not _ _ _
  have hend : ((strip s).toList.reverse.dropWhile isSpace).reverse = (strip s).toList := by
    rw [htoList]
    exact List.rdropWhile_idempotent _ _
  rw [strip, hhead, hend, String.ofList_toList]

/-- `s.startswith(start)`. -/
def startsWith (s start : String) : Bool := start.toList.isPrefixOf s.toList

/-- `s.lower()` as far as equality with an ASCII text can see it: besides the ASCII
    capitals only the Kelvin sign lowers to an ASCII letter. -/
def lower (s : String) : String :=
  String.ofList (s.toList.map fun c => if c.toNat = 0x212a then 'k' else c.toLower)

theorem toList_toString (n : Nat) : (toString n).toList = Nat.toDigits 10 n := by
  show (Nat.repr n).toList = _
  rw [Nat.repr_eq_ofList_toDigits, String.toList_ofList]

theorem toString_injective {m n : Nat} (h : toString m = toString n) : m = n := by
  have hdigits := congrArg (fun t => Nat.ofDigitChars 10 (String.toList t) 0) h
  simpa only [toList_toString, Nat.ofDigitChars_ten_toDigits] using hdigits

/-- `s.replace(c, text)` for one character. -/
def replaceChar (s : String) (c : Char) (text : String) : String :=
  String.ofList (s.toList.flatMap fun d => if d = c then text.toList else [d])

end Codify.Framework

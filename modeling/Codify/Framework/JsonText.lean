import Codify.Framework.Json

/-! # JSON Text

    Writing and reading JSON as Python's `json` does. `dumps` is
    `json.dumps(value, ensure_ascii=…, separators=(",", ":"))`. `loads` is
    `json.loads`, written as a machine that reads one character at a time: the
    stack holds the lists and dicts that are still open, the mode says what the
    next character may be. What a text makes the machine do is then determined
    by what its first part makes it do (`run_append`), which is the form in
    which cut and concatenated records are reasoned about.

    Texts are lists of characters. A lone surrogate escape, which Python turns
    into a code point that no text file can hold, is refused here.
-/

namespace Codify.Framework.JsonText

/-! ### Numbers -/

variable (ensureAscii : Bool) (c : Char)

def isNumberChar : Bool := c.isDigit || c == '+' || c == '-' || c == '.' || c == 'e' || c == 'E'

/-- `0|[1-9][0-9]*`. -/
def isNatToken : List Char → Bool
  | [] => false
  | c :: cs => (c == '0' && cs.isEmpty) || (c.isDigit && c != '0' && cs.all Char.isDigit)

def unsigned : List Char → List Char
  | [] => []
  | c :: cs => if c = '-' then cs else c :: cs

/-- `int(token)` for a token `-?(0|[1-9][0-9]*)`. -/
def intOfToken (token : List Char) : Option Int :=
  if isNatToken (unsigned token) then
    let n : Int := Nat.ofDigitChars 10 (unsigned token) 0
    some (if token.head? = some '-' then -n else n)
  else none

/-- `[eE][-+]?[0-9]+`. -/
def isExponent : List Char → Bool
  | [] => false
  | c :: cs =>
    (c == 'e' || c == 'E') &&
      (let digits := match cs with
        | [] => []
        | d :: ds => if d = '+' ∨ d = '-' then ds else d :: ds
       !digits.isEmpty && digits.all Char.isDigit)

/-- `(\.[0-9]+)?([eE][-+]?[0-9]+)?`, not empty. -/
def isFloatTail : List Char → Bool
  | [] => false
  | c :: cs =>
    if c = '.' then
      !(cs.takeWhile Char.isDigit).isEmpty &&
        ((cs.dropWhile Char.isDigit).isEmpty || isExponent (cs.dropWhile Char.isDigit))
    else isExponent (c :: cs)

/-- A number token with a fraction or an exponent. -/
def isFloatToken (token : List Char) : Bool :=
  isNatToken ((unsigned token).takeWhile Char.isDigit) &&
    isFloatTail ((unsigned token).dropWhile Char.isDigit)

/-- How finite floats are written (`float.__repr__`) and read (`float(token)`).
    Python documents that the text of a float reads back as the same float. -/
structure FloatText where
  /-- `repr(x)`. -/
  repr : JsonFloat → List Char
  /-- `float(token)`. -/
  parse : List Char → JsonFloat
  /-- The text of a finite float has a fraction or an exponent. -/
  repr_token : ∀ x : JsonFloat, x.toRat?.isSome → isFloatToken (repr x)
  parse_repr : ∀ x : JsonFloat, x.toRat?.isSome → parse (repr x) = x

/-- `str(n)`. -/
def intText (n : Int) : List Char :=
  if n < 0 then '-' :: Nat.toDigits 10 n.natAbs else Nat.toDigits 10 n.natAbs

/-- The text of a float; `allow_nan` is left on. -/
def floatText (F : FloatText) : JsonFloat → List Char
  | .nan => "NaN".toList
  | .posInf => "Infinity".toList
  | .negInf => "-Infinity".toList
  | x => F.repr x

/-! ### Strings -/

/-- `'{0:x}'` of one digit. -/
def hexDigit (n : Nat) : Char := Nat.digitChar (n % 16)

/-- `'\\u{0:04x}'`. -/
def unicodeEscape (n : Nat) : List Char :=
  ['\\', 'u', hexDigit (n / 4096), hexDigit (n / 256), hexDigit (n / 16), hexDigit n]

/-- The escape of a code point outside the printable ASCII range: a surrogate pair above
    U+FFFF. -/
def asciiEscape (n : Nat) : List Char :=
  if n < 0x10000 then unicodeEscape n
  else
    unicodeEscape (0xd800 + (n - 0x10000) / 0x400) ++
      unicodeEscape (0xdc00 + (n - 0x10000) % 0x400)

def escapeChar : List Char :=
  if c = '"' then ['\\', '"']
  else if c = '\\' then ['\\', '\\']
  else if c = '\n' then ['\\', 'n']
  else if c = '\r' then ['\\', 'r']
  else if c = '\t' then ['\\', 't']
  else if c.toNat = 8 then ['\\', 'b']
  else if c.toNat = 12 then ['\\', 'f']
  else if c.toNat < 32 then unicodeEscape c.toNat
  else if ensureAscii ∧ 126 < c.toNat then asciiEscape c.toNat
  else [c]

/-- The characters of a JSON string between its quotes. -/
def escapeText (cs : List Char) : List Char := cs.flatMap (escapeChar ensureAscii)

def quote (s : String) : List Char := '"' :: (escapeText ensureAscii s.toList ++ ['"'])

/-! ### Writing -/

section Writing

variable (F : FloatText) (ensureAscii : Bool)

mutual

/-- `json.dumps(value, ensure_ascii=ensureAscii, separators=(",", ":"))`. -/
def dumps : Json → List Char
  | .null => "null".toList
  | .bool true => "true".toList
  | .bool false => "false".toList
  | .int n => intText n
  | .float x => floatText F x
  | .str s => quote ensureAscii s
  | .arr [] => ['[', ']']
  | .arr (v :: rest) => '[' :: (dumps v ++ (dumpsItems rest ++ [']']))
  | .obj [] => ['{', '}']
  | .obj (p :: rest) => '{' :: (dumpsField p ++ (dumpsFields rest ++ ['}']))
termination_by structural v => v

def dumpsItems : List Json → List Char
  | [] => []
  | v :: rest => ',' :: (dumps v ++ dumpsItems rest)
termination_by structural v => v

def dumpsField : String × Json → List Char
  | (key, v) => quote ensureAscii key ++ ':' :: dumps v
termination_by structural v => v

def dumpsFields : List (String × Json) → List Char
  | [] => []
  | p :: rest => ',' :: (dumpsField p ++ dumpsFields rest)
termination_by structural v => v

end

end Writing

/-! ### Sorting Keys -/

def insertField (p : String × Json) : JsonObject → JsonObject
  | [] => [p]
  | q :: rest => if p.1 < q.1 then p :: q :: rest else q :: insertField p rest

mutual

/-- `sort_keys=True`: every dict with its items in the order of the keys. -/
def sortKeys : Json → Json
  | .arr items => .arr (sortItems items)
  | .obj fields => .obj (sortFields fields)
  | v => v
termination_by structural v => v

def sortItems : List Json → List Json
  | [] => []
  | v :: rest => sortKeys v :: sortItems rest
termination_by structural v => v

def sortField : String × Json → String × Json
  | (key, v) => (key, sortKeys v)
termination_by structural v => v

def sortFields : List (String × Json) → List (String × Json)
  | [] => []
  | p :: rest => insertField (sortField p) (sortFields rest)
termination_by structural v => v

end

/-! ### Dicts -/

mutual

/-- Every dict has each key once, as Python dicts do. -/
def keysUnique : Json → Bool
  | .arr items => keysUniqueItems items
  | .obj fields => decide (fields.map (·.1)).Nodup && keysUniqueFields fields
  | _ => true
termination_by structural v => v

def keysUniqueItems : List Json → Bool
  | [] => true
  | v :: rest => keysUnique v && keysUniqueItems rest
termination_by structural v => v

def keysUniqueField : String × Json → Bool
  | (_, v) => keysUnique v
termination_by structural v => v

def keysUniqueFields : List (String × Json) → Bool
  | [] => true
  | p :: rest => keysUniqueField p && keysUniqueFields rest
termination_by structural v => v

end

/-! ### The Reader's State -/

/-- A list or dict that is still open. -/
inductive Frame where
  /-- The items read so far. -/
  | arr (items : List Json)
  /-- The items read so far and the key whose value is being read. -/
  | obj (fields : JsonObject) (key : String)

/-- Inside a string, where the reader is with an escape. -/
inductive Escape where
  | none
  /-- After a backslash. -/
  | slash
  /-- In a `\u` escape: digits to come, value so far, and the first half of a pair. -/
  | hex (digits value : Nat) (high : Option Nat)
  /-- After the first half of a surrogate pair. -/
  | high (value : Nat)
  /-- After the backslash that follows it. -/
  | highSlash (value : Nat)

/-- What the next character may be. -/
inductive Mode where
  /-- A value. -/
  | value
  /-- A value, or the end of an empty list. -/
  | item
  /-- A key, or the end of an empty dict when no key has been read. -/
  | key (first : Bool) (fields : JsonObject)
  /-- The colon after a key. -/
  | colon (fields : JsonObject) (key : String)
  /-- A character of a string (a key when `fields` is there); read so far in reverse. -/
  | text (fields : Option JsonObject) (chars : List Char) (escape : Escape)
  /-- A character of a number; read so far in reverse. -/
  | number (token : List Char)
  /-- The rest of a literal. -/
  | word (rest : List Char) (v : Json)
  /-- What may follow a value. -/
  | closed (v : Json)

/-- The machine. -/
structure Reader where
  mode : Mode
  stack : List Frame

def isJsonSpace : Bool := c == ' ' || c == '\t' || c == '\n' || c == '\r'

def beginValue (stack : List Frame) (c : Char) : Option Reader :=
  if c = '"' then some ⟨.text none [] .none, stack⟩
  else if c = '\x7b' then some ⟨.key true [], stack⟩
  else if c = '[' then some ⟨.item, .arr [] :: stack⟩
  else if c = '-' ∨ c.isDigit then some ⟨.number [c], stack⟩
  else if c = 't' then some ⟨.word "rue".toList (.bool true), stack⟩
  else if c = 'f' then some ⟨.word "alse".toList (.bool false), stack⟩
  else if c = 'n' then some ⟨.word "ull".toList .null, stack⟩
  else if c = 'N' then some ⟨.word "aN".toList (.float .nan), stack⟩
  else if c = 'I' then some ⟨.word "nfinity".toList (.float .posInf), stack⟩
  else none

/-- What follows a value: more of the enclosing list or dict, or its end. -/
def afterValue (v : Json) (stack : List Frame) (c : Char) : Option Reader :=
  if isJsonSpace c then some ⟨.closed v, stack⟩
  else
    match stack with
    | [] => none
    | .arr items :: outer =>
      if c = ',' then some ⟨.value, .arr (items ++ [v]) :: outer⟩
      else if c = ']' then some ⟨.closed (.arr (items ++ [v])), outer⟩
      else none
    | .obj fields key :: outer =>
      if c = ',' then some ⟨.key false (fields.set key v), outer⟩
      else if c = '\x7d' then some ⟨.closed (.obj (fields.set key v)), outer⟩
      else none

def hexValue : Option Nat :=
  let n := c.toNat
  if 48 ≤ n ∧ n ≤ 57 then some (n - 48)
  else if 97 ≤ n ∧ n ≤ 102 then some (n - 87)
  else if 65 ≤ n ∧ n ≤ 70 then some (n - 55)
  else none

def simpleEscape : Option Char :=
  if c = '"' then some '"'
  else if c = '\\' then some '\\'
  else if c = '/' then some '/'
  else if c = 'b' then some (Char.ofNat 8)
  else if c = 'f' then some (Char.ofNat 12)
  else if c = 'n' then some '\n'
  else if c = 'r' then some '\r'
  else if c = 't' then some '\t'
  else none

/-- The end of a `\u` escape: a character, or the first half of a pair. -/
def closeHex (chars : List Char) (value : Nat) : Option Nat → Option (List Char × Escape)
  | none =>
    if 0xd800 ≤ value ∧ value ≤ 0xdbff then some (chars, .high value)
    else if 0xdc00 ≤ value ∧ value ≤ 0xdfff then none
    else some (Char.ofNat value :: chars, .none)
  | some high =>
    if 0xdc00 ≤ value ∧ value ≤ 0xdfff then
      some (Char.ofNat (0x10000 + (high - 0xd800) * 0x400 + (value - 0xdc00)) :: chars, .none)
    else none

/-- One character of a string that does not end it. -/
def stepText (chars : List Char) (escape : Escape) (c : Char) : Option (List Char × Escape) :=
  match escape with
  | .none =>
    if c = '\\' then some (chars, .slash)
    else if c.toNat < 32 then none
    else some (c :: chars, .none)
  | .slash =>
    if c = 'u' then some (chars, .hex 3 0 none)
    else (simpleEscape c).map fun d => (d :: chars, .none)
  | .hex digits value high =>
    (hexValue c).bind fun d =>
      match digits with
      | 0 => closeHex chars (16 * value + d) high
      | n + 1 => some (chars, .hex n (16 * value + d) high)
  | .high value => if c = '\\' then some (chars, .highSlash value) else none
  | .highSlash value => if c = 'u' then some (chars, .hex 3 0 (some value)) else none

/-- The end of a string: a key, or a value. -/
def closeText (fields : Option JsonObject) (chars : List Char) (stack : List Frame) : Reader :=
  match fields with
  | some fields => ⟨.colon fields (String.ofList chars.reverse), stack⟩
  | none => ⟨.closed (.str (String.ofList chars.reverse)), stack⟩

section Reading

variable (F : FloatText)

def numberOf (token : List Char) : Option Json :=
  match intOfToken token with
  | some n => some (.int n)
  | none => if isFloatToken token then some (.float (F.parse token)) else none

def step (r : Reader) (c : Char) : Option Reader :=
  match r.mode with
  | .value => if isJsonSpace c then some r else beginValue r.stack c
  | .item =>
    if isJsonSpace c then some r
    else if c = ']' then
      match r.stack with
      | .arr items :: outer => some ⟨.closed (.arr items), outer⟩
      | _ => none
    else beginValue r.stack c
  | .key first fields =>
    if isJsonSpace c then some r
    else if c = '"' then some ⟨.text (some fields) [] .none, r.stack⟩
    else if first ∧ c = '\x7d' then some ⟨.closed (.obj fields), r.stack⟩
    else none
  | .colon fields key =>
    if isJsonSpace c then some r
    else if c = ':' then some ⟨.value, .obj fields key :: r.stack⟩
    else none
  | .text fields chars escape =>
    match escape with
    | .none =>
      if c = '"' then some (closeText fields chars r.stack)
      else (stepText chars .none c).map fun q => ⟨.text fields q.1 q.2, r.stack⟩
    | escape => (stepText chars escape c).map fun q => ⟨.text fields q.1 q.2, r.stack⟩
  | .number token =>
    if isNumberChar c then some ⟨.number (c :: token), r.stack⟩
    else if c = 'I' ∧ token = ['-'] then
      some ⟨.word "nfinity".toList (.float .negInf), r.stack⟩
    else (numberOf F token.reverse).bind fun v => afterValue v r.stack c
  | .word rest v =>
    match rest with
    | [] => none
    | d :: more =>
      if c = d then some ⟨if more.isEmpty then .closed v else .word more v, r.stack⟩ else none
  | .closed v => afterValue v r.stack c

def run (r : Reader) (text : List Char) : Option Reader := text.foldlM (step F) r

def Reader.start : Reader := ⟨.value, []⟩

/-- The document, when the text ends here. -/
def finish (r : Reader) : Option Json :=
  match r.stack, r.mode with
  | [], .closed v => some v
  | [], .number token => numberOf F token.reverse
  | _, _ => none

/-- `json.loads(text)`; `none` is a `JSONDecodeError`. -/
def loads (text : List Char) : Option Json := (run F .start text).bind (finish F)

end Reading

end Codify.Framework.JsonText

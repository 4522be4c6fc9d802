import Codify.Framework.JsonRoundTrip
import Codify.Framework.SortedMap
import Codify.Framework.Utf8Replace
import Mathlib.Data.String.Basic

/-! # Reading JSON as Go Does

    What `Decoder.Decode` of Go's `encoding/json` makes of a text when it decodes into an `any`
    with `UseNumber`: numbers keep their text, a map keeps the last value of a key, an escape
    that is half of a pair becomes U+FFFD, and what follows the value is left unread.

    * **Grammar**: `Spells` says which texts denote a value, down to a depth.
    * **Reader**: it takes from the input what the grammar gives it (`readValue_sound`), all of it,
      whatever follows (`readValue_complete`). So a text denotes one object (`object_unique`).
-/

namespace Codify.Framework.GoJson

open JsonText List Option

/-! ### Values -/

def isNumber (token : List Char) : Bool := isNatToken (unsigned token) || isFloatToken token

/-- `json.Number`. -/
structure Number where
  token : List Char
  valid : isNumber token = true

/-- What an `any` holds; the members of a map are sorted. -/
inductive Value where
  | null
  | bool (b : Bool)
  | number (n : Number)
  | str (text : String)
  | arr (items : List Value)
  | obj (members : List (String × Value))

/-! ### Strings -/

/-- `stateInString` and what follows it. -/
inductive StringState where
  | plain
  | escape
  /-- In front of a digit, with so many behind it. -/
  | hex (more : Nat)
  deriving DecidableEq

def stepString : StringState → Char → Option StringState
  | .plain, c => if c = '\\' then some .escape else if c.toNat < 32 then none else some .plain
  | .escape, c =>
    if c = 'u' then some (.hex 3) else if (simpleEscape c).isSome then some .plain else none
  | .hex more, c =>
    if (hexValue c).isSome then
      match more with
      | 0 => some .plain
      | more + 1 => some (.hex more)
    else none

/-- The characters of a string up to the quote that closes it. -/
def scanString : StringState → List Char → Option (List Char × List Char)
  | _, [] => none
  | st, c :: rest =>
    if st = .plain ∧ c = '"' then some ([], rest)
    else (stepString st c).bind fun st' => (scanString st' rest).map fun p => (c :: p.1, p.2)

/-- `getu4`: a `\u` escape in front of the text. -/
def getu4 : List Char → Option (Nat × List Char)
  | slash :: u :: a :: b :: c :: d :: rest =>
    if slash = '\\' ∧ u = 'u' then
      (hexValue a).bind fun a => (hexValue b).bind fun b => (hexValue c).bind fun c =>
        (hexValue d).map fun d => (4096 * a + 256 * b + 16 * c + d, rest)
    else none
  | _ => none

/-- `utf16.DecodeRune`, of two halves that are a pair. -/
def decodePair (high low : Nat) : Option Char :=
  if 0xD800 ≤ high ∧ high < 0xDC00 ∧ 0xDC00 ≤ low ∧ low < 0xE000 then
    some (Char.ofNat ((high - 0xD800) * 0x400 + (low - 0xDC00) + 0x10000))
  else none

def lowHalf (high : Nat) (text : List Char) : Option (Char × List Char) :=
  (getu4 text).bind fun p => (decodePair high p.1).map fun c => (c, p.2)

theorem length_of_getu4 {text rest : List Char} {n : Nat} (h : getu4 text = some (n, rest)) :
    rest.length + 6 = text.length := by
  unfold getu4 at h
  split at h
  · obtain ⟨_, h⟩ := ite_none_right_eq_some.mp h
    simp only [bind_eq_some_iff, map_eq_some_iff] at h
    obtain ⟨_, _, _, _, _, _, _, _, heq⟩ := h
    cases heq
    rfl
  · cases h

theorem length_of_lowHalf {text rest : List Char} {high : Nat} {c : Char}
    (h : lowHalf high text = some (c, rest)) : rest.length + 6 = text.length := by
  obtain ⟨⟨n, rest'⟩, hn, hc⟩ := bind_eq_some_iff.mp h
  obtain ⟨_, _, heq⟩ := map_eq_some_iff.mp hc
  cases heq
  exact length_of_getu4 hn

/-- `unquote`, of what `scanString` has passed. -/
def unquote (raw : List Char) : List Char :=
  match raw with
  | [] => []
  | c :: rest =>
    if c = '\\' then
      match _hcode : getu4 (c :: rest) with
      | some (n, rest') =>
        if 0xD800 ≤ n ∧ n < 0xE000 then
          match _hlow : lowHalf n rest' with
          | some (pair, rest'') => pair :: unquote rest''
          | none => replacementChar :: unquote rest'
        else Char.ofNat n :: unquote rest'
      | none =>
        match rest with
        | [] => []
        | e :: rest => (simpleEscape e).getD e :: unquote rest
    else c :: unquote rest
termination_by raw.length
decreasing_by
  · have := length_of_getu4 _hcode
    have := length_of_lowHalf _hlow
    omega
  · have := length_of_getu4 _hcode
    omega
  · have := length_of_getu4 _hcode
    omega
  · simp only [length_cons]
    omega
  · simp

/-! ### The Reader -/

/-- A reader of one item: the item and what is left of the input. -/
abbrev Reads (α : Type*) := List Char → Option (α × List Char)

variable (input : List Char)

def skipSpace : List Char := input.dropWhile isJsonSpace

def readText : Option (String × List Char) :=
  match input with
  | [] => none
  | c :: rest =>
    if c = '"' then (scanString .plain rest).map fun p => (String.ofList (unquote p.1), p.2)
    else none

def readNumber : Option (Value × List Char) :=
  if h : isNumber (input.takeWhile isNumberChar) then
    some (.number ⟨input.takeWhile isNumberChar, h⟩, input.dropWhile isNumberChar)
  else none

def readWord (word : List Char) (value : Value) (input : List Char) : Option (Value × List Char) :=
  (input.dropPrefix? word).map fun rest => (value, rest)

def readScalar : Option (Value × List Char) :=
  match input with
  | [] => none
  | c :: _ =>
    if c = '"' then (readText input).map fun p => (.str p.1, p.2)
    else if c = 'n' then readWord ['n', 'u', 'l', 'l'] .null input
    else if c = 't' then readWord ['t', 'r', 'u', 'e'] (.bool true) input
    else if c = 'f' then readWord ['f', 'a', 'l', 's', 'e'] (.bool false) input
    else readNumber input

section Reading

variable {α : Type*} (item : Reads α) (close : Char)

/-- Items with commas between them, and the bracket that closes them. -/
def readItems : Nat → List Char → Option (List α × List Char)
  | 0, _ => none
  | fuel + 1, input =>
    (item (skipSpace input)).bind fun p =>
      match skipSpace p.2 with
      | [] => none
      | c :: rest =>
        if c = close then some ([p.1], rest)
        else if c = ',' then (readItems fuel rest).map fun q => (p.1 :: q.1, q.2)
        else none

/-- What stands behind an opening bracket. -/
def readGroup (input : List Char) : Option (List α × List Char) :=
  match skipSpace input with
  | [] => none
  | c :: rest =>
    if c = close then some ([], rest) else readItems item close input.length input

def readMember (input : List Char) : Option ((String × α) × List Char) :=
  (readText input).bind fun p =>
    match skipSpace p.2 with
    | [] => none
    | c :: rest =>
      if c = ':' then (item (skipSpace rest)).map fun q => ((p.1, q.1), q.2) else none

end Reading

/-- A value that is nested no deeper than the limit. -/
def readValue : Nat → List Char → Option (Value × List Char)
  | 0, input => readScalar input
  | depth + 1, input =>
    match input with
    | [] => none
    | c :: rest =>
      if c = '[' then (readGroup (readValue depth) ']' rest).map fun p => (.arr p.1, p.2)
      else if c = '\x7b' then
        (readGroup (readMember (readValue depth)) '\x7d' rest).map fun p =>
          (.obj (SortedMap.ofList p.1), p.2)
      else readScalar input

/-! ### The Grammar -/

def Blank (text : List Char) : Prop := ∀ c ∈ text, isJsonSpace c = true

def closes : StringState → List Char → Bool
  | st, [] => st = .plain
  | st, c :: raw =>
    if st = .plain ∧ c = '"' then false
    else
      match stepString st c with
      | none => false
      | some st' => closes st' raw

def SpellsText (text : List Char) (s : String) : Prop :=
  ∃ raw, closes .plain raw = true ∧ text = '"' :: (raw ++ ['"']) ∧ s = String.ofList (unquote raw)

inductive SpellsScalar : List Char → Value → Prop where
  | null : SpellsScalar ['n', 'u', 'l', 'l'] .null
  | true : SpellsScalar ['t', 'r', 'u', 'e'] (.bool true)
  | false : SpellsScalar ['f', 'a', 'l', 's', 'e'] (.bool false)
  | number (n : Number) : SpellsScalar n.token (.number n)
  | str {text : List Char} {s : String} (h : SpellsText text s) : SpellsScalar text (.str s)

section Grammar

variable {α : Type*} (item : List Char → α → Prop)

/-- Items with commas between them. -/
inductive SpellsItems : List Char → List α → Prop where
  | last {before text after : List Char} {a : α} (hbefore : Blank before) (h : item text a)
      (hafter : Blank after) : SpellsItems (before ++ (text ++ after)) [a]
  | more {before text after rest : List Char} {a : α} {as : List α} (hbefore : Blank before)
      (h : item text a) (hafter : Blank after) (hrest : SpellsItems rest as) :
      SpellsItems (before ++ (text ++ (after ++ ',' :: rest))) (a :: as)

/-- What stands behind an opening bracket. -/
def SpellsGroup (close : Char) (text : List Char) (as : List α) : Prop :=
  ∃ inner, text = inner ++ [close] ∧ (Blank inner ∧ as = [] ∨ SpellsItems item inner as)

def SpellsMember (text : List Char) (p : String × α) : Prop :=
  ∃ key before after value, SpellsText key p.1 ∧ Blank before ∧ Blank after ∧ item value p.2 ∧
    text = key ++ (before ++ ':' :: (after ++ value))

end Grammar

/-- The text denotes the value, and is nested no deeper than the limit. -/
def Spells : Nat → List Char → Value → Prop
  | 0 => SpellsScalar
  | depth + 1 => fun text value =>
    SpellsScalar text value ∨
      (∃ inner items, SpellsGroup (Spells depth) ']' inner items ∧ text = '[' :: inner ∧
        value = .arr items) ∨
      ∃ inner members, SpellsGroup (SpellsMember (Spells depth)) '\x7d' inner members ∧
        text = '\x7b' :: inner ∧ value = .obj (SortedMap.ofList members)

/-! ### Spaces, Words and Numbers -/

section Lexical

variable {input text rest : List Char} {value : Value}

theorem skipSpace_blank {c : Char} (hblank : Blank text) (hc : isJsonSpace c = false) :
    skipSpace (text ++ c :: rest) = c :: rest := by
  unfold skipSpace
  rw [dropWhile_append_of_pos hblank, dropWhile_cons_of_neg (by simp [hc])]

theorem skipSpace_eq (input : List Char) :
    ∃ before, Blank before ∧ input = before ++ skipSpace input :=
  ⟨input.takeWhile isJsonSpace, fun _ => mem_takeWhile_imp, takeWhile_append_dropWhile.symm⟩

def Ends (rest : List Char) : Prop := ∀ c tail, rest = c :: tail → isNumberChar c = false

theorem ends_cons {c : Char} (h : isNumberChar c = false) (rest : List Char) : Ends (c :: rest) := by
  rintro _ _ ⟨rfl, rfl⟩
  exact h

theorem ends_space {c : Char} (h : isJsonSpace c = true) : isNumberChar c = false := by
  simp only [isJsonSpace, Bool.or_eq_true, beq_iff_eq] at h
  rcases h with ((rfl | rfl) | rfl) | rfl
  · decide
  · decide
  · decide
  · decide

theorem ends_blank (hblank : Blank text) (h : Ends rest) : Ends (text ++ rest) := by
  cases text with
  | nil => exact h
  | cons c text => exact ends_cons (ends_space (hblank c mem_cons_self)) _

theorem readWord_eq_some_iff {word : List Char} {value value' : Value} :
    readWord word value input = some (value', rest) ↔ input = word ++ rest ∧ value' = value := by
  unfold readWord
  rw [map_eq_some_iff]
  constructor
  · rintro ⟨rest', hdrop, heq⟩
    cases heq
    obtain ⟨word', hinput, hword⟩ := dropPrefix?_eq_some_iff.mp hdrop
    rw [eq_of_beq hword] at hinput
    exact ⟨hinput, rfl⟩
  · rintro ⟨rfl, rfl⟩
    exact ⟨rest, dropPrefix?_eq_some_iff.mpr ⟨word, rfl, beq_self_eq_true word⟩, rfl⟩

theorem isNumber_chars {token : List Char} (h : isNumber token = true) :
    (∀ c ∈ token, isNumberChar c = true) ∧ ∃ c cs, token = c :: cs ∧ (c = '-' ∨ c.isDigit = true) := by
  have hunsigned : (∀ c ∈ unsigned token, isNumberChar c = true) ∧
      ∃ c cs, unsigned token = c :: cs ∧ c.isDigit = true := by
    rcases Bool.or_eq_true _ _ ▸ h with hnat | hfloat
    · have hdigits := isDigit_of_isNatToken hnat
      refine ⟨fun c hc => isNumberChar_of_isDigit (hdigits c hc), ?_⟩
      cases hcs : unsigned token with
      | nil =>
        rw [hcs] at hnat
        cases hnat
      | cons c cs => exact ⟨c, cs, rfl, hdigits c (hcs ▸ mem_cons_self)⟩
    · obtain ⟨hchars, hfirst, _⟩ := isFloatToken_parts hfloat
      exact ⟨hchars, hfirst⟩
  obtain ⟨hchars, c, cs, hcs, hc⟩ := hunsigned
  cases token with
  | nil => cases hcs
  | cons d ds =>
    have hsign : unsigned (d :: ds) = if d = '-' then ds else d :: ds := rfl
    rw [hsign] at hchars hcs
    by_cases hd : d = '-'
    · subst hd
      rw [if_pos rfl] at hchars
      refine ⟨fun e he => ?_, '-', ds, rfl, .inl rfl⟩
      rcases mem_cons.mp he with rfl | he
      · rfl
      · exact hchars e he
    · rw [if_neg hd] at hchars hcs
      cases hcs
      exact ⟨hchars, c, cs, rfl, .inr hc⟩

theorem readNumber_append (n : Number) (h : Ends rest) :
    readNumber (n.token ++ rest) = some (.number n, rest) := by
  obtain ⟨hchars, _⟩ := isNumber_chars n.valid
  have htake : (n.token ++ rest).takeWhile isNumberChar = n.token := by
    rw [takeWhile_append_of_pos hchars]
    cases rest with
    | nil => exact append_nil _
    | cons c rest => rw [takeWhile_cons_of_neg (by simp [h c rest rfl]), append_nil]
  have hdrop : (n.token ++ rest).dropWhile isNumberChar = rest := by
    rw [dropWhile_append_of_pos hchars]
    cases rest with
    | nil => rfl
    | cons c rest => rw [dropWhile_cons_of_neg (by simp [h c rest rfl])]
  unfold readNumber
  simp only [htake, hdrop, n.valid, dite_true]

theorem readNumber_sound (h : readNumber input = some (value, rest)) :
    ∃ n : Number, input = n.token ++ rest ∧ value = .number n := by
  unfold readNumber at h
  split at h
  · next hvalid =>
    cases h
    exact ⟨⟨_, hvalid⟩, takeWhile_append_dropWhile.symm, rfl⟩
  · cases h

/-- **Strings**: the reader stops at the closing quote. -/
theorem scanString_eq_some_iff {st : StringState} {raw : List Char} :
    scanString st input = some (raw, rest) ↔ input = raw ++ '"' :: rest ∧ closes st raw = true := by
  induction input generalizing st raw with
  | nil => simp [scanString]
  | cons c input ih =>
    unfold scanString
    by_cases hend : st = .plain ∧ c = '"'
    · rw [if_pos hend]
      obtain ⟨rfl, rfl⟩ := hend
      constructor
      · rintro ⟨rfl, rfl⟩
        exact ⟨rfl, rfl⟩
      · rintro ⟨hinput, hcloses⟩
        cases raw with
        | nil => cases hinput; rfl
        | cons d raw =>
          cases hinput
          simp [closes] at hcloses
    · rw [if_neg hend]
      constructor
      · intro h
        obtain ⟨st', hst, hmap⟩ := bind_eq_some_iff.mp h
        obtain ⟨⟨raw', rest'⟩, hscan, heq⟩ := map_eq_some_iff.mp hmap
        cases heq
        obtain ⟨hinput, hcloses⟩ := ih.mp hscan
        refine ⟨by rw [hinput]; rfl, ?_⟩
        unfold closes
        rw [if_neg hend, hst]
        exact hcloses
      · rintro ⟨hinput, hcloses⟩
        cases raw with
        | nil =>
          cases hinput
          exact absurd ⟨of_decide_eq_true hcloses, rfl⟩ hend
        | cons d raw =>
          cases hinput
          unfold closes at hcloses
          rw [if_neg hend] at hcloses
          cases hst : stepString st c with
          | none =>
            rw [hst] at hcloses
            cases hcloses
          | some st' =>
            rw [hst] at hcloses
            rw [bind_some, ih.mpr ⟨rfl, hcloses⟩]
            rfl

theorem readText_eq_some_iff {s : String} :
    readText input = some (s, rest) ↔ ∃ text, input = text ++ rest ∧ SpellsText text s := by
  unfold readText SpellsText
  constructor
  · intro h
    cases input with
    | nil => cases h
    | cons c input =>
      obtain ⟨rfl, hmap⟩ := ite_none_right_eq_some.mp h
      obtain ⟨⟨raw, rest'⟩, hscan, heq⟩ := map_eq_some_iff.mp hmap
      cases heq
      obtain ⟨rfl, hcloses⟩ := scanString_eq_some_iff.mp hscan
      exact ⟨_, by simp, raw, hcloses, rfl, rfl⟩
  · rintro ⟨_, rfl, raw, hcloses, rfl, rfl⟩
    have hscan : scanString .plain (raw ++ ['"'] ++ rest) = some (raw, rest) :=
      scanString_eq_some_iff.mpr ⟨by simp, hcloses⟩
    dsimp only [cons_append]
    rw [if_pos rfl, hscan]
    rfl

/-- A value starts with no white space and with no closing bracket. -/
def Starts (text : List Char) : Prop :=
  ∃ c tail, text = c :: tail ∧ isJsonSpace c = false ∧ c ≠ ']' ∧ c ≠ '\x7d'

theorem number_first {c : Char} (h : c = '-' ∨ c.isDigit = true) {d : Char} (hd : d.isDigit = false)
    (hminus : d ≠ '-') : c ≠ d := by
  rintro rfl
  rcases h with h | h
  · exact hminus h
  · rw [hd] at h
    cases h

theorem starts_scalar (h : SpellsScalar text value) : Starts text := by
  cases h with
  | null | true | false => exact ⟨_, _, rfl, by decide⟩
  | number n =>
    obtain ⟨_, c, cs, hcs, hc⟩ := isNumber_chars n.valid
    refine ⟨c, cs, hcs, ?_, number_first hc rfl (by decide), number_first hc rfl (by decide)⟩
    unfold isJsonSpace
    simp only [Bool.or_eq_false_iff, beq_eq_false_iff_ne]
    exact ⟨⟨⟨number_first hc rfl (by decide), number_first hc rfl (by decide)⟩,
      number_first hc rfl (by decide)⟩, number_first hc rfl (by decide)⟩
  | str h =>
    obtain ⟨raw, _, rfl, _⟩ := h
    exact ⟨_, _, rfl, by decide⟩

theorem readScalar_append (h : SpellsScalar text value) (hrest : Ends rest) :
    readScalar (text ++ rest) = some (value, rest) := by
  cases h with
  | null | true | false => exact readWord_eq_some_iff.mpr ⟨rfl, rfl⟩
  | number n =>
    have hread := readNumber_append n hrest
    obtain ⟨_, c, cs, hcs, hc⟩ := isNumber_chars n.valid
    rw [hcs] at hread ⊢
    unfold readScalar
    dsimp only [cons_append] at hread ⊢
    rw [if_neg (number_first hc rfl (by decide)), if_neg (number_first hc rfl (by decide)),
      if_neg (number_first hc rfl (by decide)), if_neg (number_first hc rfl (by decide))]
    exact hread
  | @str _ s h =>
    have hread : readText (text ++ rest) = some (s, rest) :=
      readText_eq_some_iff.mpr ⟨text, rfl, h⟩
    obtain ⟨raw, _, rfl, _⟩ := h
    unfold readScalar
    dsimp only [cons_append] at hread ⊢
    rw [if_pos rfl, hread]
    rfl

theorem readScalar_sound (h : readScalar input = some (value, rest)) :
    ∃ text, input = text ++ rest ∧ SpellsScalar text value := by
  unfold readScalar at h
  split at h
  · cases h
  · split at h
    · obtain ⟨⟨s, rest'⟩, hread, heq⟩ := map_eq_some_iff.mp h
      cases heq
      obtain ⟨text, hinput, hspells⟩ := readText_eq_some_iff.mp hread
      exact ⟨text, hinput, .str hspells⟩
    · split at h
      · obtain ⟨hinput, rfl⟩ := readWord_eq_some_iff.mp h
        exact ⟨_, hinput, .null⟩
      · split at h
        · obtain ⟨hinput, rfl⟩ := readWord_eq_some_iff.mp h
          exact ⟨_, hinput, .true⟩
        · split at h
          · obtain ⟨hinput, rfl⟩ := readWord_eq_some_iff.mp h
            exact ⟨_, hinput, .false⟩
          · obtain ⟨n, hinput, rfl⟩ := readNumber_sound h
            exact ⟨_, hinput, .number n⟩

end Lexical

/-! ### Items -/

section Items

variable {α : Type*} {item : Reads α} {spells : List Char → α → Prop} {close : Char}
  {input inner text rest : List Char} {as : List α}

/-- The reader takes a text of the grammar from the input. -/
def Sound (item : Reads α) (spells : List Char → α → Prop) : Prop :=
  ∀ input a rest, item input = some (a, rest) → ∃ text, input = text ++ rest ∧ spells text a

/-- The reader takes each text of the grammar, whatever follows. -/
structure Complete (item : Reads α) (spells : List Char → α → Prop) : Prop where
  reads : ∀ text a rest, spells text a → Ends rest → item (text ++ rest) = some (a, rest)
  starts : ∀ text a, spells text a → Starts text

def Closing (close : Char) : Prop := close = ']' ∨ close = '\x7d'

theorem Closing.not_space (h : Closing close) : isJsonSpace close = false := by
  rcases h with rfl | rfl <;> decide

theorem Closing.ends (h : Closing close) (rest : List Char) : Ends (close :: rest) := by
  refine ends_cons ?_ rest
  rcases h with rfl | rfl <;> decide

theorem Closing.ne_comma (h : Closing close) : ',' ≠ close := by
  rcases h with rfl | rfl <;> decide

theorem readItems_append (hitem : Complete item spells) (hclose : Closing close)
    (h : SpellsItems spells inner as) {fuel : Nat} (hfuel : inner.length ≤ fuel) (rest : List Char) :
    readItems item close fuel (inner ++ close :: rest) = some (as, rest) := by
  induction h generalizing fuel with
  | @last before text after a hbefore htext hafter =>
    obtain ⟨c, tail, rfl, hc, _⟩ := hitem.starts text a htext
    cases fuel with
    | zero => simp at hfuel
    | succ fuel =>
      have hread := hitem.reads _ a (after ++ close :: rest) htext
        (ends_blank hafter (hclose.ends rest))
      unfold readItems
      simp only [append_assoc, cons_append] at hread ⊢
      rw [skipSpace_blank hbefore hc, hread]
      dsimp only [bind_some]
      rw [skipSpace_blank hafter hclose.not_space]
      exact if_pos rfl
  | @more before text after rest' a as hbefore htext hafter _ ih =>
    obtain ⟨c, tail, rfl, hc, _⟩ := hitem.starts text a htext
    cases fuel with
    | zero => simp at hfuel
    | succ fuel =>
      have hread := hitem.reads _ a (after ++ ',' :: (rest' ++ close :: rest)) htext
        (ends_blank hafter (ends_cons (by decide) _))
      have hrest : readItems item close fuel (rest' ++ close :: rest) = some (as, rest) := by
        refine ih ?_
        simp only [length_append, length_cons] at hfuel
        omega
      unfold readItems
      simp only [append_assoc, cons_append] at hread ⊢
      rw [skipSpace_blank hbefore hc, hread]
      dsimp only [bind_some]
      rw [skipSpace_blank hafter (by decide)]
      dsimp only
      rw [if_neg hclose.ne_comma, if_pos rfl, hrest]
      rfl

theorem readItems_sound (hitem : Sound item spells) {fuel : Nat}
    (h : readItems item close fuel input = some (as, rest)) :
    ∃ inner, input = inner ++ close :: rest ∧ SpellsItems spells inner as := by
  induction fuel generalizing input as with
  | zero => cases h
  | succ fuel ih =>
    obtain ⟨⟨a, behind⟩, hread, hrest⟩ := bind_eq_some_iff.mp h
    obtain ⟨before, hbefore, hinput⟩ := skipSpace_eq input
    obtain ⟨text, htext, hspells⟩ := hitem _ _ _ hread
    obtain ⟨after, hafter, hbehind⟩ := skipSpace_eq behind
    dsimp only at hrest
    split at hrest
    · cases hrest
    next c tail hskip =>
    rw [hskip] at hbehind
    split at hrest
    · next heq =>
      cases hrest
      refine ⟨before ++ (text ++ after), ?_, .last hbefore hspells hafter⟩
      rw [hinput, htext, hbehind, heq]
      simp
    · obtain ⟨heq, hmap⟩ := ite_none_right_eq_some.mp hrest
      obtain ⟨⟨as', rest'⟩, hitems, hpair⟩ := map_eq_some_iff.mp hmap
      cases hpair
      obtain ⟨inner, hinner, hall⟩ := ih hitems
      refine ⟨before ++ (text ++ (after ++ ',' :: inner)), ?_, .more hbefore hspells hafter hall⟩
      rw [hinput, htext, hbehind, heq, hinner]
      simp

theorem SpellsItems.first (h : SpellsItems spells inner as) (hitem : Complete item spells) :
    ∃ before tail, Blank before ∧ inner = before ++ tail ∧ Starts tail := by
  cases h with
  | @last before text after a hbefore htext _ =>
    obtain ⟨c, tail, rfl, hc⟩ := hitem.starts text a htext
    exact ⟨before, _, hbefore, rfl, c, tail ++ after, rfl, hc⟩
  | @more before text after rest a as hbefore htext _ _ =>
    obtain ⟨c, tail, rfl, hc⟩ := hitem.starts text a htext
    exact ⟨before, _, hbefore, rfl, c, tail ++ (after ++ ',' :: rest), rfl, hc⟩

theorem readGroup_append (hitem : Complete item spells) (hclose : Closing close)
    (h : SpellsGroup spells close text as) (rest : List Char) :
    readGroup item close (text ++ rest) = some (as, rest) := by
  obtain ⟨inner, rfl, ⟨hblank, rfl⟩ | hitems⟩ := h
  · unfold readGroup
    rw [append_assoc, singleton_append, skipSpace_blank hblank hclose.not_space]
    exact if_pos rfl
  · have hread : readItems item close (inner ++ close :: rest).length (inner ++ close :: rest) =
        some (as, rest) := readItems_append hitem hclose hitems (by simp) rest
    obtain ⟨before, _, hbefore, rfl, c, tail, rfl, hc, hne⟩ := hitems.first hitem
    have hcclose : c ≠ close := by
      rcases hclose with rfl | rfl
      · exact hne.1
      · exact hne.2
    unfold readGroup
    simp only [append_assoc, cons_append, nil_append] at hread ⊢
    rw [skipSpace_blank hbefore hc]
    dsimp only
    rw [if_neg hcclose]
    exact hread

theorem readGroup_sound (hitem : Sound item spells)
    (h : readGroup item close input = some (as, rest)) :
    ∃ text, input = text ++ rest ∧ SpellsGroup spells close text as := by
  obtain ⟨before, hbefore, hinput⟩ := skipSpace_eq input
  unfold readGroup at h
  split at h
  · cases h
  next c tail hskip =>
  split at h
  · next heq =>
    cases h
    refine ⟨before ++ [close], ?_, before, rfl, .inl ⟨hbefore, rfl⟩⟩
    rw [hinput, hskip, heq]
    simp
  · obtain ⟨inner, hinner, hitems⟩ := readItems_sound hitem h
    exact ⟨inner ++ [close], by rw [hinner]; simp, inner, rfl, .inr hitems⟩

theorem complete_member (hitem : Complete item spells) :
    Complete (readMember item) (SpellsMember spells) := by
  refine ⟨?_, ?_⟩
  · rintro _ ⟨name, a⟩ rest ⟨key, before, after, value, hkey, hbefore, hafter, hvalue, rfl⟩ hrest
    obtain ⟨c, tail, rfl, hc, _⟩ := hitem.starts value a hvalue
    have hread := hitem.reads _ a rest hvalue hrest
    have hname : readText (key ++ (before ++ ':' :: (after ++ c :: (tail ++ rest)))) = some (name, _) :=
      readText_eq_some_iff.mpr ⟨key, rfl, hkey⟩
    unfold readMember
    simp only [append_assoc, cons_append] at hread hname ⊢
    rw [hname]
    dsimp only [bind_some]
    rw [skipSpace_blank hbefore (by decide)]
    dsimp only
    rw [if_pos rfl, skipSpace_blank hafter hc, hread]
    rfl
  · rintro _ ⟨name, a⟩ ⟨key, before, after, value, ⟨raw, _, rfl, _⟩, _, _, _, rfl⟩
    exact ⟨'"', _, rfl, by decide⟩

theorem sound_member (hitem : Sound item spells) : Sound (readMember item) (SpellsMember spells) := by
  rintro input ⟨name, a⟩ rest h
  obtain ⟨⟨s, behind⟩, hname, hrest⟩ := bind_eq_some_iff.mp h
  obtain ⟨key, hinput, hkey⟩ := readText_eq_some_iff.mp hname
  obtain ⟨before, hbefore, hbehind⟩ := skipSpace_eq behind
  dsimp only at hrest
  split at hrest
  · cases hrest
  next c tail hskip =>
  obtain ⟨rfl, hmap⟩ := ite_none_right_eq_some.mp hrest
  obtain ⟨⟨a', rest'⟩, hread, heq⟩ := map_eq_some_iff.mp hmap
  cases heq
  obtain ⟨after, hafter, htail⟩ := skipSpace_eq tail
  obtain ⟨value, hvalue, hspells⟩ := hitem _ _ _ hread
  refine ⟨_, ?_, key, before, after, value, hkey, hbefore, hafter, hspells, rfl⟩
  rw [hinput, hbehind, hskip, htail, hvalue]
  simp

theorem SpellsGroup.imp {spells' : List Char → α → Prop} (h : SpellsGroup spells close text as)
    (himp : ∀ text a, spells text a → spells' text a) : SpellsGroup spells' close text as := by
  obtain ⟨inner, htext, hnone | hitems⟩ := h
  · exact ⟨inner, htext, .inl hnone⟩
  · refine ⟨inner, htext, .inr ?_⟩
    clear htext
    induction hitems with
    | last hbefore h hafter => exact .last hbefore (himp _ _ h) hafter
    | more hbefore h hafter _ ih => exact .more hbefore (himp _ _ h) hafter ih

end Items

/-! ### Values -/

variable {depth depth' : Nat} {text text' input rest rest' : List Char} {value value' : Value}

theorem starts_spells (h : Spells depth text value) : Starts text := by
  cases depth with
  | zero => exact starts_scalar h
  | succ depth =>
    rcases h with h | ⟨inner, items, _, rfl, _⟩ | ⟨inner, members, _, rfl, _⟩
    · exact starts_scalar h
    · exact ⟨_, _, rfl, by decide⟩
    · exact ⟨_, _, rfl, by decide⟩

theorem readValue_scalar (h : SpellsScalar text value) (hrest : Ends rest) :
    readValue depth (text ++ rest) = some (value, rest) := by
  have hread := readScalar_append h hrest
  cases depth with
  | zero => exact hread
  | succ depth =>
    have hfirst : ∃ c tail, text = c :: tail ∧ c ≠ '[' ∧ c ≠ '\x7b' := by
      cases h with
      | null | true | false => exact ⟨_, _, rfl, by decide⟩
      | number n =>
        obtain ⟨_, c, cs, hcs, hc⟩ := isNumber_chars n.valid
        exact ⟨c, cs, hcs, number_first hc rfl (by decide), number_first hc rfl (by decide)⟩
      | str h =>
        obtain ⟨raw, _, rfl, _⟩ := h
        exact ⟨_, _, rfl, by decide⟩
    obtain ⟨c, tail, rfl, harr, hobj⟩ := hfirst
    unfold readValue
    dsimp only [cons_append] at hread ⊢
    rw [if_neg harr, if_neg hobj]
    exact hread

/-- **Completeness**: a text of the grammar is read, whatever follows. -/
theorem readValue_complete : ∀ depth, Complete (readValue depth) (Spells depth)
  | 0 => ⟨fun _ _ _ => readScalar_append, fun _ _ => starts_scalar⟩
  | depth + 1 => by
    have hitem := readValue_complete depth
    refine ⟨?_, fun _ _ => starts_spells⟩
    rintro text value rest (h | ⟨inner, items, hgroup, rfl, rfl⟩ | ⟨inner, members, hgroup, rfl, rfl⟩)
      hrest
    · exact readValue_scalar h hrest
    · unfold readValue
      dsimp only [cons_append]
      rw [if_pos rfl, readGroup_append hitem (.inl rfl) hgroup]
      rfl
    · unfold readValue
      dsimp only [cons_append]
      rw [if_neg (by decide), if_pos rfl, readGroup_append (complete_member hitem) (.inr rfl) hgroup]
      rfl

theorem readValue_object {members : List (String × Value)} (h : Spells depth text (.obj members))
    (rest : List Char) : readValue depth (text ++ rest) = some (.obj members, rest) := by
  cases depth with
  | zero => cases h
  | succ depth =>
    rcases h with h | ⟨inner, items, _, _, heq⟩ | ⟨inner, written, hgroup, rfl, heq⟩
    · cases h
    · cases heq
    · cases heq
      unfold readValue
      dsimp only [cons_append]
      rw [if_neg (by decide), if_pos rfl,
        readGroup_append (complete_member (readValue_complete depth)) (.inr rfl) hgroup]
      rfl

/-- **Soundness**: what is read is a text of the grammar. -/
theorem readValue_sound : ∀ depth, Sound (readValue depth) (Spells depth)
  | 0 => fun _ _ _ => readScalar_sound
  | depth + 1 => by
    have hitem := readValue_sound depth
    intro input value rest h
    unfold readValue at h
    split at h
    · cases h
    next c tail =>
    split at h
    · next heq =>
      obtain ⟨⟨items, rest'⟩, hread, hpair⟩ := map_eq_some_iff.mp h
      cases hpair
      obtain ⟨inner, htail, hgroup⟩ := readGroup_sound hitem hread
      exact ⟨'[' :: inner, by rw [heq, htail]; rfl, .inr (.inl ⟨inner, items, hgroup, rfl, rfl⟩)⟩
    · split at h
      · next heq =>
        obtain ⟨⟨members, rest'⟩, hread, hpair⟩ := map_eq_some_iff.mp h
        cases hpair
        obtain ⟨inner, htail, hgroup⟩ := readGroup_sound (sound_member hitem) hread
        exact ⟨'\x7b' :: inner, by rw [heq, htail]; rfl,
          .inr (.inr ⟨inner, members, hgroup, rfl, rfl⟩)⟩
      · obtain ⟨text, hinput, hscalar⟩ := readScalar_sound h
        exact ⟨text, hinput, .inl hscalar⟩

theorem Spells.mono (h : Spells depth text value) (hle : depth ≤ depth') : Spells depth' text value := by
  induction depth generalizing depth' text value with
  | zero =>
    cases depth' with
    | zero => exact h
    | succ depth' => exact .inl h
  | succ depth ih =>
    cases depth' with
    | zero => omega
    | succ depth' =>
      have himp : ∀ text value, Spells depth text value → Spells depth' text value :=
        fun text value h => ih h (Nat.le_of_succ_le_succ hle)
      rcases h with h | ⟨inner, items, hgroup, htext, hvalue⟩ | ⟨inner, members, hgroup, htext, hvalue⟩
      · exact .inl h
      · exact .inr (.inl ⟨inner, items, hgroup.imp himp, htext, hvalue⟩)
      · refine .inr (.inr ⟨inner, members, hgroup.imp ?_, htext, hvalue⟩)
        rintro text p ⟨key, before, after, value, hkey, hbefore, hafter, h, htext⟩
        exact ⟨key, before, after, value, hkey, hbefore, hafter, himp _ _ h, htext⟩

theorem object_unique {members members' : List (String × Value)}
    (h : Spells depth text (.obj members)) (h' : Spells depth' text' (.obj members'))
    (hinput : text ++ rest = text' ++ rest') : members = members' ∧ rest = rest' := by
  have hread := readValue_object (h.mono (Nat.le_max_left depth depth')) rest
  have hread' := readValue_object (h'.mono (Nat.le_max_right depth depth')) rest'
  rw [hinput, hread'] at hread
  cases hread
  exact ⟨rfl, rfl⟩

end Codify.Framework.GoJson

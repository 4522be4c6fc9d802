import Codify.Framework.GoJson

/-! # Writing JSON as Go Does

    `Encoder.Encode` of Go's `encoding/json` with `SetEscapeHTML(false)`, without the line feed at
    its end, and the bytes of a text. The keys of a map are written in order; a number is written
    as its text. A written value is read back (`spells_encode`).
-/

namespace Codify.Framework.GoJson

open JsonText List Option

/-! ### The Encoder -/

/-- One character of `appendString`. -/
def escapeRune (c : Char) : List Char :=
  if c = '"' then ['\\', '"']
  else if c = '\\' then ['\\', '\\']
  else if c.toNat = 8 then ['\\', 'b']
  else if c.toNat = 12 then ['\\', 'f']
  else if c = '\n' then ['\\', 'n']
  else if c = '\r' then ['\\', 'r']
  else if c = '\t' then ['\\', 't']
  else if c.toNat < 32 ∨ c.toNat = 0x2028 ∨ c.toNat = 0x2029 then unicodeEscape c.toNat
  else [c]

/-- `appendString`. -/
def appendString (s : String) : List Char := '"' :: (s.toList.flatMap escapeRune ++ ['"'])

def joinComma : List (List Char) → List Char
  | [] => []
  | [text] => text
  | text :: texts => text ++ ',' :: joinComma texts

mutual

def encode : Value → List Char
  | .null => ['n', 'u', 'l', 'l']
  | .bool true => ['t', 'r', 'u', 'e']
  | .bool false => ['f', 'a', 'l', 's', 'e']
  | .number n => n.token
  | .str s => appendString s
  | .arr items => '[' :: (joinComma (encodeItems items) ++ [']'])
  | .obj members => '\x7b' :: (joinComma (encodeMembers members) ++ ['\x7d'])
termination_by structural value => value

def encodeItems : List Value → List (List Char)
  | [] => []
  | value :: items => encode value :: encodeItems items
termination_by structural items => items

def encodeMember : String × Value → List Char
  | (key, value) => appendString key ++ ':' :: encode value
termination_by structural p => p

def encodeMembers : List (String × Value) → List (List Char)
  | [] => []
  | p :: members => encodeMember p :: encodeMembers members
termination_by structural members => members

end

/-- The keys of each map ascend. -/
inductive Ordered : Value → Prop where
  | null : Ordered .null
  | bool (b : Bool) : Ordered (.bool b)
  | number (n : Number) : Ordered (.number n)
  | str (s : String) : Ordered (.str s)
  | arr {items : List Value} (hitems : ∀ value ∈ items, Ordered value) : Ordered (.arr items)
  | obj {members : List (String × Value)} (hsorted : SortedMap.Sorted members)
      (hmembers : ∀ p ∈ members, Ordered p.2) : Ordered (.obj members)

section Encoding

variable {raw rest text : List Char} {c e : Char} {value : Value} {depth : Nat}

theorem encodeItems_eq (items : List Value) : encodeItems items = items.map encode := by
  induction items with
  | nil => rfl
  | cons value items ih => rw [encodeItems, ih]; rfl

theorem encodeMembers_eq (members : List (String × Value)) :
    encodeMembers members = members.map encodeMember := by
  induction members with
  | nil => rfl
  | cons p members ih => rw [encodeMembers, ih]; rfl

/-! ### Strings -/

theorem unquote_plain (h : c ≠ '\\') (raw : List Char) : unquote (c :: raw) = c :: unquote raw := by
  rw [unquote, if_neg h]

theorem unquote_escape (he : e ≠ 'u') (hc : simpleEscape e = some c) (raw : List Char) :
    unquote ('\\' :: e :: raw) = c :: unquote raw := by
  have hcode : getu4 ('\\' :: e :: raw) = none := by
    unfold getu4
    split
    · next heq =>
      cases heq
      exact if_neg fun h => he h.2
    · rfl
  rw [unquote, if_pos rfl]
  split
  · next hsome =>
    rw [hcode] at hsome
    cases hsome
  · dsimp only
    rw [hc]
    rfl

theorem getu4_unicodeEscape {n : Nat} (hn : n < 65536) (raw : List Char) :
    getu4 (unicodeEscape n ++ raw) = some (n, raw) := by
  have hvalue : 4096 * (n / 4096 % 16) + 256 * (n / 256 % 16) + 16 * (n / 16 % 16) + n % 16 = n := by
    omega
  simp only [unicodeEscape, cons_append, nil_append, getu4, hexValue_hexDigit,
    bind_some, map_some, and_self, if_true, hvalue]

theorem unquote_code {n : Nat} (hn : n < 0xD800) (raw : List Char) :
    unquote (unicodeEscape n ++ raw) = Char.ofNat n :: unquote raw := by
  have hcode := getu4_unicodeEscape (n := n) (by omega) raw
  have hcons : unicodeEscape n ++ raw = '\\' :: (('u' :: (unicodeEscape n).drop 2) ++ raw) := rfl
  rw [hcons] at hcode ⊢
  rw [unquote, if_pos rfl]
  split
  · next hsome =>
    rw [hcode] at hsome
    cases hsome
    rw [if_neg (by omega)]
  · next hnone =>
    rw [hcode] at hnone
    cases hnone

theorem unquote_escapeRune (c : Char) (raw : List Char) :
    unquote (escapeRune c ++ raw) = c :: unquote raw := by
  have hchar : ∀ n, c.toNat = n → c = Char.ofNat n := fun n hn => by rw [← hn, Char.ofNat_toNat]
  unfold escapeRune
  split
  · next h => rw [h]; exact unquote_escape (by decide) rfl raw
  · split
    · next h => rw [h]; exact unquote_escape (by decide) rfl raw
    · next hslash =>
      split
      · next h => rw [hchar 8 h]; exact unquote_escape (by decide) rfl raw
      · split
        · next h => rw [hchar 12 h]; exact unquote_escape (by decide) rfl raw
        · split
          · next h => rw [h]; exact unquote_escape (by decide) rfl raw
          · split
            · next h => rw [h]; exact unquote_escape (by decide) rfl raw
            · split
              · next h => rw [h]; exact unquote_escape (by decide) rfl raw
              · split
                · next h =>
                  rw [unquote_code (by omega), Char.ofNat_toNat]
                · exact unquote_plain hslash raw

theorem unquote_escapeText (text : List Char) : unquote (text.flatMap escapeRune) = text := by
  induction text with
  | nil => rw [flatMap_nil, unquote]
  | cons c text ih => rw [flatMap_cons, unquote_escapeRune, ih]

theorem closes_plain (hquote : c ≠ '"') (hslash : c ≠ '\\') (hc : ¬ c.toNat < 32) (raw : List Char) :
    closes .plain (c :: raw) = closes .plain raw := by
  have hstep : stepString .plain c = some .plain := by
    unfold stepString
    dsimp only
    rw [if_neg hslash, if_neg hc]
  rw [closes, if_neg fun h => hquote h.2, hstep]

theorem closes_code (n : Nat) (raw : List Char) :
    closes .plain (unicodeEscape n ++ raw) = closes .plain raw := by
  have hdigit : ∀ more m tail, closes (.hex (more + 1)) (hexDigit m :: tail) = closes (.hex more) tail := by
    intro more m tail
    simp [closes, stepString, hexValue_hexDigit]
  have hlast : ∀ m tail, closes (.hex 0) (hexDigit m :: tail) = closes .plain tail := by
    intro m tail
    simp [closes, stepString, hexValue_hexDigit]
  show closes (.hex 3) (hexDigit (n / 4096) :: hexDigit (n / 256) :: hexDigit (n / 16) ::
    hexDigit n :: raw) = _
  rw [hdigit, hdigit, hdigit, hlast]

theorem closes_escapeRune (c : Char) (raw : List Char) :
    closes .plain (escapeRune c ++ raw) = closes .plain raw := by
  unfold escapeRune
  split
  · rfl
  next hquote =>
  split
  · rfl
  next hslash =>
  split
  · rfl
  · split
    · rfl
    · split
      · rfl
      · split
        · rfl
        · split
          · rfl
          · split
            · exact closes_code _ raw
            · next h => exact closes_plain hquote hslash (fun hlt => h (.inl hlt)) raw

theorem closes_escapeText (text : List Char) : closes .plain (text.flatMap escapeRune) = true := by
  induction text with
  | nil => rfl
  | cons c text ih => rw [flatMap_cons, closes_escapeRune, ih]

theorem spells_appendString (s : String) : SpellsText (appendString s) s :=
  ⟨s.toList.flatMap escapeRune, closes_escapeText _, rfl, by
    rw [unquote_escapeText, String.ofList_toList]⟩

/-! ### Values -/

theorem blank_nil : Blank [] := nofun

theorem spells_join {α : Type*} {spells : List Char → α → Prop} {write : α → List Char}
    {as : List α} (hne : as ≠ []) (h : ∀ a ∈ as, spells (write a) a) :
    SpellsItems spells (joinComma (as.map write)) as := by
  induction as with
  | nil => exact absurd rfl hne
  | cons a as ih =>
    cases as with
    | nil =>
      have hlast := SpellsItems.last blank_nil (h a mem_cons_self) blank_nil
      rw [nil_append, append_nil] at hlast
      exact hlast
    | cons b as =>
      exact SpellsItems.more blank_nil (h a mem_cons_self) blank_nil
        (ih (cons_ne_nil b as) fun x hx => h x (mem_cons_of_mem a hx))

theorem spells_group {α : Type*} {spells : List Char → α → Prop} {write : α → List Char}
    {as : List α} (close : Char) (h : ∀ a ∈ as, spells (write a) a) :
    SpellsGroup spells close (joinComma (as.map write) ++ [close]) as := by
  refine ⟨_, rfl, ?_⟩
  cases as with
  | nil => exact .inl ⟨blank_nil, rfl⟩
  | cons a as => exact .inr (spells_join (cons_ne_nil a as) h)

theorem common_depth {α : Type*} {value : α → Value} {as : List α}
    (h : ∀ a ∈ as, ∃ depth, Spells depth (encode (value a)) (value a)) :
    ∃ depth, ∀ a ∈ as, Spells depth (encode (value a)) (value a) := by
  induction as with
  | nil => exact ⟨0, nofun⟩
  | cons a as ih =>
    obtain ⟨depth, hdepth⟩ := h a mem_cons_self
    obtain ⟨depth', hrest⟩ := ih fun b hb => h b (mem_cons_of_mem a hb)
    refine ⟨max depth depth', fun b hb => ?_⟩
    rcases mem_cons.mp hb with rfl | hb
    · exact hdepth.mono (Nat.le_max_left _ _)
    · exact (hrest b hb).mono (Nat.le_max_right _ _)

/-- **Writing**: what is written denotes the value. -/
theorem spells_encode (h : Ordered value) : ∃ depth, Spells depth (encode value) value := by
  induction h with
  | null => exact ⟨0, .null⟩
  | bool b =>
    cases b with
    | true => exact ⟨0, .true⟩
    | false => exact ⟨0, .false⟩
  | number n => exact ⟨0, .number n⟩
  | str s => exact ⟨0, .str (spells_appendString s)⟩
  | @arr items _ ih =>
    obtain ⟨depth, hdepth⟩ := common_depth ih
    refine ⟨depth + 1, .inr (.inl ⟨_, items, spells_group ']' hdepth, ?_, rfl⟩)⟩
    rw [encode, encodeItems_eq]
  | @obj members hsorted _ ih =>
    obtain ⟨depth, hdepth⟩ := common_depth ih
    have hmember : ∀ p ∈ members, SpellsMember (Spells depth) (encodeMember p) p := fun p hp =>
      ⟨appendString p.1, [], [], encode p.2, spells_appendString p.1, blank_nil, blank_nil,
        hdepth p hp, by cases p; rfl⟩
    refine ⟨depth + 1, .inr (.inr ⟨_, members, spells_group '\x7d' hmember, ?_, ?_⟩)⟩
    · rw [encode, encodeMembers_eq]
    · rw [SortedMap.ofList_eq_self hsorted]

theorem SpellsItems.mem {α : Type*} {spells : List Char → α → Prop} {as : List α} {a : α}
    (h : SpellsItems spells text as) (ha : a ∈ as) : ∃ item, spells item a := by
  induction h with
  | last _ h _ =>
    rw [mem_singleton.mp ha]
    exact ⟨_, h⟩
  | more _ h _ _ ih =>
    rcases mem_cons.mp ha with rfl | ha
    · exact ⟨_, h⟩
    · exact ih ha

theorem SpellsGroup.mem {α : Type*} {spells : List Char → α → Prop} {as : List α} {a : α}
    {close : Char} (h : SpellsGroup spells close text as) (ha : a ∈ as) : ∃ item, spells item a := by
  obtain ⟨inner, _, ⟨_, rfl⟩ | hitems⟩ := h
  · cases ha
  · exact hitems.mem ha

theorem ordered_of_spells (h : Spells depth text value) : Ordered value := by
  have hscalar : ∀ {text value}, SpellsScalar text value → Ordered value := by
    intro text value h
    cases h with
    | null => exact .null
    | true => exact .bool true
    | false => exact .bool false
    | number n => exact .number n
    | str h => exact .str _
  induction depth generalizing text value with
  | zero => exact hscalar h
  | succ depth ih =>
    rcases h with h | ⟨inner, items, hgroup, _, rfl⟩ | ⟨inner, members, hgroup, _, rfl⟩
    · exact hscalar h
    · refine .arr fun value hvalue => ?_
      obtain ⟨item, hitem⟩ := hgroup.mem hvalue
      exact ih hitem
    · refine .obj (SortedMap.sorted_ofList members) fun p hp => ?_
      obtain ⟨item, _, _, _, _, _, _, _, hitem, _⟩ := hgroup.mem (SortedMap.mem_ofList hp)
      exact ih hitem

end Encoding

/-! ### Bytes -/

/-- The runes of a byte string; a byte that belongs to none becomes U+FFFD. -/
def decodeRunes (raw : List UInt8) : List Char :=
  match raw with
  | [] => []
  | b :: rest =>
    match (b :: rest).toByteArray.utf8DecodeChar? 0 with
    | some c => c :: decodeRunes ((b :: rest).drop c.utf8Size)
    | none => replacementChar :: decodeRunes rest
termination_by raw.length
decreasing_by
  · have := c.utf8Size_pos
    simp only [length_drop, length_cons]
    omega
  · simp

theorem decodeRunes_char (c : Char) (rest : List UInt8) :
    decodeRunes (String.utf8EncodeChar c ++ rest) = c :: decodeRunes rest := by
  have hread : (String.utf8EncodeChar c ++ rest).toByteArray.utf8DecodeChar? 0 = some c := by
    rw [toByteArray_append]
    exact ByteArray.utf8DecodeChar?_utf8EncodeChar_append
  have hlength : (String.utf8EncodeChar c).length = c.utf8Size := String.length_utf8EncodeChar c
  have hdrop : (String.utf8EncodeChar c ++ rest).drop c.utf8Size = rest := by
    rw [← hlength, drop_left]
  cases hbytes : String.utf8EncodeChar c ++ rest with
  | nil =>
    have hpos := c.utf8Size_pos
    have hnil := (append_eq_nil_iff.mp hbytes).1
    rw [hnil] at hlength
    simp only [length_nil] at hlength
    omega
  | cons b tail =>
    rw [hbytes] at hread hdrop
    rw [decodeRunes, hread]
    dsimp only
    rw [hdrop]

theorem decodeRunes_encodeUtf8 (text : List Char) : decodeRunes (encodeUtf8 text) = text := by
  induction text with
  | nil => rw [encodeUtf8_nil, decodeRunes]
  | cons c text ih => rw [encodeUtf8_cons, decodeRunes_char, ih]

end Codify.Framework.GoJson

import Codify.Framework.JsonText

/-! # Reading JSON Text Back

    What `dumps` writes, `loads` reads back (`loads_dumps`), and a dict cut
    before its last character is no document (`loads_cut`). Both follow from
    what the machine does on the text of one value, whatever is open around it
    (`run_dumps`).
-/

namespace Codify.Framework.JsonText

open List

/-! ### Dicts -/

theorem keysUniqueItems_iff {items : List Json} :
    keysUniqueItems items ↔ ∀ v ∈ items, keysUnique v := by
  induction items with
  | nil => simp [keysUniqueItems]
  | cons v rest ih => simp [keysUniqueItems, ih]

theorem keysUniqueFields_iff {fields : JsonObject} :
    keysUniqueFields fields ↔ ∀ p ∈ fields, keysUnique p.2 := by
  induction fields with
  | nil => simp [keysUniqueFields]
  | cons p rest ih =>
    obtain ⟨key, v⟩ := p
    rw [keysUniqueFields, Bool.and_eq_true, ih, forall_mem_cons]
    rfl

theorem keysUnique_obj_iff {fields : JsonObject} :
    keysUnique (.obj fields) ↔ (fields.map (·.1)).Nodup ∧ ∀ p ∈ fields, keysUnique p.2 := by
  simp [keysUnique, keysUniqueFields_iff]

theorem keysUnique_get {fields : JsonObject} (h : keysUnique (.obj fields)) (key : String) :
    keysUnique (fields.get key) := by
  unfold JsonObject.get
  cases hlookup : fields.lookup key with
  | none => rfl
  | some v => exact (keysUnique_obj_iff.mp h).2 _ (OrderedDict.mem_of_lookup hlookup)

theorem mem_set {fields : JsonObject} {key : String} {v : Json} {p : String × Json}
    (h : p ∈ fields.set key v) : p ∈ fields ∨ p = (key, v) := by
  induction fields with
  | nil => exact .inr (mem_singleton.mp h)
  | cons q rest ih =>
    obtain ⟨k, w⟩ := q
    unfold JsonObject.set at h
    split at h
    · next hk =>
      subst hk
      rcases mem_cons.mp h with rfl | h
      · exact .inr rfl
      · exact .inl (mem_cons_of_mem _ h)
    · rcases mem_cons.mp h with rfl | h
      · exact .inl mem_cons_self
      · exact (ih h).imp (mem_cons_of_mem _) id

theorem nodup_keys_set {fields : JsonObject} (h : (fields.map (·.1)).Nodup) (key : String)
    (v : Json) : ((fields.set key v).map (·.1)).Nodup := by
  rw [JsonObject.set_eq]
  exact OrderedDict.nodup_keys_set h key v

theorem keysUnique_set {fields : JsonObject} (h : keysUnique (.obj fields)) (key : String)
    {v : Json} (hv : keysUnique v) : keysUnique (.obj (fields.set key v)) := by
  rw [keysUnique_obj_iff] at h ⊢
  refine ⟨nodup_keys_set h.1 key v, fun p hp => ?_⟩
  rcases mem_set hp with hp | rfl
  · exact h.2 p hp
  · exact hv

/-! ### Running the Machine -/

section Running

variable {F : FloatText} {r : Reader} {stack : List Frame}

@[simp] theorem run_nil : run F r [] = some r := rfl

variable (ensureAscii : Bool) (fields : Option JsonObject) (chars : List Char) (c : Char)

theorem run_cons (text : List Char) :
    run F r (c :: text) = (step F r c).bind fun r' => run F r' text := rfl

theorem run_cons_of_step {r' : Reader} {c : Char} (h : step F r c = some r') (text : List Char) :
    run F r (c :: text) = run F r' text := by
  rw [run_cons, h]
  rfl

theorem run_append (a b : List Char) :
    run F r (a ++ b) = (run F r a).bind fun r' => run F r' b := by
  unfold run
  rw [foldlM_append]
  rfl

theorem run_append_of_run {r' : Reader} {a : List Char} (h : run F r a = some r')
    (b : List Char) : run F r (a ++ b) = run F r' b := by
  rw [run_append, h]
  rfl

/-! ### Reading Numbers Back -/

theorem isNumberChar_of_isDigit {c : Char} (h : c.isDigit) : isNumberChar c := by
  simp [isNumberChar, h]

theorem not_isJsonSpace_of_isDigit {c : Char} (h : c.isDigit) : isJsonSpace c = false := by
  by_contra hs
  simp only [Bool.not_eq_false, isJsonSpace, Bool.or_eq_true, beq_iff_eq] at hs
  rcases hs with ((hs | hs) | hs) | hs <;> (subst hs; revert h; decide)

theorem ne_of_isDigit {c d : Char} (h : c.isDigit) (hd : d.isDigit = false) : c ≠ d := by
  intro hcd
  rw [hcd, hd] at h
  exact Bool.false_ne_true h

theorem beginValue_number {c : Char} (h : c = '-' ∨ c.isDigit) :
    beginValue stack c = some ⟨.number [c], stack⟩ := by
  have hne : c ≠ '"' ∧ c ≠ '\x7b' ∧ c ≠ '[' := by
    rcases h with rfl | h
    · decide
    · exact ⟨ne_of_isDigit h rfl, ne_of_isDigit h rfl, ne_of_isDigit h rfl⟩
  simp [beginValue, hne, h]

theorem step_value_number {c : Char} (h : c = '-' ∨ c.isDigit) :
    step F ⟨.value, stack⟩ c = some ⟨.number [c], stack⟩ := by
  have hspace : isJsonSpace c = false := by
    rcases h with rfl | h
    · rfl
    · exact not_isJsonSpace_of_isDigit h
  show (if isJsonSpace c then _ else _) = _
  rw [hspace, if_neg Bool.false_ne_true, beginValue_number h]

theorem run_number_chars {cs token : List Char} (h : ∀ c ∈ cs, isNumberChar c) :
    run F ⟨.number token, stack⟩ cs = some ⟨.number (cs.reverse ++ token), stack⟩ := by
  induction cs generalizing token with
  | nil => rfl
  | cons c cs ih =>
    have hc : isNumberChar c := h c mem_cons_self
    have hstep : step F ⟨.number token, stack⟩ c = some ⟨.number (c :: token), stack⟩ := by
      show (if isNumberChar c then _ else _) = _
      rw [if_pos hc]
    rw [run_cons_of_step hstep, ih fun d hd => h d (mem_cons_of_mem c hd)]
    simp

theorem run_number {c : Char} {cs : List Char} (hc : c = '-' ∨ c.isDigit)
    (hcs : ∀ d ∈ cs, isNumberChar d) :
    run F ⟨.value, stack⟩ (c :: cs) = some ⟨.number (c :: cs).reverse, stack⟩ := by
  rw [run_cons_of_step (step_value_number hc), run_number_chars hcs]
  simp

theorem isNatToken_toDigits (n : Nat) : isNatToken (Nat.toDigits 10 n) := by
  have hdigits : ∀ c ∈ Nat.toDigits 10 n, c.isDigit :=
    fun c hc => Nat.isDigit_of_mem_toDigits (by decide) (by decide) hc
  rcases Nat.eq_zero_or_pos n with rfl | hn
  · rfl
  · -- a positive number does not start with the digit 0
    induction n using Nat.strong_induction_on with
    | _ n ih =>
      by_cases hlt : n < 10
      · have hall : ∀ m < 10, 0 < m → isNatToken [m.digitChar] := by decide
        rw [Nat.toDigits_of_lt_base hlt]
        exact hall n hlt hn
      · have hbase : 10 ≤ n := by omega
        have hrest : isNatToken (Nat.toDigits 10 (n / 10)) := by
          refine ih (n / 10) (by omega) (fun c hc => ?_) (by omega)
          exact Nat.isDigit_of_mem_toDigits (by decide) (by decide) hc
        rw [Nat.toDigits_of_base_le (by decide) hbase] at hdigits ⊢
        have hfirst : ∀ c ∈ [Nat.digitChar (n % 10)], c.isDigit := fun c hc =>
          hdigits c (mem_append_right _ hc)
        have hpos : Nat.toDigits 10 (n / 10) ≠ ['0'] := by
          intro h0
          have hval := @Nat.ofDigitChars_ten_toDigits (n / 10)
          rw [h0] at hval
          simp [Nat.ofDigitChars] at hval
          omega
        revert hrest hpos hfirst
        generalize Nat.toDigits 10 (n / 10) = cs
        generalize Nat.digitChar (n % 10) = d
        intro hrest hfirst hpos
        cases cs with
        | nil => exact absurd hrest (by decide)
        | cons c cs =>
          simp only [isNatToken, Bool.or_eq_true, Bool.and_eq_true, beq_iff_eq,
            List.isEmpty_iff] at hrest
          rcases hrest with ⟨rfl, rfl⟩ | ⟨⟨hcd, hc0⟩, hall⟩
          · exact absurd rfl hpos
          · simp only [mem_singleton, forall_eq] at hfirst
            simp only [cons_append, isNatToken, Bool.or_eq_true, Bool.and_eq_true]
            refine .inr ⟨⟨hcd, hc0⟩, ?_⟩
            rw [all_append, hall]
            simp [hfirst]

theorem unsigned_of_isDigit {cs : List Char} (h : ∀ c ∈ cs, c.isDigit) : unsigned cs = cs := by
  cases cs with
  | nil => rfl
  | cons c cs =>
    have hc : c ≠ '-' := ne_of_isDigit (h c mem_cons_self) rfl
    simp [unsigned, hc]

theorem intOfToken_intText (n : Int) : intOfToken (intText n) = some n := by
  have hdigits : ∀ c ∈ Nat.toDigits 10 n.natAbs, c.isDigit :=
    fun c hc => Nat.isDigit_of_mem_toDigits (by decide) (by decide) hc
  unfold intText
  split
  · next hneg =>
    show (if isNatToken (Nat.toDigits 10 n.natAbs) then _ else _) = _
    rw [if_pos (isNatToken_toDigits _)]
    show some (if (some '-' : Option Char) = some '-' then _ else _) = some n
    rw [if_pos rfl]
    congr 1
    show -((Nat.ofDigitChars 10 (Nat.toDigits 10 n.natAbs) 0 : Nat) : Int) = n
    rw [Nat.ofDigitChars_ten_toDigits]
    omega
  · next hpos =>
    unfold intOfToken
    rw [unsigned_of_isDigit hdigits, if_pos (isNatToken_toDigits _)]
    have hhead : (Nat.toDigits 10 n.natAbs).head? ≠ some '-' := by
      intro h0
      have := hdigits _ (mem_of_mem_head? h0)
      exact absurd this (by decide)
    simp only [if_neg hhead, Nat.ofDigitChars_ten_toDigits, Option.some.injEq]
    omega

theorem run_intText (n : Int) :
    run F ⟨.value, stack⟩ (intText n) = some ⟨.number (intText n).reverse, stack⟩ := by
  have hdigits : ∀ c ∈ Nat.toDigits 10 n.natAbs, c.isDigit :=
    fun c hc => Nat.isDigit_of_mem_toDigits (by decide) (by decide) hc
  unfold intText
  split
  · exact run_number (.inl rfl) fun d hd => isNumberChar_of_isDigit (hdigits d hd)
  · cases h : Nat.toDigits 10 n.natAbs with
    | nil => exact absurd h Nat.toDigits_ne_nil
    | cons c cs =>
      rw [h] at hdigits
      exact run_number (.inr (hdigits c mem_cons_self)) fun d hd =>
        isNumberChar_of_isDigit (hdigits d (mem_cons_of_mem c hd))

theorem isDigit_of_isNatToken {cs : List Char} (h : isNatToken cs) : ∀ c ∈ cs, c.isDigit := by
  cases cs with
  | nil => exact absurd h (by decide)
  | cons c cs =>
    simp only [isNatToken, Bool.or_eq_true, Bool.and_eq_true, beq_iff_eq, List.isEmpty_iff,
      all_eq_true] at h
    intro d hd
    rcases h with ⟨rfl, rfl⟩ | ⟨⟨hc, -⟩, hcs⟩
    · rw [mem_singleton.mp hd]
      rfl
    · rcases mem_cons.mp hd with rfl | hd
      · exact hc
      · exact hcs d hd

theorem isNumberChar_of_isExponent {cs : List Char} (h : isExponent cs) :
    ∀ c ∈ cs, isNumberChar c := by
  cases cs with
  | nil => exact absurd h (by decide)
  | cons e cs =>
    simp only [isExponent, Bool.and_eq_true, Bool.or_eq_true, beq_iff_eq, all_eq_true] at h
    obtain ⟨he, -, hdigits⟩ := h
    have he' : isNumberChar e := by rcases he with rfl | rfl <;> rfl
    intro c hc
    rcases mem_cons.mp hc with rfl | hc
    · exact he'
    · cases cs with
      | nil => exact absurd hc not_mem_nil
      | cons d ds =>
        by_cases hsign : d = '+' ∨ d = '-'
        · simp only [hsign, if_true] at hdigits
          rcases mem_cons.mp hc with rfl | hc
          · rcases hsign with rfl | rfl <;> rfl
          · exact isNumberChar_of_isDigit (hdigits c hc)
        · simp only [hsign, if_false] at hdigits
          exact isNumberChar_of_isDigit (hdigits c hc)

/-- What follows the digits of a float: number characters, the first of them no digit. -/
theorem isFloatTail_chars {cs : List Char} (h : isFloatTail cs) :
    (∀ c ∈ cs, isNumberChar c) ∧ ∃ c ∈ cs, c.isDigit = false := by
  cases cs with
  | nil => exact absurd h (by decide)
  | cons c cs =>
    by_cases hdot : c = '.'
    · subst hdot
      refine ⟨?_, '.', mem_cons_self, rfl⟩
      simp only [isFloatTail, if_true, Bool.and_eq_true, Bool.or_eq_true, List.isEmpty_iff] at h
      intro d hd
      rcases mem_cons.mp hd with rfl | hd
      · rfl
      · rw [← takeWhile_append_dropWhile (p := Char.isDigit) (l := cs)] at hd
        rcases mem_append.mp hd with hd | hd
        · exact isNumberChar_of_isDigit (mem_takeWhile_imp hd)
        · rcases h.2 with h0 | hexp
          · rw [h0] at hd
            exact absurd hd not_mem_nil
          · exact isNumberChar_of_isExponent hexp d hd
    · simp only [isFloatTail, if_neg hdot] at h
      refine ⟨isNumberChar_of_isExponent h, c, mem_cons_self, ?_⟩
      simp only [isExponent, Bool.and_eq_true, Bool.or_eq_true, beq_iff_eq] at h
      rcases h.1 with rfl | rfl <;> rfl

theorem isFloatToken_parts {token : List Char} (h : isFloatToken token) :
    (∀ c ∈ unsigned token, isNumberChar c) ∧ (∃ c cs, unsigned token = c :: cs ∧ c.isDigit) ∧
      ∃ c ∈ unsigned token, c.isDigit = false := by
  simp only [isFloatToken, Bool.and_eq_true] at h
  obtain ⟨hnat, htail⟩ := h
  have hsplit := takeWhile_append_dropWhile (p := Char.isDigit) (l := unsigned token)
  generalize (unsigned token).takeWhile Char.isDigit = ds at hnat hsplit
  generalize (unsigned token).dropWhile Char.isDigit = tail at htail hsplit
  have hdigits := isDigit_of_isNatToken hnat
  obtain ⟨htail, c, hc, hnot⟩ := isFloatTail_chars htail
  rw [← hsplit]
  refine ⟨?_, ?_, c, mem_append_right _ hc, hnot⟩
  · intro d hd
    rcases mem_append.mp hd with hd | hd
    · exact isNumberChar_of_isDigit (hdigits d hd)
    · exact htail d hd
  · cases ds with
    | nil => exact absurd hnat (by decide)
    | cons d ds => exact ⟨d, ds ++ tail, rfl, hdigits d mem_cons_self⟩

theorem intOfToken_eq_none_of_isFloatToken {token : List Char} (h : isFloatToken token) :
    intOfToken token = none := by
  obtain ⟨-, -, c, hc, hnot⟩ := isFloatToken_parts h
  have hnat : ¬ isNatToken (unsigned token) := by
    intro hnat
    rw [isDigit_of_isNatToken hnat c hc] at hnot
    exact Bool.false_ne_true hnot.symm
  unfold intOfToken
  rw [if_neg hnat]

theorem run_floatToken {token : List Char} (h : isFloatToken token) :
    run F ⟨.value, stack⟩ token = some ⟨.number token.reverse, stack⟩ := by
  obtain ⟨hall, ⟨d, ds, hcons, hd⟩, -⟩ := isFloatToken_parts h
  cases token with
  | nil => exact absurd hcons (by simp [unsigned])
  | cons c cs =>
    by_cases hsign : c = '-'
    · subst hsign
      exact run_number (.inl rfl) hall
    · simp only [unsigned, if_neg hsign] at hall hcons
      obtain ⟨rfl, rfl⟩ := List.cons.inj hcons
      exact run_number (.inr hd) fun e he => hall e (mem_cons_of_mem c he)

theorem numberOf_intText (n : Int) : numberOf F (intText n) = some (.int n) := by
  simp [numberOf, intOfToken_intText]

theorem numberOf_repr {x : JsonFloat} (h : x.toRat?.isSome) :
    numberOf F (F.repr x) = some (.float x) := by
  have htoken := F.repr_token x h
  simp [numberOf, intOfToken_eq_none_of_isFloatToken htoken, htoken, F.parse_repr x h]

/-! ### Reading Strings Back -/

theorem hexValue_hexDigit (n : Nat) : hexValue (hexDigit n) = some (n % 16) := by
  have hall : ∀ m < 16, hexValue (Nat.digitChar m) = some m := by decide
  exact hall (n % 16) (Nat.mod_lt n (by decide))

theorem step_text {fields : Option JsonObject} {chars : List Char} {escape : Escape} {c : Char}
    (h : escape = .none → c ≠ '"') :
    step F ⟨.text fields chars escape, stack⟩ c =
      (stepText chars escape c).map fun q => ⟨.text fields q.1 q.2, stack⟩ := by
  cases escape with
  | none => simp [step, h rfl]
  | slash => rfl
  | hex digits value high => rfl
  | high value => rfl
  | highSlash value => rfl

theorem run_hex (high : Option Nat) {n : Nat} (hn : n < 65536) :
    run F ⟨.text fields chars (.hex 3 0 high), stack⟩
        [hexDigit (n / 4096), hexDigit (n / 256), hexDigit (n / 16), hexDigit n] =
      (closeHex chars n high).map fun q => ⟨.text fields q.1 q.2, stack⟩ := by
  have hvalue :
      16 * (16 * (16 * (16 * 0 + n / 4096 % 16) + n / 256 % 16) + n / 16 % 16) + n % 16 = n := by
    omega
  have hstep : ∀ digits value m, stepText chars (.hex (digits + 1) value high) (hexDigit m) =
      some (chars, .hex digits (16 * value + m % 16) high) := by
    intro digits value m
    simp [stepText, hexValue_hexDigit]
  have hlast : ∀ value m, stepText chars (.hex 0 value high) (hexDigit m) =
      closeHex chars (16 * value + m % 16) high := by
    intro value m
    simp [stepText, hexValue_hexDigit]
  have hesc : ∀ digits value, Escape.hex digits value high = Escape.none → ∀ c : Char, c ≠ '"' :=
    fun digits value h => nomatch h
  rw [run_cons, step_text (fun h => hesc _ _ h _), hstep]
  show run F ⟨.text fields chars (.hex 2 _ high), stack⟩ _ = _
  rw [run_cons, step_text (fun h => hesc _ _ h _), hstep]
  show run F ⟨.text fields chars (.hex 1 _ high), stack⟩ _ = _
  rw [run_cons, step_text (fun h => hesc _ _ h _), hstep]
  show run F ⟨.text fields chars (.hex 0 _ high), stack⟩ _ = _
  rw [run_cons, step_text (fun h => hesc _ _ h _), hlast, hvalue]
  cases closeHex chars n high <;> rfl

theorem run_unicodeEscape {n : Nat} (hn : n < 65536) :
    run F ⟨.text fields chars .none, stack⟩ (unicodeEscape n) =
      (closeHex chars n none).map fun q => ⟨.text fields q.1 q.2, stack⟩ :=
  run_hex fields chars none hn

theorem run_unicodeEscape_low (high : Nat) {n : Nat} (hn : n < 65536) :
    run F ⟨.text fields chars (.high high), stack⟩ (unicodeEscape n) =
      (closeHex chars n (some high)).map fun q => ⟨.text fields q.1 q.2, stack⟩ :=
  run_hex fields chars (some high) hn

theorem toNat_range : c.toNat < 0xd800 ∨ (0xdfff < c.toNat ∧ c.toNat < 0x110000) :=
  c.valid

theorem run_asciiEscape :
    run F ⟨.text fields chars .none, stack⟩ (asciiEscape c.toNat) =
      some ⟨.text fields (c :: chars) .none, stack⟩ := by
  have hvalid := toNat_range c
  unfold asciiEscape
  split
  · next hbmp =>
    rw [run_unicodeEscape fields chars (by omega)]
    have hhigh : ¬ (0xd800 ≤ c.toNat ∧ c.toNat ≤ 0xdbff) := by omega
    have hlow : ¬ (0xdc00 ≤ c.toNat ∧ c.toNat ≤ 0xdfff) := by omega
    simp only [closeHex, if_neg hhigh, if_neg hlow, Option.map_some, Char.ofNat_toNat]
  · next hpair =>
    -- the first half leaves the machine waiting for the second
    have hhigh : 0xd800 ≤ 0xd800 + (c.toNat - 0x10000) / 0x400 ∧
        0xd800 + (c.toNat - 0x10000) / 0x400 ≤ 0xdbff := by omega
    have hlow : 0xdc00 ≤ 0xdc00 + (c.toNat - 0x10000) % 0x400 ∧
        0xdc00 + (c.toNat - 0x10000) % 0x400 ≤ 0xdfff := by omega
    have hfirst : run F ⟨.text fields chars .none, stack⟩
        (unicodeEscape (0xd800 + (c.toNat - 0x10000) / 0x400)) =
        some ⟨.text fields chars (.high (0xd800 + (c.toNat - 0x10000) / 0x400)), stack⟩ := by
      rw [run_unicodeEscape fields chars (by omega)]
      simp only [closeHex, if_pos hhigh, Option.map_some]
    rw [run_append_of_run hfirst, run_unicodeEscape_low fields chars _ (by omega)]
    have hvalue : 0x10000 + (0xd800 + (c.toNat - 0x10000) / 0x400 - 0xd800) * 0x400 +
        (0xdc00 + (c.toNat - 0x10000) % 0x400 - 0xdc00) = c.toNat := by omega
    simp only [closeHex, if_pos hlow, Option.map_some, hvalue, Char.ofNat_toNat]

/-- How a character is written inside a string. -/
inductive Escaping (ensureAscii : Bool) (c : Char) : List Char → Prop where
  | letter {d : Char} (hletter : d ∈ ['"', '\\', 'n', 'r', 't', 'b', 'f'])
      (hread : simpleEscape d = some c) : Escaping ensureAscii c ['\\', d]
  | control (hlt : c.toNat < 32) : Escaping ensureAscii c (unicodeEscape c.toNat)
  | ascii (hascii : ensureAscii = true ∧ 126 < c.toNat) : Escaping ensureAscii c (asciiEscape c.toNat)
  | plain (hquote : c ≠ '"') (hslash : c ≠ '\\') (hcontrol : ¬ c.toNat < 32)
      (hascii : ¬ (ensureAscii = true ∧ 126 < c.toNat)) : Escaping ensureAscii c [c]

theorem escaping_escapeChar : Escaping ensureAscii c (escapeChar ensureAscii c) := by
  have hofNat : ∀ n, c.toNat = n → c = Char.ofNat n := by
    intro n h
    rw [← h, Char.ofNat_toNat]
  unfold escapeChar
  by_cases hquote : c = '"'
  · rw [if_pos hquote]
    exact .letter (by decide) (congrArg some hquote.symm)
  rw [if_neg hquote]
  by_cases hslash : c = '\\'
  · rw [if_pos hslash]
    exact .letter (by decide) (congrArg some hslash.symm)
  rw [if_neg hslash]
  by_cases hline : c = '\n'
  · rw [if_pos hline]
    exact .letter (by decide) (congrArg some hline.symm)
  rw [if_neg hline]
  by_cases hreturn : c = '\r'
  · rw [if_pos hreturn]
    exact .letter (by decide) (congrArg some hreturn.symm)
  rw [if_neg hreturn]
  by_cases htab : c = '\t'
  · rw [if_pos htab]
    exact .letter (by decide) (congrArg some htab.symm)
  rw [if_neg htab]
  by_cases hback : c.toNat = 8
  · rw [if_pos hback]
    exact .letter (by decide) (congrArg some (hofNat 8 hback).symm)
  rw [if_neg hback]
  by_cases hform : c.toNat = 12
  · rw [if_pos hform]
    exact .letter (by decide) (congrArg some (hofNat 12 hform).symm)
  rw [if_neg hform]
  by_cases hcontrol : c.toNat < 32
  · rw [if_pos hcontrol]
    exact .control hcontrol
  rw [if_neg hcontrol]
  by_cases hascii : ensureAscii = true ∧ 126 < c.toNat
  · rw [if_pos hascii]
    exact .ascii hascii
  · rw [if_neg hascii]
    exact .plain hquote hslash hcontrol hascii

theorem run_escapeChar :
    run F ⟨.text fields chars .none, stack⟩ (escapeChar ensureAscii c) =
      some ⟨.text fields (c :: chars) .none, stack⟩ := by
  have hescaping := escaping_escapeChar ensureAscii c
  generalize escapeChar ensureAscii c = written at hescaping ⊢
  cases hescaping with
  | @letter d hletter hread =>
    have hcode : d ≠ 'u' := by
      rintro rfl
      exact absurd hletter (by decide)
    have hstep : stepText chars .slash d = some (c :: chars, .none) := by
      unfold stepText
      dsimp only
      rw [if_neg hcode, hread]
      rfl
    have hlast : step F ⟨.text fields chars .slash, stack⟩ d =
        some ⟨.text fields (c :: chars) .none, stack⟩ :=
      congrArg (Option.map fun q : List Char × Escape => (⟨.text fields q.1 q.2, stack⟩ : Reader)) hstep
    exact congrArg (Option.bind · _) hlast
  | control hlt => rw [← run_asciiEscape fields chars c, asciiEscape, if_pos (by omega)]
  | ascii hascii => exact run_asciiEscape fields chars c
  | plain hquote hslash hcontrol hascii =>
    rw [run_cons, step_text fun _ => hquote]
    simp [stepText, hslash, hcontrol]

theorem run_escapeText (chars cs : List Char) :
    run F ⟨.text fields chars .none, stack⟩ (escapeText ensureAscii cs) =
      some ⟨.text fields (cs.reverse ++ chars) .none, stack⟩ := by
  induction cs generalizing chars with
  | nil => rfl
  | cons c cs ih =>
    show run F _ (escapeChar ensureAscii c ++ escapeText ensureAscii cs) = _
    rw [run_append_of_run (run_escapeChar ensureAscii fields chars c), ih]
    simp

theorem run_quote_tail (s : String) :
    run F ⟨.text fields [] .none, stack⟩ (escapeText ensureAscii s.toList ++ ['"']) =
      some (closeText fields s.toList.reverse stack) := by
  rw [run_append_of_run (run_escapeText ensureAscii fields [] s.toList)]
  simp [run_cons, step]

theorem run_quote_value (s : String) :
    run F ⟨.value, stack⟩ (quote ensureAscii s) = some ⟨.closed (.str s), stack⟩ := by
  show run F ⟨.text none [] .none, stack⟩ _ = _
  rw [run_quote_tail]
  simp [closeText]

theorem run_quote_key (ensureAscii first : Bool) (fields : JsonObject) (s : String) :
    run F ⟨.key first fields, stack⟩ (quote ensureAscii s) =
      some ⟨.colon fields s, stack⟩ := by
  show run F ⟨.text (some fields) [] .none, stack⟩ _ = _
  rw [run_quote_tail]
  simp [closeText]

/-! ### Reading Documents Back -/

/-- A value has been read: it is closed, or it is a number that the next character ends. -/
def Settled (F : FloatText) (r : Reader) (v : Json) (stack : List Frame) : Prop :=
  r = ⟨.closed v, stack⟩ ∨
    ∃ token, r = ⟨.number token, stack⟩ ∧ numberOf F token.reverse = some v

theorem Settled.step {v : Json} {c : Char} (h : Settled F r v stack)
    (hnumber : isNumberChar c = false) (hword : c ≠ 'I') :
    step F r c = afterValue v stack c := by
  rcases h with rfl | ⟨token, rfl, hv⟩
  · rfl
  · simp [JsonText.step, hnumber, hword, hv]

theorem Settled.finish {v : Json} (h : Settled F r v []) : finish F r = some v := by
  rcases h with rfl | ⟨token, rfl, hv⟩
  · rfl
  · exact hv

theorem settled_of_finish {v : Json} (h : finish F r = some v) : Settled F r v [] := by
  obtain ⟨mode, stack⟩ := r
  cases stack with
  | cons _ _ => exact nomatch h
  | nil =>
    cases mode with
    | closed w =>
      cases h
      exact .inl rfl
    | number token => exact .inr ⟨token, rfl, h⟩
    | _ => exact nomatch h

/-- A document ends at a line feed as it does at the end of the text. -/
theorem loads_newline {text : List Char} {v : Json} (h : loads F text = some v) :
    loads F (text ++ ['\n']) = some v := by
  obtain ⟨r, hr, hfinish⟩ := Option.bind_eq_some_iff.mp h
  have hstep := (settled_of_finish hfinish).step (c := '\n') rfl (by decide)
  rw [loads, run_append_of_run hr, run_cons, hstep]
  rfl

theorem step_item {c : Char} (hspace : isJsonSpace c = false) (hend : c ≠ ']') :
    step F ⟨.item, stack⟩ c = step F ⟨.value, stack⟩ c := by
  simp [step, hspace, hend]

theorem head_floatToken {token : List Char} (h : isFloatToken token) :
    ∃ c cs, token = c :: cs ∧ (c = '-' ∨ c.isDigit) := by
  obtain ⟨-, ⟨d, ds, hcons, hd⟩, -⟩ := isFloatToken_parts h
  cases token with
  | nil => exact absurd hcons (by simp [unsigned])
  | cons c cs =>
    by_cases hsign : c = '-'
    · exact ⟨c, cs, rfl, .inl hsign⟩
    · simp only [unsigned, if_neg hsign] at hcons
      obtain ⟨rfl, rfl⟩ := List.cons.inj hcons
      exact ⟨c, cs, rfl, .inr hd⟩

theorem head_intText (n : Int) : ∃ c cs, intText n = c :: cs ∧ (c = '-' ∨ c.isDigit) := by
  unfold intText
  split
  · exact ⟨'-', _, rfl, .inl rfl⟩
  · cases h : Nat.toDigits 10 n.natAbs with
    | nil => exact absurd h Nat.toDigits_ne_nil
    | cons c cs =>
      have hc : c ∈ Nat.toDigits 10 n.natAbs := by rw [h]; exact mem_cons_self
      exact ⟨c, cs, rfl, .inr (Nat.isDigit_of_mem_toDigits (by decide) (by decide) hc)⟩

theorem head_number_ok {c : Char} (h : c = '-' ∨ c.isDigit) :
    isJsonSpace c = false ∧ c ≠ ']' := by
  rcases h with rfl | h
  · decide
  · exact ⟨not_isJsonSpace_of_isDigit h, ne_of_isDigit h rfl⟩

theorem head_dumps (ensureAscii : Bool) (v : Json) :
    ∃ c cs, dumps F ensureAscii v = c :: cs ∧ isJsonSpace c = false ∧ c ≠ ']' := by
  cases v with
  | null => exact ⟨_, _, rfl, rfl, by decide⟩
  | bool b => cases b <;> exact ⟨_, _, rfl, rfl, by decide⟩
  | int n =>
    obtain ⟨c, cs, hcs, hc⟩ := head_intText n
    exact ⟨c, cs, hcs, head_number_ok hc⟩
  | float x =>
    cases x with
    | nan | posInf | negInf => exact ⟨_, _, rfl, rfl, by decide⟩
    | finite q =>
      obtain ⟨c, cs, hcs, hc⟩ := head_floatToken (F.repr_token (.finite q) rfl)
      exact ⟨c, cs, hcs, head_number_ok hc⟩
    | negZero =>
      obtain ⟨c, cs, hcs, hc⟩ := head_floatToken (F.repr_token .negZero rfl)
      exact ⟨c, cs, hcs, head_number_ok hc⟩
  | str s => exact ⟨_, _, rfl, rfl, by decide⟩
  | arr items => cases items <;> exact ⟨_, _, rfl, rfl, by decide⟩
  | obj fields => cases fields <;> exact ⟨_, _, rfl, rfl, by decide⟩

theorem run_item {ensureAscii : Bool} (v : Json) :
    run F ⟨.item, stack⟩ (dumps F ensureAscii v) = run F ⟨.value, stack⟩ (dumps F ensureAscii v) := by
  obtain ⟨c, cs, hcs, hspace, hend⟩ := head_dumps (F := F) ensureAscii v
  rw [hcs, run_cons, run_cons, step_item hspace hend]

theorem run_float (x : JsonFloat) :
    ∃ r, run F ⟨.value, stack⟩ (dumps F ensureAscii (.float x)) = some r ∧
      Settled F r (.float x) stack := by
  have hfinite : ∀ y : JsonFloat, y.toRat?.isSome →
      ∃ r, run F ⟨.value, stack⟩ (F.repr y) = some r ∧ Settled F r (.float y) stack := by
    intro y hy
    refine ⟨_, run_floatToken (F.repr_token y hy), .inr ⟨_, rfl, ?_⟩⟩
    rw [reverse_reverse, numberOf_repr hy]
  cases x with
  | nan | posInf | negInf => exact ⟨_, rfl, .inl rfl⟩
  | finite q => exact hfinite (.finite q) rfl
  | negZero => exact hfinite .negZero rfl

theorem set_of_not_mem {fields : JsonObject} {key : String} (h : key ∉ fields.map (·.1))
    (v : Json) : fields.set key v = fields ++ [(key, v)] := by
  induction fields with
  | nil => rfl
  | cons p rest ih =>
    obtain ⟨k, w⟩ := p
    simp only [map_cons, mem_cons, not_or] at h
    have hk : k ≠ key := fun he => h.1 he.symm
    simp [JsonObject.set, hk, ih h.2]

theorem nodup_keys_middle {acc rest : JsonObject} {key : String} {v : Json}
    (h : ((acc ++ (key, v) :: rest).map (·.1)).Nodup) : key ∉ acc.map (·.1) := by
  rw [map_append, map_cons] at h
  intro hmem
  exact (nodup_append.mp h).2.2 key hmem key mem_cons_self rfl

mutual

theorem run_dumps (ensureAscii : Bool) (v : Json) (hv : keysUnique v) (stack : List Frame) :
    ∃ r, run F ⟨.value, stack⟩ (dumps F ensureAscii v) = some r ∧ Settled F r v stack := by
  match v, hv with
  | .null, _ => exact ⟨_, rfl, .inl rfl⟩
  | .bool true, _ => exact ⟨_, rfl, .inl rfl⟩
  | .bool false, _ => exact ⟨_, rfl, .inl rfl⟩
  | .int n, _ =>
    refine ⟨_, run_intText n, .inr ⟨_, rfl, ?_⟩⟩
    rw [reverse_reverse, numberOf_intText]
  | .float x, _ => exact run_float ensureAscii x
  | .str s, _ => exact ⟨_, run_quote_value ensureAscii s, .inl rfl⟩
  | .arr [], _ => exact ⟨_, rfl, .inl rfl⟩
  | .arr (w :: rest), hv =>
    simp only [keysUnique, keysUniqueItems, Bool.and_eq_true] at hv
    obtain ⟨r, hr, hset⟩ := run_dumps ensureAscii w hv.1 (.arr [] :: stack)
    refine ⟨_, ?_, .inl rfl⟩
    show run F ⟨.item, .arr [] :: stack⟩ (dumps F ensureAscii w ++ _) = _
    rw [run_append, run_item, hr]
    exact run_dumpsItems ensureAscii rest hv.2 hset
  | .obj [], _ => exact ⟨_, rfl, .inl rfl⟩
  | .obj ((key, w) :: rest), hv =>
    simp only [keysUnique, keysUniqueFields, keysUniqueField, Bool.and_eq_true,
      decide_eq_true_eq] at hv
    obtain ⟨hnodup, hw, hrest⟩ := hv
    obtain ⟨r, hr, hset⟩ := run_dumps ensureAscii w hw (.obj [] key :: stack)
    refine ⟨_, ?_, .inl rfl⟩
    show run F ⟨.key true [], stack⟩ ((quote ensureAscii key ++ ':' :: dumps F ensureAscii w) ++ _) = _
    rw [append_assoc, run_append_of_run (run_quote_key ensureAscii true [] key)]
    show run F ⟨.value, .obj [] key :: stack⟩ (dumps F ensureAscii w ++ _) = _
    rw [run_append_of_run hr]
    exact run_dumpsFields ensureAscii rest hrest hset hnodup
termination_by sizeOf v

theorem run_dumpsItems (ensureAscii : Bool) (rest : List Json) (hrest : keysUniqueItems rest)
    {r : Reader} {v : Json} {items : List Json} {stack : List Frame}
    (hset : Settled F r v (.arr items :: stack)) :
    run F r (dumpsItems F ensureAscii rest ++ [']']) =
      some ⟨.closed (.arr (items ++ v :: rest)), stack⟩ := by
  match rest, hrest with
  | [], _ =>
    show run F r [']'] = _
    rw [run_cons, hset.step rfl (by decide)]
    rfl
  | w :: rest, hrest =>
    simp only [keysUniqueItems, Bool.and_eq_true] at hrest
    obtain ⟨r', hr', hset'⟩ := run_dumps ensureAscii w hrest.1 (.arr (items ++ [v]) :: stack)
    have hcomma : step F r ',' = some ⟨.value, .arr (items ++ [v]) :: stack⟩ := by
      rw [hset.step rfl (by decide)]
      rfl
    show run F r (',' :: ((dumps F ensureAscii w ++ dumpsItems F ensureAscii rest) ++ [']'])) = _
    rw [run_cons_of_step hcomma, append_assoc, run_append_of_run hr',
      run_dumpsItems ensureAscii rest hrest.2 hset']
    simp
termination_by sizeOf rest

theorem run_dumpsFields (ensureAscii : Bool) (rest : JsonObject) (hrest : keysUniqueFields rest)
    {r : Reader} {v : Json} {acc : JsonObject} {key : String} {stack : List Frame}
    (hset : Settled F r v (.obj acc key :: stack))
    (hnodup : ((acc ++ (key, v) :: rest).map (·.1)).Nodup) :
    run F r (dumpsFields F ensureAscii rest ++ ['\x7d']) =
      some ⟨.closed (.obj (acc ++ (key, v) :: rest)), stack⟩ := by
  have hkey : acc.set key v = acc ++ [(key, v)] := set_of_not_mem (nodup_keys_middle hnodup) v
  match rest, hrest with
  | [], _ =>
    show run F r ['\x7d'] = _
    rw [run_cons, hset.step rfl (by decide)]
    show some (⟨.closed (.obj (acc.set key v)), stack⟩ : Reader) = _
    rw [hkey]
  | (key', w) :: rest, hrest =>
    simp only [keysUniqueFields, keysUniqueField, Bool.and_eq_true] at hrest
    obtain ⟨r', hr', hset'⟩ :=
      run_dumps ensureAscii w hrest.1 (.obj (acc ++ [(key, v)]) key' :: stack)
    have hcomma : step F r ',' = some ⟨.key false (acc ++ [(key, v)]), stack⟩ := by
      rw [hset.step rfl (by decide), ← hkey]
      rfl
    have hnodup' : (((acc ++ [(key, v)]) ++ (key', w) :: rest).map (·.1)).Nodup := by
      rw [append_assoc]
      exact hnodup
    show run F r (',' :: (((quote ensureAscii key' ++ ':' :: dumps F ensureAscii w) ++
      dumpsFields F ensureAscii rest) ++ ['\x7d'])) = _
    rw [run_cons_of_step hcomma, append_assoc, append_assoc,
      run_append_of_run (run_quote_key ensureAscii false _ key')]
    show run F ⟨.value, .obj (acc ++ [(key, v)]) key' :: stack⟩ (dumps F ensureAscii w ++ _) = _
    rw [run_append_of_run hr', run_dumpsFields ensureAscii rest hrest.2 hset' hnodup']
    simp
termination_by sizeOf rest

end

theorem loads_dumps {v : Json} (hv : keysUnique v) : loads F (dumps F ensureAscii v) = some v := by
  obtain ⟨r, hr, hset⟩ := run_dumps (F := F) ensureAscii v hv []
  show (run F ⟨.value, []⟩ _).bind _ = _
  rw [hr]
  exact hset.finish

theorem loads_two_dicts {v : Json} (hv : keysUnique v) (fields : JsonObject) (rest : List Char) :
    loads F (dumps F ensureAscii v ++ (dumps F ensureAscii (.obj fields) ++ rest)) = none := by
  obtain ⟨r, hr, hset⟩ := run_dumps (F := F) ensureAscii v hv []
  have hbrace : ∃ cs, dumps F ensureAscii (.obj fields) = '\x7b' :: cs := by
    cases fields with
    | nil => exact ⟨_, rfl⟩
    | cons p more => exact ⟨_, rfl⟩
  obtain ⟨cs, hcs⟩ := hbrace
  show (run F ⟨.value, []⟩ _).bind _ = none
  rw [run_append_of_run hr, hcs, cons_append, run_cons, hset.step rfl (by decide)]
  rfl

/-! ### Cut Documents -/

/-- The mode belongs to a dict whose items the mode itself holds. -/
def Mode.inDict : Mode → Bool
  | .key _ _ => true
  | .colon _ _ => true
  | .text fields _ _ => fields.isSome
  | _ => false

def Reader.Open (r : Reader) : Prop := r.stack ≠ [] ∨ r.mode.inDict

def Reader.Complete (r : Reader) : Prop := ∃ v, r = ⟨.closed v, []⟩

theorem beginValue_stack {c : Char} {r' : Reader} (h : beginValue stack c = some r')
    (hstack : stack ≠ []) : r'.stack ≠ [] := by
  have hsome : ∀ {p : Prop} [Decidable p] {a r : Reader} {rest : Option Reader}, a.stack ≠ [] →
      (rest = some r → r.stack ≠ []) → (if p then some a else rest) = some r → r.stack ≠ [] := by
    intro p _ a r rest ha hrest h
    obtain ⟨_, h⟩ | ⟨_, h⟩ := ite_eq_iff.mp h
    · cases h
      exact ha
    · exact hrest h
  revert h
  unfold beginValue
  -- a list is opened on top of the others; everything else leaves the stack
  refine hsome hstack (hsome hstack (hsome (cons_ne_nil _ _) (hsome hstack ?_)))
  refine hsome hstack (hsome hstack (hsome hstack (hsome hstack (hsome hstack ?_))))
  exact nofun

theorem afterValue_open {v : Json} {c : Char} {r' : Reader}
    (h : afterValue v stack c = some r') (hstack : stack ≠ []) : r'.Open ∨ r'.Complete := by
  unfold afterValue at h
  split at h
  · cases h
    exact .inl (.inl hstack)
  · cases stack with
    | nil => exact nomatch h
    | cons frame outer =>
      have hclosed : ∀ w, (⟨.closed w, outer⟩ : Reader).Open ∨
          (⟨.closed w, outer⟩ : Reader).Complete := by
        intro w
        cases outer with
        | nil => exact .inr ⟨w, rfl⟩
        | cons frame' outer => exact .inl (.inl (cons_ne_nil _ _))
      cases frame with
      | arr items =>
        simp only at h
        split at h
        · cases h
          exact .inl (.inl (cons_ne_nil _ _))
        split at h
        · cases h
          exact hclosed _
        · exact nomatch h
      | obj fields key =>
        simp only at h
        split at h
        · cases h
          exact .inl (.inr rfl)
        split at h
        · cases h
          exact hclosed _
        · exact nomatch h

theorem closed_open_or_complete (v : Json) (stack : List Frame) :
    (⟨.closed v, stack⟩ : Reader).Open ∨ (⟨.closed v, stack⟩ : Reader).Complete := by
  cases stack with
  | nil => exact .inr ⟨v, rfl⟩
  | cons frame stack => exact .inl (.inl (cons_ne_nil _ _))

theorem closeText_open {fields : Option JsonObject} {chars : List Char}
    (h : stack ≠ [] ∨ fields.isSome) : (closeText fields chars stack).Open := by
  cases fields with
  | some fields => exact .inr rfl
  | none =>
    rcases h with h | h
    · exact .inl h
    · exact nomatch h

/-- Inside a list or dict, one character leaves something open or ends the document. -/
theorem step_open {c : Char} {r' : Reader} (hopen : r.Open) (h : step F r c = some r') :
    r'.Open ∨ r'.Complete := by
  obtain ⟨mode, stack⟩ := r
  cases mode with
  | value =>
    have hstack : stack ≠ [] := hopen.resolve_right nofun
    simp only [step] at h
    split at h
    · cases h
      exact .inl hopen
    · exact .inl (.inl (beginValue_stack h hstack))
  | item =>
    have hstack : stack ≠ [] := hopen.resolve_right nofun
    simp only [step] at h
    split at h
    · cases h
      exact .inl hopen
    split at h
    · split at h
      · cases h
        exact closed_open_or_complete _ _
      · exact nomatch h
    · exact .inl (.inl (beginValue_stack h hstack))
  | key first fields =>
    simp only [step] at h
    split at h
    · cases h
      exact .inl hopen
    split at h
    · cases h
      exact .inl (.inr rfl)
    split at h
    · cases h
      exact closed_open_or_complete _ _
    · exact nomatch h
  | colon fields key =>
    simp only [step] at h
    split at h
    · cases h
      exact .inl hopen
    split at h
    · cases h
      exact .inl (.inl (cons_ne_nil _ _))
    · exact nomatch h
  | text fields chars escape =>
    have hopen' : stack ≠ [] ∨ fields.isSome := hopen
    by_cases hquote : escape = .none ∧ c = '"'
    · obtain ⟨rfl, rfl⟩ := hquote
      cases h
      exact .inl (closeText_open hopen')
    · rw [step_text fun he hc => hquote ⟨he, hc⟩] at h
      obtain ⟨q, -, rfl⟩ := Option.map_eq_some_iff.mp h
      exact .inl hopen'
  | number token =>
    have hstack : stack ≠ [] := hopen.resolve_right nofun
    simp only [step] at h
    split at h
    · cases h
      exact .inl (.inl hstack)
    split at h
    · cases h
      exact .inl (.inl hstack)
    · obtain ⟨v, -, hv⟩ := Option.bind_eq_some_iff.mp h
      exact afterValue_open hv hstack
  | word rest v =>
    have hstack : stack ≠ [] := hopen.resolve_right nofun
    simp only [step] at h
    split at h
    · exact nomatch h
    split at h
    · cases h
      exact .inl (.inl hstack)
    · exact nomatch h
  | closed v => exact afterValue_open h (hopen.resolve_right nofun)

theorem run_complete {v : Json} {text : List Char} {r' : Reader}
    (h : run F ⟨.closed v, []⟩ text = some r') :
    r' = ⟨.closed v, []⟩ ∧ ∀ c ∈ text, isJsonSpace c := by
  induction text with
  | nil => exact ⟨(Option.some.inj h).symm, nofun⟩
  | cons c text ih =>
    rw [run_cons] at h
    by_cases hc : isJsonSpace c
    · have hstep : step F ⟨.closed v, []⟩ c = some ⟨.closed v, []⟩ := by
        simp [step, afterValue, hc]
      rw [hstep] at h
      obtain ⟨hr, htext⟩ := ih h
      exact ⟨hr, forall_mem_cons.mpr ⟨hc, htext⟩⟩
    · have hstep : step F ⟨.closed v, []⟩ c = none := by
        simp [step, afterValue, hc]
      rw [hstep] at h
      exact nomatch h

theorem run_open {text : List Char} {r' : Reader} (hopen : r.Open)
    (h : run F r text = some r') : r'.Open ∨ r'.Complete := by
  induction text generalizing r with
  | nil =>
    cases h
    exact .inl hopen
  | cons c text ih =>
    rw [run_cons] at h
    obtain ⟨r₁, hr₁, hrest⟩ := Option.bind_eq_some_iff.mp h
    rcases step_open hopen hr₁ with hopen₁ | ⟨v, rfl⟩
    · exact ih hopen₁ hrest
    · exact .inr ⟨v, (run_complete hrest).1⟩

theorem dumps_obj_ends (fields : JsonObject) :
    ∃ body, dumps F ensureAscii (.obj fields) = '\x7b' :: (body ++ ['\x7d']) := by
  cases fields with
  | nil => exact ⟨[], rfl⟩
  | cons p rest =>
    refine ⟨dumpsField F ensureAscii p ++ dumpsFields F ensureAscii rest, ?_⟩
    show '\x7b' :: (dumpsField F ensureAscii p ++ (dumpsFields F ensureAscii rest ++ ['\x7d'])) = _
    rw [append_assoc]

theorem loads_cut {fields : JsonObject} (hv : keysUnique (.obj fields)) {text rest : List Char}
    (hcut : text ++ rest = dumps F ensureAscii (.obj fields)) (hrest : rest ≠ []) :
    loads F text = none := by
  obtain ⟨r, hr, -⟩ := run_dumps (F := F) ensureAscii (.obj fields) hv []
  obtain ⟨body, hbody⟩ := dumps_obj_ends (F := F) ensureAscii fields
  rw [← hcut, run_append] at hr
  obtain ⟨r₁, hr₁, hr₂⟩ := Option.bind_eq_some_iff.mp hr
  show (run F ⟨.value, []⟩ text).bind _ = none
  rw [hr₁]
  cases text with
  | nil =>
    cases hr₁
    rfl
  | cons c text =>
    rw [hbody, cons_append] at hcut
    obtain ⟨rfl, htail⟩ := List.cons.inj hcut
    have hopen : (⟨.key true [], []⟩ : Reader).Open := .inr rfl
    rcases run_open hopen hr₁ with hopen₁ | ⟨v, rfl⟩
    · -- something is open, so the text does not end a document
      obtain ⟨mode, stack⟩ := r₁
      cases stack with
      | cons frame stack => rfl
      | nil =>
        have hdict : mode.inDict := hopen₁.resolve_left fun h => h rfl
        cases mode <;> first | rfl | exact nomatch hdict
    · -- the document would be over while its closing brace is still to come
      have hlast : '\x7d' ∈ rest := by
        have hsuffix : rest.getLast? = some '\x7d' := by
          have := congrArg List.getLast? htail
          rwa [getLast?_append_of_ne_nil _ hrest, getLast?_concat] at this
        exact mem_of_getLast? hsuffix
      have hspace := (run_complete hr₂).2 _ hlast
      exact nomatch hspace

end Running

/-! ### Sorted Documents -/

theorem insertField_perm (p : String × Json) (fields : JsonObject) :
    (insertField p fields).Perm (p :: fields) := by
  induction fields with
  | nil => exact .refl _
  | cons q rest ih =>
    unfold insertField
    split
    · exact .refl _
    · exact (ih.cons q).trans (.swap p q rest)

theorem sortFields_perm (fields : JsonObject) :
    (sortFields fields).Perm (fields.map sortField) := by
  induction fields with
  | nil => exact .refl _
  | cons p rest ih => exact (insertField_perm _ _).trans (ih.cons _)

theorem sortField_fst (p : String × Json) : (sortField p).1 = p.1 := by
  obtain ⟨key, v⟩ := p
  rfl

theorem keys_sortFields_perm (fields : JsonObject) :
    ((sortFields fields).map (·.1)).Perm (fields.map (·.1)) := by
  have h := (sortFields_perm fields).map (·.1)
  rw [map_map] at h
  have hkeys : ((·.1) ∘ sortField : String × Json → String) = (·.1) := funext sortField_fst
  rwa [hkeys] at h

mutual

theorem keysUnique_sortKeys (v : Json) (h : keysUnique v) : keysUnique (sortKeys v) := by
  cases v with
  | arr items =>
    simp only [sortKeys, keysUnique] at h ⊢
    exact keysUniqueItems_sortItems items h
  | obj fields =>
    rw [keysUnique_obj_iff] at h
    simp only [sortKeys]
    rw [keysUnique_obj_iff]
    refine ⟨(keys_sortFields_perm fields).nodup_iff.mpr h.1, fun p hp => ?_⟩
    exact keysUnique_sortField fields h.2 p ((sortFields_perm fields).mem_iff.mp hp)
  | null => exact h
  | bool b => exact h
  | int n => exact h
  | float x => exact h
  | str s => exact h
termination_by structural v

theorem keysUniqueItems_sortItems (items : List Json) (h : keysUniqueItems items) :
    keysUniqueItems (sortItems items) := by
  cases items with
  | nil => rfl
  | cons v rest =>
    simp only [keysUniqueItems, sortItems, Bool.and_eq_true] at h ⊢
    exact ⟨keysUnique_sortKeys v h.1, keysUniqueItems_sortItems rest h.2⟩
termination_by structural items

theorem keysUnique_sortField (fields : JsonObject) (h : ∀ p ∈ fields, keysUnique p.2) :
    ∀ p ∈ fields.map sortField, keysUnique p.2 := by
  cases fields with
  | nil => exact nofun
  | cons q rest =>
    intro p hp
    rcases mem_cons.mp hp with rfl | hp
    · exact keysUnique_sortPair q (h q mem_cons_self)
    · exact keysUnique_sortField rest (fun p hp => h p (mem_cons_of_mem q hp)) p hp
termination_by structural fields

theorem keysUnique_sortPair (p : String × Json) (h : keysUnique p.2) :
    keysUnique (sortField p).2 := by
  obtain ⟨key, v⟩ := p
  exact keysUnique_sortKeys v h
termination_by structural p

end

theorem get_sortFields {fields : JsonObject} (h : (fields.map (·.1)).Nodup) (key : String) :
    JsonObject.get (sortFields fields) key = sortKeys (fields.get key) := by
  have hnodup := (keys_sortFields_perm fields).nodup_iff.mpr h
  unfold JsonObject.get
  cases hv : fields.lookup key with
  | some v =>
    have hmem := (OrderedDict.lookup_eq_some_iff h).mp hv
    have hsorted : (key, sortKeys v) ∈ sortFields fields :=
      (sortFields_perm fields).mem_iff.mpr (mem_map_of_mem hmem)
    rw [(OrderedDict.lookup_eq_some_iff hnodup).mpr hsorted]
    rfl
  | none =>
    have hnone : (sortFields fields).lookup key = none := by
      cases hw : (sortFields fields).lookup key with
      | none => rfl
      | some w =>
        have hmem := (sortFields_perm fields).mem_iff.mp ((OrderedDict.lookup_eq_some_iff hnodup).mp hw)
        obtain ⟨⟨k, v⟩, hkv, heq⟩ := mem_map.mp hmem
        obtain rfl : k = key := congrArg Prod.fst heq
        rw [(OrderedDict.lookup_eq_some_iff h).mpr hkv] at hv
        cases hv
    rw [hnone]
    rfl

/-! ### One Spelling of Floats -/

/-- Digits, an `e` and digits. -/
def digitsE (a b : Nat) : List Char := Nat.toDigits 10 a ++ 'e' :: Nat.toDigits 10 b

theorem takeWhile_digitsE (a b : Nat) :
    (digitsE a b).takeWhile Char.isDigit = Nat.toDigits 10 a ∧
      (digitsE a b).dropWhile Char.isDigit = 'e' :: Nat.toDigits 10 b := by
  have hdigits : ∀ c ∈ Nat.toDigits 10 a, c.isDigit :=
    fun c hc => Nat.isDigit_of_mem_toDigits (by decide) (by decide) hc
  unfold digitsE
  rw [takeWhile_append_of_pos hdigits, dropWhile_append_of_pos hdigits]
  simp

theorem unsigned_digitsE (a b : Nat) : unsigned (digitsE a b) = digitsE a b := by
  have hdigits : ∀ c ∈ Nat.toDigits 10 a, c.isDigit :=
    fun c hc => Nat.isDigit_of_mem_toDigits (by decide) (by decide) hc
  unfold digitsE
  cases h : Nat.toDigits 10 a with
  | nil => exact absurd h Nat.toDigits_ne_nil
  | cons c cs =>
    rw [h] at hdigits
    have hc : c ≠ '-' := ne_of_isDigit (hdigits c mem_cons_self) rfl
    simp [unsigned, hc]

theorem isFloatToken_digitsE {a b : Nat} {token : List Char}
    (h : unsigned token = digitsE a b) : isFloatToken token := by
  have hdigits : ∀ c ∈ Nat.toDigits 10 b, c.isDigit :=
    fun c hc => Nat.isDigit_of_mem_toDigits (by decide) (by decide) hc
  unfold isFloatToken
  rw [h, (takeWhile_digitsE a b).1, (takeWhile_digitsE a b).2, isNatToken_toDigits]
  show isExponent ('e' :: Nat.toDigits 10 b)
  cases hb : Nat.toDigits 10 b with
  | nil => exact absurd hb Nat.toDigits_ne_nil
  | cons c cs =>
    rw [hb] at hdigits
    have hc := hdigits c mem_cons_self
    have hplus : c ≠ '+' := ne_of_isDigit hc rfl
    have hminus : c ≠ '-' := ne_of_isDigit hc rfl
    simp only [isExponent, hplus, hminus, or_self, if_false, isEmpty_cons, Bool.and_eq_true,
      all_eq_true]
    exact ⟨rfl, rfl, hdigits⟩

def readDigitsE (token : List Char) : Nat × Nat :=
  (Nat.ofDigitChars 10 ((unsigned token).takeWhile Char.isDigit) 0,
   Nat.ofDigitChars 10 (((unsigned token).dropWhile Char.isDigit).drop 1) 0)

theorem readDigitsE_eq {a b : Nat} {token : List Char} (h : unsigned token = digitsE a b) :
    readDigitsE token = (a, b) := by
  unfold readDigitsE
  rw [h, (takeWhile_digitsE a b).1, (takeWhile_digitsE a b).2]
  simp [Nat.ofDigitChars_ten_toDigits]

/-- Numerator, `e`, denominator; the negative zero has no denominator. -/
def fractionText : JsonFloat → List Char
  | .finite q =>
    if q.num < 0 then '-' :: digitsE q.num.natAbs q.den else digitsE q.num.natAbs q.den
  | _ => '-' :: digitsE 0 0

def readFraction (token : List Char) : JsonFloat :=
  if (readDigitsE token).2 = 0 then .negZero
  else
    .finite (mkRat (if token.head? = some '-' then -((readDigitsE token).1 : Int)
      else (readDigitsE token).1) (readDigitsE token).2)

theorem isFloatToken_fractionText (x : JsonFloat) : isFloatToken (fractionText x) := by
  cases x with
  | finite q =>
    unfold fractionText
    by_cases hneg : q.num < 0
    · simp only [if_pos hneg]
      exact isFloatToken_digitsE (a := q.num.natAbs) (b := q.den) rfl
    · simp only [if_neg hneg]
      exact isFloatToken_digitsE (unsigned_digitsE _ _)
  | negZero => rfl
  | posInf => rfl
  | negInf => rfl
  | nan => rfl

theorem head_digitsE (a b : Nat) : (digitsE a b).head? ≠ some '-' := by
  intro h0
  have hunsigned := unsigned_digitsE a b
  cases hcs : digitsE a b with
  | nil => rw [hcs] at h0; exact nomatch h0
  | cons c cs =>
    rw [hcs] at h0 hunsigned
    cases h0
    have hlen := congrArg List.length hunsigned
    simp [unsigned] at hlen

theorem readFraction_finite (q : Rat) :
    readFraction (fractionText (.finite q)) = .finite q := by
  unfold fractionText
  by_cases hneg : q.num < 0
  · have hread : readDigitsE ('-' :: digitsE q.num.natAbs q.den) = (q.num.natAbs, q.den) :=
      readDigitsE_eq rfl
    have hnum : -(q.num.natAbs : Int) = q.num := by omega
    simp only [if_pos hneg, readFraction, hread, if_neg q.den_nz, head?_cons, if_true, hnum,
      Rat.mkRat_self]
  · have hread : readDigitsE (digitsE q.num.natAbs q.den) = (q.num.natAbs, q.den) :=
      readDigitsE_eq (unsigned_digitsE _ _)
    have hnum : (q.num.natAbs : Int) = q.num := by omega
    simp only [if_neg hneg, readFraction, hread, if_neg q.den_nz, if_neg (head_digitsE _ _), hnum,
      Rat.mkRat_self]

/-- A spelling of floats that satisfies the laws. It stands for Python's where a document
    holds no float. -/
def FloatText.fraction : FloatText where
  repr := fractionText
  parse := readFraction
  repr_token x _ := isFloatToken_fractionText x
  parse_repr x hx :=
    match x with
    | .finite q => readFraction_finite q
    | .negZero => rfl
    | .posInf | .negInf | .nan => nomatch hx

end Codify.Framework.JsonText

import Codify.Framework.Utf8

/-! # Decoding with Surrogate Escapes

    Python's `bytes.decode("utf-8", errors="surrogateescape")` keeps every byte that belongs
    to no character as a lone surrogate, so that encoding again gives the bytes back. Text
    mode then translates the line ends: a carriage return, alone or before a line feed,
    becomes a line feed. What the two do to the bytes is `newlineBytes`.
-/

namespace Codify.Framework

open List

/-! ### Escaped Text -/

/-- A character of such a text: a Unicode scalar, or the surrogate U+DC00 + `b` of a byte. -/
inductive EscapedChar where
  | char (c : Char)
  | byte (b : UInt8)
  deriving DecidableEq

open EscapedChar

def EscapedChar.encode : EscapedChar → List UInt8
  | .char c => String.utf8EncodeChar c
  | .byte b => [b]

/-- `text.encode("utf-8", "surrogateescape")`. -/
def encodeEscape (text : List EscapedChar) : List UInt8 := text.flatMap encode

/-- Decode after `skip` more bytes of the character before. -/
def decodeEscapeFrom : Nat → List UInt8 → List EscapedChar
  | _, [] => []
  | skip + 1, _ :: rest => decodeEscapeFrom skip rest
  | 0, b :: rest =>
    match (b :: rest).toByteArray.utf8DecodeChar? 0 with
    | some c => .char c :: decodeEscapeFrom (c.utf8Size - 1) rest
    | none => .byte b :: decodeEscapeFrom 0 rest

/-- `raw.decode("utf-8", errors="surrogateescape")`. -/
def decodeEscape (raw : List UInt8) : List EscapedChar := decodeEscapeFrom 0 raw

@[simp] theorem encodeEscape_nil : encodeEscape [] = [] := rfl

theorem encodeEscape_cons (c : EscapedChar) (text : List EscapedChar) :
    encodeEscape (c :: text) = c.encode ++ encodeEscape text := rfl

theorem decodeEscapeFrom_eq (skip : Nat) (raw : List UInt8) :
    decodeEscapeFrom skip raw = decodeEscapeFrom 0 (raw.drop skip) := by
  induction raw generalizing skip with
  | nil => simp [decodeEscapeFrom]
  | cons b rest ih =>
    cases skip with
    | zero => rfl
    | succ skip => exact ih skip

variable {raw : List UInt8} {b : UInt8}

theorem append_of_utf8DecodeChar {c : Char}
    (h : raw.toByteArray.utf8DecodeChar? 0 = some c) :
    ∃ rest, raw = String.utf8EncodeChar c ++ rest := by
  obtain ⟨rest, hrest⟩ := ByteArray.exists_of_utf8DecodeChar?_eq_some h
  refine ⟨rest.data.toList, ?_⟩
  have hdata := congrArg (fun b : ByteArray => b.data.toList) hrest
  simpa using hdata

/-- **Round trip**: no byte is lost. -/
theorem encodeEscape_decodeEscape (raw : List UInt8) : encodeEscape (decodeEscape raw) = raw := by
  induction hlength : raw.length using Nat.strong_induction_on generalizing raw with
  | _ n ih =>
    cases raw with
    | nil => rfl
    | cons b rest =>
      rw [length_cons] at hlength
      cases hchar : (b :: rest).toByteArray.utf8DecodeChar? 0 with
      | none =>
        have hstep : decodeEscape (b :: rest) = .byte b :: decodeEscape rest := by
          simp only [decodeEscape, decodeEscapeFrom, hchar]
        rw [hstep, encodeEscape_cons, ih rest.length (by omega) rest rfl]
        rfl
      | some c =>
        obtain ⟨more, hmore⟩ := append_of_utf8DecodeChar hchar
        have hsize : (String.utf8EncodeChar c).length = c.utf8Size := String.length_utf8EncodeChar c
        have hpos := c.utf8Size_pos
        have hdrop : rest.drop (c.utf8Size - 1) = more := by
          have h := congrArg (List.drop c.utf8Size) hmore
          rw [← hsize, drop_left, hsize] at h
          obtain ⟨m, hm⟩ : ∃ m, c.utf8Size = m + 1 := ⟨c.utf8Size - 1, by omega⟩
          rw [hm] at h ⊢
          exact h
        have hstep : decodeEscape (b :: rest) = .char c :: decodeEscape more := by
          simp only [decodeEscape, decodeEscapeFrom, hchar]
          rw [decodeEscapeFrom_eq, hdrop]
        have hless : more.length < n := by
          have h := congrArg List.length hmore
          rw [length_append, hsize, length_cons] at h
          omega
        rw [hstep, encodeEscape_cons, ih more.length hless more rfl, hmore]
        rfl

/-! ### ASCII Bytes -/

theorem not_escaped (raw : List UInt8) (hb : b = 13 ∨ b = 10) :
    .byte b ∉ decodeEscape raw := by
  have hfrom : ∀ skip, .byte b ∉ decodeEscapeFrom skip raw := by
    induction raw with
    | nil => intro skip h; cases h
    | cons a rest ih =>
      intro skip
      cases skip with
      | succ skip => exact ih skip
      | zero =>
        simp only [decodeEscapeFrom]
        cases hchar : (a :: rest).toByteArray.utf8DecodeChar? 0 with
        | some c =>
          intro h
          rcases mem_cons.mp h with h | h
          · cases h
          · exact ih _ h
        | none =>
          intro h
          rcases mem_cons.mp h with h | h
          · -- such a byte decodes as the character it is
            obtain rfl : b = a := by injection h
            have hdecodes : ∀ c : Char, String.utf8EncodeChar c = [b] → False := by
              intro c hc
              have hsome := ByteArray.utf8DecodeChar?_utf8EncodeChar_append
                (b := rest.toByteArray) (c := c)
              rw [hc] at hsome
              have hbytes : [b].toByteArray ++ rest.toByteArray = (b :: rest).toByteArray := by
                rw [← toByteArray_append]
                rfl
              rw [hbytes, hchar] at hsome
              cases hsome
            rcases hb with rfl | rfl
            · exact hdecodes '\r' (by decide)
            · exact hdecodes '\n' (by decide)
          · exact ih 0 h
  exact hfrom 0

/-! ### Line Ends -/

/-- `text.replace("\r\n", "\n").replace("\r", "\n")`; the flag says that the character before was
    a carriage return. -/
def universalNewlines : Bool → List EscapedChar → List EscapedChar
  | _, [] => []
  | afterReturn, c :: rest =>
    if c = .char '\r' then .char '\n' :: universalNewlines true rest
    else if afterReturn = true ∧ c = .char '\n' then universalNewlines false rest
    else c :: universalNewlines false rest

def newlineBytes : Bool → List UInt8 → List UInt8
  | _, [] => []
  | afterReturn, b :: rest =>
    if b = 13 then 10 :: newlineBytes true rest
    else if afterReturn = true ∧ b = 10 then newlineBytes false rest
    else b :: newlineBytes false rest

theorem newlineBytes_plain {bytes : List UInt8} (hne : bytes ≠ []) (hreturn : 13 ∉ bytes)
    (hfeed : 10 ∉ bytes) (afterReturn : Bool) (rest : List UInt8) :
    newlineBytes afterReturn (bytes ++ rest) = bytes ++ newlineBytes false rest := by
  induction bytes generalizing afterReturn with
  | nil => exact absurd rfl hne
  | cons b more ih =>
    rw [mem_cons, not_or] at hreturn hfeed
    have hreturn' := Ne.symm hreturn.1
    have hfeed' := Ne.symm hfeed.1
    rw [cons_append, newlineBytes, if_neg hreturn', if_neg (fun h => hfeed' h.2)]
    cases more with
    | nil => rfl
    | cons b' more' => rw [ih (by simp) hreturn.2 hfeed.2]; rfl

/-- A byte that is no line end separates what is before it from what is behind it. -/
theorem newlineBytes_append (hreturn : b ≠ 13) (hfeed : b ≠ 10) (afterReturn : Bool)
    (before after : List UInt8) :
    newlineBytes afterReturn (before ++ b :: after) =
      newlineBytes afterReturn before ++ b :: newlineBytes false after := by
  induction before generalizing afterReturn with
  | nil =>
    show newlineBytes afterReturn (b :: after) = b :: newlineBytes false after
    conv => lhs; rw [newlineBytes, if_neg hreturn, if_neg (fun h => hfeed h.2)]
  | cons a rest ih =>
    rw [cons_append, newlineBytes, newlineBytes, ih true, ih false]
    split
    · rfl
    · split <;> rfl

theorem return_not_mem_newlineBytes (afterReturn : Bool) (raw : List UInt8) :
    13 ∉ newlineBytes afterReturn raw := by
  induction raw generalizing afterReturn with
  | nil => simp [newlineBytes]
  | cons b rest ih =>
    rw [newlineBytes]
    split
    · simp [ih]
    · split
      · exact ih false
      · next hb _ => simp [ih, Ne.symm hb]

theorem newlineBytes_eq_self_iff :
    newlineBytes false raw = raw ↔ 13 ∉ raw := by
  constructor
  · intro h
    rw [← h]
    exact return_not_mem_newlineBytes false raw
  · intro h
    induction raw with
    | nil => rfl
    | cons b rest ih =>
      rw [mem_cons, not_or] at h
      rw [newlineBytes, if_neg (Ne.symm h.1), if_neg (by simp), ih h.2]

theorem newlineBytes_ne_nil (h : raw ≠ []) : newlineBytes false raw ≠ [] := by
  cases raw with
  | nil => exact absurd rfl h
  | cons b rest =>
    rw [newlineBytes]
    split
    · simp
    · simp

theorem newlineBytes_mem (hfeed : b ≠ 10) {afterReturn : Bool}
    (h : b ∈ newlineBytes afterReturn raw) : b ∈ raw := by
  induction raw generalizing afterReturn with
  | nil => exact h
  | cons a rest ih =>
    rw [newlineBytes] at h
    split at h
    · rcases mem_cons.mp h with h | h
      · exact absurd h hfeed
      · exact mem_cons_of_mem _ (ih h)
    · split at h
      · exact mem_cons_of_mem _ (ih h)
      · rcases mem_cons.mp h with rfl | h
        · exact mem_cons_self
        · exact mem_cons_of_mem _ (ih h)

/-- **Text mode on bytes**: what decoding, translating and encoding again leaves. -/
theorem encode_universalNewlines (raw : List UInt8) :
    encodeEscape (universalNewlines false (decodeEscape raw)) = newlineBytes false raw := by
  have htext : ∀ (text : List EscapedChar) (afterReturn : Bool),
      (∀ b, .byte b ∈ text → b ≠ 13 ∧ b ≠ 10) →
      encodeEscape (universalNewlines afterReturn text) =
        newlineBytes afterReturn (encodeEscape text) := by
    intro text
    induction text with
    | nil => intro _ _; rfl
    | cons c rest ih =>
      intro afterReturn hbytes
      have hrest : ∀ b, .byte b ∈ rest → b ≠ 13 ∧ b ≠ 10 :=
        fun b hb => hbytes b (mem_cons_of_mem _ hb)
      by_cases hr : c = .char '\r'
      · subst hr
        have hcode : encode (.char '\r') = [13] := by decide
        have hcode' : encode (.char '\n') = [10] := by decide
        rw [universalNewlines, if_pos rfl, encodeEscape_cons, encodeEscape_cons, hcode, hcode',
          singleton_append, singleton_append, newlineBytes, if_pos rfl, ih true hrest]
      · rw [universalNewlines, if_neg hr, encodeEscape_cons]
        by_cases hn : c = .char '\n'
        · subst hn
          have hcode : encode (.char '\n') = [10] := by decide
          have hreturn : ¬(10 : UInt8) = 13 := by decide
          rw [hcode, singleton_append, newlineBytes, if_neg hreturn]
          cases afterReturn with
          | true => rw [if_pos ⟨rfl, rfl⟩, if_pos ⟨rfl, rfl⟩, ih false hrest]
          | false =>
            rw [if_neg (fun h => Bool.noConfusion h.1), if_neg (fun h => Bool.noConfusion h.1),
              encodeEscape_cons, hcode, ih false hrest]
            rfl
        · rw [if_neg (fun h => hn h.2), encodeEscape_cons, ih false hrest]
          refine (newlineBytes_plain ?_ ?_ ?_ afterReturn _).symm
          · cases c with
            | char c =>
              have hpos := c.utf8Size_pos
              intro hnil
              have h := congrArg List.length hnil
              rw [encode, String.length_utf8EncodeChar, length_nil] at h
              omega
            | byte b => simp [encode]
          · cases c with
            | char c =>
              intro hmem
              have hcode := ascii_mem_utf8EncodeChar (b := 13) (by decide) hmem
              exact hr (congrArg EscapedChar.char (Char.toNat_inj.mp hcode))
            | byte b =>
              have := (hbytes b mem_cons_self).1
              simpa [encode] using Ne.symm this
          · cases c with
            | char c =>
              intro hmem
              have hcode := ascii_mem_utf8EncodeChar (b := 10) (by decide) hmem
              exact hn (congrArg EscapedChar.char (Char.toNat_inj.mp hcode))
            | byte b =>
              have := (hbytes b mem_cons_self).2
              simpa [encode] using Ne.symm this
  have hfinal := htext (decodeEscape raw) false fun b hb =>
    ⟨fun h => not_escaped raw (.inl h) hb, fun h => not_escaped raw (.inr h) hb⟩
  rw [hfinal, encodeEscape_decodeEscape]

end Codify.Framework

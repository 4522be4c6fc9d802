import Mathlib.Algebra.GroupWithZero.Nat
import Mathlib.Data.List.TakeWhile

/-! # Text as Bytes

    UTF-8 as Python's `str.encode` and `bytes.decode` have it, on top of the
    core library's encoder and decoder, and byte strings cut into lines the way
    a binary file is read: at line feeds only.
-/

namespace Codify.Framework

open List

/-! ### Encoding and Decoding -/

/-- `text.encode("utf-8")`. -/
def encodeUtf8 (text : List Char) : List UInt8 := text.flatMap String.utf8EncodeChar

/-- `raw.decode("utf-8")`; `none` is a `UnicodeDecodeError`. -/
def decodeUtf8 (raw : List UInt8) : Option (List Char) :=
  raw.toByteArray.utf8Decode?.map Array.toList

/-- `len(text.encode("utf-8"))`. -/
def byteLength (text : List Char) : Nat := (encodeUtf8 text).length

@[simp] theorem encodeUtf8_nil : encodeUtf8 [] = [] := rfl

theorem encodeUtf8_append (a b : List Char) : encodeUtf8 (a ++ b) = encodeUtf8 a ++ encodeUtf8 b := by
  simp [encodeUtf8]

theorem encodeUtf8_cons (c : Char) (text : List Char) :
    encodeUtf8 (c :: text) = String.utf8EncodeChar c ++ encodeUtf8 text := rfl

@[simp] theorem decodeUtf8_encodeUtf8 (text : List Char) :
    decodeUtf8 (encodeUtf8 text) = some text := by
  show (text.utf8Encode.utf8Decode?).map _ = _
  rw [utf8Decode?_utf8Encode]
  rfl

theorem encodeUtf8_of_decodeUtf8 {raw : List UInt8} {text : List Char}
    (h : decodeUtf8 raw = some text) : encodeUtf8 text = raw := by
  obtain ⟨chars, hchars, rfl⟩ := Option.map_eq_some_iff.mp h
  have hsome : raw.toByteArray.utf8Decode?.isSome := by rw [hchars]; rfl
  have hget : raw.toByteArray.utf8Decode?.get hsome = chars := by simp [hchars]
  have hbytes := @ByteArray.utf8Encode_get_utf8Decode? raw.toByteArray hsome
  rw [hget] at hbytes
  have hdata : (encodeUtf8 chars.toList).toByteArray = raw.toByteArray := hbytes
  simpa using congrArg (fun b : ByteArray => b.data.toList) hdata

theorem prefix_of_encodeUtf8_append {a b : List Char} {rest : List UInt8}
    (h : encodeUtf8 a ++ rest = encodeUtf8 b) : a <+: b := by
  apply isPrefix_of_utf8Encode_append_eq_utf8Encode rest.toByteArray
  have := congrArg List.toByteArray h
  simpa [encodeUtf8, List.utf8Encode] using this

@[simp] theorem byteLength_nil : byteLength [] = 0 := rfl

theorem byteLength_append (a b : List Char) : byteLength (a ++ b) = byteLength a + byteLength b := by
  simp [byteLength, encodeUtf8_append]

theorem byteLength_cons (c : Char) (text : List Char) :
    byteLength (c :: text) = c.utf8Size + byteLength text := by
  simp [byteLength, encodeUtf8_cons]

theorem byteLength_pos {text : List Char} (h : text ≠ []) : 0 < byteLength text := by
  cases text with
  | nil => exact absurd rfl h
  | cons c text =>
    rw [byteLength_cons]
    have hc := c.utf8Size_pos
    omega

theorem byteLength_flatten (lines : List (List Char)) :
    byteLength lines.flatten = (lines.map byteLength).sum := by
  induction lines with
  | nil => rfl
  | cons line lines ih =>
    rw [flatten_cons, byteLength_append, ih, map_cons, sum_cons]

/-! ### Line Feeds -/

/-- `b"\n"`. -/
def newlineByte : UInt8 := 10

theorem le_of_mem_utf8EncodeChar {c : Char} {b : UInt8} (h : b ∈ String.utf8EncodeChar c)
    (hc : c.utf8Size ≠ 1) : 128 ≤ b.toNat := by
  have hhigh : ∀ x y : UInt8, 128 ≤ y.toNat → 128 ≤ (x ||| y).toNat := by
    intro x y hy
    rw [UInt8.toNat_or]
    exact hy.trans Nat.right_le_or
  have hpos := c.utf8Size_pos
  have hle := c.utf8Size_le_four
  have hcases : c.utf8Size = 2 ∨ c.utf8Size = 3 ∨ c.utf8Size = 4 := by omega
  rcases hcases with hsize | hsize | hsize
  · rw [String.utf8EncodeChar_eq_cons_cons hsize] at h
    simp only [mem_cons, not_mem_nil, or_false] at h
    rcases h with rfl | rfl <;> exact hhigh _ _ (by decide)
  · rw [String.utf8EncodeChar_eq_cons_cons_cons hsize] at h
    simp only [mem_cons, not_mem_nil, or_false] at h
    rcases h with rfl | rfl | rfl <;> exact hhigh _ _ (by decide)
  · rw [String.utf8EncodeChar_eq_cons_cons_cons_cons hsize] at h
    simp only [mem_cons, not_mem_nil, or_false] at h
    rcases h with rfl | rfl | rfl | rfl <;> exact hhigh _ _ (by decide)

theorem ascii_mem_utf8EncodeChar {c : Char} {b : UInt8} (hb : b.toNat < 128)
    (h : b ∈ String.utf8EncodeChar c) : c.toNat = b.toNat := by
  by_cases hsize : c.utf8Size = 1
  · rw [String.utf8EncodeChar_eq_singleton hsize, mem_singleton] at h
    have hle : c.val ≤ 127 := Char.utf8Size_eq_one_iff.mp hsize
    have hnat : c.val.toNat ≤ 127 := UInt32.le_iff_toNat_le.mp hle
    rw [h, UInt32.toNat_toUInt8]
    show c.val.toNat = _
    omega
  · have := le_of_mem_utf8EncodeChar h hsize
    omega

theorem newline_mem_utf8EncodeChar {c : Char} (h : newlineByte ∈ String.utf8EncodeChar c) :
    c = '\n' :=
  Char.toNat_inj.mp (ascii_mem_utf8EncodeChar (by decide) h)

theorem newline_not_mem_encodeUtf8 {text : List Char} (h : '\n' ∉ text) :
    newlineByte ∉ encodeUtf8 text := by
  intro hmem
  obtain ⟨c, hc, hb⟩ := mem_flatMap.mp hmem
  exact h (newline_mem_utf8EncodeChar hb ▸ hc)

theorem encodeUtf8_newline : encodeUtf8 ['\n'] = [newlineByte] := by decide

/-- Put a byte in front of the first line. -/
def consByte (b : UInt8) : List (List UInt8) → List (List UInt8)
  | [] => [[b]]
  | line :: lines => (b :: line) :: lines

/-- The lines of a binary file, each with its line feed. -/
def binaryLines : List UInt8 → List (List UInt8)
  | [] => []
  | b :: bs => if b = newlineByte then [b] :: binaryLines bs else consByte b (binaryLines bs)

theorem binaryLines_line {line : List UInt8} (h : newlineByte ∉ line) (rest : List UInt8) :
    binaryLines (line ++ newlineByte :: rest) = (line ++ [newlineByte]) :: binaryLines rest := by
  induction line with
  | nil => simp [binaryLines]
  | cons b line ih =>
    simp only [mem_cons, not_or] at h
    rw [cons_append, binaryLines, if_neg fun hb => h.1 hb.symm, ih h.2]
    rfl

theorem binaryLines_tail {line : List UInt8} (h : newlineByte ∉ line) (hne : line ≠ []) :
    binaryLines line = [line] := by
  induction line with
  | nil => exact absurd rfl hne
  | cons b line ih =>
    simp only [mem_cons, not_or] at h
    rw [binaryLines, if_neg fun hb => h.1 hb.symm]
    cases line with
    | nil => rfl
    | cons d line =>
      rw [ih h.2 (cons_ne_nil _ _)]
      rfl

end Codify.Framework

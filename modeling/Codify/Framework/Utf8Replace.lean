import Codify.Framework.Utf8

/-! # Decoding with Replacement

    Python's `bytes.decode("utf-8", errors="replace")`: what is no character
    becomes U+FFFD, one for each maximal part of a character and one for each
    other byte. The decoder is a machine that reads one byte at a time.

    For a piece of a valid encoding the result is known exactly. A piece starts
    with the rest of a character that was cut (each of its bytes is replaced),
    goes on with whole characters, and ends with the start of a character that
    is cut (one replacement).
-/

namespace Codify.Framework

open List

/-! ### The Machine -/

def replacementChar : Char := Char.ofNat 0xFFFD

/-- Between two bytes: between characters, or inside one, with the range of the next byte, the
    continuation bytes after it and the bits read so far. -/
inductive Utf8State where
  | start
  | inside (low high more bits : Nat)
  deriving DecidableEq, Repr

/-- The first byte of a character, or a byte that starts none. -/
def firstByte (b : Nat) : List Char × Utf8State :=
  if b ≤ 0x7F then ([Char.ofNat b], .start)
  else if 0xC2 ≤ b ∧ b ≤ 0xDF then ([], .inside 0x80 0xBF 0 (b - 0xC0))
  else if b = 0xE0 then ([], .inside 0xA0 0xBF 1 0)
  else if b = 0xED then ([], .inside 0x80 0x9F 1 0xD)
  else if 0xE1 ≤ b ∧ b ≤ 0xEF then ([], .inside 0x80 0xBF 1 (b - 0xE0))
  else if b = 0xF0 then ([], .inside 0x90 0xBF 2 0)
  else if 0xF1 ≤ b ∧ b ≤ 0xF3 then ([], .inside 0x80 0xBF 2 (b - 0xF0))
  else if b = 0xF4 then ([], .inside 0x80 0x8F 2 4)
  else ([replacementChar], .start)

/-- One byte: the characters that it completes and the state after it. -/
def feedByte : Utf8State → Nat → List Char × Utf8State
  | .start, b => firstByte b
  | .inside low high more bits, b =>
    if low ≤ b ∧ b ≤ high then
      match more with
      | 0 => ([Char.ofNat (bits * 64 + (b - 0x80))], .start)
      | more + 1 => ([], .inside 0x80 0xBF more (bits * 64 + (b - 0x80)))
    else (replacementChar :: (firstByte b).1, (firstByte b).2)

/-- The characters of the bytes that are left; a character that is cut at the end is replaced. -/
def decodeFrom : Utf8State → List UInt8 → List Char
  | .start, [] => []
  | .inside _ _ _ _, [] => [replacementChar]
  | st, b :: bs => (feedByte st b.toNat).1 ++ decodeFrom (feedByte st b.toNat).2 bs

/-- `raw.decode("utf-8", errors="replace")`. -/
def decodeReplace (raw : List UInt8) : List Char := decodeFrom .start raw

@[simp] theorem decodeReplace_nil : decodeReplace [] = [] := rfl

theorem decodeFrom_cons (st : Utf8State) (b : UInt8) (bs : List UInt8) :
    decodeFrom st (b :: bs) =
      (feedByte st b.toNat).1 ++ decodeFrom (feedByte st b.toNat).2 bs := by
  cases st <;> rfl

theorem decodeFrom_inside_ne_nil (low high more bits : Nat) (bs : List UInt8) :
    decodeFrom (.inside low high more bits) bs ≠ [] := by
  induction bs generalizing low high more bits with
  | nil => simp [decodeFrom]
  | cons b bs ih =>
    rw [decodeFrom_cons]
    dsimp only [feedByte]
    split
    · split
      · simp
      · simpa using ih _ _ _ _
    · simp

theorem decodeReplace_ne_nil {raw : List UInt8} (h : raw ≠ []) : decodeReplace raw ≠ [] := by
  cases raw with
  | nil => exact absurd rfl h
  | cons b bs =>
    rw [decodeReplace, decodeFrom_cons]
    show (firstByte b.toNat).1 ++ decodeFrom (firstByte b.toNat).2 bs ≠ []
    -- the byte is a character, no character, or the first byte of one
    unfold firstByte
    split_ifs <;> simp [decodeFrom_inside_ne_nil]

/-! ### The Bytes of a Character -/

section Bytes

attribute [local simp] UInt32.toNat_toUInt8 UInt8.toNat_and UInt8.toNat_or

variable (v : UInt32)

theorem toNat_marked (mask lead : UInt8) (k : Nat) (hk : k ≤ 8) (hmask : mask.toNat = 2 ^ k - 1)
    (hor : ∀ n < 2 ^ k, n ||| lead.toNat = lead.toNat + n) :
    (v.toUInt8 &&& mask ||| lead).toNat = lead.toNat + v.toNat % 2 ^ k := by
  have hnat : (v.toUInt8 &&& mask ||| lead).toNat = (v.toNat % 2 ^ 8 &&& 2 ^ k - 1) ||| lead.toNat := by
    simp [hmask]
  rw [hnat, Nat.and_two_pow_sub_one_eq_mod, hor _ (Nat.mod_lt _ (Nat.two_pow_pos k)),
    Nat.mod_mod_of_dvd _ (Nat.pow_dvd_pow 2 hk)]

theorem toNat_continuation : (v.toUInt8 &&& 0x3f ||| 0x80).toNat = 128 + v.toNat % 64 :=
  toNat_marked v 0x3f 0x80 6 (by decide) rfl (by decide)

theorem toNat_lead_two : (v.toUInt8 &&& 0x1f ||| 0xc0).toNat = 192 + v.toNat % 32 :=
  toNat_marked v 0x1f 0xc0 5 (by decide) rfl (by decide)

theorem toNat_lead_three : (v.toUInt8 &&& 0x0f ||| 0xe0).toNat = 224 + v.toNat % 16 :=
  toNat_marked v 0x0f 0xe0 4 (by decide) rfl (by decide)

theorem toNat_lead_four : (v.toUInt8 &&& 0x07 ||| 0xf0).toNat = 240 + v.toNat % 8 :=
  toNat_marked v 0x07 0xf0 3 (by decide) rfl (by decide)

theorem toNat_shiftRight_six : (v >>> 6).toNat = v.toNat / 64 := by
  rw [UInt32.toNat_shiftRight, Nat.shiftRight_eq_div_pow]
  rfl

theorem toNat_shiftRight_twelve : (v >>> 12).toNat = v.toNat / 4096 := by
  rw [UInt32.toNat_shiftRight, Nat.shiftRight_eq_div_pow]
  rfl

theorem toNat_shiftRight_eighteen : (v >>> 18).toNat = v.toNat / 262144 := by
  rw [UInt32.toNat_shiftRight, Nat.shiftRight_eq_div_pow]
  rfl

variable {c : Char}

theorem bytes_one (h : c.utf8Size = 1) :
    ∃ a, String.utf8EncodeChar c = [a] ∧ a.toNat = c.toNat ∧ c.toNat ≤ 0x7F := by
  refine ⟨_, String.utf8EncodeChar_eq_singleton h, ?_, ?_⟩
  · have hle : c.val.toNat ≤ 127 := UInt32.le_iff_toNat_le.mp (Char.utf8Size_eq_one_iff.mp h)
    show c.val.toUInt8.toNat = c.val.toNat
    rw [UInt32.toNat_toUInt8]
    omega
  · exact UInt32.le_iff_toNat_le.mp (Char.utf8Size_eq_one_iff.mp h)

theorem bytes_two (h : c.utf8Size = 2) :
    ∃ a b, String.utf8EncodeChar c = [a, b] ∧ a.toNat = 192 + c.toNat / 64 ∧
      b.toNat = 128 + c.toNat % 64 ∧ 0x7F < c.toNat ∧ c.toNat ≤ 0x7FF := by
  obtain ⟨hlow, hhigh⟩ := Char.utf8Size_eq_two_iff.mp h
  have hlow : 127 < c.val.toNat := UInt32.lt_iff_toNat_lt.mp hlow
  have hhigh : c.val.toNat ≤ 0x7FF := UInt32.le_iff_toNat_le.mp hhigh
  refine ⟨_, _, String.utf8EncodeChar_eq_cons_cons h, ?_, toNat_continuation c.val, hlow, hhigh⟩
  rw [toNat_lead_two, toNat_shiftRight_six]
  show 192 + c.val.toNat / 64 % 32 = 192 + c.val.toNat / 64
  omega

theorem bytes_three (h : c.utf8Size = 3) :
    ∃ a b d, String.utf8EncodeChar c = [a, b, d] ∧ a.toNat = 224 + c.toNat / 4096 ∧
      b.toNat = 128 + c.toNat / 64 % 64 ∧ d.toNat = 128 + c.toNat % 64 ∧ 0x7FF < c.toNat ∧
      c.toNat ≤ 0xFFFF := by
  obtain ⟨hlow, hhigh⟩ := Char.utf8Size_eq_three_iff.mp h
  have hlow : 0x7FF < c.val.toNat := UInt32.lt_iff_toNat_lt.mp hlow
  have hhigh : c.val.toNat ≤ 0xFFFF := UInt32.le_iff_toNat_le.mp hhigh
  refine ⟨_, _, _, String.utf8EncodeChar_eq_cons_cons_cons h, ?_, ?_, toNat_continuation c.val,
    hlow, hhigh⟩
  · rw [toNat_lead_three, toNat_shiftRight_twelve]
    show 224 + c.val.toNat / 4096 % 16 = 224 + c.val.toNat / 4096
    omega
  · rw [toNat_continuation, toNat_shiftRight_six]
    rfl

theorem bytes_four (h : c.utf8Size = 4) :
    ∃ a b d e, String.utf8EncodeChar c = [a, b, d, e] ∧ a.toNat = 240 + c.toNat / 262144 ∧
      b.toNat = 128 + c.toNat / 4096 % 64 ∧ d.toNat = 128 + c.toNat / 64 % 64 ∧
      e.toNat = 128 + c.toNat % 64 ∧ 0xFFFF < c.toNat ∧ c.toNat < 0x110000 := by
  have hlow : 0xFFFF < c.val.toNat := UInt32.lt_iff_toNat_lt.mp (Char.utf8Size_eq_four_iff.mp h)
  have hhigh : c.val.toNat < 0x110000 := by
    rcases c.valid with hsmall | ⟨-, hlarge⟩
    · omega
    · exact hlarge
  refine ⟨_, _, _, _, String.utf8EncodeChar_eq_cons_cons_cons_cons h, ?_, ?_, ?_,
    toNat_continuation c.val, hlow, hhigh⟩
  · rw [toNat_lead_four, toNat_shiftRight_eighteen]
    show 240 + c.val.toNat / 262144 % 8 = 240 + c.val.toNat / 262144
    omega
  · rw [toNat_continuation, toNat_shiftRight_twelve]
    rfl
  · rw [toNat_continuation, toNat_shiftRight_six]
    rfl

theorem not_surrogate (c : Char) : c.toNat < 0xD800 ∨ 0xDFFF < c.toNat := by
  rcases c.valid with hsmall | ⟨hlarge, -⟩
  · exact .inl hsmall
  · exact .inr hlarge

end Bytes

/-! ### Reading a Character -/

/-- The states that the machine goes through on the bytes of a character: it completes the
    character at the last byte, and is inside it before. -/
inductive Reads (c : Char) : Utf8State → List UInt8 → Prop where
  | last {st : Utf8State} {b : UInt8} : feedByte st b.toNat = ([c], .start) → Reads c st [b]
  | next {st : Utf8State} {b : UInt8} {bs : List UInt8} (low high more bits : Nat) :
      feedByte st b.toNat = ([], .inside low high more bits) →
      Reads c (.inside low high more bits) bs → Reads c st (b :: bs)

theorem feedByte_inside {low high more bits b : Nat} (hlow : low ≤ b) (hhigh : b ≤ high) :
    feedByte (.inside low high (more + 1) bits) b =
      ([], .inside 0x80 0xBF more (bits * 64 + (b - 0x80))) := by
  show (if low ≤ b ∧ b ≤ high then _ else _) = _
  rw [if_pos ⟨hlow, hhigh⟩]

theorem feedByte_last {low high bits b : Nat} (hlow : low ≤ b) (hhigh : b ≤ high) :
    feedByte (.inside low high 0 bits) b = ([Char.ofNat (bits * 64 + (b - 0x80))], .start) := by
  show (if low ≤ b ∧ b ≤ high then _ else _) = _
  rw [if_pos ⟨hlow, hhigh⟩]

/-- The bytes of a character are read as that character. -/
theorem reads_encode (c : Char) : Reads c .start (String.utf8EncodeChar c) := by
  have hof : ∀ n, n = c.toNat → Char.ofNat n = c := by
    rintro n rfl
    exact Char.ofNat_toNat c
  have hpos := c.utf8Size_pos
  have hle := c.utf8Size_le_four
  have hsize : c.utf8Size = 1 ∨ c.utf8Size = 2 ∨ c.utf8Size = 3 ∨ c.utf8Size = 4 := by omega
  rcases hsize with hsize | hsize | hsize | hsize
  · obtain ⟨a, hbytes, ha, hmax⟩ := bytes_one hsize
    rw [hbytes]
    refine .last ?_
    simp only [feedByte, firstByte, ha, hmax, if_true, Char.ofNat_toNat]
  · obtain ⟨a, b, hbytes, ha, hb, hmin, hmax⟩ := bytes_two hsize
    rw [hbytes]
    refine .next 0x80 0xBF 0 (c.toNat / 64) ?_ (.last ?_)
    · rw [ha]
      show firstByte _ = _
      unfold firstByte
      rw [if_neg (by omega), if_pos (by omega)]
      simp
    · rw [hb, feedByte_last (by omega) (by omega), hof _ (by omega)]
  · obtain ⟨a, b, d, hbytes, ha, hb, hd, hmin, hmax⟩ := bytes_three hsize
    have hsurrogate := not_surrogate c
    rw [hbytes]
    have hfirst : ∃ low high, firstByte a.toNat = ([], .inside low high 1 (c.toNat / 4096)) ∧
        low ≤ b.toNat ∧ b.toNat ≤ high := by
      rw [ha, hb]
      unfold firstByte
      -- 0xE0 and 0xED narrow the range of the second byte
      by_cases hE0 : c.toNat / 4096 = 0
      · refine ⟨0xA0, 0xBF, ?_, by omega, by omega⟩
        simp [hE0]
      · by_cases hED : c.toNat / 4096 = 13
        · refine ⟨0x80, 0x9F, ?_, by omega, by omega⟩
          simp [hED]
        · refine ⟨0x80, 0xBF, ?_, by omega, by omega⟩
          rw [if_neg (by omega), if_neg (by omega), if_neg (by omega), if_neg (by omega),
            if_pos (by omega)]
          simp
    obtain ⟨low, high, hfirst, hlow, hhigh⟩ := hfirst
    refine .next low high 1 _ hfirst (.next 0x80 0xBF 0 (c.toNat / 64) ?_ (.last ?_))
    · have hbits : c.toNat / 4096 * 64 + (b.toNat - 0x80) = c.toNat / 64 := by omega
      rw [feedByte_inside hlow hhigh, hbits]
    · rw [hd, feedByte_last (by omega) (by omega), hof _ (by omega)]
  · obtain ⟨a, b, d, e, hbytes, ha, hb, hd, he, hmin, hmax⟩ := bytes_four hsize
    rw [hbytes]
    have hfirst : ∃ low high, firstByte a.toNat = ([], .inside low high 2 (c.toNat / 262144)) ∧
        low ≤ b.toNat ∧ b.toNat ≤ high := by
      rw [ha, hb]
      unfold firstByte
      -- 0xF0 and 0xF4 do
      by_cases hF0 : c.toNat / 262144 = 0
      · refine ⟨0x90, 0xBF, ?_, by omega, by omega⟩
        simp [hF0]
      · by_cases hF4 : c.toNat / 262144 = 4
        · refine ⟨0x80, 0x8F, ?_, by omega, by omega⟩
          simp [hF4]
        · refine ⟨0x80, 0xBF, ?_, by omega, by omega⟩
          rw [if_neg (by omega), if_neg (by omega), if_neg (by omega), if_neg (by omega),
            if_neg (by omega), if_neg (by omega), if_pos (by omega)]
          simp
    obtain ⟨low, high, hfirst, hlow, hhigh⟩ := hfirst
    refine .next low high 2 _ hfirst (.next 0x80 0xBF 1 (c.toNat / 4096) ?_
      (.next 0x80 0xBF 0 (c.toNat / 64) ?_ (.last ?_)))
    · have hbits : c.toNat / 262144 * 64 + (b.toNat - 0x80) = c.toNat / 4096 := by omega
      rw [feedByte_inside hlow hhigh, hbits]
    · have hbits : c.toNat / 4096 * 64 + (d.toNat - 0x80) = c.toNat / 64 := by omega
      rw [feedByte_inside (by omega) (by omega), hbits]
    · rw [he, feedByte_last (by omega) (by omega), hof _ (by omega)]

variable {bytes raw : List UInt8} {st : Utf8State} {n : Nat}

theorem Reads.decode {c : Char} (h : Reads c st bytes)
    (rest : List UInt8) : decodeFrom st (bytes ++ rest) = c :: decodeFrom .start rest := by
  induction h with
  | last hfeed =>
    rw [singleton_append, decodeFrom_cons, hfeed]
    rfl
  | next _ _ _ _ hfeed _ ih =>
    rw [cons_append, decodeFrom_cons, hfeed, nil_append, ih]

theorem Reads.decode_torn {c : Char} (h : Reads c st bytes)
    (hpos : 0 < n) (hcut : n < bytes.length) :
    decodeFrom st (bytes.take n) = [replacementChar] := by
  induction h generalizing n with
  | last _ =>
    rw [length_singleton] at hcut
    omega
  | next _ _ _ _ hfeed _ ih =>
    obtain ⟨n, rfl⟩ : ∃ m, n = m + 1 := ⟨n - 1, by omega⟩
    rw [take_succ_cons, decodeFrom_cons, hfeed, nil_append]
    rw [length_cons] at hcut
    by_cases hn : n = 0
    · rw [hn, take_zero]
      rfl
    · exact ih (by omega) (by omega)

theorem decodeReplace_char_append (c : Char) (rest : List UInt8) :
    decodeReplace (String.utf8EncodeChar c ++ rest) = c :: decodeReplace rest :=
  (reads_encode c).decode rest

variable (text : List Char)

theorem decodeReplace_encode_append (rest : List UInt8) :
    decodeReplace (encodeUtf8 text ++ rest) = text ++ decodeReplace rest := by
  induction text with
  | nil => rfl
  | cons c text ih =>
    rw [encodeUtf8_cons, append_assoc, decodeReplace_char_append, ih]
    rfl

@[simp] theorem decodeReplace_encode : decodeReplace (encodeUtf8 text) = text := by
  have h := decodeReplace_encode_append text []
  simpa using h

theorem decodeReplace_torn {c : Char} (hpos : 0 < n) (hcut : n < c.utf8Size) :
    decodeReplace ((String.utf8EncodeChar c).take n) = [replacementChar] := by
  apply (reads_encode c).decode_torn hpos
  rwa [String.length_utf8EncodeChar]

/-! ### Pieces of an Encoding -/

def isContinuation (b : UInt8) : Bool := decide (128 ≤ b.toNat) && decide (b.toNat < 192)

/-- The number of characters that start in a piece. -/
def charStarts (raw : List UInt8) : Nat := raw.countP (!isContinuation ·)

theorem utf8EncodeChar_starts (c : Char) :
    ∃ b bs, String.utf8EncodeChar c = b :: bs ∧ isContinuation b = false ∧
      ∀ b' ∈ bs, isContinuation b' = true := by
  have hcont : ∀ {b : UInt8} {n : Nat}, b.toNat = 128 + n % 64 → isContinuation b = true := by
    intro b n hb
    simp only [isContinuation, hb, Bool.and_eq_true, decide_eq_true_eq]
    omega
  have hlead : ∀ {b : UInt8}, b.toNat < 128 ∨ 192 ≤ b.toNat → isContinuation b = false := by
    intro b hb
    simp only [isContinuation, Bool.and_eq_false_iff, decide_eq_false_iff_not]
    omega
  have hpos := c.utf8Size_pos
  have hle := c.utf8Size_le_four
  have hsize : c.utf8Size = 1 ∨ c.utf8Size = 2 ∨ c.utf8Size = 3 ∨ c.utf8Size = 4 := by omega
  rcases hsize with hsize | hsize | hsize | hsize
  · obtain ⟨a, hbytes, ha, hmax⟩ := bytes_one hsize
    exact ⟨a, [], hbytes, hlead (by omega), by simp⟩
  · obtain ⟨a, b, hbytes, ha, hb, -, -⟩ := bytes_two hsize
    refine ⟨a, [b], hbytes, hlead (by omega), ?_⟩
    intro b' hb'
    rw [mem_singleton.mp hb']
    exact hcont hb
  · obtain ⟨a, b, d, hbytes, ha, hb, hd, -, -⟩ := bytes_three hsize
    refine ⟨a, [b, d], hbytes, hlead (by omega), ?_⟩
    intro b' hb'
    simp only [mem_cons, not_mem_nil, or_false] at hb'
    rcases hb' with rfl | rfl
    · exact hcont hb
    · exact hcont hd
  · obtain ⟨a, b, d, e, hbytes, ha, hb, hd, he, -, -⟩ := bytes_four hsize
    refine ⟨a, [b, d, e], hbytes, hlead (by omega), ?_⟩
    intro b' hb'
    simp only [mem_cons, not_mem_nil, or_false] at hb'
    rcases hb' with rfl | rfl | rfl
    · exact hcont hb
    · exact hcont hd
    · exact hcont he

theorem charStarts_append (a b : List UInt8) :
    charStarts (a ++ b) = charStarts a + charStarts b := countP_append

theorem charStarts_continuation (h : ∀ b ∈ raw, isContinuation b = true) :
    charStarts raw = 0 := by
  unfold charStarts
  rw [countP_eq_zero]
  intro b hb
  simp [h b hb]

theorem charStarts_char (c : Char) : charStarts (String.utf8EncodeChar c) = 1 := by
  obtain ⟨b, bs, hbytes, hb, hbs⟩ := utf8EncodeChar_starts c
  have hrest := charStarts_continuation hbs
  unfold charStarts at hrest
  simp [hbytes, charStarts, hb, hrest]

theorem charStarts_encode : charStarts (encodeUtf8 text) = text.length := by
  induction text with
  | nil => rfl
  | cons c text ih =>
    rw [encodeUtf8_cons, charStarts_append, charStarts_char, ih, length_cons]
    omega

theorem decodeReplace_continuation {b : UInt8} (h : isContinuation b = true)
    (rest : List UInt8) : decodeReplace (b :: rest) = replacementChar :: decodeReplace rest := by
  simp only [isContinuation, Bool.and_eq_true, decide_eq_true_eq] at h
  have hfirst : firstByte b.toNat = ([replacementChar], .start) := by
    unfold firstByte
    rw [if_neg (by omega), if_neg (by omega), if_neg (by omega), if_neg (by omega),
      if_neg (by omega), if_neg (by omega), if_neg (by omega), if_neg (by omega)]
  unfold decodeReplace
  rw [decodeFrom_cons]
  show (firstByte b.toNat).1 ++ decodeFrom (firstByte b.toNat).2 rest = _
  rw [hfirst]
  rfl

theorem length_decodeReplace_continuation
    (h : ∀ b ∈ raw, isContinuation b = true) (rest : List UInt8) :
    (decodeReplace (raw ++ rest)).length = raw.length + (decodeReplace rest).length := by
  induction raw with
  | nil => simp
  | cons b raw ih =>
    rw [cons_append, decodeReplace_continuation (h b mem_cons_self), length_cons,
      length_cons, ih fun b' hb' => h b' (mem_cons_of_mem b hb')]
    omega

/-- **Front of an encoding**: whole characters, and the start of the next one if it is cut. -/
theorem take_encodeUtf8 (n : Nat) :
    ∃ a b torn, text = a ++ b ∧ (encodeUtf8 text).take n = encodeUtf8 a ++ torn ∧
      (torn = [] ∨ ∃ c b' i, b = c :: b' ∧ 0 < i ∧ i < c.utf8Size ∧
        torn = (String.utf8EncodeChar c).take i) := by
  induction text generalizing n with
  | nil => exact ⟨[], [], [], rfl, by simp, .inl rfl⟩
  | cons c text ih =>
    have hlength := String.length_utf8EncodeChar c
    by_cases hn : n < c.utf8Size
    · refine ⟨[], c :: text, (String.utf8EncodeChar c).take n, rfl, ?_, ?_⟩
      · rw [encodeUtf8_cons, take_append_of_le_length (by omega)]
        rfl
      · by_cases hzero : n = 0
        · exact .inl (by rw [hzero, take_zero])
        · exact .inr ⟨c, text, n, rfl, by omega, hn, rfl⟩
    · obtain ⟨a, b, torn, rfl, htake, htorn⟩ := ih (n - c.utf8Size)
      refine ⟨c :: a, b, torn, rfl, ?_, htorn⟩
      rw [encodeUtf8_cons, encodeUtf8_cons, take_append, hlength,
        take_of_length_le (by omega), htake, append_assoc]

/-- **Back of an encoding**: the rest of a character that was cut, and whole characters. -/
theorem drop_encodeUtf8 (n : Nat) :
    ∃ rest b, (encodeUtf8 text).drop n = rest ++ encodeUtf8 b ∧ b <:+ text ∧
      ∀ byte ∈ rest, isContinuation byte = true := by
  induction text generalizing n with
  | nil => exact ⟨[], [], by simp, suffix_refl _, by simp⟩
  | cons c text ih =>
    have hlength := String.length_utf8EncodeChar c
    by_cases hzero : n = 0
    · exact ⟨[], c :: text, by rw [hzero]; rfl, suffix_refl _, by simp⟩
    · by_cases hn : n < c.utf8Size
      · refine ⟨(String.utf8EncodeChar c).drop n, text, ?_, suffix_cons c text, ?_⟩
        · rw [encodeUtf8_cons, drop_append_of_le_length (by omega)]
        · obtain ⟨b, bs, hbytes, -, hbs⟩ := utf8EncodeChar_starts c
          obtain ⟨m, rfl⟩ : ∃ m, n = m + 1 := ⟨n - 1, by omega⟩
          intro byte hbyte
          rw [hbytes, drop_succ_cons] at hbyte
          exact hbs byte (mem_of_mem_drop hbyte)
      · obtain ⟨rest, b, hdrop, hsuffix, hrest⟩ := ih (n - c.utf8Size)
        refine ⟨rest, b, ?_, hsuffix.trans (suffix_cons c text), hrest⟩
        rw [encodeUtf8_cons, drop_append, hlength, drop_of_length_le (by omega), hdrop]
        rfl

theorem length_decodeReplace_take (n : Nat) :
    (decodeReplace ((encodeUtf8 text).take n)).length = charStarts ((encodeUtf8 text).take n) := by
  obtain ⟨a, b, torn, -, htake, htorn⟩ := take_encodeUtf8 text n
  rw [htake, decodeReplace_encode_append, length_append, charStarts_append, charStarts_encode]
  rcases htorn with rfl | ⟨c, b', i, -, hpos, hcut, rfl⟩
  · rfl
  · rw [decodeReplace_torn hpos hcut]
    obtain ⟨b, bs, hbytes, hb, hbs⟩ := utf8EncodeChar_starts c
    obtain ⟨m, rfl⟩ : ∃ m, i = m + 1 := ⟨i - 1, by omega⟩
    have hrest : charStarts (bs.take m) = 0 := by
      apply charStarts_continuation
      intro b' hb'
      exact hbs b' (mem_of_mem_take hb')
    unfold charStarts at hrest
    simp [hbytes, charStarts, hb, hrest]

/-- **Length of a piece**: a piece decodes to one character for each that starts in it, and one
    for each byte before the first of them. -/
theorem length_decodeReplace_piece {rest : List UInt8} (n : Nat)
    (hrest : ∀ b ∈ rest, isContinuation b = true) :
    (decodeReplace ((rest ++ encodeUtf8 text).take n)).length =
      charStarts ((rest ++ encodeUtf8 text).take n) + min n rest.length := by
  have htake : ∀ b ∈ rest.take n, isContinuation b = true :=
    fun b hb => hrest b (mem_of_mem_take hb)
  rw [take_append, length_decodeReplace_continuation htake, length_decodeReplace_take,
    charStarts_append, charStarts_continuation htake, length_take]
  omega

def Boundary (n : Nat) : Prop := ∃ a b, text = a ++ b ∧ byteLength a = n

theorem boundary_length : Boundary text (byteLength text) :=
  ⟨text, [], by simp, rfl⟩

/-- A position is a boundary when what follows it does not continue a character. -/
theorem boundary_of_drop {text : List Char} (hn : n ≤ byteLength text)
    {b : List Char} (hdrop : (encodeUtf8 text).drop n = encodeUtf8 b) (hsuffix : b <:+ text) :
    Boundary text n := by
  obtain ⟨a, rfl⟩ := hsuffix
  refine ⟨a, b, rfl, ?_⟩
  have hlength := congrArg List.length hdrop
  rw [length_drop] at hlength
  have htotal : (encodeUtf8 (a ++ b)).length = byteLength a + byteLength b := byteLength_append a b
  have hb : (encodeUtf8 b).length = byteLength b := rfl
  rw [byteLength_append] at hn
  omega

end Codify.Framework

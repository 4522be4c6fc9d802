import Codify.Framework.JsonRoundTrip

/-! # Lines of JSON Text

    Texts cut into lines: `str.splitlines`, which ends a line at every Unicode
    line boundary, and the characters a written JSON document can hold. A
    document is written on one line exactly when no line boundary stands
    unescaped in one of its strings.
-/

namespace Codify.Framework.JsonText

open List

/-! ### Line Boundaries -/

/-- The characters at which `str.splitlines` ends a line. -/
def isLineBreak (c : Char) : Bool :=
  let n := c.toNat
  (10 ≤ n && n ≤ 13) || (28 ≤ n && n ≤ 30) || n == 0x85 || n == 0x2028 || n == 0x2029

/-- Put a character in front of the first line. -/
def consLine (c : Char) : List (List Char) → List (List Char)
  | [] => [[c]]
  | line :: lines => (c :: line) :: lines

/-- `text.splitlines(keepends=True)`; a carriage return and its line feed are one boundary. -/
def splitlinesKeepends : List Char → List (List Char)
  | [] => []
  | c :: cs =>
    if isLineBreak c ∧ ¬ (c = '\r' ∧ cs.head? = some '\n') then [c] :: splitlinesKeepends cs
    else consLine c (splitlinesKeepends cs)

def dropLineEnd (line : List Char) : List Char :=
  (line.reverse.dropWhile isLineBreak).reverse

/-- `text.splitlines()`. -/
def splitlines (text : List Char) : List (List Char) :=
  (splitlinesKeepends text).map dropLineEnd

theorem flatten_consLine (c : Char) (lines : List (List Char)) :
    (consLine c lines).flatten = c :: lines.flatten := by
  cases lines <;> rfl

theorem flatten_splitlinesKeepends (text : List Char) :
    (splitlinesKeepends text).flatten = text := by
  induction text with
  | nil => rfl
  | cons c cs ih =>
    unfold splitlinesKeepends
    split
    · show c :: (splitlinesKeepends cs).flatten = _
      rw [ih]
    · rw [flatten_consLine, ih]

variable {text line : List Char} {c : Char}

theorem ne_nil_of_mem_splitlinesKeepends
    (h : line ∈ splitlinesKeepends text) : line ≠ [] := by
  induction text generalizing line with
  | nil => exact absurd h not_mem_nil
  | cons c cs ih =>
    unfold splitlinesKeepends at h
    split at h
    · rcases mem_cons.mp h with rfl | h
      · exact cons_ne_nil _ _
      · exact ih h
    · cases hlines : splitlinesKeepends cs with
      | nil =>
        rw [hlines] at h
        rw [mem_singleton.mp h]
        exact cons_ne_nil _ _
      | cons first lines =>
        rw [hlines] at h
        rcases mem_cons.mp h with rfl | h
        · exact cons_ne_nil _ _
        · exact ih (hlines ▸ mem_cons_of_mem first h)

theorem splitlinesKeepends_cons (h : isLineBreak c = false) (cs : List Char) :
    splitlinesKeepends (c :: cs) = consLine c (splitlinesKeepends cs) := by
  show (if isLineBreak c ∧ _ then _ else _) = _
  rw [if_neg (by simp [h])]

theorem splitlinesKeepends_line (h : ∀ c ∈ line, isLineBreak c = false)
    (text : List Char) :
    splitlinesKeepends (line ++ '\n' :: text) = (line ++ ['\n']) :: splitlinesKeepends text := by
  induction line with
  | nil =>
    show (if _ then _ else _) = _
    rw [if_pos ⟨rfl, by simp⟩]
    rfl
  | cons c line ih =>
    have hc : isLineBreak c = false := h c mem_cons_self
    rw [cons_append, splitlinesKeepends_cons hc, ih fun d hd => h d (mem_cons_of_mem c hd)]
    rfl

theorem splitlinesKeepends_tail (h : ∀ c ∈ line, isLineBreak c = false)
    (hne : line ≠ []) : splitlinesKeepends line = [line] := by
  induction line with
  | nil => exact absurd rfl hne
  | cons c line ih =>
    have hc : isLineBreak c = false := h c mem_cons_self
    rw [splitlinesKeepends_cons hc]
    cases line with
    | nil => rfl
    | cons d line =>
      rw [ih (fun e he => h e (mem_cons_of_mem c he)) (cons_ne_nil _ _)]
      rfl

def unlines (lines : List (List Char)) : List Char := lines.flatMap (· ++ ['\n'])

theorem unlines_cons (line : List Char) (lines : List (List Char)) :
    unlines (line :: lines) = line ++ '\n' :: unlines lines := by
  simp [unlines]

theorem unlines_append (a b : List (List Char)) : unlines (a ++ b) = unlines a ++ unlines b := by
  simp [unlines]

/-- Lines without boundaries of their own are found again, with what follows them. -/
theorem splitlinesKeepends_unlines {lines : List (List Char)}
    (h : ∀ line ∈ lines, ∀ c ∈ line, isLineBreak c = false) (text : List Char) :
    splitlinesKeepends (unlines lines ++ text) =
      lines.map (· ++ ['\n']) ++ splitlinesKeepends text := by
  induction lines with
  | nil => rfl
  | cons line lines ih =>
    have hline := h line mem_cons_self
    have hlines := ih fun l hl => h l (mem_cons_of_mem line hl)
    rw [unlines_cons, append_assoc, cons_append, splitlinesKeepends_line hline, hlines]
    rfl

theorem dropLineEnd_of_not_isLineBreak
    (h : ∀ c ∈ line, isLineBreak c = false) : dropLineEnd line = line := by
  unfold dropLineEnd
  have hrev : line.reverse.dropWhile isLineBreak = line.reverse := by
    cases hr : line.reverse with
    | nil => rfl
    | cons c cs =>
      have hc : isLineBreak c = false := by
        apply h c
        rw [← mem_reverse, hr]
        exact mem_cons_self
      simp [hc]
  rw [hrev, reverse_reverse]

theorem dropLineEnd_newline (h : ∀ c ∈ line, isLineBreak c = false) :
    dropLineEnd (line ++ ['\n']) = line := by
  have hdrop := dropLineEnd_of_not_isLineBreak h
  unfold dropLineEnd at hdrop ⊢
  rw [reverse_append, reverse_singleton, singleton_append, dropWhile_cons_of_pos rfl, hdrop]

/-! ### Characters of a Document -/

mutual

/-- The characters of all strings of a document, keys and values. -/
def textChars : Json → List Char
  | .str s => s.toList
  | .arr items => textCharsItems items
  | .obj fields => textCharsFields fields
  | _ => []
termination_by structural v => v

def textCharsItems : List Json → List Char
  | [] => []
  | v :: rest => textChars v ++ textCharsItems rest
termination_by structural v => v

def textCharsField : String × Json → List Char
  | (key, v) => key.toList ++ textChars v
termination_by structural v => v

def textCharsFields : List (String × Json) → List Char
  | [] => []
  | p :: rest => textCharsField p ++ textCharsFields rest
termination_by structural v => v

end

def isPrintable (c : Char) : Bool := 32 ≤ c.toNat && c.toNat ≤ 126

theorem isPrintable_hexDigit (n : Nat) : isPrintable (hexDigit n) := by
  have hall : ∀ m < 16, isPrintable (Nat.digitChar m) := by decide
  exact hall (n % 16) (Nat.mod_lt n (by decide))

theorem isPrintable_unicodeEscape (n : Nat) : ∀ c ∈ unicodeEscape n, isPrintable c := by
  intro c hc
  simp only [unicodeEscape, mem_cons, not_mem_nil, or_false] at hc
  rcases hc with rfl | rfl | rfl | rfl | rfl | rfl
  · rfl
  · rfl
  all_goals exact isPrintable_hexDigit _

theorem mem_escapeChar {ensureAscii : Bool} {c d : Char} (h : d ∈ escapeChar ensureAscii c) :
    isPrintable d ∨ (d = c ∧ ensureAscii = false ∧ 126 < c.toNat) := by
  have hletters : ['"', '\\', 'n', 'r', 't', 'b', 'f'].all isPrintable = true := by
    decide +kernel
  revert h
  have hescaping := escaping_escapeChar ensureAscii c
  generalize escapeChar ensureAscii c = written at hescaping ⊢
  cases hescaping with
  | @letter e hletter _ =>
    intro h
    simp only [mem_cons, not_mem_nil, or_false] at h
    rcases h with rfl | rfl
    · exact .inl rfl
    · exact .inl (all_eq_true.mp hletters d hletter)
  | control _ => exact fun h => .inl (isPrintable_unicodeEscape _ d h)
  | ascii _ =>
    intro h
    unfold asciiEscape at h
    split at h
    · exact .inl (isPrintable_unicodeEscape _ d h)
    · rcases mem_append.mp h with h | h
      · exact .inl (isPrintable_unicodeEscape _ d h)
      · exact .inl (isPrintable_unicodeEscape _ d h)
  | plain hquote hslash hcontrol hascii =>
    intro h
    obtain rfl := mem_singleton.mp h
    by_cases hprint : d.toNat ≤ 126
    · left
      simp only [isPrintable, Bool.and_eq_true, decide_eq_true_eq]
      omega
    · right
      refine ⟨rfl, ?_, by omega⟩
      cases ensureAscii with
      | false => rfl
      | true => exact absurd ⟨rfl, by omega⟩ hascii

theorem escapeChar_of_lt (h : 126 < c.toNat) : escapeChar false c = [c] := by
  have hne : ∀ d : Char, d.toNat ≤ 126 → c ≠ d := by
    intro d hd hcd
    rw [hcd] at h
    omega
  unfold escapeChar
  rw [if_neg (hne _ (by decide)), if_neg (hne _ (by decide)), if_neg (hne _ (by decide)),
    if_neg (hne _ (by decide)), if_neg (hne _ (by decide)), if_neg (by omega),
    if_neg (by omega), if_neg (by omega), if_neg (by simp)]

section Characters

variable (F : FloatText)

theorem isPrintable_of_all (text : List Char) (h : text.all isPrintable) :
    ∀ c ∈ text, isPrintable c :=
  all_eq_true.mp h

variable {c : Char} {s : String}

theorem isPrintable_of_isNumberChar (h : isNumberChar c) : isPrintable c := by
  simp only [isNumberChar, Bool.or_eq_true, beq_iff_eq] at h
  rcases h with ((((h | rfl) | rfl) | rfl) | rfl) | rfl
  · simp only [Char.isDigit, Bool.and_eq_true, decide_eq_true_eq] at h
    obtain ⟨hlow, hhigh⟩ := h
    have hlow' : 48 ≤ c.toNat := hlow
    have hhigh' : c.toNat ≤ 57 := hhigh
    simp only [isPrintable, Bool.and_eq_true, decide_eq_true_eq]
    omega
  all_goals rfl

theorem isPrintable_intText (n : Int) : ∀ c ∈ intText n, isPrintable c := by
  have hdigits : ∀ c ∈ Nat.toDigits 10 n.natAbs, isPrintable c := by
    intro c hc
    have hdigit := Nat.isDigit_of_mem_toDigits (by decide) (by decide) hc
    exact isPrintable_of_isNumberChar (isNumberChar_of_isDigit hdigit)
  unfold intText
  split
  · exact forall_mem_cons.mpr ⟨rfl, hdigits⟩
  · exact hdigits

theorem isPrintable_floatText (x : JsonFloat) : ∀ c ∈ floatText F x, isPrintable c := by
  have hfinite : ∀ y : JsonFloat, y.toRat?.isSome → ∀ c ∈ F.repr y, isPrintable c := by
    intro y hy
    obtain ⟨hall, -, -⟩ := isFloatToken_parts (F.repr_token y hy)
    cases htoken : F.repr y with
    | nil => exact nofun
    | cons d ds =>
      rw [htoken] at hall
      by_cases hsign : d = '-'
      · subst hsign
        refine forall_mem_cons.mpr ⟨rfl, fun c hc => ?_⟩
        exact isPrintable_of_isNumberChar (hall c hc)
      · simp only [unsigned, if_neg hsign] at hall
        exact fun c hc => isPrintable_of_isNumberChar (hall c hc)
  cases x with
  | nan => exact isPrintable_of_all "NaN".toList rfl
  | posInf => exact isPrintable_of_all "Infinity".toList rfl
  | negInf => exact isPrintable_of_all "-Infinity".toList rfl
  | finite q => exact hfinite (.finite q) rfl
  | negZero => exact hfinite .negZero rfl

/-- What a written character can be: printable ASCII, or a character beyond ASCII that
    stands in one of the strings and is not escaped. -/
def Written (ensureAscii : Bool) (chars : List Char) (c : Char) : Prop :=
  isPrintable c ∨ (c ∈ chars ∧ ensureAscii = false ∧ 126 < c.toNat)

variable {ensureAscii : Bool}

theorem Written.mono {a b : List Char} (h : Written ensureAscii a c) (hab : a ⊆ b) :
    Written ensureAscii b c :=
  h.imp id fun h => ⟨hab h.1, h.2⟩

theorem written_quote (h : c ∈ quote ensureAscii s) :
    Written ensureAscii s.toList c := by
  rcases mem_cons.mp h with rfl | h
  · exact .inl rfl
  rcases mem_append.mp h with h | h
  · obtain ⟨d, hd, hc⟩ := mem_flatMap.mp h
    rcases mem_escapeChar hc with hprint | ⟨rfl, hascii, hlarge⟩
    · exact .inl hprint
    · exact .inr ⟨hd, hascii, hlarge⟩
  · rw [mem_singleton.mp h]
    exact .inl rfl

mutual

variable {c : Char}

theorem written_dumps (v : Json) (h : c ∈ dumps F ensureAscii v) :
    Written ensureAscii (textChars v) c := by
  match v with
  | .null => exact .inl (isPrintable_of_all "null".toList rfl c h)
  | .bool true => exact .inl (isPrintable_of_all "true".toList rfl c h)
  | .bool false => exact .inl (isPrintable_of_all "false".toList rfl c h)
  | .int n => exact .inl (isPrintable_intText n c h)
  | .float x => exact .inl (isPrintable_floatText F x c h)
  | .str s => exact written_quote h
  | .arr [] => exact .inl (isPrintable_of_all ['[', ']'] rfl c h)
  | .arr (w :: rest) =>
    rcases mem_cons.mp h with rfl | h
    · exact .inl rfl
    rcases mem_append.mp h with h | h
    · exact (written_dumps w h).mono (subset_append_left _ _)
    rcases mem_append.mp h with h | h
    · exact (written_dumpsItems rest h).mono (subset_append_right _ _)
    · exact .inl (by rw [mem_singleton.mp h]; rfl)
  | .obj [] => exact .inl (isPrintable_of_all ['\x7b', '\x7d'] rfl c h)
  | .obj (p :: rest) =>
    rcases mem_cons.mp h with rfl | h
    · exact .inl rfl
    rcases mem_append.mp h with h | h
    · exact (written_dumpsField p h).mono (subset_append_left _ _)
    rcases mem_append.mp h with h | h
    · exact (written_dumpsFields rest h).mono (subset_append_right _ _)
    · exact .inl (by rw [mem_singleton.mp h]; rfl)

theorem written_dumpsItems (items : List Json)
    (h : c ∈ dumpsItems F ensureAscii items) :
    Written ensureAscii (textCharsItems items) c := by
  match items with
  | [] => exact absurd h not_mem_nil
  | v :: rest =>
    rcases mem_cons.mp h with rfl | h
    · exact .inl rfl
    rcases mem_append.mp h with h | h
    · exact (written_dumps v h).mono (subset_append_left _ _)
    · exact (written_dumpsItems rest h).mono (subset_append_right _ _)

theorem written_dumpsField (p : String × Json)
    (h : c ∈ dumpsField F ensureAscii p) : Written ensureAscii (textCharsField p) c := by
  match p with
  | (key, v) =>
    rcases mem_append.mp h with h | h
    · exact (written_quote h).mono (subset_append_left _ _)
    rcases mem_cons.mp h with rfl | h
    · exact .inl rfl
    · exact (written_dumps v h).mono (subset_append_right _ _)

theorem written_dumpsFields (fields : JsonObject)
    (h : c ∈ dumpsFields F ensureAscii fields) :
    Written ensureAscii (textCharsFields fields) c := by
  match fields with
  | [] => exact absurd h not_mem_nil
  | p :: rest =>
    rcases mem_cons.mp h with rfl | h
    · exact .inl rfl
    rcases mem_append.mp h with h | h
    · exact (written_dumpsField p h).mono (subset_append_left _ _)
    · exact (written_dumpsFields rest h).mono (subset_append_right _ _)

end

theorem mem_quote (h : c ∈ s.toList) (hc : 126 < c.toNat) :
    c ∈ quote false s := by
  apply mem_cons_of_mem
  apply mem_append_left
  refine mem_flatMap.mpr ⟨c, h, ?_⟩
  rw [escapeChar_of_lt hc]
  exact mem_singleton_self c

mutual

variable {c : Char}

/-- Without `ensure_ascii` every character beyond ASCII of a string is written. -/
theorem mem_dumps (v : Json) (h : c ∈ textChars v) (hc : 126 < c.toNat) :
    c ∈ dumps F false v := by
  match v with
  | .null | .bool _ | .int _ | .float _ => exact absurd h not_mem_nil
  | .str s => exact mem_quote h hc
  | .arr [] => exact absurd h not_mem_nil
  | .arr (w :: rest) =>
    apply mem_cons_of_mem
    rcases mem_append.mp h with h | h
    · exact mem_append_left _ (mem_dumps w h hc)
    · exact mem_append_right _ (mem_append_left _ (mem_dumpsItems rest h hc))
  | .obj [] => exact absurd h not_mem_nil
  | .obj (p :: rest) =>
    apply mem_cons_of_mem
    rcases mem_append.mp h with h | h
    · exact mem_append_left _ (mem_dumpsField p h hc)
    · exact mem_append_right _ (mem_append_left _ (mem_dumpsFields rest h hc))

theorem mem_dumpsItems (items : List Json) (h : c ∈ textCharsItems items)
    (hc : 126 < c.toNat) : c ∈ dumpsItems F false items := by
  match items with
  | [] => exact absurd h not_mem_nil
  | v :: rest =>
    apply mem_cons_of_mem
    rcases mem_append.mp h with h | h
    · exact mem_append_left _ (mem_dumps v h hc)
    · exact mem_append_right _ (mem_dumpsItems rest h hc)

theorem mem_dumpsField (p : String × Json) (h : c ∈ textCharsField p)
    (hc : 126 < c.toNat) : c ∈ dumpsField F false p := by
  match p with
  | (key, v) =>
    rcases mem_append.mp h with h | h
    · exact mem_append_left _ (mem_quote h hc)
    · exact mem_append_right _ (mem_cons_of_mem _ (mem_dumps v h hc))

theorem mem_dumpsFields (fields : JsonObject) (h : c ∈ textCharsFields fields)
    (hc : 126 < c.toNat) : c ∈ dumpsFields F false fields := by
  match fields with
  | [] => exact absurd h not_mem_nil
  | p :: rest =>
    apply mem_cons_of_mem
    rcases mem_append.mp h with h | h
    · exact mem_append_left _ (mem_dumpsField p h hc)
    · exact mem_append_right _ (mem_dumpsFields rest h hc)

end

theorem not_isLineBreak_of_isPrintable (h : isPrintable c) : isLineBreak c = false := by
  simp only [isPrintable, Bool.and_eq_true, decide_eq_true_eq] at h
  simp only [isLineBreak, Bool.or_eq_false_iff, Bool.and_eq_false_iff, decide_eq_false_iff_not,
    beq_eq_false_iff_ne]
  omega

theorem not_isLineBreak_dumps_ascii (v : Json) :
    ∀ c ∈ dumps F true v, isLineBreak c = false := by
  intro c hc
  rcases written_dumps F v hc with hprint | ⟨-, hfalse, -⟩
  · exact not_isLineBreak_of_isPrintable hprint
  · exact nomatch hfalse

theorem not_isLineBreak_dumps_iff (v : Json) :
    (∀ c ∈ dumps F false v, isLineBreak c = false) ↔
      ∀ c ∈ textChars v, 126 < c.toNat → isLineBreak c = false := by
  constructor
  · intro h c hc hlarge
    exact h c (mem_dumps F v hc hlarge)
  · intro h c hc
    rcases written_dumps F v hc with hprint | ⟨hmem, -, hlarge⟩
    · exact not_isLineBreak_of_isPrintable hprint
    · exact h c hmem hlarge

end Characters

/-! ### Journals -/

/-- The text is empty or its last line has its line feed. -/
def Ended (text : List Char) : Prop := text = [] ∨ text.getLast? = some '\n'

instance (text : List Char) : Decidable (Ended text) :=
  inferInstanceAs (Decidable (_ ∨ _))

theorem consLine_append {a : List (List Char)} (h : a ≠ []) (b : List (List Char)) :
    consLine c (a ++ b) = consLine c a ++ b := by
  cases a with
  | nil => exact absurd rfl h
  | cons line a => rfl

theorem splitlinesKeepends_ne_nil (h : text ≠ []) :
    splitlinesKeepends text ≠ [] := by
  intro hnil
  apply h
  rw [← flatten_splitlinesKeepends text, hnil]
  rfl

theorem splitlinesKeepends_append (h : Ended text) (more : List Char) :
    splitlinesKeepends (text ++ more) = splitlinesKeepends text ++ splitlinesKeepends more := by
  induction text with
  | nil => rfl
  | cons c cs ih =>
    have hlast : (c :: cs).getLast? = some '\n' := h.resolve_left (cons_ne_nil c cs)
    by_cases hcs : cs = []
    · subst hcs
      obtain rfl : c = '\n' := Option.some.inj hlast
      have hempty : ∀ d ∈ ([] : List Char), isLineBreak d = false := nofun
      exact splitlinesKeepends_line hempty more
    · have hended : Ended cs := by
        right
        rwa [getLast?_cons_of_ne_nil hcs] at hlast
      have hhead : (cs ++ more).head? = cs.head? := head?_append_of_ne_nil cs hcs
      show (if isLineBreak c ∧ ¬ (c = '\r' ∧ (cs ++ more).head? = some '\n') then
          [c] :: splitlinesKeepends (cs ++ more) else consLine c (splitlinesKeepends (cs ++ more))) =
        (if isLineBreak c ∧ ¬ (c = '\r' ∧ cs.head? = some '\n') then
          [c] :: splitlinesKeepends cs else consLine c (splitlinesKeepends cs)) ++
          splitlinesKeepends more
      rw [hhead, ih hended]
      split
      · rfl
      · exact consLine_append (splitlinesKeepends_ne_nil hcs) _

/-- The lines of a text cut behind one of them: both pieces have the lines that they hold. -/
theorem splitlinesKeepends_cut {a b : List (List Char)}
    (h : splitlinesKeepends text = a ++ b) :
    splitlinesKeepends a.flatten = a ∧ splitlinesKeepends b.flatten = b := by
  induction text generalizing a with
  | nil =>
    obtain ⟨rfl, rfl⟩ := append_eq_nil_iff.mp h.symm
    exact ⟨rfl, rfl⟩
  | cons c cs ih =>
    cases a with
    | nil =>
      have hb : splitlinesKeepends (c :: cs) = b := h
      exact ⟨rfl, by rw [← hb, flatten_splitlinesKeepends]⟩
    | cons line a =>
    have hdef : splitlinesKeepends (c :: cs) =
        if isLineBreak c ∧ ¬ (c = '\r' ∧ cs.head? = some '\n') then [c] :: splitlinesKeepends cs
        else consLine c (splitlinesKeepends cs) := rfl
    rw [hdef] at h
    split at h
    · next hbreak =>
      obtain ⟨rfl, hrest⟩ := List.cons.inj h
      have hrest : splitlinesKeepends cs = a ++ b := hrest
      obtain ⟨ha, hb⟩ := ih hrest
      refine ⟨?_, hb⟩
      -- what follows the boundary in the piece follows it in the text
      have hhead : ¬ (c = '\r' ∧ a.flatten.head? = some '\n') := by
        rintro ⟨hc, hnext⟩
        apply hbreak.2
        refine ⟨hc, ?_⟩
        rw [← flatten_splitlinesKeepends cs, hrest, flatten_append]
        rw [head?_append, hnext]
        rfl
      show (if isLineBreak c ∧ ¬ (c = '\r' ∧ a.flatten.head? = some '\n') then
        [c] :: splitlinesKeepends a.flatten else consLine c (splitlinesKeepends a.flatten)) = [c] :: a
      rw [if_pos ⟨hbreak.1, hhead⟩, ha]
    · next hkeep =>
      cases hlines : splitlinesKeepends cs with
      | nil =>
        rw [hlines] at h
        obtain ⟨rfl, hnil⟩ := List.cons.inj h
        obtain ⟨rfl, rfl⟩ := append_eq_nil_iff.mp hnil.symm
        have hcs : cs = [] := by rw [← flatten_splitlinesKeepends cs, hlines]; rfl
        rw [hcs, if_neg (hcs ▸ hkeep)] at hdef
        exact ⟨hdef, rfl⟩
      | cons first rest =>
        rw [hlines] at h
        obtain ⟨rfl, hrest⟩ := List.cons.inj h
        have hrest : rest = a ++ b := hrest
        have hcs : splitlinesKeepends cs = (first :: a) ++ b := by rw [hlines, hrest]; rfl
        obtain ⟨ha, hb⟩ := ih hcs
        refine ⟨?_, hb⟩
        have hfirst : first ≠ [] := ne_nil_of_mem_splitlinesKeepends (hlines ▸ mem_cons_self)
        have hhead : (first :: a).flatten.head? = cs.head? := by
          rw [← flatten_splitlinesKeepends cs, hlines, flatten_cons, flatten_cons,
            head?_append_of_ne_nil first hfirst, head?_append_of_ne_nil first hfirst]
        show (if isLineBreak c ∧ ¬ (c = '\r' ∧ (first :: a).flatten.head? = some '\n') then
          [c] :: splitlinesKeepends (first :: a).flatten
          else consLine c (splitlinesKeepends (first :: a).flatten)) = (c :: first) :: a
        rw [hhead, if_neg hkeep, ha]
        rfl

section Journal

variable (F : FloatText)

/-- The documents a reader finds that takes one line at a time and skips those it cannot
    parse. -/
def parsedLines (text : List Char) : List Json := (splitlines text).filterMap (loads F)

variable {F}

theorem parsedLines_append {text : List Char} (h : Ended text) (more : List Char) :
    parsedLines F (text ++ more) = parsedLines F text ++ parsedLines F more := by
  unfold parsedLines splitlines
  rw [splitlinesKeepends_append h, map_append, filterMap_append]

variable {line : List Char} {fields : JsonObject}

theorem parsedLines_newline (h : ∀ c ∈ line, isLineBreak c = false)
    (hne : line ≠ []) : parsedLines F (line ++ ['\n']) = parsedLines F line := by
  unfold parsedLines splitlines
  rw [splitlinesKeepends_line h, splitlinesKeepends_tail h hne]
  simp only [splitlinesKeepends, map_cons, map_nil, dropLineEnd_newline h,
    dropLineEnd_of_not_isLineBreak h]

theorem parsedLines_single (h : ∀ c ∈ line, isLineBreak c = false)
    (hne : line ≠ []) : parsedLines F line = (loads F line).toList := by
  unfold parsedLines splitlines
  rw [splitlinesKeepends_tail h hne]
  simp only [map_cons, map_nil, dropLineEnd_of_not_isLineBreak h]
  cases hload : loads F line with
  | none => simp [hload]
  | some v => simp [hload]

theorem dumps_obj_ne_nil (ensureAscii : Bool) (fields : JsonObject) :
    dumps F ensureAscii (.obj fields) ≠ [] := by
  obtain ⟨body, hbody⟩ := dumps_obj_ends (F := F) ensureAscii fields
  rw [hbody]
  exact cons_ne_nil _ _

theorem parsedLines_record (hv : keysUnique (.obj fields)) :
    parsedLines F (dumps F true (.obj fields) ++ ['\n']) = [.obj fields] := by
  have hline := not_isLineBreak_dumps_ascii (F := F) (.obj fields)
  rw [parsedLines_newline hline (dumps_obj_ne_nil true fields),
    parsedLines_single hline (dumps_obj_ne_nil true fields), loads_dumps true hv]
  rfl

/-- A record that a crash cut short is skipped, unless only its line feed is missing. -/
theorem parsedLines_cut (hv : keysUnique (.obj fields)) {cut : List Char}
    (hcut : cut <+: dumps F true (.obj fields) ++ ['\n']) :
    parsedLines F cut = [] ∨ parsedLines F cut = [.obj fields] := by
  have hline := not_isLineBreak_dumps_ascii (F := F) (.obj fields)
  obtain ⟨rest, hrest⟩ := hcut
  rcases eq_nil_or_concat rest with rfl | ⟨rest, c, rfl⟩
  · right
    rw [append_nil] at hrest
    rw [hrest]
    exact parsedLines_record hv
  · rw [concat_eq_append, ← append_assoc] at hrest
    obtain ⟨hrest, -⟩ := append_inj' hrest rfl
    by_cases hcut : cut = []
    · subst hcut
      exact .inl rfl
    · have hcutLine : ∀ c ∈ cut, isLineBreak c = false := by
        intro c hc
        exact hline c (hrest ▸ mem_append_left rest hc)
      rw [parsedLines_single hcutLine hcut]
      by_cases hnil : rest = []
      · right
        rw [hnil, append_nil] at hrest
        rw [hrest, loads_dumps true hv]
        rfl
      · left
        rw [loads_cut true hv hrest hnil]
        rfl

end Journal

end Codify.Framework.JsonText

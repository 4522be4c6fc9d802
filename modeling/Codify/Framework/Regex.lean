import Mathlib.Data.List.Basic

/-! # Backtracking Regular Expressions

    Patterns as Python's `re` matches them: a pattern yields its matches in the
    order in which a backtracking matcher tries them, and the first one counts. A
    substitution goes through a text from the left and replaces the matches that do
    not overlap.

    * **Pieces**: a substitution cuts the text into the characters it keeps and the
      stretches it replaces (`pieces`).
    * **Result**: `olds_pieces`, the pieces are the text.
-/

namespace Codify.Framework.Regex

open List Option

/-- A pattern. -/
inductive Pattern where
  /-- Nothing. -/
  | empty
  /-- One character of a class. -/
  | one (p : Char → Bool)
  /-- `p{least,most}`: a run of a class, the longest one first if greedy. -/
  | many (p : Char → Bool) (least : Nat) (most : Option Nat) (greedy : Bool)
  | seq (first second : Pattern)
  /-- The first alternative is tried first. -/
  | alt (first second : Pattern)
  /-- `(...)?`. -/
  | optional (body : Pattern)
  /-- `(...)`, the only group. -/
  | group (body : Pattern)
  /-- `\b` for a class of word characters. -/
  | boundary (word : Char → Bool)
  /-- `(?<!p)`. -/
  | notBehind (p : Char → Bool)
  /-- `(?!p)`. -/
  | notAhead (p : Char → Bool)

/-- A position of the matcher. -/
structure Cursor where
  /-- The character before the position. -/
  before : Option Char
  /-- The text behind it. -/
  rest : List Char
  /-- How much has been matched. -/
  taken : Nat
  /-- The group: where it starts and ends. -/
  captured : Option (Nat × Nat)

/-- The position `n` characters on. -/
def Cursor.advance (c : Cursor) (n : Nat) : Cursor :=
  { c with
    before := ((c.rest.take n).getLast?).or c.before
    rest := c.rest.drop n
    taken := c.taken + n }

/-- The lengths of a run, in the order in which they are tried. -/
def runLengths (p : Char → Bool) (least : Nat) (most : Option Nat) (greedy : Bool)
    (text : List Char) : List Nat :=
  let longest := (text.takeWhile p).length
  let longest := (most.map (min longest)).getD longest
  let lengths := List.range' least (longest + 1 - least)
  if greedy then lengths.reverse else lengths

/-- The positions behind the matches of a pattern, in the order in which they are tried. -/
def Pattern.ends : Pattern → Cursor → List Cursor
  | .empty, c => [c]
  | .one p, c => if c.rest.head?.any p then [c.advance 1] else []
  | .many p least most greedy, c => (runLengths p least most greedy c.rest).map c.advance
  | .seq first second, c => (first.ends c).flatMap second.ends
  | .alt first second, c => first.ends c ++ second.ends c
  | .optional body, c => body.ends c ++ [c]
  | .group body, c => (body.ends c).map fun d => { d with captured := some (c.taken, d.taken) }
  | .boundary word, c => if c.before.any word != c.rest.head?.any word then [c] else []
  | .notBehind p, c => if c.before.any p then [] else [c]
  | .notAhead p, c => if c.rest.head?.any p then [] else [c]

/-- A match: its text and its group. -/
structure Match where
  text : List Char
  captured : Option (Nat × Nat)

/-- `match.group(1)`. -/
def Match.group (m : Match) : List Char :=
  match m.captured with
  | some (start, stop) => (m.text.take stop).drop start
  | none => []

variable (p : Pattern)

/-- The match at a position; a match of nothing does not count. -/
def Pattern.matchAt (before : Option Char) (text : List Char) : Option Match :=
  ((p.ends ⟨before, text, 0, none⟩).head?.filter (0 < ·.taken)).map fun c =>
    ⟨text.take c.taken, c.captured⟩

variable (replace : Match → List Char) (text : List Char)

/-- `pattern.fullmatch(text)`, as a truth value. -/
def Pattern.fullmatch : Bool := (p.ends ⟨none, text, 0, none⟩).any (·.rest.isEmpty)

/-- A text as it stands, each character in a class of its own. -/
def literal (same : Char → Char → Bool) (text : String) : Pattern :=
  text.toList.foldr (fun c p => .seq (.one (same c)) p) .empty

/-- `p{count}`. -/
def exactly (p : Char → Bool) (count : Nat) : Pattern := .many p count (some count) true

/-- `p{least,}`. -/
def atLeast (p : Char → Bool) (least : Nat) : Pattern := .many p least none true

def sequence (ps : List Pattern) : Pattern := ps.foldr .seq .empty

def anyOf : List Pattern → Pattern
  | [] => .one fun _ => false
  | [p] => p
  | p :: rest => .alt p (anyOf rest)

/-- A stretch of a text and what a substitution makes of it. -/
abbrev Piece := List Char × List Char

/-- The pieces behind `skip` characters that belong to a match. -/
def piecesFrom (p : Pattern) (replace : Match → List Char) :
    Nat → Option Char → List Char → List Piece
  | _, _, [] => []
  | skip + 1, _, c :: rest => piecesFrom p replace skip (some c) rest
  | 0, before, c :: rest =>
    match p.matchAt before (c :: rest) with
    | some m => (m.text, replace m) :: piecesFrom p replace (m.text.length - 1) (some c) rest
    | none => ([c], [c]) :: piecesFrom p replace 0 (some c) rest

def pieces : List Piece := piecesFrom p replace 0 none text

/-- `pattern.sub(replace, text)`. -/
def sub : List Char := (pieces p replace text).flatMap (·.2)

/-! ### Pieces -/

theorem matchAt_prefix {p : Pattern} {before : Option Char} {c : Char} {rest : List Char} {m : Match}
    (h : p.matchAt before (c :: rest) = some m) : ∃ more, m.text = c :: more ∧ more <+: rest := by
  unfold Pattern.matchAt at h
  obtain ⟨cursor, hcursor, rfl⟩ := map_eq_some_iff.mp h
  obtain ⟨-, htaken⟩ := filter_eq_some_iff.mp hcursor
  simp only [decide_eq_true_eq] at htaken
  obtain ⟨n, hn⟩ := Nat.exists_eq_succ_of_ne_zero (Nat.ne_of_gt htaken)
  refine ⟨rest.take n, ?_, take_prefix n rest⟩
  show (c :: rest).take cursor.taken = _
  rw [hn, take_succ_cons]

theorem olds_piecesFrom (skip : Nat) (before : Option Char) (text : List Char) :
    (piecesFrom p replace skip before text).flatMap (·.1) = text.drop skip := by
  induction text generalizing skip before with
  | nil => simp [piecesFrom]
  | cons c rest ih =>
    cases skip with
    | succ n => exact ih n (some c)
    | zero =>
      unfold piecesFrom
      split
      · next m hm =>
        obtain ⟨more, hmore, tail, rfl⟩ := matchAt_prefix hm
        rw [flatMap_cons, ih, hmore]
        simp
      · rw [flatMap_cons, ih]
        simp

/-- **Pieces**: the stretches of a text, kept and replaced, are the text. -/
theorem olds_pieces : (pieces p replace text).flatMap (·.1) = text := by
  rw [pieces, olds_piecesFrom, drop_zero]

theorem mem_piecesFrom {p : Pattern} {replace : Match → List Char} {skip : Nat}
    {before : Option Char} {text : List Char} {piece : Piece}
    (h : piece ∈ piecesFrom p replace skip before text) :
    (∃ c, piece = ([c], [c])) ∨
      ∃ before rest m, p.matchAt before rest = some m ∧ piece = (m.text, replace m) := by
  induction text generalizing skip before with
  | nil => cases h
  | cons c rest ih =>
    cases skip with
    | succ n => exact ih h
    | zero =>
      unfold piecesFrom at h
      split at h
      · next m hm =>
        rcases mem_cons.mp h with rfl | h
        · exact .inr ⟨before, c :: rest, m, hm, rfl⟩
        · exact ih h
      · rcases mem_cons.mp h with rfl | h
        · exact .inl ⟨c, rfl⟩
        · exact ih h

end Codify.Framework.Regex

import Mathlib.Data.List.Lex
import Codify.Framework.Json

/-! # Version Ranges

    `in_range` of deploy/worker-entrypoint/harness/version_range.py splits a range at
    whitespace and asks each expression; one that does not parse is satisfied. The expression
    grammar allows whitespace between an operator and its version, where `split` has cut the
    two apart: the operator alone is then satisfied, and the version alone asks for equality.

    * **Ranges**: comparators between separators, each with a gap behind its operator (`Range`).
    * **Result**: what the gaps do to a range (`inRange_iff`), and when they do no harm.
-/

namespace Codify.Harness.VersionRange

open Codify.Framework List

/-- The decimal digits of the Unicode database, as `\d` and `int` know them. -/
structure Decimals where
  value : Char → Option Nat
  /-- In ASCII they are the ten digits. -/
  ascii : ∀ c : Char, c.toNat < 128 →
    value c = if c.isDigit then some (c.toNat - 48) else none

variable (D : Decimals)

/-! ### The Check -/

/-- The longest stretches without a separator: `split` and `re.findall`. -/
def fields (separator : Char → Bool) (text : List Char) : List (List Char) :=
  (text.splitOnP separator).filter (· ≠ [])

/-- `int(part)`. -/
def int (part : List Char) : Nat := part.foldl (fun n c => 10 * n + (D.value c).getD 0) 0

/-- `re.findall(r"\d+", version)`, as numbers. -/
def numbers (version : List Char) : List Nat :=
  (fields (fun c => (D.value c).isNone) version).map (int D)

/-- `_components`. -/
def components (version : List Char) : List Nat := (numbers D version).take 3

/-- `while len(a) < 3: a = a + (0,)`. -/
def pad (a : List Nat) : List Nat := a ++ replicate (3 - a.length) 0

/-- `_compare`. -/
def compare (a b : List Nat) : Int :=
  (if pad b < pad a then 1 else 0) - (if pad a < pad b then 1 else 0)

inductive Operator where
  | ge
  | le
  | gt
  | lt
  | eq
  deriving DecidableEq, Repr

def takeOperator : List Char → Option Operator × List Char
  | '>' :: '=' :: rest => (some .ge, rest)
  | '<' :: '=' :: rest => (some .le, rest)
  | '>' :: rest => (some .gt, rest)
  | '<' :: rest => (some .lt, rest)
  | '=' :: rest => (some .eq, rest)
  | text => (none, text)

/-- `[0-9]+(?:\.[0-9]+){0,2}`. -/
def isVersion (text : List Char) : Bool :=
  (text.splitOn '.').length ≤ 3 && (text.splitOn '.').all fun part => part ≠ [] && part.all Char.isDigit

def parseExpression (expr : List Char) : Option (Operator × List Nat) :=
  let version := (takeOperator expr).2.dropWhile isSpace
  if isVersion version then some ((takeOperator expr).1.getD .eq, components D version) else none

/-- Whether the loop goes on after a comparison with the result `c`. -/
def Operator.admits (c : Int) : Operator → Bool
  | .ge => !(c < 0)
  | .gt => !(c ≤ 0)
  | .le => !(c > 0)
  | .lt => !(c ≥ 0)
  | .eq => !(c ≠ 0)

/-- The loop body: an expression that does not parse is satisfied. -/
def meets (version expr : List Char) : Bool :=
  match parseExpression D expr with
  | none => true
  | some (op, target) => op.admits (compare (components D version) target)

def inRange (version rangeSpec : List Char) : Bool :=
  if rangeSpec = [] ∨ version = [] then true
  else (fields isSpace rangeSpec).all (meets D version)

/-! ### Versions and Ranges -/

/-- A version with one to three numeric components. -/
structure Version where
  text : List Char
  count : 1 ≤ (numbers D text).length ∧ (numbers D text).length ≤ 3

/-- The zero-padded triple. -/
def Version.triple {D : Decimals} (v : Version D) : List Nat := pad (numbers D v.text)

/-- The version of a comparator: one to three digit strings. -/
structure Target where
  parts : List (List Char)
  count : 1 ≤ parts.length ∧ parts.length ≤ 3
  digits : ∀ part ∈ parts, part ≠ [] ∧ ∀ c ∈ part, c.isDigit = true

def Target.text (t : Target) : List Char := ['.'].intercalate t.parts

def Target.triple (t : Target) : List Nat := pad (t.parts.map (int D))

def Operator.text : Operator → List Char
  | .ge => ['>', '=']
  | .le => ['<', '=']
  | .gt => ['>']
  | .lt => ['<']
  | .eq => ['=']

/-- A comparator, with the whitespace between its operator and its version. -/
structure Comparator where
  operator : Option Operator
  gap : List Char
  space : ∀ c ∈ gap, isSpace c = true
  version : Target

namespace Comparator

variable (c : Comparator) (triple : List Nat)

def text : List Char := (c.operator.elim [] Operator.text) ++ c.gap ++ c.version.text

def op : Operator := c.operator.getD .eq

/-- The triple satisfies the comparator. -/
def Holds : Prop :=
  match c.op with
  | .ge => c.version.triple D ≤ triple
  | .le => triple ≤ c.version.triple D
  | .gt => c.version.triple D < triple
  | .lt => triple < c.version.triple D
  | .eq => triple = c.version.triple D

/-- The triple is the one the comparator names. -/
abbrev At : Prop := triple = c.version.triple D

def Strict : Prop := c.op = .gt ∨ c.op = .lt

/-- An operator other than `=`, cut off from its version. -/
def Detached : Prop := c.gap ≠ [] ∧ c.op ≠ .eq

/-- What the check asks of the triple. -/
def Reads : Prop := (c.Detached → c.At D triple) ∧ (¬ c.Detached → c.Holds D triple)

end Comparator

/-- Whitespace between two comparators. -/
def Separator : Type := { sep : List Char // sep ≠ [] ∧ ∀ c ∈ sep, isSpace c = true }

/-- A range: comparators separated by whitespace. -/
structure Range where
  first : Option Comparator
  rest : List (Separator × Comparator)

namespace Range

variable (r : Range)

def comparators : List Comparator := r.first.toList ++ r.rest.map (·.2)

/-- The range without its gaps. -/
def bare : List (Option Operator × Target) := r.comparators.map fun c => (c.operator, c.version)

def text : List Char :=
  r.first.elim [] Comparator.text ++ r.rest.flatMap fun p => p.1.1 ++ p.2.text

variable {D} (v : Version D)

/-- The range means its comparators. -/
def Faithful : Prop :=
  inRange D v.text r.text = true ↔ ∀ c ∈ r.comparators, c.Holds D v.triple

/-- An attached comparator fails; or each detached one names the version and allows it; or one
    does not, and some comparator fails. -/
def WellWritten : Prop :=
  (∃ c ∈ r.comparators, ¬ c.Detached ∧ ¬ c.Holds D v.triple) ∨
    (∀ c ∈ r.comparators, c.Detached → c.At D v.triple ∧ ¬ c.Strict) ∨
      (∃ c ∈ r.comparators, c.Detached ∧ ¬ c.At D v.triple) ∧
        ∃ c ∈ r.comparators, ¬ c.Holds D v.triple

/-- Every comparator is satisfied, and one with an order names the version itself; or one fails
    that names another version. -/
def Indifferent : Prop :=
  (∀ c ∈ r.comparators, c.Holds D v.triple ∧ (c.op ≠ .eq → c.At D v.triple)) ∨
    ∃ c ∈ r.comparators, ¬ c.Holds D v.triple ∧ ¬ c.At D v.triple

end Range

/-! ### Tokens -/

section Fields

variable {p : Char → Bool} {sep : Char} {word : List Char}

theorem fields_append (h : p sep = true) (a b : List Char) :
    fields p (a ++ sep :: b) = fields p a ++ fields p b := by
  rw [fields, splitOnP_append_cons a b h, filter_append]
  rfl

theorem fields_word (h : ∀ c ∈ word, p c = false) (hne : word ≠ []) : fields p word = [word] := by
  rw [fields, splitOnP_eq_singleton h]
  simpa using hne

theorem fields_space {space : List Char} (h : ∀ c ∈ space, p c = true) (text : List Char) :
    fields p (space ++ text) = fields p text := by
  induction space with
  | nil => rfl
  | cons c space ih =>
    rw [forall_mem_cons] at h
    exact (fields_append h.1 [] (space ++ text)).trans (ih h.2)

theorem fields_intercalate (hsep : p sep = true) {parts : List (List Char)}
    (h : ∀ part ∈ parts, part ≠ [] ∧ ∀ c ∈ part, p c = false) :
    fields p ([sep].intercalate parts) = parts := by
  induction parts with
  | nil => rfl
  | cons part rest ih =>
    rw [forall_mem_cons] at h
    have hpart := fields_word h.1.2 h.1.1
    cases rest with
    | nil => simpa using hpart
    | cons next rest =>
      rw [intercalate_cons_cons, append_assoc, singleton_append, fields_append hsep, hpart, ih h.2]
      rfl

end Fields

theorem toNat_of_isDigit {c : Char} (h : c.isDigit = true) : 48 ≤ c.toNat ∧ c.toNat ≤ 57 :=
  Char.isDigit_iff_toNat.mp h

variable {D}

theorem Decimals.isSome_of_isDigit {c : Char} (h : c.isDigit = true) :
    (D.value c).isNone = false := by
  have hle := (toNat_of_isDigit h).2
  rw [D.ascii c (by omega), if_pos h]
  rfl

variable (t : Target)

theorem Target.mem_text {c : Char} (h : c ∈ t.text) : c = '.' ∨ c.isDigit = true := by
  have hparts : ∀ parts : List (List Char), c ∈ ['.'].intercalate parts →
      c = '.' ∨ ∃ part ∈ parts, c ∈ part := by
    intro parts
    induction parts with
    | nil => exact fun h => nomatch h
    | cons part rest ih =>
      cases rest with
      | nil => exact fun h => .inr ⟨part, mem_cons_self, by simpa using h⟩
      | cons next rest =>
        rw [intercalate_cons_cons, mem_append, mem_append, mem_singleton]
        rintro ((h | h) | h)
        · exact .inr ⟨part, mem_cons_self, h⟩
        · exact .inl h
        · exact (ih h).imp_right fun ⟨part, hpart, hc⟩ => ⟨part, mem_cons_of_mem _ hpart, hc⟩
  exact (hparts t.parts h).imp_right fun ⟨part, hpart, hc⟩ => (t.digits part hpart).2 c hc

theorem Target.isSpace_text : ∀ c ∈ t.text, isSpace c = false := by
  intro c hc
  rcases t.mem_text hc with rfl | hdigit
  · decide
  · have hrange := toNat_of_isDigit hdigit
    unfold isSpace
    simp only [Bool.or_eq_false_iff, Bool.and_eq_false_iff, decide_eq_false_iff_not,
      beq_eq_false_iff_ne]
    omega

theorem Target.text_eq_cons : ∃ c rest, t.text = c :: rest ∧ c.isDigit = true := by
  obtain ⟨part, rest, hparts⟩ := exists_cons_of_ne_nil (length_pos_iff.mp t.count.1)
  have hpart := t.digits part (hparts ▸ mem_cons_self)
  obtain ⟨c, cs, rfl⟩ := exists_cons_of_ne_nil hpart.1
  have hhead : ∃ more, t.text = c :: more := by
    rw [Target.text, hparts]
    cases rest with
    | nil => exact ⟨cs, intercalate_singleton⟩
    | cons next rest => exact ⟨_, by rw [intercalate_cons_cons, append_assoc, cons_append]⟩
  obtain ⟨more, hmore⟩ := hhead
  exact ⟨c, more, hmore, hpart.2 c mem_cons_self⟩

theorem isVersion_text : isVersion t.text = true := by
  have hsplit : t.text.splitOn '.' = t.parts := by
    refine splitOn_intercalate '.' (fun part hpart hdot => ?_) (length_pos_iff.mp t.count.1)
    exact absurd ((t.digits part hpart).2 '.' hdot) (by decide)
  rw [isVersion, hsplit]
  simpa [t.count.2] using t.digits

theorem numbers_text : numbers D t.text = t.parts.map (int D) := by
  have hdot : (D.value '.').isNone = true := by
    rw [D.ascii '.' (by decide), if_neg (by decide)]
    rfl
  rw [numbers, Target.text, fields_intercalate hdot]
  exact fun part hpart => ⟨(t.digits part hpart).1,
    fun c hc => Decimals.isSome_of_isDigit ((t.digits part hpart).2 c hc)⟩

theorem components_text : components D t.text = t.parts.map (int D) := by
  rw [components, numbers_text, take_of_length_le (by simpa using t.count.2)]

/-! ### Comparators -/

variable (c : Comparator) (v : Version D)

theorem takeOperator_text (operator : Option Operator) :
    takeOperator (operator.elim [] Operator.text ++ t.text) = (operator, t.text) := by
  obtain ⟨d, rest, htext, hdigit⟩ := t.text_eq_cons
  have hne : d ≠ '=' ∧ d ≠ '>' ∧ d ≠ '<' := by
    refine ⟨?_, ?_, ?_⟩ <;> rintro rfl <;> exact absurd hdigit (by decide)
  rw [htext]
  rcases operator with _ | _ | _ | _ | _ | _ <;>
    simp [takeOperator, Operator.text, hne.1, hne.2.1, hne.2.2]

theorem parseExpression_text (operator : Option Operator) :
    parseExpression D (operator.elim [] Operator.text ++ t.text) =
      some (operator.getD .eq, t.parts.map (int D)) := by
  have hdrop : t.text.dropWhile isSpace = t.text := by
    obtain ⟨d, rest, htext, -⟩ := t.text_eq_cons
    have hspace := t.isSpace_text d (htext ▸ mem_cons_self)
    rw [htext, dropWhile_cons_of_neg (by simp [hspace])]
  simp only [parseExpression, takeOperator_text, hdrop, isVersion_text, components_text, if_true]

theorem meets_text (operator : Option Operator) {c : Comparator} (hop : operator.getD .eq = c.op) :
    meets D v.text (operator.elim [] Operator.text ++ c.version.text) = true ↔
      c.Holds D v.triple := by
  have hcomponents : components D v.text = numbers D v.text := take_of_length_le v.count.2
  rw [meets, parseExpression_text, hcomponents, hop]
  unfold Comparator.Holds
  change c.op.admits ((if c.version.triple D < v.triple then 1 else 0) -
    (if v.triple < c.version.triple D then 1 else 0)) = true ↔ _
  generalize v.triple = triple, c.version.triple D = target
  rcases lt_trichotomy triple target with h | rfl | h
  · cases c.op <;> simp [Operator.admits, h, h.not_gt, h.not_ge, h.le, h.ne]
  · cases c.op <;> simp [Operator.admits]
  · cases c.op <;> simp [Operator.admits, h, h.not_gt, h.not_ge, h.le, h.ne']

variable {c} {triple : List Nat}

theorem Comparator.holds_iff_at (h : c.op = .eq) : c.Holds D triple ↔ c.At D triple := by
  rw [Comparator.Holds, h]

theorem Comparator.reads_iff_at (h : c.Detached) : c.Reads D triple ↔ c.At D triple :=
  ⟨fun hreads => hreads.1 h, fun hat => ⟨fun _ => hat, fun hnot => absurd h hnot⟩⟩

theorem Comparator.reads_iff_holds (h : ¬ c.Detached) : c.Reads D triple ↔ c.Holds D triple :=
  ⟨fun hreads => hreads.2 h, fun hholds => ⟨fun hdetached => absurd hdetached h, fun _ => hholds⟩⟩

theorem meets_operator (o : Operator) (version : List Char) : meets D version o.text = true := by
  cases o <;> rfl

variable (c)

/-- **Comparators**: the check asks for the comparator, or for equality where its operator is
    detached. -/
theorem comparator_iff :
    (fields isSpace c.text).all (meets D v.text) = true ↔ c.Reads D v.triple := by
  obtain ⟨d, rest, htext, -⟩ := c.version.text_eq_cons
  have hspace := c.space
  rw [Comparator.text]
  cases hgap : c.gap with
  | nil =>
    have hword : fields isSpace (c.operator.elim [] Operator.text ++ c.version.text) =
        [c.operator.elim [] Operator.text ++ c.version.text] := by
      refine fields_word (fun d hd => ?_) (by simp [htext])
      rcases mem_append.mp hd with hd | hd
      · have hall : ∀ o : Option Operator, (o.elim [] Operator.text).all (!isSpace ·) = true := by
          rintro (_ | _ | _ | _ | _ | _) <;> decide
        simpa using all_eq_true.mp (hall c.operator) d hd
      · exact c.version.isSpace_text d hd
    rw [append_nil, hword, all_cons, all_nil, Bool.and_true, meets_text v c.operator rfl,
      Comparator.reads_iff_holds fun h => h.1 hgap]
  | cons space more =>
    rw [hgap, forall_mem_cons] at hspace
    have hversion : fields isSpace c.version.text = [c.version.text] :=
      fields_word c.version.isSpace_text (by simp [htext])
    -- the version alone is read as a comparator without an operator
    have hat : meets D v.text c.version.text = true ↔ c.At D v.triple :=
      meets_text (c := ⟨none, [], by simp, c.version⟩) v none rfl
    have hreads : c.Reads D v.triple ↔ c.At D v.triple := by
      by_cases heq : c.op = .eq
      · rw [Comparator.reads_iff_holds fun h => h.2 heq, Comparator.holds_iff_at heq]
      · exact Comparator.reads_iff_at ⟨by simp [hgap], heq⟩
    rw [hreads, ← hat]
    cases c.operator with
    | none =>
      rw [Option.elim_none, nil_append, fields_space (by simpa using hspace), hversion, all_cons,
        all_nil, Bool.and_true]
    | some o =>
      have hword : fields isSpace o.text = [o.text] :=
        fields_word (by cases o <;> simp [Operator.text, isSpace]) (by cases o <;> decide)
      rw [Option.elim_some, append_assoc, cons_append, fields_append hspace.1, hword,
        fields_space hspace.2, hversion, singleton_append, all_cons, all_cons, all_nil,
        meets_operator, Bool.true_and, Bool.and_true]

theorem fields_range (parts : List (Separator × Comparator)) (text : List Char) :
    fields isSpace (text ++ parts.flatMap fun p => p.1.1 ++ p.2.text) =
      fields isSpace text ++ parts.flatMap fun p => fields isSpace p.2.text := by
  induction parts generalizing text with
  | nil => simp
  | cons p rest ih =>
    obtain ⟨⟨_ | ⟨space, more⟩, hne, hspace⟩, c⟩ := p
    · exact absurd rfl hne
    · rw [forall_mem_cons] at hspace
      rw [flatMap_cons, flatMap_cons, cons_append, cons_append, fields_append hspace.1, append_assoc,
        fields_space hspace.2, ih]

/-- **Ranges**: the check asks each comparator, as it reads it. -/
theorem inRange_iff (r : Range) :
    inRange D v.text r.text = true ↔ ∀ c ∈ r.comparators, c.Reads D v.triple := by
  have hne : v.text ≠ [] := by
    intro h
    have hcount := v.count.1
    rw [h] at hcount
    exact absurd hcount (Nat.lt_irrefl 0)
  have hall : (fields isSpace r.text).all (meets D v.text) = true ↔
      ∀ c ∈ r.comparators, c.Reads D v.triple := by
    have hrest : (r.rest.flatMap fun p => fields isSpace p.2.text).all (meets D v.text) = true ↔
        ∀ p ∈ r.rest, p.2.Reads D v.triple := by
      rw [all_flatMap, all_eq_true]
      exact forall₂_congr fun p _ => comparator_iff p.2 v
    rw [Range.text, fields_range, all_append, Bool.and_eq_true, hrest, Range.comparators,
      forall_mem_append, forall_mem_map]
    refine and_congr_left' ?_
    cases r.first with
    | none => simp [fields]
    | some c => simpa using comparator_iff c v
  rw [inRange]
  split
  · next h =>
    have hrange := h.resolve_right hne
    rw [hrange] at hall
    exact hall
  · exact hall

/-! ### Gaps -/

section Gaps

variable {c c' : Comparator}

theorem Comparator.holds_iff_not_strict (h : c.At D triple) :
    c.Holds D triple ↔ ¬ c.Strict := by
  unfold Comparator.At at h
  subst h
  unfold Comparator.Holds Comparator.Strict
  cases c.op <;> simp

def Comparator.respaced (p : Comparator → Bool) (c : Comparator) : Comparator :=
  { c with
    gap := if p c then [' '] else []
    space := by cases p c <;> simp [isSpace] }

theorem Comparator.same_of_bare (triple : List Nat)
    (h : (c'.operator, c'.version) = (c.operator, c.version)) :
    c'.op = c.op ∧ (c'.Holds D triple ↔ c.Holds D triple) ∧ (c'.At D triple ↔ c.At D triple) := by
  obtain ⟨hoperator, hversion⟩ := Prod.mk.inj h
  have hop : c'.op = c.op := by rw [Comparator.op, hoperator, Comparator.op]
  exact ⟨hop, by rw [Comparator.Holds, hop, hversion, Comparator.Holds],
    by unfold Comparator.At; rw [hversion]⟩

/-- The range with one space behind the operators where `p` holds, and none behind the others. -/
def Range.respaced (p : Comparator → Bool) (r : Range) : Range :=
  ⟨r.first.map (·.respaced p), r.rest.map (Prod.map id (·.respaced p))⟩

theorem comparators_respaced (p : Comparator → Bool) (r : Range) :
    (r.respaced p).comparators = r.comparators.map (·.respaced p) := by
  cases h : r.first <;> simp [Range.comparators, Range.respaced, h]

theorem reads_respaced (p : Comparator → Bool) (c : Comparator) :
    (c.respaced p).Reads D triple ↔ if p c then c.At D triple else c.Holds D triple := by
  cases hp : p c with
  | false => exact Comparator.reads_iff_holds fun h => h.1 (by simp [Comparator.respaced, hp])
  | true =>
    by_cases heq : c.op = .eq
    · exact (Comparator.reads_iff_holds (c := c.respaced p) fun h => h.2 heq).trans
        (Comparator.holds_iff_at heq)
    · exact Comparator.reads_iff_at (c := c.respaced p) ⟨by simp [Comparator.respaced, hp], heq⟩

/-- **One spacing**: the range as it is written. -/
theorem faithful_iff (v : Version D) (r : Range) : r.Faithful v ↔ r.WellWritten v := by
  unfold Range.Faithful Range.WellWritten
  rw [inRange_iff]
  constructor
  · intro h
    by_cases hall : ∀ c ∈ r.comparators, c.Holds D v.triple
    · right; left
      intro c hc hdetached
      have hat := (h.mpr hall c hc).1 hdetached
      exact ⟨hat, (Comparator.holds_iff_not_strict hat).mp (hall c hc)⟩
    · have hread : ¬ ∀ c ∈ r.comparators, c.Reads D v.triple := fun hread => hall (h.mp hread)
      push Not at hread hall
      obtain ⟨c, hc, hread⟩ := hread
      by_cases hdetached : c.Detached
      · rw [Comparator.reads_iff_at hdetached] at hread
        exact .inr (.inr ⟨⟨c, hc, hdetached, hread⟩, hall⟩)
      · rw [Comparator.reads_iff_holds hdetached] at hread
        exact .inl ⟨c, hc, hdetached, hread⟩
  · rintro (⟨c, hc, hdetached, hfails⟩ | hall | ⟨⟨c, hc, hdetached, hat⟩, c', hc', hfails⟩)
    · exact iff_of_false (fun h => hfails ((h c hc).2 hdetached)) fun h => hfails (h c hc)
    · refine forall₂_congr fun c hc => ?_
      by_cases hdetached : c.Detached
      · obtain ⟨hat, hstrict⟩ := hall c hc hdetached
        exact iff_of_true ((Comparator.reads_iff_at hdetached).mpr hat)
          ((Comparator.holds_iff_not_strict hat).mpr hstrict)
      · exact Comparator.reads_iff_holds hdetached
    · exact iff_of_false (fun h => hat ((h c hc).1 hdetached)) fun h => hfails (h c' hc')

/-- **Every spacing**: the comparators of the range, however they are spaced. -/
theorem faithful_spaced_iff (v : Version D) (r : Range) :
    (∀ r' : Range, r'.bare = r.bare → r'.Faithful v) ↔ r.Indifferent v := by
  constructor
  · intro h
    have hspaced (p : Comparator → Bool) :
        (∀ c ∈ r.comparators, if p c then c.At D v.triple else c.Holds D v.triple) ↔
          ∀ c ∈ r.comparators, c.Holds D v.triple := by
      have hp := h (r.respaced p) (by rw [Range.bare, comparators_respaced, map_map]; rfl)
      rw [Range.Faithful, inRange_iff, comparators_respaced, forall_mem_map, forall_mem_map] at hp
      simp only [reads_respaced] at hp
      exact hp
    by_cases hall : ∀ c ∈ r.comparators, c.Holds D v.triple
    · left
      intro c hc
      exact ⟨hall c hc, fun _ => (hspaced fun _ => true).mpr hall c hc⟩
    · -- a space hides the failures of the comparators that name the version itself
      have hread := mt (hspaced fun c => decide (c.At D v.triple)).mp hall
      push Not at hread
      obtain ⟨c, hc, hread⟩ := hread
      by_cases hat : c.At D v.triple
      · rw [if_pos (decide_eq_true hat)] at hread
        exact absurd hat hread
      · rw [if_neg (by simpa using hat)] at hread
        exact .inr ⟨c, hc, hread, hat⟩
  · intro h r' hbare
    rw [Range.Faithful, inRange_iff]
    rcases h with hall | ⟨c, hc, hfails, hat⟩
    · have hall' : ∀ c' ∈ r'.comparators, c'.Holds D v.triple ∧ (c'.op ≠ .eq → c'.At D v.triple) := by
        intro c' hc'
        have hmem : (c'.operator, c'.version) ∈ r.bare := hbare ▸ mem_map_of_mem hc'
        obtain ⟨c, hc, heq⟩ := mem_map.mp hmem
        obtain ⟨hop, hholds, hat⟩ := Comparator.same_of_bare (D := D) v.triple heq
        rw [← hop, ← hholds, ← hat]
        exact hall c hc
      exact iff_of_true (fun c' hc' => ⟨fun hdetached => (hall' c' hc').2 hdetached.2,
        fun _ => (hall' c' hc').1⟩) fun c' hc' => (hall' c' hc').1
    · have hmem : (c.operator, c.version) ∈ r'.bare := hbare ▸ mem_map_of_mem hc
      obtain ⟨c', hc', heq⟩ := mem_map.mp hmem
      obtain ⟨-, hholds, hat'⟩ := Comparator.same_of_bare (D := D) v.triple heq
      rw [← hholds] at hfails
      rw [← hat'] at hat
      refine iff_of_false (fun hreads => ?_) fun hall => hfails (hall c' hc')
      by_cases hdetached : c'.Detached
      · exact hat ((hreads c' hc').1 hdetached)
      · exact hfails ((hreads c' hc').2 hdetached)

end Gaps

/-- A range means its comparators, in this spacing and in every spacing, exactly under these
    conditions. -/
theorem version_ranges (D : Decimals) (v : Version D) (r : Range) :
    (r.Faithful v ↔ r.WellWritten v) ∧
      ((∀ r' : Range, r'.bare = r.bare → r'.Faithful v) ↔ r.Indifferent v) :=
  ⟨faithful_iff v r, faithful_spaced_iff v r⟩

def asciiDigits : Decimals :=
  ⟨fun c => if c.isDigit then some (c.toNat - 48) else none, fun _ _ => rfl⟩

/-- `>= 2.0.0` asks 3.0.0 for equality. -/
theorem detached_operator_ignored :
    ∃ (v : Version asciiDigits) (r : Range), v.text = "3.0.0".toList ∧ r.text = ">= 2.0.0".toList ∧
      (∀ c ∈ r.comparators, c.Holds asciiDigits v.triple) ∧
        inRange asciiDigits v.text r.text = false := by
  refine ⟨⟨"3.0.0".toList, by decide⟩, ⟨some ⟨some .ge, [' '], forall_mem_singleton.mpr rfl,
    ⟨["2".toList, "0".toList, "0".toList], by decide, by simp⟩⟩, []⟩, rfl, by decide, ?_, by decide⟩
  simp only [Range.comparators, Option.toList_some, map_nil, append_nil, mem_singleton, forall_eq]
  exact (by decide : ([2, 0, 0] : List Nat) ≤ [3, 0, 0])

end Codify.Harness.VersionRange

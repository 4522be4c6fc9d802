import Codify.Framework.JsonEquality
import Codify.Framework.JsonRoundTrip
import Codify.Harness.PiEvents

/-! # Lenient Reading of Pi Records

    `_lenient_loads` (harness/adapters/pi_events.py) reads a line that strict parsing refuses,
    because quotes or control characters stand unescaped in its strings. It repairs what looks like
    a character of a string, and falls back to two searches for an `agent_end` record.

    * **Lines**: a line is a strict text of its record with some escapes written as the characters
      themselves (`Unescapes`).
    * **Repair**: when no such quote looks like the end of its string, the record is read back
      (`lenientLoads_repaired`).
    * **Result**: `lenient_outcome`.
-/

namespace Codify.Harness.PiLenient

open Codify.Framework Codify.Framework.JsonText Codify.Harness.PiEvents List Option FloatText

/-! ### The Model -/

/-- What follows a quote that ends its string. -/
def beforeStructure (rest : List Char) : Bool :=
  match rest.dropWhile fun c => c = ' ' ∨ c = '\t' with
  | [] => false
  | c :: _ => c = ',' ∨ c = '\x7d' ∨ c = ']' ∨ c = ':'

def keep (c : Char) (p : List Char × Bool) : List Char × Bool := (c :: p.1, p.2)

variable (text : List Char)

def replaceBy (p : List Char × Bool) : List Char × Bool := (text ++ p.1, true)

/-- The scan of `_lenient_loads`: the text it writes, and whether it has repaired anything. -/
def repair : Bool → Bool → List Char → List Char × Bool
  | _, _, [] => ([], false)
  | inString, escaped, c :: rest =>
    if escaped then keep c (repair inString false rest)
    else if inString then
      if c = '\\' then keep c (repair true true rest)
      else if c = '"' then
        if beforeStructure rest then keep c (repair false false rest)
        else replaceBy ['\\', '"'] (repair true false rest)
      else if c.toNat < 32 then replaceBy (unicodeEscape c.toNat) (repair true false rest)
      else keep c (repair true false rest)
    else if c = '"' then keep c (repair true false rest)
    else keep c (repair false false rest)

/-- `"key"\s*:\s*` at the start of the text. -/
def afterKey (key text : List Char) : Option (List Char) :=
  (text.dropPrefix? key).bind fun rest =>
    match rest.dropWhile isSpace with
    | [] => none
    | c :: rest => if c = ':' then some (rest.dropWhile isSpace) else none

/-- `_AGENT_END_WILL_RETRY_RE` at the start of the text. -/
def willRetryHere : Option Bool :=
  (afterKey "\"willRetry\"".toList text).bind fun rest =>
    if "true".toList <+: rest then some true
    else if "false".toList <+: rest then some false
    else none

/-- `((?:[^"\\]|\\.)*)"`: the text up to the quote. -/
def quoted : List Char → Option (List Char)
  | [] => none
  | c :: rest =>
    if c = '"' then some []
    else if c = '\\' then
      match rest with
      | [] => none
      | d :: rest => if d = '\n' then none else (quoted rest).map fun text => c :: d :: text
    else (quoted rest).map (c :: ·)

/-- `_AGENT_END_FAILURE_RE` at the start of the text. -/
def failureHere : Option (List Char) :=
  (afterKey "\"failureMessage\"".toList text).bind fun rest =>
    match rest with
    | [] => none
    | c :: rest => if c = '"' then quoted rest else none

/-- `_AGENT_END_WILL_RETRY_RE.search(text)`. -/
def willRetryMatch : Option Bool := text.tails.findSome? willRetryHere

/-- `_AGENT_END_FAILURE_RE.search(text)`. -/
def failureMatch : Option (List Char) := text.tails.findSome? failureHere

/-- The line names the type of an `agent_end` record somewhere. -/
def namesAgentEnd : Bool :=
  decide ("\"type\":\"agent_end\"".toList <:+: text) ||
    decide ("\"type\": \"agent_end\"".toList <:+: text)

/-- `_lenient_agent_end`. -/
def lenientAgentEnd : Option Json :=
  if namesAgentEnd text then
    (willRetryMatch text).map fun willRetry =>
      .obj ([("type", .str "agent_end"), ("willRetry", .bool willRetry)] ++
        match failureMatch text with
        | some message => [("failureMessage", .str (String.ofList message))]
        | none => [])
  else none

section Loads

variable (F : FloatText)

/-- `_lenient_loads`. -/
def lenientLoads (text : List Char) : Option Json :=
  if (repair false false text).2 then
    match loads F (repair false false text).1 with
    | some value => some value
    | none => lenientAgentEnd text
  else lenientAgentEnd text

end Loads

/-! ### Lines -/

/-- A text with some quotes and control characters of its strings written as they are; `behind`
    says what may follow such a quote. The index says whether the texts start inside a string. -/
inductive Unescapes (behind : List Char → Prop) : Bool → List Char → List Char → Prop where
  | done : Unescapes behind false [] []
  | outside {c : Char} {s t : List Char} (hc : c ≠ '"') (h : Unescapes behind false s t) :
      Unescapes behind false (c :: s) (c :: t)
  | opening {s t : List Char} (h : Unescapes behind true s t) :
      Unescapes behind false ('"' :: s) ('"' :: t)
  | closing {s t : List Char} (h : Unescapes behind false s t) :
      Unescapes behind true ('"' :: s) ('"' :: t)
  | inside {c : Char} {s t : List Char} (hquote : c ≠ '"') (hslash : c ≠ '\\')
      (h : Unescapes behind true s t) : Unescapes behind true (c :: s) (c :: t)
  | escaped {c : Char} {s t : List Char} (h : Unescapes behind true s t) :
      Unescapes behind true ('\\' :: c :: s) ('\\' :: c :: t)
  | quote {s t : List Char} (hbehind : behind t) (h : Unescapes behind true s t) :
      Unescapes behind true ('\\' :: '"' :: s) ('"' :: t)
  | control {c : Char} {s t : List Char} (hc : c.toNat < 32) (h : Unescapes behind true s t) :
      Unescapes behind true (escapeChar false c ++ s) (c :: t)

/-- A line that is a strict text of a record but for such characters, and that strict parsing
    refuses. -/
structure Damaged (F : FloatText) (record : JsonObject) (strict line : List Char) : Prop where
  serialized : loads F strict = some (.obj record)
  unescaped : Unescapes (fun _ => True) false strict line
  oneLine : ∀ c ∈ line, c ≠ '\n' ∧ c ≠ '\r'
  refused : loads F line = none

/-- No quote that stands unescaped looks like the end of its string. -/
def Harmless (strict line : List Char) : Prop :=
  Unescapes (fun rest => beforeStructure rest = false) false strict line

/-- The value is a record of the same type, and for an `agent_end` record the handler does with it
    what it does with the record. -/
def SameOutcome (env : Env) (record : JsonObject) (value : Json) : Prop :=
  ∃ fields : JsonObject, value = .obj fields ∧ fields.get "type" = record.get "type" ∧
    (record.get "type" = .str "agent_end" → ∀ rawLine s,
      handleAgentEnd env fields rawLine s = handleAgentEnd env record rawLine s)

/-- What the searches find, if they find anything, is what the record says: an `agent_end` record
    without an error, with its own `willRetry`. -/
def SearchAgrees (record : JsonObject) (line : List Char) : Prop :=
  namesAgentEnd line = true → ∀ willRetry, willRetryMatch line = some willRetry →
    record.get "type" = .str "agent_end" ∧ (record.get "willRetry").truthy = willRetry ∧
      (agentEndError record).truthy = false

section Proofs

variable {F : FloatText} {behind : List Char → Prop} {r r' : Reader} {s t strict line : List Char}
  {c : Char} {record fields : JsonObject} {env : Env} {inString escaped : Bool}

/-! ### The Scan -/

/-- A text in which nothing is repaired stays as it is. -/
theorem repair_eq_self (h : (repair inString escaped t).2 = false) :
    (repair inString escaped t).1 = t := by
  induction t generalizing inString escaped with
  | nil => rfl
  | cons c t ih =>
    have hkeep : ∀ {p : List Char × Bool}, p.1 = t → (keep c p).1 = c :: t := fun hp => by
      rw [← hp]; rfl
    unfold repair at h ⊢
    split at h
    · next hescaped =>
      rw [if_pos hescaped]
      exact hkeep (ih h)
    · next hescaped =>
      rw [if_neg hescaped]
      split at h
      · next hin =>
        rw [if_pos hin]
        split at h
        · next hslash =>
          rw [if_pos hslash]
          exact hkeep (ih h)
        · next hslash =>
          rw [if_neg hslash]
          split at h
          · next hquote =>
            rw [if_pos hquote]
            split at h
            · next hend =>
              rw [if_pos hend]
              exact hkeep (ih h)
            · cases h
          · next hquote =>
            rw [if_neg hquote]
            split at h
            · cases h
            next hcontrol =>
            rw [if_neg hcontrol]
            exact hkeep (ih h)
      · next hin =>
        rw [if_neg hin]
        split at h
        · next hquote =>
          rw [if_pos hquote]
          exact hkeep (ih h)
        · next hquote =>
          rw [if_neg hquote]
          exact hkeep (ih h)

/-! ### The Machine Inside and Outside of Strings -/

/-- The reader is not inside a string, and waits for no quote. -/
def Outside (r : Reader) : Prop :=
  match r.mode with
  | .text .. => False
  | .word rest _ => '"' ∉ rest
  | _ => True

def Open : Escape → Prop
  | .slash => False
  | .highSlash _ => False
  | _ => True

/-- The reader is inside a string, and not behind a backslash. -/
def Inside (r : Reader) : Prop := ∃ fields chars escape, r.mode = .text fields chars escape ∧ Open escape

def Placed : Bool → Reader → Prop
  | true => Inside
  | false => Outside

section Machine

variable {stack : List Frame} {v : Json} {fields : Option JsonObject} {chars : List Char}

theorem afterValue_outside (h : afterValue v stack c = some r') : Outside r' := by
  unfold afterValue at h
  split at h
  · cases h
    exact True.intro
  · split at h
    · cases h
    · split at h
      · cases h
        exact True.intro
      · obtain ⟨_, h⟩ := ite_none_right_eq_some.mp h
        cases h
        exact True.intro
    · split at h
      · cases h
        exact True.intro
      · obtain ⟨_, h⟩ := ite_none_right_eq_some.mp h
        cases h
        exact True.intro

theorem afterValue_quote : afterValue v stack '"' = none := by
  unfold afterValue
  rw [if_neg (by decide)]
  split
  · rfl
  · rfl
  · rfl

theorem beginValue_outside (hc : c ≠ '"') (h : beginValue stack c = some r') : Outside r' := by
  unfold beginValue at h
  rw [if_neg hc] at h
  -- an object, a list and a number; then the words
  obtain ⟨_, h⟩ | ⟨_, h⟩ := ite_eq_iff.mp h
  · cases h; exact True.intro
  obtain ⟨_, h⟩ | ⟨_, h⟩ := ite_eq_iff.mp h
  · cases h; exact True.intro
  obtain ⟨_, h⟩ | ⟨_, h⟩ := ite_eq_iff.mp h
  · cases h; exact True.intro
  obtain ⟨_, h⟩ | ⟨_, h⟩ := ite_eq_iff.mp h
  · cases h; show '"' ∉ "rue".toList; decide
  obtain ⟨_, h⟩ | ⟨_, h⟩ := ite_eq_iff.mp h
  · cases h; show '"' ∉ "alse".toList; decide
  obtain ⟨_, h⟩ | ⟨_, h⟩ := ite_eq_iff.mp h
  · cases h; show '"' ∉ "ull".toList; decide
  obtain ⟨_, h⟩ | ⟨_, h⟩ := ite_eq_iff.mp h
  · cases h; show '"' ∉ "aN".toList; decide
  obtain ⟨_, h⟩ := ite_none_right_eq_some.mp h
  cases h; show '"' ∉ "nfinity".toList; decide

/-- Only a quote leads into a string. -/
theorem step_outside (hr : Outside r) (hc : c ≠ '"') (h : step F r c = some r') : Outside r' := by
  obtain ⟨mode, stack⟩ := r
  unfold step at h
  cases mode with
  | value =>
    dsimp only at h
    split at h
    · cases h; exact True.intro
    · exact beginValue_outside hc h
  | item =>
    dsimp only at h
    split at h
    · cases h; exact True.intro
    · split at h
      · split at h
        · cases h; exact True.intro
        · cases h
      · exact beginValue_outside hc h
  | key first fields =>
    dsimp only at h
    rw [if_neg hc] at h
    split at h
    · cases h; exact True.intro
    · obtain ⟨_, h⟩ := ite_none_right_eq_some.mp h
      cases h; exact True.intro
  | colon fields key =>
    dsimp only at h
    split at h
    · cases h; exact True.intro
    · obtain ⟨_, h⟩ := ite_none_right_eq_some.mp h
      cases h; exact True.intro
  | text fields chars escape => exact hr.elim
  | number token =>
    dsimp only at h
    split at h
    · cases h; exact True.intro
    · split at h
      · cases h; show '"' ∉ "nfinity".toList; decide
      · obtain ⟨v, _, h⟩ := bind_eq_some_iff.mp h
        exact afterValue_outside h
  | word rest v =>
    dsimp only at h
    split at h
    · cases h
    next d more =>
    obtain ⟨_, h⟩ := ite_none_right_eq_some.mp h
    cases h
    have hmore : '"' ∉ more := fun hmem => hr (mem_cons_of_mem d hmem)
    unfold Outside
    dsimp only
    cases more with
    | nil => exact True.intro
    | cons e more => exact hmore
  | closed v => exact afterValue_outside h

theorem step_opening (hr : Outside r) (h : step F r '"' = some r') : Inside r' := by
  obtain ⟨mode, stack⟩ := r
  unfold step at h
  cases mode with
  | value | item | key first fields => cases h; exact ⟨_, _, _, rfl, True.intro⟩
  | colon fields key => cases h
  | text fields chars escape => exact hr.elim
  | number token =>
    dsimp only at h
    rw [if_neg (by decide), if_neg (fun hi => absurd hi.1 (by decide))] at h
    obtain ⟨v, _, h⟩ := bind_eq_some_iff.mp h
    rw [afterValue_quote] at h
    cases h
  | word rest v =>
    dsimp only at h
    split at h
    · cases h
    · obtain ⟨rfl, _⟩ := ite_none_right_eq_some.mp h
      exact absurd mem_cons_self hr
  | closed v =>
    dsimp only at h
    rw [afterValue_quote] at h
    cases h

theorem closeHex_open {value : Nat} {high : Option Nat} {q : List Char × Escape}
    (h : closeHex chars value high = some q) : Open q.2 := by
  unfold closeHex at h
  split at h
  · split at h
    · cases h; exact True.intro
    · obtain ⟨_, h⟩ := ite_none_left_eq_some.mp h
      cases h; exact True.intro
  · obtain ⟨_, h⟩ := ite_none_right_eq_some.mp h
    cases h; exact True.intro

theorem not_control_of_hexValue (h : (hexValue c).isSome) : ¬ c.toNat < 32 := by
  unfold hexValue at h
  dsimp only at h
  intro hlt
  rw [if_neg (by omega), if_neg (by omega), if_neg (by omega)] at h
  cases h

/-- A character that is neither a quote nor a backslash stays in the string, and is no control
    character. -/
theorem stepText_inside {escape : Escape} {q : List Char × Escape} (hopen : Open escape)
    (hslash : c ≠ '\\') (h : stepText chars escape c = some q) : Open q.2 ∧ ¬ c.toNat < 32 := by
  unfold stepText at h
  cases escape with
  | none =>
    dsimp only at h
    rw [if_neg hslash] at h
    obtain ⟨hc, h⟩ := ite_none_left_eq_some.mp h
    cases h
    exact ⟨True.intro, hc⟩
  | slash => exact hopen.elim
  | hex digits value high =>
    obtain ⟨d, hd, h⟩ := bind_eq_some_iff.mp h
    refine ⟨?_, not_control_of_hexValue (by rw [hd]; rfl)⟩
    cases digits with
    | zero => exact closeHex_open h
    | succ n => cases h; exact True.intro
  | high value => exact absurd (ite_none_right_eq_some.mp h).1 hslash
  | highSlash value => exact hopen.elim

theorem step_inside (hr : Inside r) (hquote : c ≠ '"') (hslash : c ≠ '\\')
    (h : step F r c = some r') : Inside r' ∧ ¬ c.toNat < 32 := by
  obtain ⟨mode, stack⟩ := r
  obtain ⟨fields, chars, escape, rfl, hopen⟩ := hr
  rw [step_text fun _ => hquote] at h
  obtain ⟨q, hq, rfl⟩ := map_eq_some_iff.mp h
  obtain ⟨hopen', hc⟩ := stepText_inside hopen hslash hq
  exact ⟨⟨_, _, _, rfl, hopen'⟩, hc⟩

theorem step_closing (hr : Inside r) (h : step F r '"' = some r') :
    ∃ fields chars, r' = closeText fields chars r.stack := by
  obtain ⟨mode, stack⟩ := r
  obtain ⟨fields, chars, escape, rfl, hopen⟩ := hr
  unfold step at h
  cases escape with
  | none => exact ⟨fields, chars, (some.inj h).symm⟩
  | slash => exact hopen.elim
  | hex digits value high => cases h
  | high value => cases h
  | highSlash value => exact hopen.elim

theorem run_escaped (hr : Inside r) (h : run F r ['\\', c] = some r') : Inside r' := by
  obtain ⟨mode, stack⟩ := r
  obtain ⟨fields, chars, escape, rfl, hopen⟩ := hr
  have hlast : ∀ mid : Reader, run F mid [c] = step F mid c := fun mid => by
    rw [run_cons]
    exact bind_fun_some _
  cases escape with
  | none =>
    have hstep : (stepText chars .slash c).map (fun q => (⟨.text fields q.1 q.2, stack⟩ : Reader)) =
        some r' := (hlast _).symm.trans h
    obtain ⟨q, hq, rfl⟩ := map_eq_some_iff.mp hstep
    refine ⟨_, _, _, rfl, ?_⟩
    unfold stepText at hq
    dsimp only at hq
    split at hq
    · cases hq
      exact True.intro
    · obtain ⟨_, _, rfl⟩ := map_eq_some_iff.mp hq
      exact True.intro
  | slash => exact hopen.elim
  | hex digits value high => cases h
  | high value =>
    have hstep : (stepText chars (.highSlash value) c).map
        (fun q => (⟨.text fields q.1 q.2, stack⟩ : Reader)) = some r' := (hlast _).symm.trans h
    obtain ⟨q, hq, rfl⟩ := map_eq_some_iff.mp hstep
    obtain ⟨_, hq⟩ := ite_none_right_eq_some.mp hq
    cases hq
    exact ⟨_, _, _, rfl, True.intro⟩
  | highSlash value => exact hopen.elim

/-- A quote or a control character is escaped by a backslash and a letter, or by its code. -/
theorem escapeChar_cases (hc : c = '"' ∨ c.toNat < 32) :
    (∃ d, d ≠ 'u' ∧ escapeChar false c = ['\\', d]) ∨
      c.toNat < 32 ∧ escapeChar false c = unicodeEscape c.toNat := by
  have hescaping := escaping_escapeChar false c
  generalize escapeChar false c = written at hescaping ⊢
  cases hescaping with
  | letter hletter _ =>
    refine .inl ⟨_, ?_, rfl⟩
    rintro rfl
    exact absurd hletter (by decide)
  | control hlt => exact .inr ⟨hlt, rfl⟩
  | ascii hascii => exact nomatch hascii.1
  | plain hquote _ hcontrol _ => exact (hc.elim hquote hcontrol).elim

/-- An escape of a quote or of a control character is no second half of a pair. -/
theorem run_high (value : Nat) (hc : c = '"' ∨ c.toNat < 32) :
    run F ⟨.text fields chars (.high value), stack⟩ (escapeChar false c) = none := by
  obtain ⟨d, hd, hescape⟩ | ⟨hlt, hescape⟩ := escapeChar_cases hc
  · rw [hescape, run_cons]
    show run F ⟨.text fields chars (.highSlash value), stack⟩ [d] = none
    have hstep : (stepText chars (.highSlash value) d).map
        (fun q => (⟨.text fields q.1 q.2, stack⟩ : Reader)) = none := by
      unfold stepText
      exact congrArg _ (if_neg hd)
    exact congrArg (Option.bind · _) hstep
  · rw [hescape, run_unicodeEscape_low fields chars value (by omega)]
    unfold closeHex
    dsimp only
    rw [if_neg (by omega)]
    rfl

theorem run_escape (hr : Inside r) (hc : c = '"' ∨ c.toNat < 32)
    (h : run F r (escapeChar false c) = some r') :
    ∃ fields chars, r.mode = .text fields chars .none ∧ r' = ⟨.text fields (c :: chars) .none, r.stack⟩ := by
  obtain ⟨mode, stack⟩ := r
  obtain ⟨fields, chars, escape, rfl, hopen⟩ := hr
  cases escape with
  | none =>
    rw [run_escapeChar] at h
    exact ⟨fields, chars, rfl, (some.inj h).symm⟩
  | slash => exact hopen.elim
  | hex digits value high =>
    -- a backslash is no digit
    have hnone : ∀ tail, run F ⟨.text fields chars (.hex digits value high), stack⟩ ('\\' :: tail) = none :=
      fun tail => rfl
    obtain ⟨d, _, hescape⟩ | ⟨_, hescape⟩ := escapeChar_cases hc
    · rw [hescape, hnone] at h
      cases h
    · have hcode : run F ⟨.text fields chars (.hex digits value high), stack⟩ (unicodeEscape c.toNat) =
          none := hnone _
      rw [hescape, hcode] at h
      cases h
  | high value =>
    rw [run_high value hc] at h
    cases h
  | highSlash value => exact hopen.elim

end Machine

/-! ### Repaired Lines -/

/-- Behind a string the reader waits for the structure. -/
def Waits (r : Reader) : Prop :=
  match r.mode with
  | .colon _ _ => True
  | .closed v => v.asObject = none
  | _ => False

theorem waits_cases (hr : Waits r) : (∃ fields key stack, r = ⟨.colon fields key, stack⟩) ∨
    ∃ v stack, r = ⟨.closed v, stack⟩ ∧ v.asObject = none := by
  obtain ⟨mode, stack⟩ := r
  cases mode with
  | colon fields key => exact .inl ⟨fields, key, stack, rfl⟩
  | closed v => exact .inr ⟨v, stack, rfl, hr⟩
  | value | item | key first fields | text fields chars escape | number token | word rest v =>
    exact hr.elim

theorem waits_closeText (fields : Option JsonObject) (chars : List Char) (stack : List Frame) :
    Waits (closeText fields chars stack) ∧ Outside (closeText fields chars stack) := by
  cases fields with
  | none => exact ⟨rfl, True.intro⟩
  | some fields => exact ⟨True.intro, True.intro⟩

theorem step_waits_space (hr : Waits r) (hspace : isJsonSpace c = true) : step F r c = some r := by
  obtain ⟨fields, key, stack, rfl⟩ | ⟨v, stack, rfl, _⟩ := waits_cases hr
  · exact if_pos hspace
  · exact if_pos hspace

theorem structure_of_waits (hr : Waits r) (hspace : ¬ isJsonSpace c = true)
    (hstep : step F r c = some r') : c = ',' ∨ c = '\x7d' ∨ c = ']' ∨ c = ':' := by
  obtain ⟨fields, key, stack, rfl⟩ | ⟨v, stack, rfl, _⟩ := waits_cases hr
  · unfold step at hstep
    dsimp only at hstep
    rw [if_neg hspace] at hstep
    exact .inr (.inr (.inr (ite_none_right_eq_some.mp hstep).1))
  · unfold step at hstep
    dsimp only [afterValue] at hstep
    rw [if_neg hspace] at hstep
    split at hstep
    · cases hstep
    · obtain ⟨hcomma, _⟩ | ⟨_, hstep⟩ := ite_eq_iff.mp hstep
      · exact .inl hcomma
      · exact .inr (.inr (.inl (ite_none_right_eq_some.mp hstep).1))
    · obtain ⟨hcomma, _⟩ | ⟨_, hstep⟩ := ite_eq_iff.mp hstep
      · exact .inl hcomma
      · exact .inr (.inl (ite_none_right_eq_some.mp hstep).1)

theorem finish_of_waits (hr : Waits r) : finish F r ≠ some (.obj record) := by
  intro hfinish
  unfold finish at hfinish
  obtain ⟨fields, key, stack, rfl⟩ | ⟨v, stack, rfl, hv⟩ := waits_cases hr
  · cases stack with
    | nil => cases hfinish
    | cons frame stack => cases hfinish
  · cases stack with
    | nil =>
      cases hfinish
      cases hv
    | cons frame stack => cases hfinish

theorem beforeStructure_of_waits (h : Unescapes behind false s t) (hr : Waits r)
    (hrun : run F r s = some r') (hfinish : finish F r' = some (.obj record))
    (hline : ∀ c ∈ t, c ≠ '\n' ∧ c ≠ '\r') : beforeStructure t = true := by
  induction t generalizing s r with
  | nil =>
    cases h
    obtain rfl : r = r' := some.inj hrun
    exact absurd hfinish (finish_of_waits hr)
  | cons c t ih =>
    have hc := hline c mem_cons_self
    cases h with
    | opening h =>
      rw [run_cons] at hrun
      obtain ⟨r₁, hstep, _⟩ := bind_eq_some_iff.mp hrun
      exact absurd (structure_of_waits hr (by decide) hstep) (by decide)
    | outside hquote h =>
      rw [run_cons] at hrun
      obtain ⟨r₁, hstep, hrun⟩ := bind_eq_some_iff.mp hrun
      by_cases hspace : isJsonSpace c = true
      · -- the reader stays where it is, and the scan looks behind the blank
        have hblank : c = ' ' ∨ c = '\t' := by
          simp only [isJsonSpace, Bool.or_eq_true, beq_iff_eq] at hspace
          rcases hspace with ((h | h) | h) | h
          · exact .inl h
          · exact .inr h
          · exact absurd h hc.1
          · exact absurd h hc.2
        have hsame : r = r₁ := some.inj ((step_waits_space hr hspace).symm.trans hstep)
        have hrest := ih h (hsame ▸ hr) hrun fun d hd => hline d (mem_cons_of_mem c hd)
        unfold beforeStructure at hrest ⊢
        rw [dropWhile_cons_of_pos (by simpa using hblank)]
        exact hrest
      · have hnot : ¬ (c = ' ' ∨ c = '\t') := by
          rintro (rfl | rfl)
          · exact hspace rfl
          · exact hspace rfl
        unfold beforeStructure
        rw [dropWhile_cons_of_neg (by simpa using hnot)]
        exact decide_eq_true (structure_of_waits hr hspace hstep)

theorem inside_text (fields : Option JsonObject) (chars : List Char) (stack : List Frame) :
    Inside ⟨.text fields chars .none, stack⟩ :=
  ⟨fields, chars, .none, rfl, True.intro⟩

/-- **Repair**: what the scan writes is read as the strict text is. -/
theorem run_repair {start : Bool}
    (h : Unescapes (fun rest => beforeStructure rest = false) start s t) (hr : Placed start r)
    (hrun : run F r s = some r') (hfinish : finish F r' = some (.obj record))
    (hline : ∀ c ∈ t, c ≠ '\n' ∧ c ≠ '\r') : run F r (repair start false t).1 = some r' := by
  induction h generalizing r with
  | done => exact hrun
  | @outside c s t hc h ih =>
    rw [run_cons] at hrun
    obtain ⟨r₁, hstep, hrun⟩ := bind_eq_some_iff.mp hrun
    have hrest := ih (step_outside hr hc hstep) hrun fun d hd => hline d (mem_cons_of_mem c hd)
    have hscan : repair false false (c :: t) = keep c (repair false false t) := if_neg hc
    rw [hscan]
    exact (run_cons_of_step hstep _).trans hrest
  | @opening s t h ih =>
    rw [run_cons] at hrun
    obtain ⟨r₁, hstep, hrun⟩ := bind_eq_some_iff.mp hrun
    have hrest := ih (step_opening hr hstep) hrun fun d hd => hline d (mem_cons_of_mem _ hd)
    exact (run_cons_of_step hstep _).trans hrest
  | @closing s t h ih =>
    rw [run_cons] at hrun
    obtain ⟨r₁, hstep, hrun⟩ := bind_eq_some_iff.mp hrun
    obtain ⟨fields, chars, rfl⟩ := step_closing hr hstep
    obtain ⟨hwaits, houtside⟩ := waits_closeText fields chars r.stack
    have hline' : ∀ c ∈ t, c ≠ '\n' ∧ c ≠ '\r' := fun d hd => hline d (mem_cons_of_mem _ hd)
    have hend := beforeStructure_of_waits h hwaits hrun hfinish hline'
    have hscan : repair true false ('"' :: t) = keep '"' (repair false false t) := if_pos hend
    rw [hscan]
    exact (run_cons_of_step hstep _).trans (ih houtside hrun hline')
  | @inside c s t hquote hslash h ih =>
    rw [run_cons] at hrun
    obtain ⟨r₁, hstep, hrun⟩ := bind_eq_some_iff.mp hrun
    obtain ⟨hinside, hcontrol⟩ := step_inside hr hquote hslash hstep
    have hrest := ih hinside hrun fun d hd => hline d (mem_cons_of_mem c hd)
    have hscan : repair true false (c :: t) = keep c (repair true false t) := by
      show (if c = '\\' then _ else if c = '"' then _ else if c.toNat < 32 then _ else _) = _
      rw [if_neg hslash, if_neg hquote, if_neg hcontrol]
    rw [hscan]
    exact (run_cons_of_step hstep _).trans hrest
  | @escaped c s t h ih =>
    have hsplit : run F r (['\\', c] ++ s) = some r' := hrun
    rw [run_append] at hsplit
    obtain ⟨r₁, hpair, hrun⟩ := bind_eq_some_iff.mp hsplit
    have hrest := ih (run_escaped hr hpair) hrun fun d hd =>
      hline d (mem_cons_of_mem _ (mem_cons_of_mem c hd))
    exact (run_append_of_run hpair _).trans hrest
  | @quote s t hbehind h ih =>
    have hsplit : run F r (escapeChar false '"' ++ s) = some r' := hrun
    rw [run_append] at hsplit
    obtain ⟨r₁, hescape, hrun⟩ := bind_eq_some_iff.mp hsplit
    obtain ⟨fields, chars, hmode, rfl⟩ := run_escape hr (.inl rfl) hescape
    have hrest := ih (inside_text fields _ r.stack) hrun fun d hd => hline d (mem_cons_of_mem _ hd)
    have hscan : repair true false ('"' :: t) = replaceBy ['\\', '"'] (repair true false t) := by
      show (if beforeStructure t = true then _ else _) = _
      rw [hbehind, if_neg Bool.false_ne_true]
    rw [hscan]
    exact (run_append_of_run hescape _).trans hrest
  | @control c s t hc h ih =>
    rw [run_append] at hrun
    obtain ⟨r₁, hescape, hrun⟩ := bind_eq_some_iff.mp hrun
    obtain ⟨fields, chars, hmode, rfl⟩ := run_escape hr (.inr hc) hescape
    have hrest := ih (inside_text fields _ r.stack) hrun fun d hd => hline d (mem_cons_of_mem c hd)
    have hquote : c ≠ '"' := by
      rintro rfl
      exact absurd hc (by decide)
    have hslash : c ≠ '\\' := by
      rintro rfl
      exact absurd hc (by decide)
    have hscan : repair true false (c :: t) =
        replaceBy (unicodeEscape c.toNat) (repair true false t) := by
      show (if c = '\\' then _ else if c = '"' then _ else if c.toNat < 32 then _ else _) = _
      rw [if_neg hslash, if_neg hquote, if_pos hc]
    have hcode : run F r (unicodeEscape c.toNat) =
        some ⟨.text fields (c :: chars) .none, r.stack⟩ := by
      obtain ⟨mode, stack⟩ := r
      obtain rfl : mode = .text fields chars .none := hmode
      rw [run_unicodeEscape fields chars (by omega)]
      unfold closeHex
      dsimp only
      rw [if_neg (by omega), if_neg (by omega), Char.ofNat_toNat]
      rfl
    rw [hscan]
    exact (run_append_of_run hcode _).trans hrest

/-- **Repair**: a damaged line in which no quote looks like the end of its string is read as its
    record. -/
theorem lenientLoads_repaired (h : Damaged F record strict line) (hharmless : Harmless strict line) :
    lenientLoads F line = some (.obj record) := by
  obtain ⟨r', hrun, hfinish⟩ := bind_eq_some_iff.mp h.serialized
  have hrepair := run_repair hharmless (r := .start) True.intro hrun hfinish h.oneLine
  have hloads : loads F (repair false false line).1 = some (.obj record) := by
    unfold loads
    rw [hrepair]
    exact hfinish
  have hrepaired : (repair false false line).2 = true := by
    cases hflag : (repair false false line).2 with
    | true => rfl
    | false =>
      rw [repair_eq_self hflag, h.refused] at hloads
      cases hloads
  unfold lenientLoads
  rw [if_pos hrepaired, hloads]

theorem lenientLoads_searched (h : loads F (repair false false line).1 = none) :
    lenientLoads F line = lenientAgentEnd line := by
  unfold lenientLoads
  rw [h]
  split
  · rfl
  · rfl

/-! ### The Searches -/

theorem handleAgentEnd_without_error (env : Env) (rawLine : Nat) (st : State)
    (h : (agentEndError fields).truthy = false) :
    handleAgentEnd env fields rawLine st =
      if st.terminal.isSome ∨ st.aborted = true ∨ (fields.get "willRetry").truthy = true then st
      else { st with agentEndSuccessLine := some rawLine } := by
  unfold handleAgentEnd isSuccessfulAgentEnd
  rw [h]
  cases st.terminal.isSome with
  | true => simp
  | false =>
    cases st.aborted with
    | true => simp
    | false => cases (fields.get "willRetry").truthy <;> simp

def searched (line : List Char) (willRetry : Bool) : JsonObject :=
  [("type", .str "agent_end"), ("willRetry", .bool willRetry)] ++
    match failureMatch line with
    | some message => [("failureMessage", .str (String.ofList message))]
    | none => []

theorem lenientAgentEnd_eq_some_iff {value : Json} : lenientAgentEnd line = some value ↔
    namesAgentEnd line = true ∧ ∃ willRetry, willRetryMatch line = some willRetry ∧
      value = .obj (searched line willRetry) := by
  unfold lenientAgentEnd
  rw [ite_none_right_eq_some, map_eq_some_iff]
  constructor
  · rintro ⟨hnames, willRetry, hmatch, rfl⟩
    exact ⟨hnames, willRetry, hmatch, rfl⟩
  · rintro ⟨hnames, willRetry, hmatch, rfl⟩
    exact ⟨hnames, willRetry, hmatch, rfl⟩

/-- The searched record has its type and its `willRetry`, and no error that the handler reads. -/
theorem searched_fields (line : List Char) (willRetry : Bool) :
    (searched line willRetry).get "type" = .str "agent_end" ∧
      ((searched line willRetry).get "willRetry").truthy = willRetry ∧
      (agentEndError (searched line willRetry)).truthy = false := by
  unfold searched
  cases failureMatch line with
  | none => exact ⟨rfl, rfl, rfl⟩
  | some message => exact ⟨rfl, rfl, rfl⟩

theorem sameOutcome_self (env : Env) (record : JsonObject) : SameOutcome env record (.obj record) :=
  ⟨record, rfl, rfl, fun _ _ _ => rfl⟩

/-- The searched record has the outcome of a record without an error and with its `willRetry`. -/
theorem sameOutcome_searched {willRetry : Bool} (htype : record.get "type" = .str "agent_end")
    (hretry : (record.get "willRetry").truthy = willRetry)
    (herror : (agentEndError record).truthy = false) :
    SameOutcome env record (.obj (searched line willRetry)) := by
  obtain ⟨htype', hretry', herror'⟩ := searched_fields line willRetry
  refine ⟨searched line willRetry, rfl, htype'.trans htype.symm, fun _ rawLine st => ?_⟩
  rw [handleAgentEnd_without_error env rawLine st herror',
    handleAgentEnd_without_error env rawLine st herror, hretry', hretry]

theorem terminalFailure_of_error (env : Env) (rawLine : Nat) (h : (agentEndError record).truthy = true) :
    (handleAgentEnd env record rawLine {}).terminalFailure.isSome = true := by
  unfold handleAgentEnd isSuccessfulAgentEnd
  rw [h]
  simp [State.fail]

theorem agrees_of_sameOutcome {willRetry : Bool}
    (h : SameOutcome env record (.obj (searched line willRetry))) :
    record.get "type" = .str "agent_end" ∧ (record.get "willRetry").truthy = willRetry ∧
      (agentEndError record).truthy = false := by
  obtain ⟨fields, heq, htype, hhandle⟩ := h
  obtain rfl := Json.obj.inj heq
  obtain ⟨htype', hretry', herror'⟩ := searched_fields line willRetry
  have hagent : record.get "type" = .str "agent_end" := htype.symm.trans htype'
  have hsame := hhandle hagent 0 {}
  rw [handleAgentEnd_without_error env 0 {} herror', hretry'] at hsame
  have herror : (agentEndError record).truthy = false := by
    cases herror : (agentEndError record).truthy with
    | false => rfl
    | true =>
      have hfailure := terminalFailure_of_error env 0 herror
      rw [← hsame] at hfailure
      cases willRetry <;> cases hfailure
  rw [handleAgentEnd_without_error env 0 {} herror] at hsame
  refine ⟨hagent, ?_, herror⟩
  have hline := congrArg State.agentEndSuccessLine hsame
  cases hretry : (record.get "willRetry").truthy with
  | true =>
    cases willRetry with
    | true => rfl
    | false => simp [hretry] at hline
  | false =>
    cases willRetry with
    | true => simp [hretry] at hline
    | false => rfl

end Proofs

/-! ### Results -/

/-- **Outcome**: a damaged line is read with the outcome of its record, or not at all, if no quote
    looks like the end of its string, or the repaired text is refused and the searches agree with
    the record. Where the repaired text is refused, they have to. -/
theorem lenient_outcome (F : FloatText) (env : Env) {record : JsonObject} {strict line : List Char}
    (h : Damaged F record strict line) :
    (Harmless strict line ∨ loads F (repair false false line).1 = none ∧ SearchAgrees record line →
      ∀ value, lenientLoads F line = some value → SameOutcome env record value) ∧
    (loads F (repair false false line).1 = none →
      (∀ value, lenientLoads F line = some value → SameOutcome env record value) →
        SearchAgrees record line) := by
  constructor
  · rintro (hharmless | ⟨hrefused, hagrees⟩) value hvalue
    · rw [lenientLoads_repaired h hharmless] at hvalue
      cases hvalue
      exact sameOutcome_self env record
    · rw [lenientLoads_searched hrefused] at hvalue
      obtain ⟨hnames, willRetry, hmatch, rfl⟩ := lenientAgentEnd_eq_some_iff.mp hvalue
      obtain ⟨htype, hretry, herror⟩ := hagrees hnames willRetry hmatch
      exact sameOutcome_searched htype hretry herror
  · intro hrefused hsame hnames willRetry hmatch
    have hvalue : lenientLoads F line = some (.obj (searched line willRetry)) := by
      rw [lenientLoads_searched hrefused]
      exact lenientAgentEnd_eq_some_iff.mpr ⟨hnames, willRetry, hmatch, rfl⟩
    exact agrees_of_sameOutcome (hsame _ hvalue)

/-! ### A Line that Is Repaired and a Line that Is Not -/

/-- An `agent_end` record with one more field, up to the text of that field. -/
def agentEnd (key rest : List Char) : List Char :=
  '\x7b' :: '"' :: ("type".toList ++ '"' :: ':' :: '"' :: ("agent_end".toList ++ '"' :: ',' :: '"' ::
    ("willRetry".toList ++ '"' :: (":false,".toList ++ '"' :: (key ++ '"' :: ':' :: '"' :: rest)))))

theorem Unescapes.word {behind : List Char → Prop} {word s t : List Char}
    (hword : (word.all fun c => c ≠ '"' ∧ c ≠ '\\') = true) (h : Unescapes behind true s t) :
    Unescapes behind true (word ++ s) (word ++ t) := by
  induction word with
  | nil => exact h
  | cons c word ih =>
    simp only [all_cons, Bool.and_eq_true, decide_eq_true_eq] at hword
    exact .inside hword.1.1 hword.1.2 (ih hword.2)

theorem Unescapes.between {behind : List Char → Prop} {word s t : List Char}
    (hword : (word.all (· ≠ '"')) = true) (h : Unescapes behind false s t) :
    Unescapes behind false (word ++ s) (word ++ t) := by
  induction word with
  | nil => exact h
  | cons c word ih =>
    simp only [all_cons, Bool.and_eq_true, decide_eq_true_eq] at hword
    exact .outside hword.1 (ih hword.2)

theorem unescapes_agentEnd {behind : List Char → Prop} {key s t : List Char}
    (hkey : (key.all fun c => c ≠ '"' ∧ c ≠ '\\') = true) (h : Unescapes behind true s t) :
    Unescapes behind false (agentEnd key s) (agentEnd key t) := by
  refine .outside (by decide) (.opening (.word (by decide +kernel) (.closing (.outside (by decide) ?_))))
  refine .opening (.word (by decide +kernel) (.closing (.outside (by decide) (.opening ?_))))
  refine .word (by decide +kernel) (.closing (.between (by decide +kernel) (.opening ?_)))
  exact .word hkey (.closing (.outside (by decide) (.opening h)))

theorem oneLine_of_all {line : List Char} (h : (line.all fun c => c ≠ '\n' ∧ c ≠ '\r') = true) :
    ∀ c ∈ line, c ≠ '\n' ∧ c ≠ '\r' := by
  intro c hc
  simpa using List.all_eq_true.mp h c hc

/-- A quote at the end of a string is repaired. -/
theorem last_quote_repaired :
    ∃ line value, lenientLoads fraction line = some value ∧
      SameOutcome plainEnv [("type", .str "agent_end"), ("willRetry", .bool false), ("m", .str "\"")] value := by
  have hquote : ∀ behind : List Char → Prop, behind ['"', '\x7d'] →
      Unescapes behind false (agentEnd ['m'] ['\\', '"', '"', '\x7d']) (agentEnd ['m'] ['"', '"', '\x7d']) :=
    fun behind hbehind => unescapes_agentEnd (by decide)
      (.quote hbehind (.closing (.outside (by decide) .done)))
  have hdamaged : Damaged fraction
      [("type", .str "agent_end"), ("willRetry", .bool false), ("m", .str "\"")]
      (agentEnd ['m'] ['\\', '"', '"', '\x7d']) (agentEnd ['m'] ['"', '"', '\x7d']) :=
    ⟨by decide +kernel, hquote _ True.intro, oneLine_of_all (by decide +kernel), by decide +kernel⟩
  have hharmless : Harmless (agentEnd ['m'] ['\\', '"', '"', '\x7d']) (agentEnd ['m'] ['"', '"', '\x7d']) :=
    hquote _ (by decide)
  exact ⟨_, _, lenientLoads_repaired hdamaged hharmless,
    (lenient_outcome fraction plainEnv hdamaged).1 (.inl hharmless) _
      (lenientLoads_repaired hdamaged hharmless)⟩

/-- A quote that looks like the end of its string: the searches find the record, but not its
    error. -/
theorem error_lost :
    ¬ ∀ (F : FloatText) (env : Env) (record : JsonObject) (strict line : List Char) (value : Json),
      Damaged F record strict line → lenientLoads F line = some value → SameOutcome env record value := by
  intro h
  have hdamaged : Damaged fraction
      [("type", .str "agent_end"), ("willRetry", .bool false), ("errorMessage", .str "a\",b")]
      (agentEnd "errorMessage".toList ['a', '\\', '"', ',', 'b', '"', '\x7d'])
      (agentEnd "errorMessage".toList ['a', '"', ',', 'b', '"', '\x7d']) := by
    refine ⟨by decide +kernel, ?_, oneLine_of_all (by decide +kernel), by decide +kernel⟩
    exact unescapes_agentEnd (by decide +kernel) (.inside (by decide) (by decide) (.quote True.intro
      (.inside (by decide) (by decide) (.inside (by decide) (by decide) (.closing
        (.outside (by decide) .done))))))
  have hvalue : lenientLoads fraction
      (agentEnd "errorMessage".toList ['a', '"', ',', 'b', '"', '\x7d']) =
        some (.obj (searched (agentEnd "errorMessage".toList ['a', '"', ',', 'b', '"', '\x7d']) false)) := by
    decide +kernel
  have hsame := h fraction plainEnv _ _ _ _ hdamaged hvalue
  exact absurd (agrees_of_sameOutcome hsame).2.2 (by decide +kernel)

end Codify.Harness.PiLenient

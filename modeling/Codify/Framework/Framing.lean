import Codify.Framework.JsonLines

/-! # Framed Streams

    A stream of frames that arrives in pieces. What has arrived is some complete
    frames and a part of the next one, however the pieces are cut; a piece can
    also end a fixed text short of the end of a frame. The second half is
    `str.split`, which cuts a text at a separator.
-/

namespace Codify.Framework.Framing

open List

/-! ### Complete Frames and a Part -/

section Pieces

variable {α β : Type} (text : β → List α)

/-- A part of the next frame: nothing when there is none, else not all of it. -/
def Part (part : List α) : List β → Prop
  | [] => part = []
  | frame :: _ => ∃ missing, missing ≠ [] ∧ text frame = part ++ missing

/-- Some piece ends `stop` short of the end of a frame; `part` came before the pieces. -/
def EndsShort (stop part : List α) (frames : List β) (pieces : List (List α)) : Prop :=
  ∃ before after, pieces = before ++ after ∧ before ≠ [] ∧
    ∃ done frame rest, frames = done ++ frame :: rest ∧
      part ++ before.flatten ++ stop = (done ++ [frame]).flatMap text

variable {text}

/-- What has arrived of a stream is complete frames and a part of the next one. -/
theorem exists_cut {arrived missing : List α} {frames : List β}
    (h : arrived ++ missing = frames.flatMap text) :
    ∃ done rest part, frames = done ++ rest ∧ arrived = done.flatMap text ++ part ∧
      part ++ missing = rest.flatMap text ∧ Part text part rest := by
  induction frames generalizing arrived with
  | nil =>
    obtain ⟨rfl, rfl⟩ := append_eq_nil_iff.mp h
    exact ⟨[], [], [], rfl, rfl, rfl, rfl⟩
  | cons frame frames ih =>
    have h' : arrived ++ missing = text frame ++ frames.flatMap text := h
    rcases append_eq_append_iff.mp h' with ⟨w, htext, hmissing⟩ | ⟨w, harrived, hrest⟩
    · by_cases hw : w = []
      · -- the piece ends where the frame does
        subst hw
        rw [append_nil] at htext
        obtain ⟨done, rest, part, hframes, hpart, hcut, hopen⟩ := @ih [] hmissing
        refine ⟨frame :: done, rest, part, by rw [hframes]; rfl, ?_, hcut, hopen⟩
        rw [flatMap_cons, append_assoc, ← hpart, append_nil, htext]
      · exact ⟨[], frame :: frames, arrived, rfl, rfl, h, w, hw, htext⟩
    · obtain ⟨done, rest, part, hframes, hpart, hcut, hopen⟩ := ih hrest.symm
      refine ⟨frame :: done, rest, part, by rw [hframes]; rfl, ?_, hcut, hopen⟩
      rw [flatMap_cons, append_assoc, ← hpart, harrived]

theorem length_flatMap_le (done : List β) (frame : β) (more : List β) :
    ((done ++ [frame]).flatMap text).length ≤ ((done ++ frame :: more).flatMap text).length := by
  simp only [flatMap_append, flatMap_cons, flatMap_nil, length_append, length_nil]
  omega

theorem append_eq_cons_cases {done rest d r : List β} {frame : β}
    (h : done ++ rest = d ++ frame :: r) :
    (∃ x, d = done ++ x ∧ rest = x ++ frame :: r) ∨ ∃ more, done = d ++ frame :: more := by
  rcases append_eq_append_iff.mp h with hrest | ⟨y, hdone, hy⟩
  · exact .inl hrest
  · cases y with
    | nil => exact .inl ⟨[], by rw [hdone, append_nil, append_nil], hy.symm⟩
    | cons z zs =>
      obtain ⟨rfl, -⟩ := List.cons.inj hy
      exact .inr ⟨zs, hdone⟩

/-- The end of a piece lies short of the end of the next frame, or the rest of the pieces
    has such an end. -/
theorem endsShort_cons {part piece part' : List α} {done rest : List β} (stop : List α)
    (pieces : List (List α)) (hstop : stop ≠ [])
    (hlong : ∀ frame, stop.length < (text frame).length)
    (hcut : part ++ piece = done.flatMap text ++ part') (hopen : Part text part' rest) :
    EndsShort text stop part (done ++ rest) (piece :: pieces) ↔
      (∃ frame more, rest = frame :: more ∧ part' ++ stop = text frame) ∨
        EndsShort text stop part' rest pieces := by
  constructor
  · rintro ⟨before, after, hpieces, hbefore, d, frame, r, hframes, hend⟩
    obtain ⟨p, before', rfl⟩ := exists_cons_of_ne_nil hbefore
    obtain ⟨rfl, hafter⟩ := List.cons.inj (cons_append ▸ hpieces)
    have hend' : done.flatMap text ++ (part' ++ before'.flatten ++ stop) =
        (d ++ [frame]).flatMap text := by
      rw [← hend, flatten_cons, ← append_assoc part, hcut]
      simp only [append_assoc]
    -- the frame that is cut is none of the complete ones
    rcases append_eq_cons_cases hframes with ⟨x, rfl, hrest⟩ | ⟨more, hdone⟩
    · rw [append_assoc done, flatMap_append, append_right_inj] at hend'
      by_cases hnil : before' = []
      · subst hnil
        left
        cases x with
        | nil => exact ⟨frame, r, hrest, by simpa using hend'⟩
        | cons z zs =>
          exfalso
          subst hrest
          obtain ⟨missing, hmissing, htext⟩ := hopen
          have hlen := congrArg List.length hend'
          have hz := congrArg List.length htext
          have hf := hlong frame
          simp only [flatten_nil, append_nil, length_append, cons_append,
            flatMap_cons, flatMap_append, flatMap_nil] at hlen hz
          omega
      · exact .inr ⟨before', after, hafter, hnil, x, frame, r, hrest, hend'⟩
    · exfalso
      have hlen := congrArg List.length hend'
      have hle : ((d ++ [frame]).flatMap text).length ≤ _ := length_flatMap_le d frame more
      rw [← hdone] at hle
      have hpos := length_pos_of_ne_nil hstop
      simp only [length_append] at hlen hle
      omega
  · rintro (⟨frame, more, rfl, hend⟩ | ⟨before, after, rfl, hbefore, d, frame, r, rfl, hend⟩)
    · refine ⟨[piece], pieces, rfl, cons_ne_nil _ _, done, frame, more, rfl, ?_⟩
      rw [flatten_singleton, hcut, append_assoc, hend]
      simp
    · refine ⟨piece :: before, after, rfl, cons_ne_nil _ _, done ++ d, frame, r, by simp, ?_⟩
      rw [flatten_cons, ← append_assoc part, hcut, append_assoc done, flatMap_append, ← hend]
      simp only [append_assoc]

end Pieces

/-! ### Splitting at a Separator -/

open Codify.Framework.JsonText (consLine)

/-- `text.split(separator)`, from `skip` characters further on. -/
def splitFrom (separator : List Char) : Nat → List Char → List (List Char)
  | _, [] => [[]]
  | skip + 1, _ :: cs => splitFrom separator skip cs
  | 0, c :: cs =>
    if separator <+: c :: cs then [] :: splitFrom separator (separator.length - 1) cs
    else consLine c (splitFrom separator 0 cs)

/-- `text.split(separator)`. -/
def split (separator text : List Char) : List (List Char) := splitFrom separator 0 text

/-- `text.split(separator)[-1]`. -/
def lastPart (separator text : List Char) : List Char := (split separator text).getLast?.getD []

section Splitting

variable {separator : List Char}

theorem splitFrom_ne_nil (skip : Nat) (text : List Char) : splitFrom separator skip text ≠ [] := by
  induction text generalizing skip with
  | nil => cases skip <;> exact cons_ne_nil _ _
  | cons c cs ih =>
    cases skip with
    | succ skip => exact ih skip
    | zero =>
      unfold splitFrom
      split
      · exact cons_ne_nil _ _
      · cases splitFrom separator 0 cs <;> exact cons_ne_nil _ _

theorem splitFrom_skip (skipped text : List Char) :
    splitFrom separator skipped.length (skipped ++ text) = splitFrom separator 0 text := by
  induction skipped with
  | nil => rfl
  | cons c cs ih => exact ih

theorem split_of_not_infix {text : List Char} (h : ¬ separator <:+: text) :
    split separator text = [text] := by
  unfold split
  induction text with
  | nil => rfl
  | cons c cs ih =>
    have hhead : ¬ separator <+: c :: cs := fun hpre => h hpre.isInfix
    have htail : ¬ separator <:+: cs := fun hin => h (hin.trans (suffix_cons c cs).isInfix)
    rw [splitFrom, if_neg hhead, ih htail]
    rfl

theorem split_append {a : Char} {s body : List Char} (h : a ∉ body) (text : List Char) :
    split (a :: s) (body ++ (a :: s) ++ text) = body :: split (a :: s) text := by
  unfold split
  induction body with
  | nil =>
    show splitFrom (a :: s) 0 (a :: (s ++ text)) = _
    rw [splitFrom, if_pos (by rw [← cons_append]; exact prefix_append _ _)]
    show [] :: splitFrom (a :: s) s.length (s ++ text) = _
    rw [splitFrom_skip]
  | cons c cs ih =>
    have hc : a ≠ c := fun hac => h (hac ▸ mem_cons_self)
    have hcs : a ∉ cs := fun hmem => h (mem_cons_of_mem c hmem)
    have hpre : ¬ (a :: s) <+: c :: (cs ++ (a :: s) ++ text) := fun hpre =>
      hc (cons_prefix_cons.mp hpre).1
    rw [cons_append, cons_append, splitFrom, if_neg hpre, ih hcs]
    rfl

theorem lastPart_append {a : Char} {s body : List Char} (h : a ∉ body) (text : List Char) :
    lastPart (a :: s) (body ++ (a :: s) ++ text) = lastPart (a :: s) text := by
  unfold lastPart
  rw [split_append h]
  cases hsplit : split (a :: s) text with
  | nil => exact absurd hsplit (splitFrom_ne_nil 0 text)
  | cons part parts => rfl

theorem lastPart_of_not_infix {text : List Char} (h : ¬ separator <:+: text) :
    lastPart separator text = text := by
  rw [lastPart, split_of_not_infix h]
  rfl

/-- A text that ends with its only separator does not hold it before the end. -/
theorem not_infix_of_part {a : Char} {s body part missing : List Char} (h : a ∉ body)
    (hpart : body ++ a :: s = part ++ missing) (hmissing : missing ≠ []) :
    ¬ (a :: s) <:+: part := by
  rintro ⟨x, y, rfl⟩
  have hpos := length_pos_of_ne_nil hmissing
  have heq : body ++ a :: s = x ++ a :: (s ++ y ++ missing) := by
    rw [hpart]
    simp only [append_assoc, cons_append]
  have hlen := congrArg List.length heq
  simp only [length_append, length_cons] at hlen
  rcases append_eq_append_iff.mp heq with ⟨w, rfl, -⟩ | ⟨w, rfl, hw⟩
  · simp only [length_append] at hlen
    omega
  · cases w with
    | nil =>
      rw [append_nil] at hlen
      omega
    | cons d w =>
      obtain ⟨rfl, -⟩ := List.cons.inj hw
      exact h (mem_append_right x mem_cons_self)

end Splitting

/-! ### Line Ends -/

section Lines

open Codify.Framework.JsonText

/-- The line ends of a text. -/
inductive LineEnd where
  | lf
  | crlf
  deriving DecidableEq

def LineEnd.chars : LineEnd → List Char
  | .lf => ['\n']
  | .crlf => ['\r', '\n']

variable {line : List Char}

theorem splitlinesKeepends_crlf (h : ∀ c ∈ line, isLineBreak c = false) (text : List Char) :
    splitlinesKeepends (line ++ '\r' :: '\n' :: text) =
      (line ++ ['\r', '\n']) :: splitlinesKeepends text := by
  induction line with
  | nil =>
    have hnil : ∀ c ∈ ([] : List Char), isLineBreak c = false := by simp
    have hfeed := splitlinesKeepends_line hnil text
    rw [nil_append] at hfeed
    rw [nil_append, splitlinesKeepends, if_neg (by simp), hfeed]
    rfl
  | cons c line ih =>
    have hc : isLineBreak c = false := h c mem_cons_self
    rw [cons_append, splitlinesKeepends_cons hc, ih fun d hd => h d (mem_cons_of_mem c hd)]
    rfl

theorem splitlinesKeepends_cr (h : ∀ c ∈ line, isLineBreak c = false) :
    splitlinesKeepends (line ++ ['\r']) = [line ++ ['\r']] := by
  induction line with
  | nil => rfl
  | cons c line ih =>
    have hc : isLineBreak c = false := h c mem_cons_self
    rw [cons_append, splitlinesKeepends_cons hc, ih fun d hd => h d (mem_cons_of_mem c hd)]
    rfl

theorem dropLineEnd_append (h : ∀ c ∈ line, isLineBreak c = false) {ends : List Char}
    (hends : ∀ c ∈ ends, isLineBreak c = true) : dropLineEnd (line ++ ends) = line := by
  have hline := dropLineEnd_of_not_isLineBreak h
  unfold dropLineEnd at hline ⊢
  rw [reverse_append, dropWhile_append_of_pos fun c hc =>
    hends c (mem_reverse.mp hc), hline]

theorem splitlines_eol (h : ∀ c ∈ line, isLineBreak c = false) (eol : LineEnd)
    (text : List Char) : splitlines (line ++ (eol.chars ++ text)) = line :: splitlines text := by
  have hends : ∀ c ∈ eol.chars, isLineBreak c = true :=
    all_eq_true.mp (by cases eol <;> decide)
  have hkeep : splitlinesKeepends (line ++ (eol.chars ++ text)) =
      (line ++ eol.chars) :: splitlinesKeepends text := by
    cases eol with
    | lf => exact splitlinesKeepends_line h text
    | crlf => exact splitlinesKeepends_crlf h text
  rw [splitlines, hkeep, map_cons, dropLineEnd_append h hends]
  rfl

theorem splitlines_cr (h : ∀ c ∈ line, isLineBreak c = false) :
    splitlines (line ++ ['\r']) = [line] := by
  rw [splitlines, splitlinesKeepends_cr h, map_singleton,
    dropLineEnd_append h (all_eq_true.mp (by decide))]

theorem splitlines_unbroken (h : ∀ c ∈ line, isLineBreak c = false) :
    splitlines line = [] ∨ splitlines line = [line] := by
  by_cases hnil : line = []
  · exact .inl (by rw [hnil]; rfl)
  · right
    rw [splitlines, splitlinesKeepends_tail h hnil, map_singleton, dropLineEnd_of_not_isLineBreak h]

end Lines

end Codify.Framework.Framing

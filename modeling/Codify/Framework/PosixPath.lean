import Mathlib.Data.List.DropRight
import Mathlib.Data.List.Infix

/-! # POSIX Paths

    Python's `posixpath` on texts: `normpath`, `join` and `dirname`. A path is read
    as the list of its parts (`parts`) and written from it (`ofParts`).

    * **Normal**: the parts of a normalized relative path are some `..` and then
      ordinary ones.
    * **Result**: `normpath_idem`, and `normpath_ofParts` for ordinary parts.
-/

namespace Codify.Framework.PosixPath

open List

/-- A `str`. -/
abbrev Text := List Char

/-! ### Functions -/

/-- `path.split("/")`. -/
def parts (path : Text) : List Text := path.splitOn '/'

/-- `"/".join(parts)`. -/
def ofParts (ps : List Text) : Text := ['/'].intercalate ps

def dot : Text := ['.']

def dotdot : Text := ['.', '.']

/-- The slashes at the front that `normpath` keeps. -/
def initialSlashes (path : Text) : Nat :=
  match path with
  | '/' :: '/' :: '/' :: _ => 1
  | '/' :: '/' :: _ => 2
  | '/' :: _ => 1
  | _ => 0

/-- One step of `normpath`: `new_comps` after a part. -/
def pushPart (absolute : Bool) (new : List Text) (part : Text) : List Text :=
  if part = [] ∨ part = dot then new
  else if part ≠ dotdot ∨ (absolute = false ∧ new = []) ∨ new.getLast? = some dotdot then
    new ++ [part]
  else new.dropLast

/-- `posixpath.normpath`. -/
def normpath (path : Text) : Text :=
  if path = [] then dot
  else
    let slashes := initialSlashes path
    let text := List.replicate slashes '/' ++
      ofParts ((parts path).foldl (pushPart (0 < slashes)) [])
    if text = [] then dot else text

/-- `posixpath.join(a, b)`. -/
def join (a b : Text) : Text :=
  if b.head? = some '/' then b
  else if a = [] ∨ a.getLast? = some '/' then a ++ b
  else a ++ '/' :: b

/-- `text.rstrip("/")`. -/
def rstripSlash (text : Text) : Text := text.rdropWhile (· == '/')

/-- `text.lstrip("/")`. -/
def lstripSlash (text : Text) : Text := text.dropWhile (· == '/')

/-- `posixpath.dirname`. -/
def dirname (path : Text) : Text :=
  let head := path.rdropWhile (· != '/')
  if head.all (· == '/') then head else rstripSlash head

/-! ### Parts -/

/-- A part that names something. -/
structure Ordinary (part : Text) : Prop where
  nonempty : part ≠ []
  noSlash : '/' ∉ part
  notDot : part ≠ dot
  notDotdot : part ≠ dotdot

instance (part : Text) : Decidable (Ordinary part) :=
  decidable_of_iff (part ≠ [] ∧ '/' ∉ part ∧ part ≠ dot ∧ part ≠ dotdot)
    ⟨fun ⟨h₁, h₂, h₃, h₄⟩ => ⟨h₁, h₂, h₃, h₄⟩, fun ⟨h₁, h₂, h₃, h₄⟩ => ⟨h₁, h₂, h₃, h₄⟩⟩

/-- The parts of a normalized relative path. -/
structure Normal (ps : List Text) : Prop where
  split : ∃ up down, ps = up ++ down ∧ (∀ p ∈ up, p = dotdot) ∧ ∀ p ∈ down, Ordinary p

variable {path a b : Text} {ps qs : List Text} {part : Text}

theorem not_mem_of_mem_splitOn {α : Type} [DecidableEq α] {sep : α} {text part : List α}
    (h : part ∈ text.splitOn sep) : sep ∉ part := by
  induction text generalizing part with
  | nil =>
    rw [mem_singleton.mp h]
    exact not_mem_nil
  | cons c rest ih =>
    rw [splitOn_cons_eq_if_modifyHead] at h
    by_cases hc : c = sep
    · rw [if_pos (by simp [hc])] at h
      rcases mem_cons.mp h with rfl | h
      · exact not_mem_nil
      · exact ih h
    · rw [if_neg (by simpa using hc)] at h
      -- the character is put in front of the first part
      cases hsplit : rest.splitOn sep with
      | nil => exact absurd hsplit (splitOn_ne_nil _ _)
      | cons first others =>
        rw [hsplit] at h ih
        rcases mem_cons.mp h with rfl | h
        · rw [mem_cons, not_or]
          exact ⟨fun heq => hc heq.symm, ih mem_cons_self⟩
        · exact ih (mem_cons_of_mem _ h)

theorem noSlash_of_mem_parts (h : part ∈ parts path) : '/' ∉ part := not_mem_of_mem_splitOn h

theorem parts_ne_nil (path : Text) : parts path ≠ [] := splitOn_ne_nil _ _

theorem ofParts_parts (path : Text) : ofParts (parts path) = path := intercalate_splitOn _

theorem parts_ofParts (hne : ps ≠ []) (h : ∀ p ∈ ps, '/' ∉ p) : parts (ofParts ps) = ps :=
  splitOn_intercalate _ h hne

theorem ofParts_cons (hne : ps ≠ []) : ofParts (part :: ps) = part ++ '/' :: ofParts ps := by
  cases ps with
  | nil => exact absurd rfl hne
  | cons q rest => simp [ofParts, List.intercalate]

theorem ofParts_append (hps : ps ≠ []) (hqs : qs ≠ []) :
    ofParts (ps ++ qs) = ofParts ps ++ '/' :: ofParts qs := by
  induction ps with
  | nil => exact absurd rfl hps
  | cons p rest ih =>
    by_cases hrest : rest = []
    · subst hrest
      rw [singleton_append, ofParts_cons hqs]
      simp [ofParts, List.intercalate]
    · have hne : rest ++ qs ≠ [] := by simp [hrest]
      rw [cons_append, ofParts_cons hne, ih hrest, ofParts_cons hrest, append_assoc]
      rfl

theorem ofParts_singleton (part : Text) : ofParts [part] = part := by simp [ofParts, List.intercalate]

theorem parts_append_slash (a b : Text) : parts (a ++ '/' :: b) = parts a ++ parts b :=
  splitOn_append_cons_self a b

theorem head_ofParts (h : Ordinary part) : (ofParts (part :: ps)).head? = part.head? := by
  by_cases hps : ps = []
  · rw [hps, ofParts_singleton]
  · rw [ofParts_cons hps, head?_append_of_ne_nil _ h.nonempty]

theorem Ordinary.head_ne (h : Ordinary part) : part.head? ≠ some '/' := by
  intro hhead
  cases part with
  | nil => cases hhead
  | cons c rest =>
    rw [head?_cons] at hhead
    exact h.noSlash (by simp [Option.some.inj hhead])

theorem initialSlashes_of_head (h : path.head? ≠ some '/') : initialSlashes path = 0 := by
  unfold initialSlashes
  split
  · exact absurd rfl h
  · exact absurd rfl h
  · exact absurd rfl h
  · rfl

/-! ### Normal Paths -/

theorem Normal.nil : Normal [] := ⟨[], [], rfl, by simp, by simp⟩

theorem Normal.of_ordinary (h : ∀ p ∈ ps, Ordinary p) : Normal ps := ⟨[], ps, rfl, by simp, h⟩

theorem Normal.noSlash (h : Normal ps) : ∀ p ∈ ps, '/' ∉ p := by
  obtain ⟨up, down, rfl, hup, hdown⟩ := h
  intro p hp
  rcases mem_append.mp hp with hp | hp
  · rw [hup p hp]
    decide
  · exact (hdown p hp).noSlash

theorem Normal.ne_dot (h : Normal ps) : ∀ p ∈ ps, p ≠ dot ∧ p ≠ [] := by
  obtain ⟨up, down, rfl, hup, hdown⟩ := h
  intro p hp
  rcases mem_append.mp hp with hp | hp
  · rw [hup p hp]
    decide
  · exact ⟨(hdown p hp).notDot, (hdown p hp).nonempty⟩

theorem Normal.pushPart (h : Normal ps) (hslash : '/' ∉ part) :
    Normal (PosixPath.pushPart false ps part) := by
  obtain ⟨up, down, rfl, hup, hdown⟩ := h
  unfold PosixPath.pushPart
  by_cases hskip : part = [] ∨ part = dot
  · rw [if_pos hskip]
    exact ⟨up, down, rfl, hup, hdown⟩
  rw [if_neg hskip]
  rw [not_or] at hskip
  by_cases hback : part = dotdot
  · -- `..` is kept behind other `..` only
    rcases eq_nil_or_concat down with rfl | ⟨rest, last, rfl⟩
    · have hkeep : (up ++ []) = [] ∨ (up ++ []).getLast? = some dotdot := by
        rw [append_nil]
        rcases eq_nil_or_concat up with rfl | ⟨upRest, upLast, rfl⟩
        · exact Or.inl rfl
        · right
          rw [concat_eq_append, getLast?_concat, hup upLast (by simp [concat_eq_append])]
      rw [if_pos (Or.inr (hkeep.imp (fun h => ⟨rfl, h⟩) id))]
      refine ⟨up ++ [part], [], by simp, ?_, by simp⟩
      intro p hp
      rcases mem_append.mp hp with hp | hp
      · exact hup p hp
      · rw [mem_singleton.mp hp, hback]
    · rw [concat_eq_append] at *
      have hlast : Ordinary last := hdown last (by simp)
      have hdrop : ¬ (part ≠ dotdot ∨ (false = false ∧ up ++ (rest ++ [last]) = []) ∨
          (up ++ (rest ++ [last])).getLast? = some dotdot) := by
        rw [← append_assoc, getLast?_concat]
        simp [hback, hlast.notDotdot]
      rw [if_neg hdrop, ← append_assoc, dropLast_concat]
      exact ⟨up, rest, rfl, hup, fun p hp => hdown p (mem_append_left _ hp)⟩
  · rw [if_pos (Or.inl hback)]
    refine ⟨up, down ++ [part], by simp, hup, ?_⟩
    intro p hp
    rcases mem_append.mp hp with hp | hp
    · exact hdown p hp
    · rw [mem_singleton.mp hp]
      exact ⟨hskip.1, hslash, hskip.2, hback⟩

theorem normal_foldl (hps : Normal ps) (hslash : ∀ q ∈ qs, '/' ∉ q) :
    Normal (qs.foldl (pushPart false) ps) := by
  induction qs generalizing ps with
  | nil => exact hps
  | cons q rest ih =>
    exact ih (hps.pushPart (hslash q mem_cons_self)) fun p hp => hslash p (mem_cons_of_mem _ hp)

theorem foldl_ordinary (h : ∀ q ∈ qs, Ordinary q) :
    qs.foldl (pushPart false) ps = ps ++ qs := by
  induction qs generalizing ps with
  | nil => exact (append_nil ps).symm
  | cons q rest ih =>
    have hq := h q mem_cons_self
    have hpush : pushPart false ps q = ps ++ [q] := by
      unfold pushPart
      rw [if_neg (by simp [hq.nonempty, hq.notDot]), if_pos (Or.inl hq.notDotdot)]
    rw [foldl_cons, hpush, ih fun p hp => h p (mem_cons_of_mem _ hp), append_assoc]
    rfl

theorem foldl_up (n : Nat) (m : Nat) :
    (List.replicate n dotdot).foldl (pushPart false) (List.replicate m dotdot) =
      List.replicate (m + n) dotdot := by
  induction n generalizing m with
  | zero => rfl
  | succ n ih =>
    have hpush : pushPart false (List.replicate m dotdot) dotdot = List.replicate (m + 1) dotdot := by
      unfold pushPart
      rw [if_neg (by decide), if_pos]
      · exact replicate_succ'.symm
      · right
        cases m with
        | zero => exact Or.inl ⟨rfl, rfl⟩
        | succ m => exact Or.inr (by simp [getLast?_replicate])
    rw [replicate_succ, foldl_cons, hpush, ih]
    congr 1
    omega

theorem foldl_normal (h : Normal ps) : ps.foldl (pushPart false) [] = ps := by
  obtain ⟨up, down, rfl, hup, hdown⟩ := h
  obtain ⟨n, rfl⟩ : ∃ n, up = List.replicate n dotdot :=
    ⟨up.length, eq_replicate_iff.mpr ⟨rfl, hup⟩⟩
  have hfold := foldl_up n 0
  rw [Nat.zero_add] at hfold
  rw [foldl_append]
  show down.foldl _ ((List.replicate n dotdot).foldl (pushPart false) (List.replicate 0 dotdot)) = _
  rw [hfold, foldl_ordinary hdown]

/-! ### Normalization -/

theorem normpath_relative (hne : path ≠ []) (h : path.head? ≠ some '/') :
    ∃ ps, Normal ps ∧ ps = (parts path).foldl (pushPart false) [] ∧
      normpath path = if ps = [] then dot else ofParts ps := by
  have hnormal : Normal ((parts path).foldl (pushPart false) []) :=
    normal_foldl Normal.nil fun q hq => noSlash_of_mem_parts hq
  refine ⟨_, hnormal, rfl, ?_⟩
  unfold normpath
  rw [if_neg hne, initialSlashes_of_head h]
  show (if ofParts (List.foldl (pushPart false) [] (parts path)) = [] then dot
    else ofParts (List.foldl (pushPart false) [] (parts path))) = _
  by_cases hnil : (parts path).foldl (pushPart false) [] = []
  · simp [hnil, ofParts, List.intercalate]
  · have htext : ofParts ((parts path).foldl (pushPart false) []) ≠ [] := by
      intro heq
      have hparts := parts_ofParts hnil hnormal.noSlash
      rw [heq] at hparts
      -- the empty text has one part, which is empty
      have hmem : ([] : Text) ∈ (parts path).foldl (pushPart false) [] := by
        rw [← hparts]
        decide
      exact (hnormal.ne_dot _ hmem).2 rfl
    rw [if_neg htext, if_neg hnil]

theorem normpath_normal (hne : ps ≠ []) (h : Normal ps) : normpath (ofParts ps) = ofParts ps := by
  have hnonempty : ofParts ps ≠ [] := by
    intro heq
    have hparts := parts_ofParts hne h.noSlash
    rw [heq] at hparts
    have hmem : ([] : Text) ∈ ps := by
      rw [← hparts]
      decide
    exact (h.ne_dot _ hmem).2 rfl
  have hhead : (ofParts ps).head? ≠ some '/' := by
    intro hhead
    have hparts := parts_ofParts hne h.noSlash
    cases htext : ofParts ps with
    | nil => exact hnonempty htext
    | cons c rest =>
      rw [htext, head?_cons] at hhead
      rw [htext, Option.some.inj hhead] at hparts
      have hmem : ([] : Text) ∈ ps := by
        rw [← hparts, ← nil_append ('/' :: rest), parts_append_slash]
        exact mem_append_left _ (by decide)
      exact (h.ne_dot _ hmem).2 rfl
  obtain ⟨qs, _, hqs, heq⟩ := normpath_relative hnonempty hhead
  rw [parts_ofParts hne h.noSlash, foldl_normal h] at hqs
  rw [heq, hqs, if_neg hne]

theorem normpath_ofParts (hne : ps ≠ []) (h : ∀ p ∈ ps, Ordinary p) :
    normpath (ofParts ps) = ofParts ps := normpath_normal hne (Normal.of_ordinary h)

/-- **Idempotence** on relative paths. -/
theorem normpath_idem (hne : path ≠ []) (h : path.head? ≠ some '/') :
    normpath (normpath path) = normpath path := by
  obtain ⟨ps, hnormal, _, heq⟩ := normpath_relative hne h
  rw [heq]
  by_cases hps : ps = []
  · rw [if_pos hps]
    decide
  · rw [if_neg hps]
    exact normpath_normal hps hnormal

/-! ### Paths of Ordinary Parts -/

theorem head_ofParts_ne (hps : ps ≠ []) (hord : ∀ part ∈ ps, Ordinary part) :
    (ofParts ps).head? ≠ some '/' := by
  cases ps with
  | nil => exact absurd rfl hps
  | cons part rest =>
    have hpart := hord part mem_cons_self
    rw [head_ofParts hpart]
    exact hpart.head_ne

theorem ofParts_ne_nil (hps : ps ≠ []) (hord : ∀ part ∈ ps, Ordinary part) : ofParts ps ≠ [] := by
  intro heq
  have hparts := parts_ofParts hps fun p hp => (hord p hp).noSlash
  rw [heq] at hparts
  exact (hord [] (hparts ▸ mem_singleton.mpr rfl)).nonempty rfl

theorem rstripSlash_eq (h : path.getLast? ≠ some '/') : rstripSlash path = path := by
  unfold rstripSlash
  rw [rdropWhile_eq_self_iff]
  intro hne
  simp only [beq_iff_eq]
  intro hlast
  exact h (by rw [getLast?_eq_some_getLast hne, hlast])

theorem Ordinary.getLast_ne {part : Text} (h : Ordinary part) : part.getLast? ≠ some '/' :=
  fun hlast => h.noSlash (mem_of_getLast? hlast)

theorem getLast_ofParts_ne (hps : ps ≠ []) (hord : ∀ part ∈ ps, Ordinary part) :
    (ofParts ps).getLast? ≠ some '/' := by
  rcases eq_nil_or_concat ps with rfl | ⟨before, last, rfl⟩
  · exact absurd rfl hps
  rw [concat_eq_append] at hord ⊢
  have hlast : Ordinary last := hord last (by simp)
  by_cases hbefore : before = []
  · rw [hbefore, nil_append, ofParts_singleton]
    exact hlast.getLast_ne
  · rw [ofParts_append hbefore (by simp), ofParts_singleton]
    have hcons : '/' :: last = ['/'] ++ last := rfl
    rw [hcons, ← append_assoc, getLast?_append_of_ne_nil _ hlast.nonempty]
    exact hlast.getLast_ne

theorem head_dirname (h : (dirname path).head? = some '/') : path.head? = some '/' := by
  have hpath : path.rdropWhile (· != '/') <+: path := rdropWhile_prefix _ _
  have hdirname : dirname path <+: path := by
    unfold dirname
    by_cases hall : (path.rdropWhile (· != '/')).all (· == '/') = true
    · simp only [hall, if_true]
      exact hpath
    · simp only [hall]
      exact (List.rdropWhile_prefix _ _).trans hpath
  obtain ⟨rest, hrest⟩ := hdirname
  cases hname : dirname path with
  | nil => rw [hname] at h; cases h
  | cons c tail =>
    rw [hname] at h hrest
    rw [← hrest]
    exact h

/-- A relative target behind the directory of a relative path is a relative path. -/
theorem join_relative {a b : Text} (ha : a.head? ≠ some '/') (hb : b ≠ [])
    (hhead : b.head? ≠ some '/') : join a b ≠ [] ∧ (join a b).head? ≠ some '/' := by
  unfold join
  rw [if_neg hhead]
  cases a with
  | nil => simpa using ⟨hb, hhead⟩
  | cons c rest =>
    rw [head?_cons] at ha
    split
    · exact ⟨by simp, by simpa using ha⟩
    · exact ⟨by simp, by simpa using ha⟩

end Codify.Framework.PosixPath

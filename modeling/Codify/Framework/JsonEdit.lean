import Codify.Framework.JsonRoundTrip
import Codify.Framework.Regex

/-! # Edits Inside the Strings of a Document

    A text that is edited inside the string values of a document is a document with
    the same keys, numbers and literals: the reader cannot tell the two apart but
    by the contents of the strings.

    * **Skeleton**: a document without the contents of its strings (`skeleton`).
    * **Edits**: the stretches of a text that are replaced (`EditsInside`).
    * **Result**: `loads_edited`.
-/

namespace Codify.Framework.JsonText

open List Option

open Codify.Framework.Regex (Piece)

/-! ### Skeletons -/

mutual

/-- A document without the contents of its strings; its keys stay. -/
def skeleton : Json → Json
  | .str _ => .str ""
  | .arr items => .arr (skeletonItems items)
  | .obj fields => .obj (skeletonFields fields)
  | v => v
termination_by structural v => v

def skeletonItems : List Json → List Json
  | [] => []
  | v :: rest => skeleton v :: skeletonItems rest
termination_by structural v => v

def skeletonField : String × Json → String × Json
  | (key, v) => (key, skeleton v)
termination_by structural v => v

def skeletonFields : List (String × Json) → List (String × Json)
  | [] => []
  | p :: rest => skeletonField p :: skeletonFields rest
termination_by structural v => v

end

mutual

theorem skeleton_idem (v : Json) : skeleton (skeleton v) = skeleton v := by
  cases v with
  | arr items => simp [skeleton, skeletonItems_idem items]
  | obj fields => simp [skeleton, skeletonFields_idem fields]
  | _ => simp [skeleton]
termination_by structural v

theorem skeletonItems_idem (items : List Json) :
    skeletonItems (skeletonItems items) = skeletonItems items := by
  cases items with
  | nil => simp [skeletonItems]
  | cons v rest => simp [skeletonItems, skeleton_idem v, skeletonItems_idem rest]
termination_by structural items

theorem skeletonField_idem (p : String × Json) :
    skeletonField (skeletonField p) = skeletonField p := by
  obtain ⟨key, v⟩ := p
  simp [skeletonField, skeleton_idem v]
termination_by structural p

theorem skeletonFields_idem (fields : List (String × Json)) :
    skeletonFields (skeletonFields fields) = skeletonFields fields := by
  cases fields with
  | nil => simp [skeletonFields]
  | cons p rest => simp [skeletonFields, skeletonField_idem p, skeletonFields_idem rest]
termination_by structural fields

end

theorem skeletonItems_append (items : List Json) (v : Json) :
    skeletonItems (items ++ [v]) = skeletonItems items ++ [skeleton v] := by
  induction items with
  | nil => simp [skeletonItems]
  | cons w rest ih => simp [skeletonItems, ih]

theorem skeletonFields_set (fields : JsonObject) (key : String) (v : Json) :
    skeletonFields (fields.set key v) = JsonObject.set (skeletonFields fields) key (skeleton v) := by
  induction fields with
  | nil => simp [JsonObject.set, skeletonFields, skeletonField]
  | cons p rest ih =>
    obtain ⟨k, w⟩ := p
    by_cases hk : k = key
    · simp [JsonObject.set, hk, skeletonFields, skeletonField]
    · simp [JsonObject.set, hk, skeletonFields, skeletonField, ih]

/-- What a frame keeps when the contents of strings are forgotten. -/
def Frame.skeleton : Frame → Frame
  | .arr items => .arr (skeletonItems items)
  | .obj fields key => .obj (skeletonFields fields) key

/-- A key is kept while it is being read, the contents of a value are not. -/
def Mode.skeleton : Mode → Mode
  | .value => .value
  | .item => .item
  | .key first fields => .key first (skeletonFields fields)
  | .colon fields name => .colon (skeletonFields fields) name
  | .text (some fields) chars escape => .text (some (skeletonFields fields)) chars escape
  | .text none _ escape => .text none [] escape
  | .number token => .number token
  | .word rest v => .word rest (JsonText.skeleton v)
  | .closed v => .closed (JsonText.skeleton v)

/-- The reader without the contents of strings. -/
def Reader.skeleton (r : Reader) : Reader := ⟨r.mode.skeleton, r.stack.map Frame.skeleton⟩

attribute [local simp] skeletonFields_idem

theorem Frame.skeleton_idem (f : Frame) : f.skeleton.skeleton = f.skeleton := by
  cases f with
  | arr items => simp [Frame.skeleton, skeletonItems_idem]
  | obj fields key => simp [Frame.skeleton]

theorem map_skeleton_idem (stack : List Frame) :
    (stack.map Frame.skeleton).map Frame.skeleton = stack.map Frame.skeleton := by
  rw [List.map_map]
  exact map_congr_left fun f _ => f.skeleton_idem

/-! ### The Reader on Skeletons -/

variable {F : FloatText} {r r' : Reader} {stack : List Frame} {c : Char}

@[simp] theorem skeleton_mk (mode : Mode) (stack : List Frame) :
    (Reader.mk mode stack).skeleton = ⟨mode.skeleton, stack.map Frame.skeleton⟩ := rfl

theorem beginValue_skeleton (stack : List Frame) (c : Char) :
    (beginValue stack c).map Reader.skeleton =
      (beginValue (stack.map Frame.skeleton) c).map Reader.skeleton := by
  have hidem := map_skeleton_idem stack
  unfold beginValue
  simp only [apply_ite (Option.map Reader.skeleton), map_some, map_none, skeleton_mk,
    map_cons, hidem]

attribute [local simp] skeleton_idem

theorem afterValue_skeleton (v : Json) (stack : List Frame) (c : Char) :
    (afterValue v stack c).map Reader.skeleton =
      (afterValue (skeleton v) (stack.map Frame.skeleton) c).map Reader.skeleton := by
  have hidem := map_skeleton_idem stack
  unfold afterValue
  split
  · simp [Mode.skeleton, hidem]
  · cases stack with
    | nil => rfl
    | cons frame outer =>
      have houter := map_skeleton_idem outer
      cases frame with
      | arr items =>
        simp only [map_cons, Frame.skeleton]
        repeat' split
        all_goals simp [Mode.skeleton, Frame.skeleton, skeleton, skeletonItems_append, skeletonItems_idem, houter]
      | obj fields key =>
        simp only [map_cons, Frame.skeleton]
        repeat' split
        all_goals simp [Mode.skeleton, skeleton, skeletonFields_set, houter]

theorem stepText_escape (chars : List Char) (escape : Escape) (c : Char) :
    (stepText chars escape c).map (·.2) = (stepText [] escape c).map (·.2) := by
  have hclose : ∀ (value : Nat) (high : Option Nat),
      (closeHex chars value high).map (·.2) = (closeHex [] value high).map (·.2) := by
    intro value high
    unfold closeHex
    cases high with
    | none =>
      dsimp only
      repeat' split
      all_goals rfl
    | some high =>
      dsimp only
      split <;> rfl
  cases escape with
  | none =>
    unfold stepText
    dsimp only
    repeat' split
    all_goals rfl
  | slash =>
    unfold stepText
    dsimp only
    split
    · rfl
    · cases simpleEscape c <;> rfl
  | hex digits value high =>
    unfold stepText
    cases hexValue c with
    | none => rfl
    | some d =>
      cases digits with
      | zero => exact hclose _ high
      | succ n => rfl
  | high value | highSlash value =>
    unfold stepText
    dsimp only
    split <;> rfl

theorem text_skeleton (chars : List Char) (escape : Escape) (stack : List Frame) (c : Char) :
    ((stepText chars escape c).map fun q => Reader.mk (.text none q.1 q.2) stack).map
        Reader.skeleton =
      ((stepText [] escape c).map fun q =>
        Reader.mk (.text none q.1 q.2) (stack.map Frame.skeleton)).map Reader.skeleton := by
  have hescape := stepText_escape chars escape c
  have hidem := map_skeleton_idem stack
  cases hlong : stepText chars escape c with
  | none =>
    rw [hlong] at hescape
    cases hshort : stepText [] escape c with
    | none => rfl
    | some q =>
      rw [hshort] at hescape
      cases hescape
  | some q =>
    rw [hlong] at hescape
    cases hshort : stepText [] escape c with
    | none =>
      rw [hshort] at hescape
      cases hescape
    | some q' =>
      rw [hshort] at hescape
      simp only [map_some, some_inj] at hescape
      simp [Mode.skeleton, hidem, hescape]

theorem key_skeleton (fields : JsonObject) (chars : List Char) (escape : Escape)
    (stack : List Frame) (c : Char) :
    ((stepText chars escape c).map fun q => Reader.mk (.text (some fields) q.1 q.2) stack).map
        Reader.skeleton =
      ((stepText chars escape c).map fun q =>
        Reader.mk (.text (some (skeletonFields fields)) q.1 q.2) (stack.map Frame.skeleton)).map
          Reader.skeleton := by
  have hidem := map_skeleton_idem stack
  cases stepText chars escape c with
  | none => rfl
  | some q => simp [Mode.skeleton, hidem]

/-- **One character**: the reader without the contents of strings goes the same way. -/
theorem step_skeleton (r : Reader) (c : Char) :
    (step F r c).map Reader.skeleton = (step F r.skeleton c).map Reader.skeleton := by
  obtain ⟨mode, stack⟩ := r
  have hidem := map_skeleton_idem stack
  cases mode with
  | value =>
    unfold step
    simp only [skeleton_mk, Mode.skeleton]
    split
    · simp [Mode.skeleton, hidem]
    · exact beginValue_skeleton stack c
  | item =>
    unfold step
    simp only [skeleton_mk, Mode.skeleton]
    split
    · simp [Mode.skeleton, hidem]
    · split
      · cases stack with
        | nil => rfl
        | cons frame outer =>
          have houter := map_skeleton_idem outer
          cases frame with
          | arr items =>
            simp [Frame.skeleton, Mode.skeleton, skeleton, skeletonItems_idem, houter]
          | obj fields key => rfl
      · exact beginValue_skeleton stack c
  | key first fields =>
    unfold step
    simp only [skeleton_mk, Mode.skeleton]
    repeat' split
    all_goals simp [Mode.skeleton, skeleton, hidem]
  | colon fields name =>
    unfold step
    simp only [skeleton_mk, Mode.skeleton]
    repeat' split
    all_goals simp [Mode.skeleton, Frame.skeleton, hidem]
  | text fields chars escape =>
    cases fields with
    | none =>
      have htext := text_skeleton chars escape stack c
      cases escape with
      | none =>
        unfold step
        simp only [skeleton_mk, Mode.skeleton]
        split
        · simp [closeText, Mode.skeleton, skeleton, hidem]
        · exact htext
      | _ => exact htext
    | some fields =>
      have hkey := key_skeleton fields chars escape stack c
      cases escape with
      | none =>
        unfold step
        simp only [skeleton_mk, Mode.skeleton]
        split
        · simp [closeText, Mode.skeleton, hidem]
        · exact hkey
      | _ => exact hkey
  | number token =>
    unfold step
    simp only [skeleton_mk, Mode.skeleton]
    split
    · simp [Mode.skeleton, hidem]
    · split
      · simp [Mode.skeleton, skeleton, hidem]
      · cases hnumber : numberOf F token.reverse with
        | none => rfl
        | some v =>
          have hv : skeleton v = v := by
            unfold numberOf at hnumber
            split at hnumber
            · rw [← some.inj hnumber]
              simp [skeleton]
            · split at hnumber
              · rw [← some.inj hnumber]
                simp [skeleton]
              · cases hnumber
          have hafter := afterValue_skeleton v stack c
          rw [hv] at hafter
          exact hafter
  | word rest v =>
    unfold step
    simp only [skeleton_mk, Mode.skeleton]
    cases rest with
    | nil => rfl
    | cons d more =>
      dsimp only
      split
      · cases more with
        | nil => simp [Mode.skeleton, hidem]
        | cons e rest => simp [Mode.skeleton, hidem]
      · rfl
  | closed v => exact afterValue_skeleton v stack c

theorem run_skeleton (r : Reader) (text : List Char) :
    (run F r text).map Reader.skeleton = (run F r.skeleton text).map Reader.skeleton := by
  induction text generalizing r with
  | nil =>
    obtain ⟨mode, stack⟩ := r
    have hmode : mode.skeleton.skeleton = mode.skeleton := by
      cases mode with
      | text fields chars escape =>
        cases fields with
        | none => rfl
        | some fields => simp [Mode.skeleton]
      | _ => simp [Mode.skeleton]
    simp [hmode, Frame.skeleton_idem]
  | cons c rest ih =>
    have hstep := step_skeleton (F := F) r c
    rw [run_cons, run_cons]
    cases hlong : step F r c with
    | none =>
      rw [hlong] at hstep
      cases hshort : step F r.skeleton c with
      | none => rfl
      | some u =>
        rw [hshort] at hstep
        cases hstep
    | some t =>
      rw [hlong] at hstep
      cases hshort : step F r.skeleton c with
      | none =>
        rw [hshort] at hstep
        cases hstep
      | some u =>
        rw [hshort] at hstep
        have hsame : t.skeleton = u.skeleton := some.inj hstep
        rw [bind_some, bind_some, ih t, ih u, hsame]

variable {t : Reader} {text : List Char} {pieces : List Piece}

theorem run_congr (h : r'.skeleton = r.skeleton)
    (hrun : run F r text = some t) : ∃ t', run F r' text = some t' ∧ t'.skeleton = t.skeleton := by
  have hlong := run_skeleton (F := F) r text
  have hshort := run_skeleton (F := F) r' text
  rw [h, ← hlong, hrun] at hshort
  exact map_eq_some_iff.mp hshort

theorem finish_skeleton (r : Reader) :
    (finish F r).map skeleton = (finish F r.skeleton).map skeleton := by
  obtain ⟨mode, stack⟩ := r
  cases stack with
  | cons frame outer => rfl
  | nil =>
    cases mode with
    | closed v => simp [finish, Mode.skeleton]
    | text fields chars escape =>
      cases fields with
      | none => rfl
      | some fields => rfl
    | _ => rfl

/-! ### Edits -/

/-- The reader is in a string value, outside an escape. -/
def Reader.inValue (r : Reader) : Bool :=
  match r.mode with
  | .text none _ .none => true
  | _ => false

theorem inValue_iff : r.inValue ↔ ∃ chars, r.mode = .text none chars .none := by
  obtain ⟨mode, stack⟩ := r
  unfold Reader.inValue
  constructor
  · intro h
    dsimp only at h
    split at h
    · next chars => exact ⟨chars, rfl⟩
    · cases h
  · rintro ⟨chars, hmode⟩
    obtain rfl : mode = _ := hmode
    rfl

theorem inValue_skeleton (r : Reader) : r.skeleton.inValue = r.inValue := by
  obtain ⟨mode, stack⟩ := r
  cases mode with
  | text fields chars escape =>
    cases fields with
    | none => cases escape <;> rfl
    | some fields => cases escape <;> rfl
  | _ => rfl

/-- A character that stands for itself in a string. -/
def isPlain (c : Char) : Bool := c != '"' && c != '\\' && 32 ≤ c.toNat

theorem run_plain (h : r.inValue) (hplain : text.all isPlain) :
    ∃ t, run F r text = some t ∧ t.skeleton = r.skeleton := by
  induction text generalizing r with
  | nil => exact ⟨r, rfl, rfl⟩
  | cons c rest ih =>
    obtain ⟨mode, stack⟩ := r
    obtain ⟨chars, hmode⟩ := inValue_iff.mp h
    obtain rfl : mode = _ := hmode
    rw [all_cons, Bool.and_eq_true] at hplain
    obtain ⟨hc, hrest⟩ := hplain
    have hstep : step F ⟨.text none chars .none, stack⟩ c =
        some ⟨.text none (c :: chars) .none, stack⟩ := by
      simp only [isPlain, Bool.and_eq_true, bne_iff_ne, ne_eq, decide_eq_true_eq] at hc
      obtain ⟨⟨hquote, hslash⟩, hcontrol⟩ := hc
      unfold step stepText
      simp [hquote, hslash, Nat.not_lt.mpr hcontrol]
    obtain ⟨t, ht, hsame⟩ := ih (r := ⟨.text none (c :: chars) .none, stack⟩) rfl hrest
    exact ⟨t, (run_cons_of_step hstep rest).trans ht, hsame⟩

theorem run_unquoted {chars : List Char} {escape : Escape}
    (hmode : r.mode = .text none chars escape) (hquote : '"' ∉ text) (h : run F r text = some t) :
    t.stack = r.stack ∧ ∃ chars escape, t.mode = .text none chars escape := by
  induction text generalizing r chars escape with
  | nil =>
    cases h
    exact ⟨rfl, chars, escape, hmode⟩
  | cons c rest ih =>
    obtain ⟨mode, stack⟩ := r
    obtain rfl : mode = _ := hmode
    simp only [mem_cons, not_or] at hquote
    rw [run_cons] at h
    obtain ⟨u, hu, hrest⟩ := bind_eq_some_iff.mp h
    have hstep : (stepText chars escape c).map
        (fun q => Reader.mk (.text none q.1 q.2) stack) = some u := by
      unfold step at hu
      cases escape with
      | none =>
        dsimp only at hu
        rwa [if_neg (Ne.symm hquote.1)] at hu
      | _ => exact hu
    obtain ⟨q, -, rfl⟩ := map_eq_some_iff.mp hstep
    exact ih (r := ⟨.text none q.1 q.2, stack⟩) rfl hquote.2 hrest

def commonPrefix : List Char → List Char → List Char
  | a :: as, b :: bs => if a = b then a :: commonPrefix as bs else []
  | _, _ => []

/-- What is left of a stretch behind what it shares with its replacement. -/
def gone (p : Piece) : List Char := p.1.drop (commonPrefix p.1 p.2).length

def inserted (p : Piece) : List Char := p.2.drop (commonPrefix p.1 p.2).length

theorem commonPrefix_append (old new : List Char) :
    commonPrefix old new ++ old.drop (commonPrefix old new).length = old ∧
      commonPrefix old new ++ new.drop (commonPrefix old new).length = new := by
  induction old generalizing new with
  | nil => exact ⟨rfl, rfl⟩
  | cons a as ih =>
    cases new with
    | nil => exact ⟨rfl, rfl⟩
    | cons b bs =>
      unfold commonPrefix
      by_cases h : a = b
      · subst h
        obtain ⟨hold, hnew⟩ := ih bs
        simp [hold, hnew]
      · simp [h]

/-- The stretch lies inside a string value and breaks no escape: the reader is in the string, outside
    an escape, where the stretch changes and where it ends, and no quote is in between. -/
def InsideString (F : FloatText) (r : Reader) (p : Piece) : Prop :=
  p.1 = p.2 ∨ ('"' ∉ gone p ∧ ∃ before ∈ run F r (commonPrefix p.1 p.2), before.inValue ∧
    ∃ behind ∈ run F before (gone p), behind.inValue)

/-- Every stretch that is replaced lies inside a string value. -/
def EditsInside (F : FloatText) : Reader → List Piece → Prop
  | _, [] => True
  | r, p :: rest => InsideString F r p ∧ ∀ t ∈ run F r p.1, EditsInside F t rest

instance (F : FloatText) (r : Reader) (p : Piece) : Decidable (InsideString F r p) :=
  inferInstanceAs (Decidable (_ ∨ (_ ∧ ∃ before ∈ run F r (commonPrefix p.1 p.2),
    before.inValue ∧ ∃ behind ∈ run F before (gone p), behind.inValue)))

instance decidableEditsInside (F : FloatText) :
    (r : Reader) → (pieces : List Piece) → Decidable (EditsInside F r pieces)
  | _, [] => .isTrue trivial
  | r, p :: rest =>
    have := fun t => decidableEditsInside F t rest
    inferInstanceAs (Decidable (InsideString F r p ∧ ∀ t ∈ run F r p.1, EditsInside F t rest))

theorem run_piece {p : Piece} (hinside : InsideString F r p) (hplain : (inserted p).all isPlain)
    (hsame : r'.skeleton = r.skeleton) (h : run F r p.1 = some t) :
    ∃ t', run F r' p.2 = some t' ∧ t'.skeleton = t.skeleton := by
  rcases hinside with heq | ⟨hquote, before, hbefore, hstart, behind, hbehind, hend⟩
  · rw [← heq]
    exact run_congr hsame h
  · obtain ⟨hold, hnew⟩ := commonPrefix_append p.1 p.2
    obtain ⟨before', hbefore', hsame'⟩ := run_congr hsame hbefore
    have hstart' : before'.inValue := by
      rw [← inValue_skeleton, hsame', inValue_skeleton]
      exact hstart
    obtain ⟨t', ht', hskeleton⟩ := run_plain (F := F) hstart' hplain
    have hbehind' : t = behind := by
      rw [← hold, run_append_of_run hbefore] at h
      exact some.inj (h.symm.trans hbehind)
    refine ⟨t', ?_, ?_⟩
    · rw [← hnew, run_append_of_run hbefore']
      exact ht'
    · obtain ⟨chars, hmode⟩ := inValue_iff.mp hstart
      obtain ⟨hstack, -⟩ := run_unquoted hmode hquote hbehind
      obtain ⟨chars', hmode'⟩ := inValue_iff.mp hend
      rw [hskeleton, hsame', hbehind', Reader.skeleton, Reader.skeleton, hmode, hmode', hstack]
      rfl

/-- **Edits**: the reader cannot tell the stretches from their replacements. -/
theorem run_edited (hinside : EditsInside F r pieces)
    (hplain : ∀ p ∈ pieces, (inserted p).all isPlain) (hsame : r'.skeleton = r.skeleton)
    (h : run F r (pieces.flatMap (·.1)) = some t) :
    ∃ t', run F r' (pieces.flatMap (·.2)) = some t' ∧ t'.skeleton = t.skeleton := by
  induction pieces generalizing r r' with
  | nil =>
    cases h
    exact ⟨r', rfl, hsame⟩
  | cons p rest ih =>
    obtain ⟨hpiece, hrest⟩ := hinside
    obtain ⟨hfirst, hothers⟩ := forall_mem_cons.mp hplain
    rw [flatMap_cons, run_append] at h
    obtain ⟨u, hu, hrun⟩ := bind_eq_some_iff.mp h
    obtain ⟨u', hu', hsame'⟩ := run_piece hpiece hfirst hsame hu
    obtain ⟨t', ht', hskeleton⟩ := ih (hrest u hu) hothers hsame' hrun
    refine ⟨t', ?_, hskeleton⟩
    rw [flatMap_cons, run_append_of_run hu']
    exact ht'

/-- **Framing**: a document whose strings are edited is a document with the same skeleton. -/
theorem loads_edited (hinside : EditsInside F .start pieces)
    (hplain : ∀ p ∈ pieces, (inserted p).all isPlain) {v : Json}
    (h : loads F (pieces.flatMap (·.1)) = some v) :
    ∃ v', loads F (pieces.flatMap (·.2)) = some v' ∧ skeleton v' = skeleton v := by
  obtain ⟨t, ht, hfinish⟩ := bind_eq_some_iff.mp h
  obtain ⟨t', ht', hskeleton⟩ := run_edited hinside hplain rfl ht
  have hlong := finish_skeleton (F := F) t
  have hshort := finish_skeleton (F := F) t'
  rw [hskeleton, ← hlong, hfinish] at hshort
  obtain ⟨v', hv', hsame⟩ := map_eq_some_iff.mp hshort
  refine ⟨v', ?_, hsame⟩
  rw [loads, ht', bind_some]
  exact hv'

theorem obj_of_skeleton {v : Json} {fields : JsonObject} (h : skeleton v = skeleton (.obj fields)) :
    ∃ fields', v = .obj fields' := by
  cases v with
  | obj fields' => exact ⟨fields', rfl⟩
  | _ => simp [skeleton] at h

end Codify.Framework.JsonText

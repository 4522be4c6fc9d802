import Codify.Framework.SurrogateEscape
import Codify.Worker.DeliveryAgreement

/-! # The Diff Listing and the Text-Mode Pipe

    `_collect_diff` reads git's NUL-separated listings through a pipe in text mode, encodes the
    text again and parses the bytes. A path may hold any byte but NUL. `surrogateescape` loses
    none of them; the newline translation of text mode replaces the carriage returns.
-/

namespace Codify.Worker.DiffListing

open Codify.Framework List DeliveryAgreement DeliverySnapshot

/-! ### What Git Prints -/

inductive ChangeStatus where
  | added
  | modified
  | deleted
  | typeChanged
  deriving DecidableEq

def ChangeStatus.letter : ChangeStatus → UInt8
  | .added => 65
  | .modified => 77
  | .deleted => 68
  | .typeChanged => 84

/-- A changed path, with its line counts unless the file is binary. -/
structure Change where
  status : ChangeStatus
  path : List UInt8
  counts : Option (Nat × Nat)
  nonempty : path ≠ []
  noNul : 0 ∉ path

def zBytes (fields : List (List UInt8)) : List UInt8 := fields.flatMap (· ++ [0])

def decimal (n : Nat) : List UInt8 := (Nat.toDigits 10 n).map fun c => UInt8.ofNat c.toNat

variable (change : Change)

/-- Two counts or two dashes, each behind it a tab. -/
def Change.columns : List UInt8 :=
  match change.counts with
  | some (added, deleted) => decimal added ++ [9] ++ (decimal deleted ++ [9])
  | none => [45, 9, 45, 9]

variable (wanted : ChangeStatus → Bool) (changes : List Change)

/-- `git diff --numstat -z --no-renames`. -/
def numstat : List UInt8 := zBytes (changes.map fun change => change.columns ++ change.path)

/-- `git diff --name-status -z --no-renames`. -/
def nameStatus : List UInt8 :=
  zBytes (changes.flatMap fun change => [[change.status.letter], change.path])

/-! ### The Reader -/

/-- What git leaves: its return code, and the bytes it has printed. -/
structure Output where
  returncode : Int
  stdout : List UInt8

structure CompletedProcess where
  returncode : Int
  stdout : List EscapedChar

/-- `_run_git`: text mode decodes with `surrogateescape` and translates the line ends. -/
def runGit (output : Output) : CompletedProcess :=
  ⟨output.returncode, universalNewlines false (decodeEscape output.stdout)⟩

/-- The character with the number of a byte. -/
def latin1 (b : UInt8) : Char := Char.ofNat b.toNat

/-- `_parse_numstat`. -/
def parseNumstat (raw : List UInt8) : Option (Int × Int) :=
  DeliverySnapshot.parseNumstat (raw.map latin1)

/-- The three lists of `_parse_name_status`. -/
structure Names where
  added : List (List EscapedChar)
  modified : List (List EscapedChar)
  deleted : List (List EscapedChar)
  deriving DecidableEq

/-- One round of the loop of `_parse_name_status`, in front of what the rest gives. -/
def Names.cons (status path : List UInt8) (rest : Names) : Names :=
  let name := decodeEscape path
  if name = [] then rest
  else if status = [65] then { rest with added := name :: rest.added }
  else if status = [68] then { rest with deleted := name :: rest.deleted }
  else if status = [77] ∨ status = [84] then { rest with modified := name :: rest.modified }
  else rest

/-- The loop of `_parse_name_status`. -/
def namesOf : List (List UInt8) → Names
  | status :: path :: rest => Names.cons status path (namesOf rest)
  | _ => ⟨[], [], []⟩

def parseNameStatus (raw : List UInt8) : Names := namesOf (raw.splitOn 0)

/-- The `diff` that `_collect_diff` returns. -/
structure Diff where
  additions : Option Int
  deletions : Option Int
  total : Option Int
  newFiles : List (List EscapedChar)
  modifiedFiles : List (List EscapedChar)
  deletedFiles : List (List EscapedChar)
  deriving DecidableEq

def Diff.ofNames (names : Names) (counts : Option (Int × Int)) : Diff :=
  { additions := counts.map Prod.fst
    deletions := counts.map Prod.snd
    total := counts.map fun counts => counts.1 + counts.2
    newFiles := names.added
    modifiedFiles := names.modified
    deletedFiles := names.deleted }

/-- `_collect_diff`, on what `diff --numstat`, `diff --name-status` and `diff-tree` leave. -/
def collectDiff (numstatOutput nameOutput treeOutput : Output) : Option Diff :=
  let numstatResult := runGit numstatOutput
  let nameResult := runGit nameOutput
  if nameResult.returncode ≠ 0 then
    -- a tree diff never needs the blobs
    let treeResult := runGit treeOutput
    if treeResult.returncode ≠ 0 then none
    else some (Diff.ofNames (parseNameStatus (encodeEscape treeResult.stdout)) none)
  else
    let names := parseNameStatus (encodeEscape nameResult.stdout)
    if numstatResult.returncode ≠ 0 then some (Diff.ofNames names none)
    else some (Diff.ofNames names (parseNumstat (encodeEscape numstatResult.stdout)))

/-! ### Parsing What Was Printed -/

/-- The paths with a wanted status, in order. -/
def pathsOf : List (List UInt8) :=
  (changes.filter fun change => wanted change.status).map Change.path

def isModified (status : ChangeStatus) : Bool := status = .modified || status = .typeChanged

theorem decodeEscape_ne_nil {raw : List UInt8} (h : raw ≠ []) : decodeEscape raw ≠ [] := by
  intro hnil
  have hround := encodeEscape_decodeEscape raw
  rw [hnil, encodeEscape_nil] at hround
  exact h hround.symm

theorem splitOn_nameStatus :
    (nameStatus changes).splitOn 0 =
      changes.flatMap (fun change => [[change.status.letter], change.path]) ++ [[]] := by
  apply splitOn_terminated
  intro field hfield
  obtain ⟨change, -, hmem⟩ := mem_flatMap.mp hfield
  rcases mem_cons.mp hmem with rfl | hmem
  · cases change.status <;> decide
  · rw [mem_singleton.mp hmem]
    exact change.noNul

theorem parseNameStatus_nameStatus :
    parseNameStatus (nameStatus changes) =
      { added := (pathsOf (· = .added) changes).map decodeEscape
        modified := (pathsOf isModified changes).map decodeEscape
        deleted := (pathsOf (· = .deleted) changes).map decodeEscape } := by
  unfold parseNameStatus pathsOf
  rw [splitOn_nameStatus]
  induction changes with
  | nil => rfl
  | cons change rest ih =>
    have hname : decodeEscape change.path ≠ [] := decodeEscape_ne_nil change.nonempty
    rw [flatMap_cons, append_assoc]
    show Names.cons [change.status.letter] change.path
      (namesOf (rest.flatMap (fun change => [[change.status.letter], change.path]) ++ [[]])) = _
    rw [ih, Names.cons, if_neg hname]
    cases hstatus : change.status <;> simp [hstatus, ChangeStatus.letter, isModified]

theorem toNat_latin1 (b : UInt8) : (latin1 b).toNat = b.toNat := by
  have hvalid : b.toNat.isValidChar := .inl (by have := b.toNat_lt; omega)
  unfold latin1
  rw [Char.ofNat, dif_pos hvalid]
  rfl

theorem eq_zero_of_latin1 {b : UInt8} (h : latin1 b = '\x00') : b = 0 := by
  have hcode := toNat_latin1 b
  rw [h] at hcode
  exact UInt8.toNat_inj.mp hcode.symm

/-- A change as a line of the text that `DeliverySnapshot.parseNumstat` reads. -/
def Change.line : DeliverySnapshot.NumstatEntry :=
  { counts := change.counts
    path := ⟨String.ofList (change.path.map latin1), by
      rw [String.toList_ofList]
      intro hmem
      obtain ⟨b, hb, hcode⟩ := mem_map.mp hmem
      exact change.noNul (eq_zero_of_latin1 hcode ▸ hb)⟩ }

/-- The lines added, over the files that are not binary. -/
def additionsOf : Nat := (changes.map fun change => (change.counts.map Prod.fst).getD 0).sum

/-- The lines deleted, over the files that are not binary. -/
def deletionsOf : Nat := (changes.map fun change => (change.counts.map Prod.snd).getD 0).sum

theorem map_latin1_decimal (n : Nat) : (decimal n).map latin1 = Nat.toDigits 10 n := by
  unfold decimal
  rw [map_map]
  conv => rhs; rw [← map_id (Nat.toDigits 10 n)]
  apply map_congr_left
  intro c hc
  have hdigit : c.isDigit = true := Nat.isDigit_of_mem_toDigits (by decide) (by decide) hc
  unfold Char.isDigit at hdigit
  rw [Bool.and_eq_true, decide_eq_true_eq, decide_eq_true_eq] at hdigit
  have hhigh : c.toNat ≤ 57 := UInt32.le_iff_toNat_le.mp hdigit.2
  show Char.ofNat (UInt8.ofNat c.toNat).toNat = c
  rw [UInt8.toNat_ofNat_of_lt' (by show c.toNat < 256; omega), Char.ofNat_toNat]

theorem parseNumstat_numstat :
    parseNumstat (numstat changes) =
      some ((additionsOf changes : Int), (deletionsOf changes : Int)) := by
  have htext : (numstat changes).map latin1 =
      zText ((changes.map Change.line).map DeliverySnapshot.NumstatEntry.field) := by
    unfold numstat zBytes zText
    rw [map_flatMap, flatMap_map, map_map, flatMap_map]
    apply flatMap_congr
    intro change _
    rw [map_append, map_append]
    show _ = (countFields change.counts ++
      (String.ofList (change.path.map latin1)).toList) ++ _
    rw [String.toList_ofList]
    unfold Change.columns
    cases change.counts with
    | none => rfl
    | some counts =>
      have htab : latin1 9 = '\t' := rfl
      have hnul : latin1 0 = '\x00' := rfl
      simp only [map_append, map_cons, map_nil, map_latin1_decimal,
        countFields, htab, hnul, append_assoc, cons_append, nil_append]
  unfold parseNumstat
  rw [htext, parseNumstat_lines]
  simp only [linesAdded, linesDeleted, map_map,
    Function.comp_def, Change.line, additionsOf, deletionsOf]

/-! ### What Passes the Pipe -/

/-- A change as it is read: the carriage returns of its path are translated. -/
def Change.received : Change :=
  { status := change.status
    path := newlineBytes false change.path
    counts := change.counts
    nonempty := newlineBytes_ne_nil change.nonempty
    noNul := fun h => change.noNul (newlineBytes_mem (by decide) h) }

theorem newlineBytes_zBytes (fields : List (List UInt8)) :
    newlineBytes false (zBytes fields) = zBytes (fields.map (newlineBytes false)) := by
  unfold zBytes
  induction fields with
  | nil => rfl
  | cons field rest ih =>
    rw [flatMap_cons, append_assoc, singleton_append,
      newlineBytes_append (by decide) (by decide), ih, map_cons, flatMap_cons,
      append_assoc, singleton_append]

theorem received_nameStatus :
    newlineBytes false (nameStatus changes) = nameStatus (changes.map Change.received) := by
  unfold nameStatus
  rw [newlineBytes_zBytes, map_flatMap, flatMap_map]
  congr 1
  apply flatMap_congr
  intro change _
  have hletter : newlineBytes false [change.status.letter] = [change.status.letter] := by
    cases change.status <;> decide
  show [newlineBytes false [change.status.letter], _] = _
  rw [hletter]
  rfl

/-- Text mode leaves the columns of a change as they are. -/
theorem newlineBytes_columns (rest : List UInt8) :
    newlineBytes false (change.columns ++ rest) = change.columns ++ newlineBytes false rest := by
  have hdigits : ∀ n, ∀ b ∈ decimal n, b ≠ 13 ∧ b ≠ 10 := by
    intro n b hb
    obtain ⟨c, hc, rfl⟩ := mem_map.mp hb
    have hdigit : c.isDigit = true := Nat.isDigit_of_mem_toDigits (by decide) (by decide) hc
    unfold Char.isDigit at hdigit
    rw [Bool.and_eq_true, decide_eq_true_eq, decide_eq_true_eq] at hdigit
    have hlow : 48 ≤ c.toNat := UInt32.le_iff_toNat_le.mp hdigit.1
    have hhigh : c.toNat ≤ 57 := UInt32.le_iff_toNat_le.mp hdigit.2
    have hnat : (UInt8.ofNat c.toNat).toNat = c.toNat :=
      UInt8.toNat_ofNat_of_lt' (by show c.toNat < 256; omega)
    refine ⟨fun h => ?_, fun h => ?_⟩
    · have := congrArg UInt8.toNat h
      rw [hnat] at this
      change c.toNat = 13 at this
      omega
    · have := congrArg UInt8.toNat h
      rw [hnat] at this
      change c.toNat = 10 at this
      omega
  have hcolumns : ∀ b ∈ change.columns, b ≠ 13 ∧ b ≠ 10 := by
    unfold Change.columns
    cases change.counts with
    | none => simp
    | some counts =>
      intro b hb
      simp only [mem_append, mem_singleton] at hb
      rcases hb with (hb | rfl) | hb | rfl
      · exact hdigits _ b hb
      · decide
      · exact hdigits _ b hb
      · decide
  have hne : change.columns ≠ [] := by
    unfold Change.columns
    cases change.counts with
    | none => simp
    | some counts => simp
  exact newlineBytes_plain hne (fun h => (hcolumns 13 h).1 rfl) (fun h => (hcolumns 10 h).2 rfl)
    false rest

theorem received_numstat :
    newlineBytes false (numstat changes) = numstat (changes.map Change.received) := by
  unfold numstat
  rw [newlineBytes_zBytes, map_map, map_map]
  congr 1
  apply map_congr_left
  intro change _
  exact newlineBytes_columns change change.path

/-- **Every diff**: the listing that is read is git's, of the paths as the pipe passes them. -/
theorem collectDiff_printed (treeOutput : Output) :
    collectDiff ⟨0, numstat changes⟩ ⟨0, nameStatus changes⟩ treeOutput =
      let received := changes.map Change.received
      some (Diff.ofNames
        { added := (pathsOf (· = .added) received).map decodeEscape
          modified := (pathsOf isModified received).map decodeEscape
          deleted := (pathsOf (· = .deleted) received).map decodeEscape }
        (some ((additionsOf changes : Int), (deletionsOf changes : Int)))) := by
  have hcounts : ∀ count : Change → Nat, (∀ change, count change.received = count change) →
      ((changes.map Change.received).map count).sum = (changes.map count).sum := by
    intro count h
    rw [map_map]
    exact congrArg List.sum (map_congr_left fun change _ => h change)
  unfold collectDiff runGit
  simp only [ne_eq, not_true_eq_false, if_false, encode_universalNewlines, received_nameStatus,
    received_numstat, parseNameStatus_nameStatus, parseNumstat_numstat]
  have hadditions : additionsOf (changes.map Change.received) = additionsOf changes :=
    hcounts _ fun _ => rfl
  have hdeletions : deletionsOf (changes.map Change.received) = deletionsOf changes :=
    hcounts _ fun _ => rfl
  rw [hadditions, hdeletions]

/-! ### Faithful Listings -/

/-- The file lists give the paths back, by status and in order, and the sums are the diff's. -/
structure Faithful (changes : List Change) (diff : Diff) : Prop where
  newFiles : diff.newFiles.map encodeEscape = pathsOf (· = .added) changes
  modifiedFiles : diff.modifiedFiles.map encodeEscape = pathsOf isModified changes
  deletedFiles : diff.deletedFiles.map encodeEscape = pathsOf (· = .deleted) changes
  additions : diff.additions = some (additionsOf changes : Int)
  deletions : diff.deletions = some (deletionsOf changes : Int)
  total : diff.total = some (additionsOf changes + deletionsOf changes : Int)

theorem map_encode_decode (paths : List (List UInt8)) :
    (paths.map decodeEscape).map encodeEscape = paths := by
  rw [map_map]
  conv => rhs; rw [← map_id paths]
  exact map_congr_left fun path _ => encodeEscape_decodeEscape path

theorem pathsOf_received :
    pathsOf wanted (changes.map Change.received) =
      (pathsOf wanted changes).map (newlineBytes false) := by
  unfold pathsOf
  rw [filter_map, map_map, map_map]
  rfl

/-- The paths of one status are kept exactly when none of them has a carriage return. -/
theorem pathsOf_received_iff :
    pathsOf wanted (changes.map Change.received) = pathsOf wanted changes ↔
      ∀ change ∈ changes, wanted change.status = true → 13 ∉ change.path := by
  rw [pathsOf_received]
  constructor
  · intro h change hmem hwanted
    have hpath : change.path ∈ pathsOf wanted changes :=
      mem_map_of_mem (mem_filter.mpr ⟨hmem, hwanted⟩)
    rw [← h] at hpath
    obtain ⟨path, -, heq⟩ := mem_map.mp hpath
    rw [← heq]
    exact return_not_mem_newlineBytes false path
  · intro h
    conv => rhs; rw [← map_id (pathsOf wanted changes)]
    apply map_congr_left
    intro path hpath
    obtain ⟨change, hchange, rfl⟩ := mem_map.mp hpath
    obtain ⟨hmem, hwanted⟩ := mem_filter.mp hchange
    exact newlineBytes_eq_self_iff.mpr (h change hmem hwanted)

/-- **The diff listing**: it is faithful to what git printed exactly when no path has a carriage
    return. -/
theorem diff_listing_faithful (changes : List Change) (treeOutput : Output) :
    (∃ diff, collectDiff ⟨0, numstat changes⟩ ⟨0, nameStatus changes⟩ treeOutput = some diff ∧
      Faithful changes diff) ↔ ∀ change ∈ changes, 13 ∉ change.path := by
  rw [collectDiff_printed]
  constructor
  · rintro ⟨diff, heq, hfaithful⟩
    cases heq
    have hnew := hfaithful.newFiles
    have hmodified := hfaithful.modifiedFiles
    have hdeleted := hfaithful.deletedFiles
    simp only [Diff.ofNames, map_encode_decode] at hnew hmodified hdeleted
    rw [pathsOf_received_iff] at hnew hmodified hdeleted
    intro change hmem
    cases hstatus : change.status with
    | added => exact hnew change hmem (by rw [hstatus]; rfl)
    | modified | typeChanged => exact hmodified change hmem (by rw [hstatus]; rfl)
    | deleted => exact hdeleted change hmem (by rw [hstatus]; rfl)
  · intro h
    refine ⟨_, rfl, ⟨?_, ?_, ?_, rfl, rfl, rfl⟩⟩ <;>
    · simp only [Diff.ofNames, map_encode_decode]
      rw [pathsOf_received_iff]
      exact fun change hmem _ => h change hmem

/-- A new file whose name holds a carriage return. -/
def returnChange : Change :=
  { status := .added
    path := [97, 13, 98]
    counts := some (1, 0)
    nonempty := by decide
    noNul := by decide }

/-- It is listed under another name. -/
theorem return_path_renamed :
    ¬ ∃ diff, collectDiff ⟨0, numstat [returnChange]⟩ ⟨0, nameStatus [returnChange]⟩ ⟨0, []⟩ = some diff ∧
      Faithful [returnChange] diff := by
  rintro ⟨diff, heq, hfaithful⟩
  rw [collectDiff_printed] at heq
  cases heq
  have hnew := hfaithful.newFiles
  simp only [Diff.ofNames, map_encode_decode] at hnew
  revert hnew
  decide

end Codify.Worker.DiffListing

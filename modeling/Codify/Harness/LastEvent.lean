import Codify.Framework.PosixPath
import Codify.Harness.EventFile
import Mathlib.Data.PNat.Defs

/-! # The Last Event

    `_read_last_event` walks backwards through the file in chunks of any size. It keeps the
    chunks since the last line feed it found, and starts over at that line feed when what
    lies behind it is blank.

    * **Lines**: a file is what lies between its line feeds (`lastLine`).
    * **Result**: the walk ends at the last line that is not blank, and parses it; a scan from
      the front ends with the same record when it gets through (`backward_read`).
-/

namespace Codify.Harness.LastEvent

open Codify.Framework JsonText EventFile WorkerEvents List

/-! ### The Walk -/

section Walk

variable (size : ℕ+)

/-- `read_start`. -/
def readStart (remaining : Nat) : Nat := remaining - min (size : Nat) remaining

/-- `stream.read(size)` at `read_start`. -/
def readChunk (bytes : List UInt8) (remaining : Nat) : List UInt8 :=
  (bytes.drop (readStart size remaining)).take (min (size : Nat) remaining)

theorem readStart_lt {remaining : Nat} (h : remaining ≠ 0) :
    readStart size remaining < remaining := by
  have hsize := size.pos
  unfold readStart
  omega

theorem readStart_add_lt {remaining i : Nat} {bytes : List UInt8}
    (h : rfindNewline (readChunk size bytes remaining) = some i) :
    readStart size remaining + i < remaining := by
  have hlt := rfindNewline_lt h
  have hlen := length_take_le (min (size : Nat) remaining) (bytes.drop (readStart size remaining))
  unfold readChunk at hlt
  unfold readStart at hlt hlen ⊢
  omega

/-- The loop of `_read_last_event` and the first line behind it. -/
def readLastLine (bytes : List UInt8) (remaining : Nat) (suffixParts : List (List UInt8)) :
    Option (List UInt8) :=
  if _hdone : remaining = 0 then
    if suffixParts = [] ∨ blankBytes suffixParts.reverse.flatten then none
    else some suffixParts.reverse.flatten
  else
    match _hfind : rfindNewline (readChunk size bytes remaining) with
    | some newline =>
      let rawLine :=
        (readChunk size bytes remaining).drop (newline + 1) ++ suffixParts.reverse.flatten
      if blankBytes rawLine then readLastLine bytes (readStart size remaining + newline) []
      else some rawLine
    | none =>
      readLastLine bytes (readStart size remaining)
        (suffixParts ++ [readChunk size bytes remaining])
termination_by remaining
decreasing_by
  · exact readStart_add_lt size _hfind
  · exact readStart_lt size _hdone

/-- `_read_last_event`. -/
def readLastEvent (F : FloatText) (bytes : List UInt8) : Except EmitError (Option JsonObject) :=
  match readLastLine size bytes bytes.length [] with
  | none => .ok none
  | some raw => (parseEventRecord F raw).map some

end Walk

/-! ### The Lines of a File -/

/-- The last line that is not blank. -/
def lastLine (lines : List (List UInt8)) : Option (List UInt8) :=
  lines.reverse.find? (!blankBytes ·)

/-- A line that a scan gets over. -/
def Scannable (F : FloatText) (raw : List UInt8) : Prop :=
  blankBytes raw = false →
    ∃ record, parseEventRecord F raw = .ok record ∧ (record.get "type").hashable

theorem lastLine_snoc (lines : List (List UInt8)) (line : List UInt8) :
    lastLine (lines ++ [line]) = if blankBytes line then lastLine lines else some line := by
  rw [lastLine, reverse_append, reverse_singleton, singleton_append, find?_cons]
  cases blankBytes line <;> rfl

theorem lastLine_cons (line : List UInt8) (lines : List (List UInt8)) :
    lastLine (line :: lines) =
      (lastLine lines).or (if blankBytes line then none else some line) := by
  rw [lastLine, reverse_cons, find?_append, lastLine, find?_singleton]
  cases blankBytes line <;> rfl

theorem lastLineRev_eq (rev : List UInt8) {line : List UInt8} (hfree : newlineByte ∉ line) :
    lastLineRev rev line = lastLine ((rev.reverse ++ line).splitOn newlineByte) := by
  induction rev generalizing line with
  | nil =>
    rw [reverse_nil, nil_append, splitOn_eq_singleton hfree]
    exact (lastLine_snoc [] line).symm
  | cons b before ih =>
    rw [lastLineRev, reverse_cons, append_assoc, singleton_append]
    split
    · next hb =>
      rw [hb, splitOn_append_cons_self, splitOn_eq_singleton hfree, lastLine_snoc, ih not_mem_nil,
        append_nil]
    · next hb => exact ih (by simp [hfree, Ne.symm hb])

theorem readLastLine_eq (size : ℕ+) (bytes : List UInt8) (remaining : Nat)
    (suffixParts : List (List UInt8)) :
    readLastLine size bytes remaining suffixParts =
      lastLineRev (bytes.take remaining).reverse suffixParts.reverse.flatten := by
  induction remaining using Nat.strong_induction_on generalizing suffixParts with
  | _ remaining ih =>
    rw [readLastLine]
    split
    · next hdone =>
      subst hdone
      cases suffixParts <;> simp [lastLineRev, blankBytes]
    · next hpos =>
      have hread := readStart_lt size hpos
      have hchunk : readChunk size bytes remaining =
          (bytes.drop (readStart size remaining)).take (remaining - readStart size remaining) := by
        rw [readChunk, readStart, Nat.sub_sub_self (Nat.min_le_right _ _)]
      rw [lastLineRev_chunk hread.le hchunk]
      split
      · next newline hfind => rw [hfind, ih _ (readStart_add_lt size hfind) []]; rfl
      · next hfind =>
        rw [hfind, ih _ hread]
        simp

theorem readLastEvent_eq (size : ℕ+) (F : FloatText) (bytes : List UInt8) :
    readLastEvent size F bytes =
      match lastLine (bytes.splitOn newlineByte) with
      | none => .ok none
      | some raw => (parseEventRecord F raw).map some := by
  rw [readLastEvent, readLastLine_eq, take_length, reverse_nil, flatten_nil,
    lastLineRev_eq _ not_mem_nil, reverse_reverse, append_nil]

/-- The chunk size does not show. -/
theorem readLastEvent_chunkSize (size : ℕ+) (F : FloatText) (bytes : List UInt8) :
    EventFile.readLastEvent F bytes = readLastEvent size F bytes := by
  rw [EventFile.readLastEvent, EventFile.readLastLine_eq, readLastEvent, readLastLine_eq]
  rfl

/-! ### The Scan -/

section Scan

variable {F : FloatText}

theorem scanLine_scannable {raw feed : List UInt8} (hfeed : feed = [] ∨ feed = [newlineByte])
    (h : Scannable F raw) (history : History) :
    ∃ history', scanLine F history (raw ++ feed) = .ok history' ∧
      history'.lastEvent = if blankBytes raw then history.lastEvent
        else (parseEventRecord F raw).toOption := by
  have hblank : blankBytes (raw ++ feed) = blankBytes raw := by
    rcases hfeed with rfl | rfl <;> simp [blankBytes, isSpaceByte, newlineByte]
  cases hraw : blankBytes raw with
  | true => exact ⟨history, by rw [scanLine, hblank, hraw]; rfl, rfl⟩
  | false =>
    obtain ⟨record, hparse, hhash⟩ := h hraw
    have hparse' : parseEventRecord F (raw ++ feed) = .ok record := by
      rcases hfeed with rfl | rfl
      · rwa [append_nil]
      · exact parseEventRecord_newline hparse
    refine ⟨_, scanLine_eq (hblank.trans hraw) hparse' hhash history, ?_⟩
    rw [hparse]
    rfl

/-- The records that lines hold end with the one of the last line. -/
theorem scan_lines {lines : List (List UInt8)} (hfree : ∀ line ∈ lines, newlineByte ∉ line)
    (hscan : ∀ line ∈ lines, Scannable F line) (history : History) :
    ∃ history', (binaryLines ([newlineByte].intercalate lines)).foldlM (scanLine F) history =
        .ok history' ∧
      history'.lastEvent =
        ((lastLine lines).map fun raw => (parseEventRecord F raw).toOption).getD
          history.lastEvent := by
  induction lines generalizing history with
  | nil => exact ⟨history, rfl, rfl⟩
  | cons line lines ih =>
    simp only [forall_mem_cons] at hfree hscan
    cases lines with
    | nil =>
      cases line with
      | nil => exact ⟨history, rfl, rfl⟩
      | cons b line =>
        obtain ⟨history', hline, hlast⟩ := scanLine_scannable (.inl rfl) hscan.1 history
        refine ⟨history', ?_, ?_⟩
        · rw [append_nil] at hline
          rw [intercalate_singleton, binaryLines_tail hfree.1 (cons_ne_nil _ _), List.foldlM_cons,
            hline]
          rfl
        · rw [hlast, lastLine_cons]
          split <;> rfl
    | cons next lines =>
      obtain ⟨history₁, hline, hlast₁⟩ := scanLine_scannable (.inr rfl) hscan.1 history
      obtain ⟨history', hlines, hlast⟩ := ih hfree.2 hscan.2 history₁
      refine ⟨history', ?_, ?_⟩
      · rw [intercalate_cons_cons, append_assoc, singleton_append, binaryLines_line hfree.1,
          List.foldlM_cons, hline]
        exact hlines
      · rw [hlast, lastLine_cons line, hlast₁]
        cases lastLine (next :: lines) with
        | none => split <;> rfl
        | some raw => rfl

end Scan

/-- The walk parses the last line that is not blank, for any chunk size; a scan that gets over
    every line ends with the same record. -/
theorem backward_read (size : ℕ+) (F : FloatText) (bytes : List UInt8) :
    (readLastEvent size F bytes =
      match lastLine (bytes.splitOn newlineByte) with
      | none => .ok none
      | some raw => (parseEventRecord F raw).map some) ∧
    ((∀ line ∈ bytes.splitOn newlineByte, Scannable F line) →
      ∃ history, scanEventBytes F bytes = .ok history ∧
        readLastEvent size F bytes = .ok history.lastEvent) := by
  refine ⟨readLastEvent_eq size F bytes, fun hscan => ?_⟩
  have hfree : ∀ line ∈ bytes.splitOn newlineByte, newlineByte ∉ line :=
    fun _ => PosixPath.not_mem_of_mem_splitOn
  obtain ⟨history, hrun, hlast⟩ := scan_lines hfree hscan {}
  rw [intercalate_splitOn] at hrun
  refine ⟨history, hrun, ?_⟩
  rw [readLastEvent_eq, hlast]
  cases hline : lastLine (bytes.splitOn newlineByte) with
  | none => rfl
  | some raw =>
    have hmem := mem_reverse.mp (mem_of_find?_eq_some hline)
    have hblank : blankBytes raw = false := by simpa using find?_some hline
    obtain ⟨record, hparse, -⟩ := hscan raw hmem hblank
    show (parseEventRecord F raw).map some = .ok (parseEventRecord F raw).toOption
    rw [hparse]
    rfl

/-- A file of one record, read a byte at a time. -/
theorem backward_read_started :
    ∃ history, scanEventBytes .fraction (recordBytes .fraction startedRecord) = .ok history ∧
      readLastEvent 1 .fraction (recordBytes .fraction startedRecord) =
        .ok history.lastEvent := by
  refine (backward_read 1 .fraction _).2 ?_
  have hok : RecordOk startedRecord := started_startedRecord.good.ok _ mem_cons_self
  rw [recordBytes_eq, splitOn_append_cons_self_of_not_mem newline_not_mem_lineBytes]
  intro line hline
  rcases mem_cons.mp hline with rfl | hline
  · exact fun _ => ⟨_, parseEventRecord_lineBytes hok, hok.hashable⟩
  · cases mem_singleton.mp hline
    exact nofun

/-- A list as a type is read backwards, and stops a scan. -/
theorem unhashable_type_stops_scan :
    ∃ bytes, (∀ line ∈ bytes.splitOn newlineByte, blankBytes line = false →
        (parseEventRecord .fraction line).toBool) ∧
      (EventFile.readLastEvent .fraction bytes).toBool ∧
      scanEventBytes .fraction bytes = .error .typeError := by
  refine ⟨encodeUtf8 "\x7b\"type\":[]\x7d\n".toList, ?_, ?_, ?_⟩
  · decide +kernel
  · rw [readLastEvent_chunkSize 8192, readLastEvent_eq]
    decide +kernel
  · rfl

end Codify.Harness.LastEvent

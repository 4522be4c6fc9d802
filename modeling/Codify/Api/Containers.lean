import Codify.Framework.Coalesce
import Codify.Framework.Framing
import Codify.Framework.PosixPath
import Codify.Framework.Utf8Replace
import Mathlib.Algebra.Order.BigOperators.Group.List
import Mathlib.Algebra.Order.Group.Nat

/-! # Raw Console Logs

    The stored console log of a task as the API serves it: the end of the whole
    log, read backwards page by page, the batches of the live stream, and the
    filter for the chatter of the certificate installation.
-/

namespace Codify.Api.Containers

open Codify.Framework Codify.Framework.JsonText Codify.Framework.Framing List

structure TaskRawLogChunk where
  sequenceNo : Nat
  content : List UInt8

/-- `chunk.content.decode("utf-8", errors="replace")`. -/
def TaskRawLogChunk.text (chunk : TaskRawLogChunk) : List Char := decodeReplace chunk.content

def logText (chunks : List TaskRawLogChunk) : List Char := chunks.flatMap (·.text)

/-- Non-empty chunks in the order of their sequence numbers. -/
structure Stored (chunks : List TaskRawLogChunk) : Prop where
  increasing : (chunks.map (·.sequenceNo)).Pairwise (· < ·)
  nonempty : ∀ chunk ∈ chunks, chunk.content ≠ []

def rawLogTailPageSize : Nat := 32

def rawLogStreamMaxChars : Nat := 500000

/-- `text[-n:]`, which is the whole text for `n = 0`. -/
def fromEnd (n : Nat) (text : List Char) : List Char := if n = 0 then text else text.rtake n

/-! ### The End of the Log -/

structure TailWindow where
  fragmentsDesc : List (List Char) := []
  totalChars : Nat := 0
  beforeSequenceNo : Option Nat := none
  lastSequenceNo : Nat := 0

/-- The answer of one page query: the newest chunks before the window, newest first. -/
def page (table : List TaskRawLogChunk) (before : Option Nat) : List TaskRawLogChunk :=
  (table.filter fun chunk => before.all (chunk.sequenceNo < ·)).reverse.take rawLogTailPageSize

def TailWindow.read (s : TailWindow) (chunks : List TaskRawLogChunk) : TailWindow :=
  { fragmentsDesc := s.fragmentsDesc ++ chunks.map (·.text)
    totalChars := s.totalChars + (chunks.map (·.text.length)).sum
    beforeSequenceNo := chunks.getLast?.map (·.sequenceNo)
    lastSequenceNo :=
      if s.lastSequenceNo = 0 then (chunks.head?.map (·.sequenceNo)).getD 0
      else s.lastSequenceNo }

/-- How far back the window may still go. -/
def TailWindow.depth (s : TailWindow) : Nat × Nat :=
  match s.beforeSequenceNo with
  | none => (1, 0)
  | some before => (0, before)

theorem depth_read (s : TailWindow) (table : List TaskRawLogChunk)
    (h : page table s.beforeSequenceNo ≠ []) :
    Prod.Lex (· < ·) (· < ·) (s.read (page table s.beforeSequenceNo)).depth s.depth := by
  unfold TailWindow.depth TailWindow.read
  generalize s.beforeSequenceNo = before at h ⊢
  have hmem := mem_of_mem_take (getLast_mem h)
  rw [getLast?_eq_some_getLast h]
  cases before with
  | none => exact .left _ _ Nat.zero_lt_one
  | some before =>
    have hlt := (mem_filter.mp (mem_reverse.mp hmem)).2
    exact .right _ (by simpa using hlt)

/-- The loop over the pages; `tables i` is the stored log when the query `i` is answered. -/
def fetchPages (tables : Nat → List TaskRawLogChunk) (tailChars query : Nat) (s : TailWindow) :
    TailWindow :=
  if s.totalChars ≤ tailChars then
    if h : page (tables query) s.beforeSequenceNo = [] then s
    else
      let s' := s.read (page (tables query) s.beforeSequenceNo)
      if tailChars < s'.totalChars ∨
          (page (tables query) s.beforeSequenceNo).length < rawLogTailPageSize then s'
      else fetchPages tables tailChars (query + 1) s'
  else s
termination_by s.depth
decreasing_by exact depth_read s _ h

/-- `_fetch_raw_log_chunks`: the text, the newest sequence number, whether the text is cut and
    whether there are chunks. -/
def fetchRawLogChunks (tables : Nat → List TaskRawLogChunk) :
    Option Nat → List Char × Nat × Bool × Bool
  | none =>
    match (tables 0).getLast? with
    | none => ([], 0, false, false)
    | some newest => (logText (tables 0), newest.sequenceNo, false, true)
  | some tailChars =>
    let s := fetchPages tables tailChars 0 {}
    let logs := s.fragmentsDesc.reverse.flatten
    if s.fragmentsDesc = [] then ([], 0, false, false)
    else if tailChars < logs.length then (fromEnd tailChars logs, s.lastSequenceNo, true, true)
    else (logs, s.lastSequenceNo, false, true)

def newestSequenceNo (chunks : List TaskRawLogChunk) : Nat :=
  (chunks.getLast?.map (·.sequenceNo)).getD 0

/-- The window holds the newest chunks of what was stored at the first query. -/
structure Window (older newer : List TaskRawLogChunk) (s : TailWindow) : Prop where
  fragments : s.fragmentsDesc = (newer.map (·.text)).reverse
  total : s.totalChars = (logText newer).length
  before : s.beforeSequenceNo = newer.head?.map (·.sequenceNo)
  last : s.lastSequenceNo = if newer = [] then 0 else newestSequenceNo (older ++ newer)

/-- The log grows at its end between the queries. -/
structure Appended (tables : Nat → List TaskRawLogChunk) : Prop where
  stored : ∀ i, Stored (tables i)
  grows : ∀ i, tables i <+: tables (i + 1)

variable {tables : Nat → List TaskRawLogChunk} {older newer chunks : List TaskRawLogChunk}
  {s : TailWindow} {n : Nat}

theorem Appended.first (h : Appended tables) (i : Nat) : tables 0 <+: tables i := by
  induction i with
  | zero => exact prefix_rfl
  | succ i ih => exact ih.trans (h.grows i)

theorem logText_append (a b : List TaskRawLogChunk) : logText (a ++ b) = logText a ++ logText b :=
  flatMap_append

theorem sum_text_length (chunks : List TaskRawLogChunk) :
    (chunks.map (·.text.length)).sum = (logText chunks).length := by
  rw [logText, length_flatMap]

/-- Behind the window a page reads what the first query saw there. -/
theorem page_eq (h : Appended tables) (hsplit : tables 0 = older ++ newer)
    (hw : Window older newer s) (hstart : newer = [] → n = 0) :
    page (tables n) s.beforeSequenceNo = older.reverse.take rawLogTailPageSize := by
  rw [page, hw.before]
  cases newer with
  | nil => simp [hstart rfl, hsplit]
  | cons chunk newer =>
    obtain ⟨more, hmore⟩ := h.first n
    have hsorted := (h.stored n).increasing
    rw [← hmore, hsplit, append_assoc, map_append, pairwise_append] at hsorted
    obtain ⟨-, hnewer, hbetween⟩ := hsorted
    rw [cons_append, map_cons, pairwise_cons] at hnewer
    have hold : ∀ c ∈ older, c.sequenceNo < chunk.sequenceNo := fun c hc =>
      hbetween _ (mem_map_of_mem hc) _ (by simp)
    have hnew : ∀ c ∈ chunk :: newer ++ more, ¬ c.sequenceNo < chunk.sequenceNo := by
      intro c hc
      rcases mem_cons.mp hc with rfl | hc
      · exact Nat.lt_irrefl _
      · exact Nat.lt_asymm (hnewer.1 _ (mem_map_of_mem hc))
    rw [← hmore, hsplit, append_assoc, filter_append, filter_eq_self.mpr (by simpa using hold),
      filter_eq_nil_iff.mpr (by simpa using hnew), append_nil]

/-- One page joins the window. -/
theorem Window.read {front block : List TaskRawLogChunk} (hw : Window (front ++ block) newer s)
    (hsorted : Stored (front ++ block ++ newer)) (hblock : block ≠ []) :
    Window front (block ++ newer) (s.read block.reverse) where
  fragments := by simp [TailWindow.read, hw.fragments]
  total := by
    simp only [TailWindow.read, hw.total, logText_append, length_append]
    rw [map_reverse, sum_reverse, sum_text_length, Nat.add_comm]
  before := by
    cases block with
    | nil => exact absurd rfl hblock
    | cons chunk block => simp [TailWindow.read]
  last := by
    have hne : block ++ newer ≠ [] := by simp [hblock]
    rw [if_neg hne]
    simp only [TailWindow.read, hw.last, head?_reverse]
    by_cases hnewer : newer = []
    · simp [hnewer, newestSequenceNo, getLast?_append_of_ne_nil _ hblock]
    · -- the newest number is above that of an older chunk, so it is not zero
      have hpos : newestSequenceNo (front ++ block ++ newer) ≠ 0 := by
        have hcross := (pairwise_append.mp (map_append ▸ hsorted.increasing)).2.2
        obtain ⟨chunk, hchunk⟩ := exists_mem_of_ne_nil block hblock
        have hlt := hcross _ (mem_map_of_mem (mem_append_right front hchunk)) _
          (mem_map_of_mem (getLast_mem hnewer))
        rw [newestSequenceNo, getLast?_append_of_ne_nil _ hnewer, getLast?_eq_some_getLast hnewer]
        exact Nat.ne_of_gt (Nat.zero_lt_of_lt hlt)
      rw [if_neg hnewer, if_neg hpos, append_assoc]

/-- A page is the end of what lies behind the window. -/
theorem exists_block (h : Appended tables) (hsplit : tables 0 = older ++ newer)
    (hw : Window older newer s) (hstart : newer = [] → n = 0) :
    ∃ front block, older = front ++ block ∧ page (tables n) s.beforeSequenceNo = block.reverse ∧
      (block.length < rawLogTailPageSize → front = []) := by
  refine ⟨older.rdrop rawLogTailPageSize, older.rtake rawLogTailPageSize, ?_, ?_, ?_⟩
  · exact (take_append_drop _ older).symm
  · rw [page_eq h hsplit hw hstart, rtake_eq_reverse_take_reverse, reverse_reverse]
  · intro hshort
    rw [List.rtake, length_drop] at hshort
    rw [List.rdrop, take_eq_nil_iff]
    left
    omega

theorem fetchPages_window (h : Appended tables) (tailChars : Nat) (n : Nat) (s : TailWindow)
    {older newer : List TaskRawLogChunk} (hsplit : tables 0 = older ++ newer)
    (hw : Window older newer s) (hstart : newer = [] → n = 0) :
    ∃ older' newer', tables 0 = older' ++ newer' ∧
      Window older' newer' (fetchPages tables tailChars n s) ∧
      (older' = [] ∨ tailChars < (logText newer').length) := by
  induction n, s using fetchPages.induct tables tailChars
    generalizing older newer with
  | case1 n s hle hpage =>
    rw [fetchPages, if_pos hle, dif_pos hpage]
    rw [page_eq h hsplit hw hstart] at hpage
    refine ⟨older, newer, hsplit, hw, .inl ?_⟩
    simpa [rawLogTailPageSize] using hpage
  | case2 n s hle hpage s' =>
    rename_i hstop
    simp only [s'] at hstop
    rw [fetchPages, if_pos hle, dif_neg hpage, if_pos hstop]
    obtain ⟨front, block, rfl, heq, hfront⟩ := exists_block h hsplit hw hstart
    rw [heq] at hpage hstop ⊢
    have hblock : block ≠ [] := fun hnil => hpage (by rw [hnil]; rfl)
    have hread := hw.read (hsplit ▸ h.stored 0) hblock
    refine ⟨front, block ++ newer, by rw [hsplit, append_assoc], hread, ?_⟩
    rw [← hread.total]
    rw [length_reverse] at hstop
    exact hstop.symm.imp hfront id
  | case3 n s hle hpage s' hgo =>
    rename_i ih
    simp only [s'] at hgo ih
    rw [fetchPages, if_pos hle, dif_neg hpage, if_neg hgo]
    obtain ⟨front, block, rfl, heq, hfront⟩ := exists_block h hsplit hw hstart
    rw [heq] at hpage ih ⊢
    have hblock : block ≠ [] := fun hnil => hpage (by rw [hnil]; rfl)
    have hread := hw.read (hsplit ▸ h.stored 0) hblock
    exact ih (by rw [hsplit, append_assoc]) hread (by simp [hblock])
  | case4 n s hgt =>
    rw [fetchPages, if_neg hgt]
    exact ⟨older, newer, hsplit, hw, .inr (hw.total ▸ Nat.lt_of_not_le hgt)⟩

/-! ### The Live Stream -/

structure StreamPiece where
  sequenceNo : Nat
  content : List Char
  truncated : Bool := false
  deriving DecidableEq

/-- The loop over the batch, newest chunk first: the pieces, and whether characters are left out. -/
def streamPieces : List TaskRawLogChunk → Nat → List StreamPiece × Bool
  | [], _ => ([], false)
  | chunk :: older, remaining =>
    let cut := decide (remaining < chunk.text.length)
    let content := if cut then fromEnd remaining chunk.text else chunk.text
    let piece : StreamPiece := { sequenceNo := chunk.sequenceNo, content }
    if remaining ≤ content.length then ([piece], cut || !older.isEmpty)
    else
      let next := streamPieces older (remaining - content.length)
      (piece :: next.1, cut || next.2)

/-- `_bounded_raw_log_stream_payload`. -/
def boundedRawLogStreamPayload (chunks : List TaskRawLogChunk) : List StreamPiece :=
  let pieces := streamPieces chunks.reverse rawLogStreamMaxChars
  if pieces.2 then pieces.1.reverse.modifyHead fun first => { first with truncated := true }
  else pieces.1.reverse

def payloadText (payload : List StreamPiece) : List Char := payload.flatMap (·.content)

theorem rtake_append_of_le {α : Type} {a b : List α} (h : n ≤ b.length) :
    (a ++ b).rtake n = b.rtake n := by
  rw [List.rtake, List.rtake, drop_append, length_append, drop_eq_nil_of_le (by omega), nil_append]
  congr 1
  omega

theorem rtake_append_of_length_le {α : Type} {a b : List α} (h : b.length ≤ n) :
    (a ++ b).rtake n = a.rtake (n - b.length) ++ b := by
  rw [List.rtake, List.rtake, drop_append, length_append]
  congr 2
  · omega
  · rw [show a.length + b.length - n - a.length = 0 by omega, drop_zero]

theorem rtake_of_length_le {α : Type} {a : List α} (h : a.length ≤ n) : a.rtake n = a := by
  rw [List.rtake, Nat.sub_eq_zero_of_le h, drop_zero]

/-- The pieces are the last `n` characters of the log. -/
theorem streamPieces_spec (h : ∀ chunk ∈ chunks, chunk.content ≠ []) (hn : 0 < n) :
    (streamPieces chunks n).1.map (·.sequenceNo) <+: chunks.map (·.sequenceNo) ∧
      ((streamPieces chunks n).1 = [] → chunks = []) ∧
      (∀ piece ∈ (streamPieces chunks n).1, piece.truncated = false) ∧
      payloadText (streamPieces chunks n).1.reverse = (logText chunks.reverse).rtake n ∧
      (streamPieces chunks n).2 = decide (n < (logText chunks.reverse).length) := by
  induction chunks generalizing n with
  | nil => simp [streamPieces, payloadText, logText]
  | cons chunk older ih =>
    obtain ⟨hchunk, holder⟩ := forall_mem_cons.mp h
    have htext : logText (chunk :: older).reverse = logText older.reverse ++ chunk.text := by
      simp [logText]
    rw [htext, length_append]
    unfold streamPieces
    rcases Nat.lt_trichotomy n chunk.text.length with hlt | rfl | hgt
    · -- the chunk alone is longer than what is left
      have hcut : fromEnd n chunk.text = chunk.text.rtake n := if_neg hn.ne'
      have hlen : (chunk.text.rtake n).length = n := by
        rw [List.rtake, length_drop]
        omega
      have hmore : n < (logText older.reverse).length + chunk.text.length := by omega
      simp [hlt, hcut, hlen, hmore, payloadText, rtake_append_of_le hlt.le]
    · have hmore : (0 < (logText older.reverse).length) ↔ older ≠ [] := by
        rw [length_pos_iff]
        refine ⟨?_, fun hne => ?_⟩
        · rintro hne rfl
          exact hne rfl
        · obtain ⟨c, hc⟩ := exists_mem_of_ne_nil older hne
          have hne := decodeReplace_ne_nil (holder c hc)
          intro hnil
          exact hne (flatMap_eq_nil_iff.mp hnil c (mem_reverse.mpr hc))
      have hempty : older.isEmpty = decide (older = []) := by cases older <;> rfl
      simp [payloadText, rtake_append_of_le, rtake_of_length_le, hmore, hempty]
    · obtain ⟨hseq, -, hplain, hcontent, hcut⟩ := ih holder (Nat.sub_pos_of_lt hgt)
      have hmore : n - chunk.text.length < (logText older.reverse).length ↔
          n < (logText older.reverse).length + chunk.text.length := by omega
      simp only [hgt.not_gt, decide_false, Bool.false_eq_true, if_false, Nat.not_le.mpr hgt,
        Bool.false_or, hcut, hmore]
      refine ⟨?_, nofun, ?_, ?_, trivial⟩
      · exact cons_prefix_cons.mpr ⟨rfl, hseq⟩
      · exact forall_mem_cons.mpr ⟨rfl, hplain⟩
      · rw [rtake_append_of_length_le hgt.le, ← hcontent]
        simp [payloadText]

/-! ### The Noise Filter -/

def replacing : List Char := "Replacing debian:".toList

def dropCarriageReturn (line : List Char) : List Char :=
  if line.getLast? = some '\r' then line.dropLast else line

/-- `^Replacing debian:[^\r\n]+\.pem\r?$`. -/
def isCaReplacement (line : List Char) : Bool :=
  let body := dropCarriageReturn line
  replacing.isPrefixOf body && ".pem".toList.isSuffixOf body && decide (21 < body.length) &&
    body.all fun c => c != '\r' && c != '\n'

def suppressedLine (count : Nat) : List Char :=
  ("[suppressed " ++ toString count ++ " CA certificate replacement lines]").toList

def flushSuppressed (count : Nat) : List (List Char) :=
  if count = 0 then [] else [suppressedLine count]

/-- The loop over the lines, with the count of the suppressed ones. -/
def outputLines : Nat → List (List Char) → List (List Char)
  | count, [] => flushSuppressed count
  | count, line :: lines =>
    if isCaReplacement line then outputLines (count + 1) lines
    else flushSuppressed count ++ line :: outputLines 0 lines

/-- `"\n".join(lines)`. -/
def joinLines (lines : List (List Char)) : List Char := ['\n'].intercalate lines

/-- `_compact_raw_log_noise`. -/
def compactRawLogNoise (logs : List Char) : List Char :=
  if replacing <:+: logs then
    let compacted := joinLines (outputLines 0 (splitlines logs))
    if logs.getLast? = some '\n' then compacted ++ ['\n'] else compacted
  else logs

/-- What the filter is for: a line that is kept, or a run of certificate lines. -/
inductive Entry where
  | line (text : List Char)
  | suppressed (count : Nat)

def Entry.text : Entry → List Char
  | line text => text
  | suppressed count => suppressedLine count

def entry (line : List Char) : Entry :=
  if isCaReplacement line then .suppressed 1 else .line line

def suppression : Joining Entry where
  joins
    | .suppressed _, .suppressed _ => true
    | _, _ => false
  join
    | .suppressed m, .suppressed n => .suppressed (m + n)
    | .line _, .suppressed n => .suppressed n
    | a, .line _ => a
  join_left := by rintro (_ | _) (_ | _) (_ | _) <;> simp
  join_right := by rintro (_ | _) (_ | _) (_ | _) <;> simp
  join_assoc := by rintro (_ | _) (_ | _) (_ | _) <;> simp [Nat.add_assoc]

/-- The text with each maximal run of certificate lines as one line, the rest as it is. -/
def withoutCaNoise (text : List Char) : List Char :=
  joinLines ((suppression.coalesce ((text.splitOn '\n').map entry)).map Entry.text)

/-- A certificate line without the carriage return that may end it; any other line whole. -/
def caBody (line : List Char) : List Char :=
  if isCaReplacement line then dropCarriageReturn line else line

/-- No line boundary stands inside the line. -/
def Unbroken (line : List Char) : Prop := ∀ c ∈ caBody line, isLineBreak c = false

variable {line field text : List Char} {lines fields : List (List Char)} {b c : Char}

/-! #### The Lines of a Text -/

theorem dropLineEnd_cons (h : isLineBreak c = false) (line : List Char) :
    dropLineEnd (c :: line) = c :: dropLineEnd line := by
  rw [dropLineEnd, reverse_cons, dropWhile_append]
  split <;> simp_all [dropLineEnd]

/-- No line of `splitlines` holds a line boundary. -/
theorem unbroken_of_mem_splitlines (hline : line ∈ splitlines text) :
    ∀ c ∈ line, isLineBreak c = false := by
  suffices h : ∀ l ∈ splitlinesKeepends text, ∀ c ∈ dropLineEnd l, isLineBreak c = false by
    obtain ⟨l, hl, rfl⟩ := mem_map.mp hline
    exact h l hl
  clear hline
  induction text with
  | nil => exact forall_mem_nil _
  | cons c cs ih =>
    unfold splitlinesKeepends
    split
    · next hbreak =>
      exact forall_mem_cons.mpr ⟨by simp [dropLineEnd, hbreak.1], ih⟩
    next hkeep =>
    by_cases hc : isLineBreak c = true
    · -- the carriage return and its line feed end one line
      obtain ⟨rfl, hhead⟩ : c = '\r' ∧ cs.head? = some '\n' := by tauto
      obtain ⟨cs, rfl⟩ := head?_eq_some_iff.mp hhead
      have hlf := splitlinesKeepends_line (forall_mem_nil _) cs
      rw [nil_append] at hlf
      rw [hlf] at ih ⊢
      exact forall_mem_cons.mpr ⟨forall_mem_nil _, (forall_mem_cons.mp ih).2⟩
    · rw [Bool.not_eq_true] at hc
      cases hlines : splitlinesKeepends cs with
      | nil => simp [consLine, dropLineEnd, hc]
      | cons first rest =>
        rw [hlines] at ih
        obtain ⟨hfirst, hrest⟩ := forall_mem_cons.mp ih
        refine forall_mem_cons.mpr ⟨?_, hrest⟩
        rw [dropLineEnd_cons hc]
        exact forall_mem_cons.mpr ⟨hc, hfirst⟩

/-- A boundary inside a text makes two lines of it. -/
theorem two_le_length_splitlines (a : List Char) (hb : isLineBreak b) (hr : b ≠ '\r')
    (htext : text ≠ []) : 2 ≤ (splitlines (a ++ b :: text)).length := by
  rw [splitlines, length_map]
  induction a with
  | nil =>
    have hpos := length_pos_of_ne_nil (splitlinesKeepends_ne_nil htext)
    rw [nil_append, splitlinesKeepends, if_pos ⟨hb, fun h => hr h.1⟩, length_cons]
    omega
  | cons c a ih =>
    rw [cons_append, splitlinesKeepends]
    split
    · exact Nat.le_succ_of_le ih
    · cases hlines : splitlinesKeepends (a ++ b :: text) with
      | nil => simp [hlines] at ih
      | cons first rest => simpa [consLine, hlines] using ih

/-- The lines that the filter reads, with the empty one behind a final line feed. -/
def readLines (text : List Char) : List (List Char) :=
  if text = [] then [[]]
  else splitlines text ++ if text.getLast? = some '\n' then [[]] else []

theorem readLines_append (text : List Char) :
    readLines (field ++ '\n' :: text) = splitlines (field ++ ['\n']) ++ readLines text := by
  have hended : Ended (field ++ ['\n']) := .inr (by simp)
  have hlines : splitlines (field ++ '\n' :: text) =
      splitlines (field ++ ['\n']) ++ splitlines text := by
    rw [append_cons, splitlines, splitlinesKeepends_append hended, map_append]
    rfl
  rw [readLines, if_neg (by simp), hlines, append_assoc, readLines]
  cases text with
  | nil => simp [splitlines, splitlinesKeepends]
  | cons c text => simp [getLast?_cons_cons]

theorem readLines_field (h : '\n' ∉ field) :
    readLines field = if field = [] then [[]] else splitlines field := by
  have hlast : field.getLast? ≠ some '\n' := fun hlast => h (mem_of_getLast? hlast)
  rw [readLines, if_neg hlast, append_nil]

theorem outputLines_append_nil (n : Nat) (lines : List (List Char)) :
    outputLines n (lines ++ [[]]) = outputLines n lines ++ [[]] := by
  have hnil : isCaReplacement [] = false := by decide
  induction lines generalizing n with
  | nil => simp [outputLines, hnil, flushSuppressed]
  | cons line lines ih =>
    rw [cons_append, outputLines, outputLines]
    split
    · exact ih (n + 1)
    · rw [ih, append_assoc, cons_append]

theorem outputLines_ne_nil (h : n ≠ 0 ∨ lines ≠ []) : outputLines n lines ≠ [] := by
  induction lines generalizing n with
  | nil => simp_all [outputLines, flushSuppressed]
  | cons line lines ih =>
    rw [outputLines]
    split
    · exact ih (.inl (Nat.succ_ne_zero n))
    · simp

theorem joinLines_append_nil (h : lines ≠ []) : joinLines (lines ++ [[]]) = joinLines lines ++ ['\n'] := by
  induction lines with
  | nil => exact absurd rfl h
  | cons line lines ih =>
    cases lines with
    | nil => simp [joinLines]
    | cons next lines =>
      have hrest := ih (cons_ne_nil _ _)
      simp only [joinLines, cons_append, intercalate_cons_cons] at hrest ⊢
      rw [hrest, ← append_assoc]

theorem compactRawLogNoise_eq (h : replacing <:+: text) :
    compactRawLogNoise text = joinLines (outputLines 0 (readLines text)) := by
  have htext : text ≠ [] := by
    rintro rfl
    exact absurd (eq_nil_of_infix_nil h) (by decide)
  have hlines : splitlines text ≠ [] := by
    simpa [splitlines] using splitlinesKeepends_ne_nil htext
  rw [compactRawLogNoise, if_pos h, readLines, if_neg htext]
  split
  · rw [outputLines_append_nil, joinLines_append_nil (outputLines_ne_nil (.inr hlines))]
  · rw [append_nil]

/-! #### Certificate Lines -/

theorem dropCarriageReturn_cases (line : List Char) :
    dropCarriageReturn line = line ∨ line = dropCarriageReturn line ++ ['\r'] := by
  unfold dropCarriageReturn
  split
  · next h => exact .inr (dropLast_append_getLast? _ h).symm
  · exact .inl rfl

/-- What a certificate line is without its carriage return. -/
theorem isCaReplacement_iff :
    isCaReplacement line ↔ replacing <+: dropCarriageReturn line ∧
      ".pem".toList <:+ dropCarriageReturn line ∧ 21 < (dropCarriageReturn line).length ∧
      ∀ c ∈ dropCarriageReturn line, c ≠ '\r' ∧ c ≠ '\n' := by
  simp [isCaReplacement, and_assoc]

theorem isCaReplacement_caBody (line : List Char) :
    isCaReplacement (caBody line) = isCaReplacement line := by
  by_cases h : isCaReplacement line = true
  · have hbody := (isCaReplacement_iff.mp h).2.2.2
    have hself : dropCarriageReturn (dropCarriageReturn line) = dropCarriageReturn line :=
      if_neg fun hlast => (hbody _ (mem_of_getLast? hlast)).1 rfl
    rw [caBody, if_pos h, h, isCaReplacement_iff, hself]
    exact isCaReplacement_iff.mp h
  · rw [caBody, if_neg h]

theorem outputLines_map_caBody (n : Nat) (lines : List (List Char)) :
    outputLines n (lines.map caBody) = outputLines n lines := by
  induction lines generalizing n with
  | nil => rfl
  | cons line lines ih =>
    rw [map_cons, outputLines, outputLines, isCaReplacement_caBody, ih, ih]
    split
    · rfl
    · next h => rw [caBody, if_neg h]

/-- The runs that the loop counts are the maximal ones. -/
theorem coalesce_entries (lines : List (List Char)) :
    (suppression.coalesce (lines.map entry)).map Entry.text = outputLines 0 lines := by
  suffices h : ∀ (n : Nat) (done : List Entry), (∀ m, done.head? ≠ some (.suppressed m)) →
      ((lines.map entry).foldl suppression.push
        ((if n = 0 then [] else [.suppressed n]) ++ done)).reverse.map Entry.text =
        done.reverse.map Entry.text ++ outputLines n lines from h 0 [] nofun
  induction lines with
  | nil =>
    intro n done _
    simp only [map_nil, foldl_nil, outputLines, flushSuppressed]
    split <;> simp [Entry.text]
  | cons line lines ih =>
    intro n done hdone
    rw [map_cons, foldl_cons, outputLines, entry]
    by_cases hline : isCaReplacement line = true
    · rw [if_pos hline, if_pos hline, ← ih (n + 1) done hdone]
      congr 3
      by_cases hn : n = 0
      · subst hn
        cases done with
        | nil => rfl
        | cons e done =>
          cases e with
          | line text => rfl
          | suppressed m => exact absurd rfl (hdone m)
      · simp [hn, Joining.push, suppression]
    · have hpush : suppression.push ((if n = 0 then [] else [.suppressed n]) ++ done) (.line line) =
          .line line :: ((if n = 0 then [] else [.suppressed n]) ++ done) := by
        cases hrest : (if n = 0 then [] else [Entry.suppressed n]) ++ done with
        | nil => rfl
        | cons e rest => cases e <;> rfl
      have hrest := ih 0 (.line line :: ((if n = 0 then [] else [.suppressed n]) ++ done)) (by simp)
      rw [if_pos rfl, nil_append] at hrest
      rw [if_neg hline, if_neg hline, hpush, hrest, flushSuppressed]
      split <;> simp [Entry.text]

theorem withoutCaNoise_eq (text : List Char) :
    withoutCaNoise text = joinLines (outputLines 0 (text.splitOn '\n')) := by
  rw [withoutCaNoise, coalesce_entries]

/-! #### Counting the Lines -/

theorem mem_suppressedLine (h : c ∈ suppressedLine n) : isLineBreak c = false := by
  have hplain (l : List Char) (hl : l.all (!isLineBreak ·)) (h : c ∈ l) : isLineBreak c = false :=
    (Bool.not_eq_true' _).mp (all_eq_true.mp hl c h)
  simp only [suppressedLine, String.toList_append, toList_toString, mem_append] at h
  rcases h with (h | h) | h
  · exact hplain _ (by decide) h
  · have hdigit := Nat.isDigit_of_mem_toDigits (by decide) (by decide) h
    exact not_isLineBreak_of_isPrintable (isPrintable_of_isNumberChar
      (isNumberChar_of_isDigit hdigit))
  · exact hplain _ (by decide) h

/-- How many lines an output line stands for: its count, if it is one of a run. -/
def outputWeight (line : List Char) : Nat :=
  max 1 (Nat.ofDigitChars 10 ((line.drop 12).takeWhile (·.isDigit)) 0)

theorem outputWeight_suppressedLine (h : n ≠ 0) : outputWeight (suppressedLine n) = n := by
  have hdigits : ∀ d ∈ Nat.toDigits 10 n, d.isDigit = true := fun d hd =>
    Nat.isDigit_of_mem_toDigits (by decide) (by decide) hd
  have hdrop : (suppressedLine n).drop 12 =
      Nat.toDigits 10 n ++ " CA certificate replacement lines]".toList := by
    rw [suppressedLine, String.toList_append, String.toList_append, toList_toString, append_assoc]
    rfl
  have htail : (" CA certificate replacement lines]".toList).takeWhile (·.isDigit) = [] := by decide
  rw [outputWeight, hdrop, takeWhile_append_of_pos hdigits, htail, append_nil,
    Nat.ofDigitChars_ten_toDigits]
  omega

def weight (line : List Char) : Nat := if isCaReplacement line then 1 else outputWeight line

theorem weight_pos (line : List Char) : 0 < weight line := by
  unfold weight outputWeight
  split <;> omega

theorem sum_outputWeight (n : Nat) (lines : List (List Char)) :
    ((outputLines n lines).map outputWeight).sum = n + (lines.map weight).sum := by
  have hflush : ∀ n, ((flushSuppressed n).map outputWeight).sum = n := by
    intro n
    unfold flushSuppressed
    split
    · next h => exact h.symm
    · next h => simp [outputWeight_suppressedLine h]
  induction lines generalizing n with
  | nil => simp [outputLines, hflush]
  | cons line lines ih =>
    rw [outputLines, map_cons, sum_cons, weight]
    split
    · rw [ih]
      omega
    · rw [map_append, sum_append, hflush, map_cons, sum_cons, ih, Nat.zero_add]

theorem mem_outputLines (h : line ∈ outputLines n lines) :
    line ∈ lines ∨ ∃ m, line = suppressedLine m := by
  have hflush : ∀ n, line ∈ flushSuppressed n → ∃ m, line = suppressedLine m := by
    intro n hmem
    exact ⟨n, by simp_all [flushSuppressed]⟩
  induction lines generalizing n with
  | nil => exact .inr (hflush n h)
  | cons first lines ih =>
    rw [outputLines] at h
    split at h
    · exact (ih h).imp_left (mem_cons_of_mem _)
    · rcases mem_append.mp h with h | h
      · exact .inr (hflush n h)
      · rcases mem_cons.mp h with rfl | h
        · exact .inl mem_cons_self
        · exact (ih h).imp_left (mem_cons_of_mem _)

/-- A line that is no certificate line is kept. -/
theorem kept_mem_outputLines (h : line ∈ lines) (hkept : ¬ isCaReplacement line) :
    line ∈ outputLines n lines := by
  induction lines generalizing n with
  | nil => exact absurd h not_mem_nil
  | cons first lines ih =>
    rw [outputLines]
    rcases mem_cons.mp h with rfl | h
    · rw [if_neg hkept]
      exact mem_append_right _ mem_cons_self
    · split
      · exact ih h
      · exact mem_append_right _ (mem_cons_of_mem _ (ih h))

/-- A field is read behind its line feed, or at the end of the text. -/
def ReadAs (field : List Char) (lines : List (List Char)) : Prop :=
  lines = splitlines (field ++ ['\n']) ∨ lines = readLines field

theorem ReadAs.unbroken (hread : ReadAs field lines) (hlf : '\n' ∉ field) (h : Unbroken field) :
    lines = [caBody field] := by
  have hcases : field = caBody field ∨ field = caBody field ++ ['\r'] := by
    unfold caBody
    split
    · exact (dropCarriageReturn_cases field).imp_left Eq.symm
    · exact .inl rfl
  generalize hbody : caBody field = body at hcases
  have hfree : ∀ c ∈ body, isLineBreak c = false := hbody ▸ h
  rcases hread with rfl | rfl
  · rcases hcases with rfl | rfl
    · exact splitlines_eol hfree .lf []
    · rw [append_assoc]
      exact splitlines_eol hfree .crlf []
  · rw [readLines_field hlf]
    split
    · next hnil =>
      rcases hcases with rfl | rfl
      · rw [hnil]
      · simp at hnil
    · next hne =>
      rcases hcases with rfl | rfl
      · rw [splitlines, splitlinesKeepends_tail hfree hne, map_singleton,
          dropLineEnd_of_not_isLineBreak hfree]
      · exact splitlines_cr hfree

/-- A certificate line with a boundary inside is read as two lines. -/
theorem ReadAs.broken (hread : ReadAs field lines) (hlf : '\n' ∉ field)
    (hca : isCaReplacement field) (h : ¬ Unbroken field) : 2 ≤ lines.length := by
  obtain ⟨-, hpem, -, hchars⟩ := isCaReplacement_iff.mp hca
  have hbody : caBody field = dropCarriageReturn field := if_pos hca
  obtain ⟨b, hmem, hb⟩ : ∃ b ∈ dropCarriageReturn field, isLineBreak b = true := by
    simpa [Unbroken, hbody] using h
  obtain ⟨a, rest, hsplit⟩ := append_of_mem hmem
  -- the last character of a certificate line is no boundary
  have hrest : rest ≠ [] := by
    rintro rfl
    obtain ⟨front, hfront⟩ := hpem
    have hlast := congrArg List.getLast? (hfront.trans hsplit)
    simp at hlast
    subst hlast
    exact absurd hb (by decide)
  obtain ⟨more, hfield⟩ : ∃ more, field = a ++ b :: (rest ++ more) := by
    rcases dropCarriageReturn_cases field with h | h
    · exact ⟨[], by rw [← h, hsplit, append_nil]⟩
    · exact ⟨['\r'], by rw [h, hsplit, append_assoc, cons_append]⟩
  rcases hread with rfl | rfl
  · rw [hfield, append_assoc, cons_append]
    exact two_le_length_splitlines a hb (hchars b hmem).1 (by simp)
  · rw [readLines_field hlf, if_neg (by simp [hfield]), hfield]
    exact two_le_length_splitlines a hb (hchars b hmem).1 (by simp [hrest])

/-- The weight that the filter must find for a field to be kept right. -/
def fieldWeight (field : List Char) : Nat :=
  weight field + if (caBody field).any isLineBreak then 1 else 0

theorem unbroken_iff : Unbroken field ↔ ¬ (caBody field).any isLineBreak := by
  simp [Unbroken]

theorem ReadAs.weight_le (hread : ReadAs field lines) (hlf : '\n' ∉ field)
    (h : ¬ isCaReplacement field → Unbroken field) :
    fieldWeight field ≤ (lines.map weight).sum := by
  by_cases hfree : Unbroken field
  · rw [hread.unbroken hlf hfree, fieldWeight, if_neg (unbroken_iff.mp hfree)]
    by_cases hca : isCaReplacement field = true
    · simp [weight, isCaReplacement_caBody, hca]
    · simp [caBody, hca]
  · have hca : isCaReplacement field = true := by
      by_contra hca
      exact hfree (h hca)
    have htwo := hread.broken hlf hca hfree
    have hsum := length_le_sum_of_one_le (lines.map weight)
      (forall_mem_map.mpr fun l _ => weight_pos l)
    rw [length_map] at hsum
    rw [fieldWeight, weight, if_pos hca]
    split <;> omega

theorem joinLines_cons_cons (field next : List Char) (fields : List (List Char)) :
    joinLines (field :: next :: fields) = field ++ '\n' :: joinLines (next :: fields) := by
  rw [joinLines, intercalate_cons_cons, append_assoc]
  rfl

theorem infix_joinLines (h : field ∈ fields) : field <:+: joinLines fields := by
  induction fields with
  | nil => exact absurd h not_mem_nil
  | cons first fields ih =>
    cases fields with
    | nil =>
      rw [mem_singleton.mp h, joinLines, intercalate_singleton]
    | cons next fields =>
      rw [joinLines_cons_cons, append_cons]
      rcases mem_cons.mp h with rfl | h
      · rw [append_assoc]
        exact (prefix_append _ _).isInfix
      · exact (ih h).trans (suffix_append _ _).isInfix

theorem readLines_joinLines (hne : fields ≠ []) (hlf : ∀ field ∈ fields, '\n' ∉ field)
    (h : ∀ field ∈ fields, Unbroken field) : readLines (joinLines fields) = fields.map caBody := by
  induction fields with
  | nil => exact absurd rfl hne
  | cons field fields ih =>
    obtain ⟨hfield, hfields⟩ := forall_mem_cons.mp hlf
    obtain ⟨hfree, hfrees⟩ := forall_mem_cons.mp h
    cases fields with
    | nil =>
      rw [joinLines, intercalate_singleton]
      exact ReadAs.unbroken (.inr rfl) hfield hfree
    | cons next fields =>
      rw [joinLines_cons_cons, readLines_append, ih (cons_ne_nil _ _) hfields hfrees,
        ReadAs.unbroken (.inl rfl) hfield hfree]
      rfl

theorem sum_fieldWeight_le (hne : fields ≠ []) (hlf : ∀ field ∈ fields, '\n' ∉ field)
    (h : ∀ field ∈ fields, ¬ isCaReplacement field → Unbroken field) :
    (fields.map fieldWeight).sum ≤ ((readLines (joinLines fields)).map weight).sum := by
  induction fields with
  | nil => exact absurd rfl hne
  | cons field fields ih =>
    obtain ⟨hfield, hfields⟩ := forall_mem_cons.mp hlf
    obtain ⟨hfree, hfrees⟩ := forall_mem_cons.mp h
    cases fields with
    | nil =>
      rw [joinLines, intercalate_singleton]
      simpa using ReadAs.weight_le (.inr rfl) hfield hfree
    | cons next fields =>
      rw [joinLines_cons_cons, readLines_append, map_append, sum_append, map_cons, sum_cons]
      exact Nat.add_le_add (ReadAs.weight_le (.inl rfl) hfield hfree)
        (ih (cons_ne_nil _ _) hfields hfrees)

/-! ### Boundaries -/

theorem outputLines_injective {a b : List (List Char)} (ha : ∀ line ∈ a, '\n' ∉ line)
    (hb : ∀ line ∈ b, '\n' ∉ line) (hane : a ≠ []) (hbne : b ≠ [])
    (h : joinLines (outputLines 0 a) = joinLines (outputLines 0 b)) :
    outputLines 0 a = outputLines 0 b := by
  have hfree : ∀ {lines : List (List Char)}, (∀ line ∈ lines, '\n' ∉ line) →
      ∀ line ∈ outputLines 0 lines, '\n' ∉ line := by
    intro lines hlines line hline hlf
    rcases mem_outputLines hline with hline | ⟨m, rfl⟩
    · exact hlines line hline hlf
    · exact absurd (mem_suppressedLine hlf) (by decide)
  have hsplit := congrArg (List.splitOn '\n') h
  rwa [joinLines, joinLines, splitOn_intercalate _ (hfree ha) (outputLines_ne_nil (.inr hane)),
    splitOn_intercalate _ (hfree hb) (outputLines_ne_nil (.inr hbne))] at hsplit

/-- Without the needle the text has no certificate line. -/
theorem withoutCaNoise_of_not_infix (h : ¬ replacing <:+: text) : withoutCaNoise text = text := by
  have hkept : ∀ {lines : List (List Char)}, (∀ line ∈ lines, ¬ isCaReplacement line) →
      outputLines 0 lines = lines := by
    intro lines hlines
    induction lines with
    | nil => rfl
    | cons line lines ih =>
      obtain ⟨hline, hlines⟩ := forall_mem_cons.mp hlines
      rw [outputLines, if_neg hline, ih hlines]
      rfl
  rw [withoutCaNoise_eq, hkept, joinLines, intercalate_splitOn]
  intro field hfield hca
  apply h
  have hneedle := (isCaReplacement_iff.mp hca).1
  have hbody : dropCarriageReturn field <+: field := by
    unfold dropCarriageReturn
    split
    · exact dropLast_prefix field
    · exact prefix_rfl
  have hinfix := infix_joinLines hfield
  rw [joinLines, intercalate_splitOn] at hinfix
  exact (hneedle.trans hbody).isInfix.trans hinfix

/-- The only line boundaries of the text besides the line feeds are the carriage returns that end
    its certificate lines. -/
def PlainBreaks (text : List Char) : Prop := ∀ field ∈ text.splitOn '\n', Unbroken field

/-- Nothing but the noise is removed exactly when the line breaks are plain. -/
theorem compactRawLogNoise_iff (text : List Char) :
    compactRawLogNoise text = withoutCaNoise text ↔ (replacing <:+: text → PlainBreaks text) := by
  by_cases hneedle : replacing <:+: text
  · have hne := splitOn_ne_nil '\n' text
    have hlf : ∀ field ∈ text.splitOn '\n', '\n' ∉ field := fun _ =>
      PosixPath.not_mem_of_mem_splitOn
    have hjoin : joinLines (text.splitOn '\n') = text := intercalate_splitOn '\n'
    rw [compactRawLogNoise_eq hneedle, withoutCaNoise_eq, imp_iff_right hneedle]
    constructor
    · intro h
      have hread : ∀ line ∈ readLines text, ∀ c ∈ line, isLineBreak c = false := by
        intro line hline
        unfold readLines at hline
        split at hline
        · simp_all
        · rcases mem_append.mp hline with hline | hline
          · exact unbroken_of_mem_splitlines hline
          · split at hline <;> simp_all
      have heq := outputLines_injective
        (fun line hline hmem => absurd (hread line hline _ hmem) (by decide)) hlf
        (by unfold readLines; split <;> simp_all [splitlines, splitlinesKeepends_ne_nil]) hne h
      have hkept : ∀ field ∈ text.splitOn '\n', ¬ isCaReplacement field → Unbroken field := by
        intro field hfield hca
        rw [Unbroken, caBody, if_neg hca]
        rcases mem_outputLines (heq ▸ kept_mem_outputLines hfield hca) with hline | ⟨m, rfl⟩
        · exact hread field hline
        · exact fun c => mem_suppressedLine
      have hsum := sum_fieldWeight_le hne hlf hkept
      have hweights := congrArg (fun lines => (lines.map outputWeight).sum) heq
      simp only [sum_outputWeight, Nat.zero_add] at hweights
      rw [hjoin, hweights] at hsum
      intro field hfield
      by_contra hbroken
      rw [unbroken_iff, not_not] at hbroken
      refine absurd hsum (Nat.not_le.mpr (sum_lt_sum _ _ (fun f _ => Nat.le_add_right _ _)
        ⟨field, hfield, ?_⟩))
      rw [fieldWeight, if_pos hbroken]
      exact Nat.lt_succ_self _
    · intro hplain
      have hlines := readLines_joinLines hne hlf hplain
      rw [hjoin] at hlines
      rw [hlines, outputLines_map_caBody]
  · have hsame : compactRawLogNoise text = text := if_neg hneedle
    rw [hsame, withoutCaNoise_of_not_infix hneedle]
    exact iff_of_true rfl fun h => absurd h hneedle

/-! ### What Is Returned -/

/-- The last characters of the log, with the newest number and whether there is more. -/
def tailRead (log : List TaskRawLogChunk) (tailChars : Nat) : List Char × Nat × Bool × Bool :=
  ((logText log).rtake tailChars, newestSequenceNo log, decide (tailChars < (logText log).length),
    !log.isEmpty)

theorem fetchRawLogChunks_tail (h : Appended tables) (hn : 0 < n) :
    fetchRawLogChunks tables (some n) = tailRead (tables 0) n := by
  have hstart : Window (tables 0) [] {} := ⟨rfl, rfl, rfl, rfl⟩
  obtain ⟨older, newer, hsplit, hw, hstop⟩ :=
    fetchPages_window h n 0 {} (append_nil _).symm hstart fun _ => rfl
  have htext : (fetchPages tables n 0 {}).fragmentsDesc.reverse.flatten = logText newer := by
    rw [hw.fragments, reverse_reverse]
    rfl
  rw [fetchRawLogChunks, htext, hw.fragments, hw.last, tailRead, hsplit, logText_append,
    length_append, fromEnd, if_neg hn.ne']
  by_cases hnewer : newer = []
  · subst hnewer
    have holder : older = [] := hstop.resolve_right (Nat.not_lt_zero n)
    simp [holder, logText, newestSequenceNo]
  · have hfound : (older ++ newer).isEmpty = false := by simp [hnewer]
    rw [if_neg (by simp [hnewer]), if_neg hnewer, hfound]
    rcases hstop with rfl | hlong
    · rw [show logText [] = [] from rfl, nil_append, nil_append, length_nil, Nat.zero_add]
      split
      · next hlt => simp [hlt]
      · next hle => simp [hle, rtake_of_length_le (Nat.le_of_not_lt hle)]
    · rw [if_pos hlong, rtake_append_of_le hlong.le, decide_eq_true (Nat.lt_add_left _ hlong)]
      rfl

/-- What is appended later has a higher number than what the first query saw. -/
theorem filter_upTo (h : Appended tables) (hne : tables 0 ≠ []) (i : Nat) :
    (tables i).filter (·.sequenceNo ≤ newestSequenceNo (tables 0)) = tables 0 := by
  obtain ⟨more, hmore⟩ := h.first i
  have hnewest : newestSequenceNo (tables 0) = ((tables 0).getLast hne).sequenceNo := by
    rw [newestSequenceNo, getLast?_eq_some_getLast hne]
    rfl
  have hsorted := (h.stored i).increasing
  rw [← hmore, map_append, pairwise_append] at hsorted
  have hold : ∀ c ∈ tables 0, c.sequenceNo ≤ ((tables 0).getLast hne).sequenceNo := by
    intro c hc
    have hfirst := (pairwise_append.mp (map_append ▸ hmore ▸ (h.stored i).increasing)).1
    rw [← dropLast_append_getLast hne] at hfirst hc
    rw [map_append, pairwise_append] at hfirst
    rcases mem_append.mp hc with hc | hc
    · exact (hfirst.2.2 _ (mem_map_of_mem hc) _ (by simp)).le
    · rw [mem_singleton.mp hc]
  have hnew : ∀ c ∈ more, ¬ c.sequenceNo ≤ ((tables 0).getLast hne).sequenceNo := fun c hc =>
    Nat.not_le.mpr (hsorted.2.2 _ (mem_map_of_mem (getLast_mem hne)) _ (mem_map_of_mem hc))
  rw [← hmore, hnewest, filter_append, filter_eq_self.mpr (by simpa using hold),
    filter_eq_nil_iff.mpr (by simpa using hnew), append_nil]

/-- The newest characters of a batch, marked on the first piece if there are more. -/
structure Bounded (chunks : List TaskRawLogChunk) (payload : List StreamPiece) : Prop where
  order : payload.map (·.sequenceNo) <:+ chunks.map (·.sequenceNo)
  newest : payload = [] → chunks = []
  text : payloadText payload = (logText chunks).rtake rawLogStreamMaxChars
  marked : payload.any (·.truncated) = decide (rawLogStreamMaxChars < (logText chunks).length)
  first : ∀ piece ∈ payload.tail, piece.truncated = false

theorem bounded_payload (h : Stored chunks) :
    Bounded chunks (boundedRawLogStreamPayload chunks) := by
  have hne : ∀ chunk ∈ chunks.reverse, chunk.content ≠ [] := fun chunk hmem =>
    h.nonempty chunk (mem_reverse.mp hmem)
  have hmax : 0 < rawLogStreamMaxChars := by decide
  obtain ⟨horder, hnewest, hplain, htext, hcut⟩ := streamPieces_spec hne hmax
  rw [reverse_reverse] at htext hcut
  rw [map_reverse] at horder
  replace horder := reverse_suffix.mpr horder
  rw [reverse_reverse, ← map_reverse] at horder
  replace hplain := fun piece hmem => hplain piece (mem_reverse.mp hmem)
  replace hnewest := fun hnil => reverse_eq_nil_iff.mp (hnewest (reverse_eq_nil_iff.mp hnil))
  rw [boundedRawLogStreamPayload, hcut]
  generalize (streamPieces chunks.reverse rawLogStreamMaxChars).1.reverse = pieces at *
  simp only [decide_eq_true_eq]
  cases pieces with
  | nil =>
    have hnil := hnewest rfl
    subst hnil
    exact ⟨by simp, fun _ => rfl, by simp [payloadText, logText], by simp [logText], by simp⟩
  | cons first pieces =>
    obtain ⟨hfirst, hrest⟩ := forall_mem_cons.mp hplain
    split
    · next hlong =>
      exact ⟨horder, nofun, htext, by simp [hlong], hrest⟩
    · next hlong =>
      exact ⟨horder, nofun, htext, by simpa [hlong, hfirst] using hrest, hrest⟩

/-- The tail of the log and the batches of the stream lose nothing but what they announce. The
    filter keeps the rest of a text exactly if its line boundaries are plain. -/
theorem raw_log_faithful_iff (tables : Nat → List TaskRawLogChunk) (htables : Appended tables)
    (tailChars : Nat) (htail : 1 ≤ tailChars) (chunks : List TaskRawLogChunk)
    (hchunks : Stored chunks) (text : List Char) :
    fetchRawLogChunks tables (some tailChars) = tailRead (tables 0) tailChars ∧
      (tables 0 ≠ [] → ∀ i,
        (tables i).filter (·.sequenceNo ≤ newestSequenceNo (tables 0)) = tables 0) ∧
      Bounded chunks (boundedRawLogStreamPayload chunks) ∧
      (compactRawLogNoise text = withoutCaNoise text ↔
        (replacing <:+: text → PlainBreaks text)) :=
  ⟨fetchRawLogChunks_tail htables htail, filter_upTo htables, bounded_payload hchunks,
    compactRawLogNoise_iff text⟩

/-- A log of two chunks, to which a third is appended while it is read. -/
def growingLog : Nat → List TaskRawLogChunk
  | 0 => [⟨1, [97]⟩, ⟨3, [195, 169, 10]⟩]
  | _ + 1 => [⟨1, [97]⟩, ⟨3, [195, 169, 10]⟩, ⟨4, [98]⟩]

def caLog : List Char := "Replacing debian:a.pem\nReplacing debian:b.pem\nok\n".toList

theorem raw_log_faithful_growing :
    fetchRawLogChunks growingLog (some 2) = (['é', '\n'], 3, true, true) ∧
      (growingLog 1).filter (·.sequenceNo ≤ 3) = growingLog 0 ∧
      payloadText (boundedRawLogStreamPayload (growingLog 1)) = ['a', 'é', '\n', 'b'] ∧
      compactRawLogNoise caLog = withoutCaNoise caLog := by
  have hstored : ∀ i, Stored (growingLog i)
    | 0 | _ + 1 => ⟨by simp [growingLog], by simp [growingLog]⟩
  have hgrows : ∀ i, growingLog i <+: growingLog (i + 1)
    | 0 => ⟨_, rfl⟩
    | _ + 1 => prefix_rfl
  obtain ⟨htail, hfilter, hbounded, hnoise⟩ :=
    raw_log_faithful_iff growingLog ⟨hstored, hgrows⟩ 2 (by decide) (growingLog 1) (hstored 1) caLog
  refine ⟨htail.trans (by decide), hfilter nofun 1, hbounded.text.trans (by decide),
    hnoise.mpr fun _ field hfield c hc => ?_⟩
  have hplain : (caLog.splitOn '\n').all fun field => (caBody field).all (isLineBreak · = false) := by
    decide
  exact of_decide_eq_true (all_eq_true.mp (all_eq_true.mp hplain field hfield) c hc)

/-- A progress line, which overwrites itself, is broken into lines. -/
theorem progress_line_broken :
    compactRawLogNoise "Replacing debian:a.pem\n10%\r20%\n".toList =
        "[suppressed 1 CA certificate replacement lines]\n10%\n20%\n".toList ∧
      withoutCaNoise "Replacing debian:a.pem\n10%\r20%\n".toList =
        "[suppressed 1 CA certificate replacement lines]\n10%\r20%\n".toList := by
  decide +kernel

end Codify.Api.Containers

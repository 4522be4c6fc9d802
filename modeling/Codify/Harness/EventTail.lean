import Codify.Framework.Utf8Replace
import Codify.Harness.EventStream

/-! # Tailing the Event Stream

    While the container runs the backend polls event.jsonl from its cursor on,
    and at the end it reads the rest from the archive (`tail_event_jsonl`,
    `backfill_event_jsonl_from_archive` of app/core/worker_event_projector.py).
    A poll sees the file as far as it was written, so what it reads ends
    anywhere: in a record, or in a character of one. It ingests the complete
    records and leaves the rest to the next poll. With `split_at_tool_start` it
    commits in several parts.

    The module shows that none of this matters: whatever the polls see, each
    commit is the state after the first so many records one by one, with the
    offset just behind them, and only a record that is refused makes a poll
    fail.
-/

namespace Codify.Harness.EventTail

open Codify.Framework Codify.Framework.JsonText Codify.Harness Codify.Harness.EventStream List

/-! ### Parts of a Live Batch -/

section Split

variable (F : FloatText) (py : Python)

/-- `_tool_event_id`. -/
def toolEventId (record : JsonObject) : Option String :=
  match (record.get "payload").asObject with
  | none => none
  | some payload =>
    let toolId := match payload.get "tool_id" with
      | .null => ""
      | .str s => strip s
      | value => strip (py.str value)
    if toolId = "" then none else some toolId

/-- The scan of `_split_live_tool_start_parts` from the last record back: the tools that are
    completed behind a record, and the first start of one of them. -/
def scanToolStarts : Nat → List (Option JsonObject) → List String × Option Nat
  | _, [] => ([], none)
  | index, record :: rest =>
    let (completedAfter, splitIndex) := scanToolStarts (index + 1) rest
    match record with
    | none => (completedAfter, splitIndex)
    | some record =>
      let toolId := toolEventId py record
      if (record.get "type").asString = some "tool.started" ∧
          toolId.any completedAfter.contains then
        (completedAfter, some index)
      else if (record.get "type").asString = some "tool.completed" then
        (toolId.toList ++ completedAfter, splitIndex)
      else (completedAfter, splitIndex)

/-- `complete_lines` of `_split_live_tool_start_parts`: all pieces of `splitlines`, or all but a
    last one that does not end in a line feed. -/
def completeLines (lines : List (List Char)) : List (List Char) :=
  match lines.getLast? with
  | none => lines
  | some last => if endsWithNewline last then lines else lines.dropLast

/-- `_split_live_tool_start_parts`. -/
def splitLiveToolStartParts (chunk : List Char) : List Char × List Char :=
  let complete := completeLines (splitlinesKeepends chunk)
  let records := complete.map fun line =>
    (decodeEventLine F (rstripNewline line)).bind Json.asObject
  match (scanToolStarts py 0 records).2 with
  | none => (chunk, [])
  | some index =>
    let front := (complete.take (index + 1)).flatten
    (front, chunk.drop front.length)

theorem scanToolStarts_bounds {index i : Nat} {records : List (Option JsonObject)}
    (h : (scanToolStarts py index records).2 = some i) :
    index ≤ i ∧ i < index + records.length := by
  induction records generalizing index with
  | nil => cases h
  | cons record rest ih =>
    have hrest : (scanToolStarts py (index + 1) rest).2 = some i →
        index ≤ i ∧ i < index + (record :: rest).length := by
      intro hi
      obtain ⟨hlow, hhigh⟩ := ih hi
      rw [length_cons]
      omega
    simp only [scanToolStarts] at h
    cases record with
    | none => exact hrest h
    | some record =>
      simp only at h
      split at h
      · cases h
        rw [length_cons]
        omega
      · split at h
        · exact hrest h
        · exact hrest h

theorem completeLines_ne_nil {chunk line : List Char}
    (h : line ∈ completeLines (splitlinesKeepends chunk)) : line ≠ [] := by
  apply ne_nil_of_mem_splitlinesKeepends
  unfold completeLines at h
  split at h
  · exact h
  · split at h
    · exact h
    · exact dropLast_subset _ h

theorem splitLiveToolStartParts_length {chunk : List Char} (h : chunk ≠ []) :
    (splitLiveToolStartParts F py chunk).2.length < chunk.length := by
  have hpos : 0 < chunk.length := length_pos_iff.mpr h
  unfold splitLiveToolStartParts
  simp only
  split
  · exact hpos
  next index hindex =>
  obtain ⟨-, hlt⟩ := scanToolStarts_bounds py hindex
  rw [length_map, Nat.zero_add] at hlt
  have hfront : ((completeLines (splitlinesKeepends chunk)).take (index + 1)).flatten ≠ [] := by
    cases hlines : completeLines (splitlinesKeepends chunk) with
    | nil =>
      rw [hlines] at hlt
      exact absurd hlt (Nat.not_lt_zero _)
    | cons line lines =>
      have hne : line ≠ [] := completeLines_ne_nil (hlines ▸ mem_cons_self)
      simp [hne]
  have := length_pos_iff.mpr hfront
  rw [length_drop]
  omega

/-- The parts of a chunk, each committed before the next is read. -/
def toolStartParts (chunk : List Char) : List (List Char) :=
  if h : chunk = [] then []
  else
    have := splitLiveToolStartParts_length F py h
    (splitLiveToolStartParts F py chunk).1 ::
      toolStartParts (splitLiveToolStartParts F py chunk).2
termination_by chunk.length

theorem toolStartParts_nil : toolStartParts F py [] = [] := by
  unfold toolStartParts
  rfl

theorem toolStartParts_cons {chunk : List Char} (h : chunk ≠ []) :
    toolStartParts F py chunk =
      (splitLiveToolStartParts F py chunk).1 ::
        toolStartParts F py (splitLiveToolStartParts F py chunk).2 := by
  rw [toolStartParts, dif_neg h]

end Split

/-! ### The Readers -/

/-- What a read does: the states it commits, and the exception it raises. -/
structure Outcome (σ : Type) where
  commits : List (Cursor × σ) := []
  error : Option ChunkError := none

section Readers

variable (F : FloatText) (py : Python) {σ : Type}
  (ingestEventRecord : σ → JsonObject → Except EventError (σ × Bool))

/-- Ingest and commit the chunks; an exception rolls back what is not committed. -/
def ingestChunks (at_ : Cursor × σ) : List (List Char) → Outcome σ
  | [] => {}
  | chunk :: chunks =>
    if chunk.isEmpty then ingestChunks at_ chunks
    else
      match ingestEventRecordsFromChunk F py ingestEventRecord at_ chunk with
      | .error e => { error := some e }
      | .ok next =>
        let rest := ingestChunks next chunks
        { rest with commits := next :: rest.commits }

/-- `tail_event_jsonl`; `tail -c` prints the observed file from the cursor on. -/
def tailEventJsonl (splitAtToolStart : Bool) (observed : List UInt8) (at_ : Cursor × σ) :
    Outcome σ :=
  let output := observed.drop at_.1.lastOffset
  if output.isEmpty then {}
  else
    let chunk := decodeReplace output
    ingestChunks F py ingestEventRecord at_
      (if splitAtToolStart then toolStartParts F py chunk else [chunk])

/-- `backfill_event_jsonl_from_archive`, on the event.jsonl of the archive. -/
def backfillEventJsonlFromArchive (fullBytes : List UInt8) (at_ : Cursor × σ) : Outcome σ :=
  if fullBytes.length ≤ at_.1.lastOffset then {}
  else
    match ingestEventRecordsFromChunk F py ingestEventRecord at_
        (decodeReplace (fullBytes.drop at_.1.lastOffset)) with
    | .error e => { error := some e }
    | .ok next => { commits := [next] }

/-- One poll: how much of the file it sees, and whether it splits what it reads. -/
structure Poll where
  length : Nat
  splitAtToolStart : Bool
  deriving DecidableEq, Repr

/-- The state in the database after a read. -/
def Outcome.state (outcome : Outcome σ) (at_ : Cursor × σ) : Cursor × σ :=
  outcome.commits.getLast?.getD at_

/-- The reads of a run, the polls and then the backfill. -/
def reads (file : List UInt8) (at_ : Cursor × σ) : List Poll → List (Outcome σ)
  | [] => [backfillEventJsonlFromArchive F py ingestEventRecord file at_]
  | p :: polls =>
    let outcome := tailEventJsonl F py ingestEventRecord p.splitAtToolStart
      (file.take p.length) at_
    outcome :: reads file (outcome.state at_) polls

/-- The state in the database after all reads. -/
def finalState (at_ : Cursor × σ) (outcomes : List (Outcome σ)) : Cursor × σ :=
  outcomes.foldl (fun st outcome => outcome.state st) at_

/-! ### The Records One by One -/

/-- The specification: one record is ingested, and the offset moves behind its line. -/
def ingestNext (at_ : Cursor × σ) (raw : List Char) : Except ChunkError (Cursor × σ) := do
  let (next, bytes) ← ingestLine F py ingestEventRecord (at_, 0) raw
  return ({ next.1 with lastOffset := next.1.lastOffset + bytes }, next.2)

/-- Each record exactly once and in order. -/
def ingestInOrder (at_ : Cursor × σ) (lines : List (List Char)) :
    Except ChunkError (Cursor × σ) :=
  lines.foldlM (ingestNext F py ingestEventRecord) at_

end Readers

/-- A record or a part of one: no line boundary in it. -/
def OneLine (line : List Char) : Prop := ∀ c ∈ line, isLineBreak c = false

/-! ### Chunks of Whole Lines -/

section Lines

variable {lines : List (List Char)} {rest : List Char}

theorem eq_nil_of_unlines (h : unlines lines = []) : lines = [] := by
  cases lines with
  | nil => rfl
  | cons line lines =>
    rw [unlines_cons] at h
    simp at h

theorem splitlinesKeepends_chunk (hlines : ∀ line ∈ lines, OneLine line) (hrest : OneLine rest) :
    splitlinesKeepends (unlines lines ++ rest) =
      lines.map (· ++ ['\n']) ++ if rest = [] then [] else [rest] := by
  rw [splitlinesKeepends_unlines hlines]
  congr 1
  by_cases hnil : rest = []
  · rw [hnil]
    rfl
  · rw [if_neg hnil, splitlinesKeepends_tail hrest hnil]

theorem not_endsWithNewline (hrest : OneLine rest) : endsWithNewline rest = false := by
  unfold endsWithNewline
  cases hlast : rest.getLast? with
  | none => rfl
  | some c =>
    have hc := hrest c (mem_of_getLast? hlast)
    have hne : c ≠ '\n' := by
      rintro rfl
      exact absurd hc (by decide)
    simpa using hne

/-- The line feeds are found, and what is behind the last of them is the remainder. -/
theorem iterCompleteJsonlRecords_chunk (hlines : ∀ line ∈ lines, OneLine line)
    (hrest : OneLine rest) :
    iterCompleteJsonlRecords (unlines lines ++ rest) = (lines, rest) := by
  by_cases hnil : rest = []
  · rw [hnil, append_nil]
    exact iterCompleteJsonlRecords_unlines hlines
  · have hcut := not_endsWithNewline hrest
    have hrecords := congrArg Prod.fst (iterCompleteJsonlRecords_unlines hlines)
    have hempty : OneLine [] := by simp [OneLine]
    have hwhole := splitlinesKeepends_chunk hlines hempty
    simp only [append_nil, if_true] at hwhole
    simp only [iterCompleteJsonlRecords, hwhole] at hrecords
    simp only [iterCompleteJsonlRecords, splitlinesKeepends_chunk hlines hrest, if_neg hnil,
      getLast?_concat, hcut, filter_append, filter_singleton, append_nil,
      Bool.false_eq_true, if_false, cond_false, hrecords]

theorem completeLines_chunk (hlines : ∀ line ∈ lines, OneLine line) (hrest : OneLine rest) :
    completeLines (splitlinesKeepends (unlines lines ++ rest)) = lines.map (· ++ ['\n']) := by
  rw [splitlinesKeepends_chunk hlines hrest]
  unfold completeLines
  by_cases hnil : rest = []
  · rw [if_pos hnil, append_nil]
    split
    · rfl
    next last hlast =>
    obtain ⟨line, -, rfl⟩ := mem_map.mp (mem_of_getLast? hlast)
    rw [if_pos (endsWithNewline_concat line)]
  · rw [if_neg hnil, getLast?_concat]
    simp [not_endsWithNewline hrest]

theorem front_of_unlines {a b : List Char} (hlines : ∀ line ∈ lines, OneLine line)
    (hrest : OneLine rest) (h : unlines lines ++ rest = a ++ b) :
    ∃ j part, j ≤ lines.length ∧ a = unlines (lines.take j) ++ part ∧ OneLine part := by
  induction lines generalizing a with
  | nil =>
    refine ⟨0, a, Nat.le_refl _, rfl, ?_⟩
    intro c hc
    have h : rest = a ++ b := h
    exact hrest c (h ▸ mem_append_left b hc)
  | cons line lines ih =>
    rw [unlines_cons, append_assoc, cons_append] at h
    have hline := hlines line mem_cons_self
    rcases append_eq_append_iff.mp h with ⟨more, rfl, hmore⟩ | ⟨more, rfl, -⟩
    · cases more with
      | nil =>
        refine ⟨0, line, Nat.zero_le _, by simp [unlines], hline⟩
      | cons c more =>
        rw [cons_append] at hmore
        obtain ⟨rfl, htail⟩ := List.cons.inj hmore
        obtain ⟨j, part, hj, rfl, hpart⟩ :=
          ih (fun l hl => hlines l (mem_cons_of_mem line hl)) htail
        refine ⟨j + 1, part, Nat.succ_le_succ hj, ?_, hpart⟩
        rw [take_succ_cons, unlines_cons, append_assoc, cons_append]
    · refine ⟨0, a, Nat.zero_le _, rfl, ?_⟩
      intro c hc
      exact hline c (mem_append_left more hc)

/-- **What a poll reads**: from a line on, complete lines and a part without line boundary,
    wherever the bytes are cut. -/
theorem decodeReplace_cut (hlines : ∀ line ∈ lines, OneLine line) (hrest : OneLine rest)
    (n : Nat) :
    ∃ j part, j ≤ lines.length ∧ OneLine part ∧
      decodeReplace ((encodeUtf8 (unlines lines ++ rest)).take n) =
        unlines (lines.take j) ++ part := by
  obtain ⟨a, b, torn, htext, htake, htorn⟩ := take_encodeUtf8 (unlines lines ++ rest) n
  obtain ⟨j, part, hj, rfl, hpart⟩ := front_of_unlines hlines hrest htext
  rcases htorn with rfl | ⟨c, b', i, -, hpos, hcut, rfl⟩
  · refine ⟨j, part, hj, hpart, ?_⟩
    rw [htake, decodeReplace_encode_append]
    simp
  · refine ⟨j, part ++ [replacementChar], hj, ?_, ?_⟩
    · intro d hd
      rcases mem_append.mp hd with hd | hd
      · exact hpart d hd
      · rw [mem_singleton.mp hd]
        decide
    · rw [htake, decodeReplace_encode_append, decodeReplace_torn hpos hcut, append_assoc]

end Lines

/-! ### One Chunk -/

section Chunk

variable {F : FloatText} {py : Python} {σ : Type}
  {ingestEventRecord : σ → JsonObject → Except EventError (σ × Bool)}

def shift (n : Nat) (cursor : Cursor) : Cursor :=
  { cursor with lastOffset := cursor.lastOffset + n }

variable {cursor : Cursor} {n : Nat}

theorem bindAttempt_shift (h : cursor.attemptId = none → n = 0)
    (event : JsonObject) :
    bindAttempt (shift n cursor) event = (bindAttempt cursor event).map (shift n) := by
  by_cases hnone : cursor.attemptId = none
  · obtain rfl := h hnone
    show bindAttempt cursor event = (bindAttempt cursor event).map (shift 0)
    cases bindAttempt cursor event <;> rfl
  · unfold bindAttempt
    by_cases hsame : cursor.attemptId = some (Event.attemptId event)
    · simp [shift, hsame, Except.map]
    · simp [shift, hnone, hsame, Except.map]

theorem bindAttempt_isSome {cursor cursor' : Cursor} {event : JsonObject}
    (h : bindAttempt cursor event = .ok cursor') : cursor'.attemptId ≠ none := by
  unfold bindAttempt at h
  split at h
  · rw [← Except.ok.inj h]
    simp
  · split at h
    · next heq =>
      rw [← Except.ok.inj h, heq]
      simp
    · cases h

variable (py ingestEventRecord) in
theorem ingestRecord_shift (h : cursor.attemptId = none → n = 0)
    (st : σ) (record : Json) :
    ingestRecord py ingestEventRecord (shift n cursor, st) record =
        (ingestRecord py ingestEventRecord (cursor, st) record).map
          (fun next => (shift n next.1, next.2)) ∧
      ∀ next, ingestRecord py ingestEventRecord (cursor, st) record = .ok next →
        next.1.attemptId ≠ none := by
  unfold ingestRecord
  cases record.asObject with
  | none => exact ⟨rfl, fun next hnext => nomatch hnext⟩
  | some event =>
    simp only
    cases hvalid : (validateEventBySchema py event).mapError ChunkError.event with
    | error e => exact ⟨rfl, fun next hnext => nomatch hnext⟩
    | ok normalized =>
      simp only [ok_bind, bindAttempt_shift h normalized]
      cases hbind : bindAttempt cursor normalized with
      | error e => exact ⟨rfl, fun next hnext => nomatch hnext⟩
      | ok cursor' =>
        have hsome := bindAttempt_isSome hbind
        simp only [Except.map, ok_bind]
        cases hingest : (ingestEventRecord st normalized).mapError ChunkError.event with
        | error e => exact ⟨rfl, fun next hnext => nomatch hnext⟩
        | ok result =>
          simp only [ok_bind, pure_eq_ok]
          constructor
          · split <;> rfl
          · intro next hnext
            rw [← Except.ok.inj hnext]
            split
            · exact hsome
            · exact hsome

variable (F py ingestEventRecord) in
theorem ingestNext_shift (h : cursor.attemptId = none → n = 0)
    (st : σ) (raw : List Char) :
    ingestNext F py ingestEventRecord (shift n cursor, st) raw =
        (ingestLine F py ingestEventRecord ((cursor, st), n) raw).map
          (fun acc => (shift acc.2 acc.1.1, acc.1.2)) ∧
      ∀ acc, ingestLine F py ingestEventRecord ((cursor, st), n) raw = .ok acc →
        acc.1.1.attemptId ≠ none := by
  unfold ingestNext ingestLine
  cases decodeEventLine F raw with
  | none => exact ⟨rfl, fun acc hacc => nomatch hacc⟩
  | some record =>
    obtain ⟨hshift, hsome⟩ := ingestRecord_shift py ingestEventRecord h st record
    simp only [hshift]
    cases hrecord : ingestRecord py ingestEventRecord (cursor, st) record with
    | error e => exact ⟨rfl, fun acc hacc => nomatch hacc⟩
    | ok next =>
      constructor
      · simp [Except.map, shift, Nat.add_assoc]
      · intro acc hacc
        rw [← Except.ok.inj hacc]
        exact hsome next hrecord

variable (F py ingestEventRecord) in
theorem foldlM_ingestNext (h : cursor.attemptId = none → n = 0)
    (st : σ) (lines : List (List Char)) :
    lines.foldlM (ingestNext F py ingestEventRecord) (shift n cursor, st) =
      (lines.foldlM (ingestLine F py ingestEventRecord) ((cursor, st), n)).map
        fun acc => (shift acc.2 acc.1.1, acc.1.2) := by
  induction lines generalizing cursor st n with
  | nil => rfl
  | cons raw lines ih =>
    obtain ⟨hnext, hsome⟩ := ingestNext_shift F py ingestEventRecord h st raw
    rw [List.foldlM_cons, List.foldlM_cons, hnext]
    cases hline : ingestLine F py ingestEventRecord ((cursor, st), n) raw with
    | error e => rfl
    | ok acc => exact ih (fun hnone => absurd hnone (hsome acc hline)) acc.1.2

variable (F py ingestEventRecord) in
/-- A chunk of complete lines, and a part behind them, ingests the lines one by one. -/
theorem ingestEventRecordsFromChunk_eq {lines : List (List Char)} {rest : List Char}
    (hlines : ∀ line ∈ lines, OneLine line) (hrest : OneLine rest) (at_ : Cursor × σ) :
    ingestEventRecordsFromChunk F py ingestEventRecord at_ (unlines lines ++ rest) =
      ingestInOrder F py ingestEventRecord at_ lines := by
  obtain ⟨cursor, st⟩ := at_
  have hstart : cursor.attemptId = none → 0 = 0 := fun _ => rfl
  have hnext := foldlM_ingestNext F py ingestEventRecord hstart st lines
  unfold ingestEventRecordsFromChunk ingestInOrder
  rw [iterCompleteJsonlRecords_chunk hlines hrest]
  have hzero : (shift 0 cursor, st) = (cursor, st) := rfl
  rw [hzero] at hnext
  rw [hnext]
  cases hfold : lines.foldlM (ingestLine F py ingestEventRecord) ((cursor, st), 0) with
  | error e => rfl
  | ok acc =>
    obtain ⟨hcount, -⟩ := foldlM_ingestLine_count hfold
    simp only [ok_bind, Except.map]
    unfold advance
    rw [if_neg]
    · rfl
    · rintro ⟨hempty, hne⟩
      apply hne
      rw [List.isEmpty_iff.mp hempty, append_nil, byteLength_unlines, hcount]
      simp

theorem ingestInOrder_lastOffset {at_ next : Cursor × σ} {lines : List (List Char)}
    (h : ingestInOrder F py ingestEventRecord at_ lines = .ok next) :
    next.1.lastOffset = at_.1.lastOffset + byteLength (unlines lines) := by
  obtain ⟨cursor, st⟩ := at_
  have hstart : cursor.attemptId = none → 0 = 0 := fun _ => rfl
  have hnext := foldlM_ingestNext F py ingestEventRecord hstart st lines
  have hzero : (shift 0 cursor, st) = (cursor, st) := rfl
  rw [hzero] at hnext
  unfold ingestInOrder at h
  rw [h] at hnext
  cases hfold : lines.foldlM (ingestLine F py ingestEventRecord) ((cursor, st), 0) with
  | error e =>
    rw [hfold] at hnext
    cases hnext
  | ok acc =>
    obtain ⟨hcount, hoffset⟩ := foldlM_ingestLine_count hfold
    rw [hfold] at hnext
    rw [Except.ok.inj hnext, byteLength_unlines]
    show acc.1.1.lastOffset + acc.2 = _
    rw [hoffset, hcount]
    simp

theorem ingestInOrder_append (at_ : Cursor × σ) (a b : List (List Char)) :
    ingestInOrder F py ingestEventRecord at_ (a ++ b) =
      (ingestInOrder F py ingestEventRecord at_ a).bind
        fun next => ingestInOrder F py ingestEventRecord next b := by
  unfold ingestInOrder
  rw [foldlM_append]
  rfl

/-- What the chunks of a read do to `lines`, the records it reads: each commit is a front of
    them, an error is theirs, and without one all of them are committed. -/
structure Follows (F : FloatText) (py : Python)
    (ingestEventRecord : σ → JsonObject → Except EventError (σ × Bool))
    (at_ : Cursor × σ) (lines : List (List Char)) (outcome : Outcome σ) : Prop where
  commits : ∀ next ∈ outcome.commits, ∃ j ≤ lines.length,
    ingestInOrder F py ingestEventRecord at_ (lines.take j) = .ok next
  error : ∀ e, outcome.error = some e → ingestInOrder F py ingestEventRecord at_ lines = .error e
  state : outcome.error = none →
    ingestInOrder F py ingestEventRecord at_ lines = .ok (outcome.state at_)

theorem Follows.nil (at_ : Cursor × σ) :
    Follows F py ingestEventRecord at_ [] ({} : Outcome σ) where
  commits next hnext := by cases hnext
  error e he := by cases he
  state _ := rfl

theorem Follows.fail {at_ : Cursor × σ} {lines more : List (List Char)} {e : ChunkError}
    (h : ingestInOrder F py ingestEventRecord at_ lines = .error e) :
    Follows F py ingestEventRecord at_ (lines ++ more) ({ error := some e } : Outcome σ) where
  commits next hnext := by cases hnext
  error e' he' := by
    cases he'
    rw [ingestInOrder_append, h]
    rfl
  state hnone := by cases hnone

theorem Outcome.state_commit (next at_ : Cursor × σ) (rest : Outcome σ) :
    Outcome.state { rest with commits := next :: rest.commits } at_ = rest.state next := by
  unfold Outcome.state
  cases hcommits : rest.commits with
  | nil => rfl
  | cons first commits => simp only [getLast?_cons, Option.getD_some]

theorem Follows.commit {at_ next : Cursor × σ} {lines more : List (List Char)} {rest : Outcome σ}
    (h : ingestInOrder F py ingestEventRecord at_ lines = .ok next)
    (hrest : Follows F py ingestEventRecord next more rest) :
    Follows F py ingestEventRecord at_ (lines ++ more)
      { rest with commits := next :: rest.commits } where
  commits c hc := by
    rcases mem_cons.mp hc with rfl | hc
    · exact ⟨lines.length, by simp, by rw [take_left, h]⟩
    · obtain ⟨j, hj, hrun⟩ := hrest.commits c hc
      refine ⟨lines.length + j, by rw [length_append]; omega, ?_⟩
      rw [take_length_add_append, ingestInOrder_append, h]
      exact hrun
  error e he := by
    rw [ingestInOrder_append, h]
    exact hrest.error e he
  state hnone := by
    rw [ingestInOrder_append, h, Outcome.state_commit]
    exact hrest.state hnone

variable (F py) in
theorem splitLiveToolStartParts_lines {lines : List (List Char)} {rest : List Char}
    (hlines : ∀ line ∈ lines, OneLine line) (hrest : OneLine rest) :
    splitLiveToolStartParts F py (unlines lines ++ rest) = (unlines lines ++ rest, []) ∨
      ∃ k, 0 < k ∧ k ≤ lines.length ∧
        splitLiveToolStartParts F py (unlines lines ++ rest) =
          (unlines (lines.take k), unlines (lines.drop k) ++ rest) := by
  unfold splitLiveToolStartParts
  simp only [completeLines_chunk hlines hrest]
  split
  · exact Or.inl rfl
  next index hindex =>
  right
  obtain ⟨-, hlt⟩ := scanToolStarts_bounds py hindex
  rw [length_map, length_map, Nat.zero_add] at hlt
  have hfront : ((lines.map (· ++ ['\n'])).take (index + 1)).flatten =
      unlines (lines.take (index + 1)) := by
    rw [← map_take]
    rfl
  have hwhole : unlines lines = unlines (lines.take (index + 1)) ++
      unlines (lines.drop (index + 1)) := by
    rw [← unlines_append, take_append_drop]
  refine ⟨index + 1, Nat.succ_pos index, hlt, ?_⟩
  rw [hfront, hwhole, append_assoc, drop_left]

theorem ingestChunks_single {lines : List (List Char)} {rest : List Char}
    (hlines : ∀ line ∈ lines, OneLine line) (hrest : OneLine rest)
    (at_ : Cursor × σ) :
    Follows F py ingestEventRecord at_ lines
      (ingestChunks F py ingestEventRecord at_ [unlines lines ++ rest]) := by
  unfold ingestChunks
  by_cases hne : unlines lines ++ rest = []
  · rw [hne, eq_nil_of_unlines (append_eq_nil_iff.mp hne).1]
    exact Follows.nil at_
  · have hfull : (unlines lines ++ rest).isEmpty = false := by simpa using hne
    rw [hfull, ingestEventRecordsFromChunk_eq F py ingestEventRecord hlines hrest]
    conv => arg 5; rw [← append_nil lines]
    cases hrun : ingestInOrder F py ingestEventRecord at_ lines with
    | error e => exact Follows.fail hrun
    | ok next => exact Follows.commit hrun (Follows.nil next)

theorem ingestChunks_toolStartParts {lines : List (List Char)} {rest : List Char}
    (hlines : ∀ line ∈ lines, OneLine line) (hrest : OneLine rest) (at_ : Cursor × σ) :
    Follows F py ingestEventRecord at_ lines
      (ingestChunks F py ingestEventRecord at_ (toolStartParts F py (unlines lines ++ rest))) := by
  induction hlength : lines.length using Nat.strong_induction_on generalizing lines at_ with
  | _ n ih =>
    by_cases hne : unlines lines ++ rest = []
    · obtain ⟨hempty, rfl⟩ := append_eq_nil_iff.mp hne
      obtain rfl := eq_nil_of_unlines hempty
      rw [hne, toolStartParts_nil]
      exact Follows.nil at_
    · rw [toolStartParts_cons F py hne]
      rcases splitLiveToolStartParts_lines F py hlines hrest with
        hwhole | ⟨k, hpos, hk, hsplit⟩
      · rw [hwhole, toolStartParts_nil]
        exact ingestChunks_single hlines hrest at_
      · rw [hsplit]
        have htake : ∀ line ∈ lines.take k, OneLine line := fun line hline =>
          hlines line (mem_of_mem_take hline)
        have hdrop : ∀ line ∈ lines.drop k, OneLine line := fun line hline =>
          hlines line (mem_of_mem_drop hline)
        have hshort : (lines.drop k).length < n := by
          rw [length_drop]
          omega
        have hnonempty : (unlines (lines.take k)).isEmpty = false := by
          cases lines with
          | nil => exact absurd hk (by simp; omega)
          | cons line lines =>
            obtain ⟨k, rfl⟩ := Nat.exists_eq_succ_of_ne_zero (Nat.pos_iff_ne_zero.mp hpos)
            simp [unlines_cons]
        have hempty : OneLine [] := by simp [OneLine]
        have hchunk := ingestEventRecordsFromChunk_eq F py ingestEventRecord htake hempty at_
        rw [append_nil] at hchunk
        unfold ingestChunks
        rw [hnonempty, hchunk]
        conv => arg 5; rw [← take_append_drop k lines]
        cases hrun : ingestInOrder F py ingestEventRecord at_ (lines.take k) with
        | error e => exact Follows.fail hrun
        | ok next => exact Follows.commit hrun (ih _ hshort hdrop next rfl)

end Chunk

/-! ### A Whole Run -/

section Run

variable {F : FloatText} {py : Python} {σ : Type}
  {ingestEventRecord : σ → JsonObject → Except EventError (σ × Bool)}
  {start : Cursor × σ} {lines : List (List Char)} {tail : List Char}

/-- The invariant of the database: the first `k` records and no others are ingested. -/
def IngestedTo (F : FloatText) (py : Python)
    (ingestEventRecord : σ → JsonObject → Except EventError (σ × Bool))
    (start : Cursor × σ) (lines : List (List Char)) (at_ : Cursor × σ) (k : Nat) : Prop :=
  k ≤ lines.length ∧ ingestInOrder F py ingestEventRecord start (lines.take k) = .ok at_

variable {k j : Nat}

theorem IngestedTo.offset (hstart : start.1.lastOffset = 0) {at_ : Cursor × σ}
    (h : IngestedTo F py ingestEventRecord start lines at_ k) :
    at_.1.lastOffset = byteLength (unlines (lines.take k)) := by
  rw [ingestInOrder_lastOffset h.2, hstart, Nat.zero_add]

theorem ingestInOrder_take_add {at_ : Cursor × σ}
    (h : IngestedTo F py ingestEventRecord start lines at_ k) :
    ingestInOrder F py ingestEventRecord start (lines.take (k + j)) =
      ingestInOrder F py ingestEventRecord at_ ((lines.drop k).take j) := by
  rw [take_add, ingestInOrder_append, h.2]
  rfl

/-- What a read does to the whole file from record `k` on. -/
structure Advances (F : FloatText) (py : Python)
    (ingestEventRecord : σ → JsonObject → Except EventError (σ × Bool))
    (start : Cursor × σ) (lines : List (List Char)) (at_ : Cursor × σ)
    (outcome : Outcome σ) : Prop where
  commits : ∀ next ∈ outcome.commits, ∃ k, IngestedTo F py ingestEventRecord start lines next k
  error : ∀ e, outcome.error = some e →
    ingestInOrder F py ingestEventRecord start lines = .error e
  state : ∃ k, IngestedTo F py ingestEventRecord start lines (outcome.state at_) k

theorem Follows.advances {at_ : Cursor × σ} {outcome : Outcome σ}
    (h : IngestedTo F py ingestEventRecord start lines at_ k) (hj : j ≤ (lines.drop k).length)
    (hread : Follows F py ingestEventRecord at_ ((lines.drop k).take j) outcome) :
    Advances F py ingestEventRecord start lines at_ outcome := by
  rw [length_drop] at hj
  have hk := h.1
  have hcommits : ∀ next ∈ outcome.commits,
      ∃ k, IngestedTo F py ingestEventRecord start lines next k := by
    intro next hnext
    obtain ⟨i, hi, hrun⟩ := hread.commits next hnext
    rw [length_take, length_drop] at hi
    rw [take_take, Nat.min_eq_left (by omega), ← ingestInOrder_take_add h] at hrun
    exact ⟨k + i, by omega, hrun⟩
  constructor
  · exact hcommits
  · intro e he
    have hfail := hread.error e he
    rw [← ingestInOrder_take_add h] at hfail
    rw [← take_append_drop (k + j) lines, ingestInOrder_append, hfail]
    rfl
  · unfold Outcome.state
    cases hlast : outcome.commits.getLast? with
    | none => exact ⟨k, h⟩
    | some next => exact hcommits next (mem_of_getLast? hlast)

theorem drop_file (lines : List (List Char)) (tail : List Char) (k : Nat) :
    (encodeUtf8 (unlines lines ++ tail)).drop (byteLength (unlines (lines.take k))) =
      encodeUtf8 (unlines (lines.drop k) ++ tail) := by
  conv => lhs; arg 2; rw [← take_append_drop k lines, unlines_append, append_assoc,
    encodeUtf8_append]
  exact drop_left' rfl

/-- **The step**: a poll advances, whatever it sees and whether it splits or not. -/
theorem tailEventJsonl_advances (hlines : ∀ line ∈ lines, OneLine line) (htail : OneLine tail)
    (hstart : start.1.lastOffset = 0) {at_ : Cursor × σ}
    (h : IngestedTo F py ingestEventRecord start lines at_ k) (p : Poll) :
    Advances F py ingestEventRecord start lines at_
      (tailEventJsonl F py ingestEventRecord p.splitAtToolStart
        ((encodeUtf8 (unlines lines ++ tail)).take p.length) at_) := by
  have hdrop : ∀ line ∈ lines.drop k, OneLine line := fun line hline =>
    hlines line (mem_of_mem_drop hline)
  have houtput : ((encodeUtf8 (unlines lines ++ tail)).take p.length).drop at_.1.lastOffset =
      (encodeUtf8 (unlines (lines.drop k) ++ tail)).take (p.length - at_.1.lastOffset) := by
    rw [drop_take, h.offset hstart, drop_file]
  obtain ⟨j, part, hj, hpart, hchunk⟩ :=
    decodeReplace_cut hdrop htail (p.length - at_.1.lastOffset)
  have hfront : ∀ line ∈ (lines.drop k).take j, OneLine line := fun line hline =>
    hdrop line (mem_of_mem_take hline)
  apply Follows.advances h hj
  unfold tailEventJsonl
  simp only [houtput]
  by_cases hempty :
      (encodeUtf8 (unlines (lines.drop k) ++ tail)).take (p.length - at_.1.lastOffset) = []
  · -- nothing new: the poll returns
    rw [hempty, decodeReplace_nil] at hchunk
    have hnone := (append_eq_nil_iff.mp hchunk.symm).1
    rw [hempty, eq_nil_of_unlines hnone]
    exact Follows.nil at_
  · rw [if_neg (by simpa using hempty), hchunk]
    cases p.splitAtToolStart with
    | true => exact ingestChunks_toolStartParts hfront hpart at_
    | false => exact ingestChunks_single hfront hpart at_

theorem backfillEventJsonlFromArchive_follows (hlines : ∀ line ∈ lines, OneLine line)
    (htail : OneLine tail) (hstart : start.1.lastOffset = 0) {at_ : Cursor × σ}
    (h : IngestedTo F py ingestEventRecord start lines at_ k) :
    Follows F py ingestEventRecord at_ (lines.drop k)
      (backfillEventJsonlFromArchive F py ingestEventRecord
        (encodeUtf8 (unlines lines ++ tail)) at_) := by
  have hdrop : ∀ line ∈ lines.drop k, OneLine line := fun line hline =>
    hlines line (mem_of_mem_drop hline)
  unfold backfillEventJsonlFromArchive
  split
  · next hle =>
    -- the cursor is at the end, so no record is left
    have hnil : encodeUtf8 (unlines (lines.drop k) ++ tail) = [] := by
      rw [← drop_file, ← h.offset hstart]
      exact drop_eq_nil_of_le hle
    have hempty : unlines (lines.drop k) ++ tail = [] := by
      rw [← decodeReplace_encode (unlines (lines.drop k) ++ tail), hnil, decodeReplace_nil]
    rw [eq_nil_of_unlines (append_eq_nil_iff.mp hempty).1]
    exact Follows.nil at_
  · rw [h.offset hstart, drop_file, decodeReplace_encode,
      ingestEventRecordsFromChunk_eq F py ingestEventRecord hdrop htail]
    conv => arg 5; rw [← append_nil (lines.drop k)]
    cases hrun : ingestInOrder F py ingestEventRecord at_ (lines.drop k) with
    | error e => exact Follows.fail hrun
    | ok next => exact Follows.commit hrun (Follows.nil next)

/-- **The run**: every read advances, and without a refused record all are ingested. -/
theorem reads_advance (hlines : ∀ line ∈ lines, OneLine line) (htail : OneLine tail)
    (hstart : start.1.lastOffset = 0) (polls : List Poll) {at_ : Cursor × σ}
    (h : IngestedTo F py ingestEventRecord start lines at_ k) :
    (∀ outcome ∈ reads F py ingestEventRecord (encodeUtf8 (unlines lines ++ tail)) at_ polls,
      (∀ next ∈ outcome.commits, ∃ k, IngestedTo F py ingestEventRecord start lines next k) ∧
      ∀ e, outcome.error = some e →
        ingestInOrder F py ingestEventRecord start lines = .error e) ∧
    ∀ final, ingestInOrder F py ingestEventRecord start lines = .ok final →
      finalState at_ (reads F py ingestEventRecord (encodeUtf8 (unlines lines ++ tail)) at_ polls) =
        final := by
  induction polls generalizing at_ k with
  | nil =>
    have hread := backfillEventJsonlFromArchive_follows hlines htail hstart h
    have hall : (lines.drop k).take (lines.drop k).length = lines.drop k := take_length
    have hadvance := Follows.advances h (Nat.le_refl _) (hall ▸ hread)
    have hrest := ingestInOrder_take_add (j := (lines.drop k).length) h
    rw [hall, length_drop, Nat.add_sub_cancel' h.1, take_length] at hrest
    constructor
    · intro outcome houtcome
      rw [reads, mem_singleton] at houtcome
      subst houtcome
      exact ⟨hadvance.commits, hadvance.error⟩
    · intro final hfinal
      rw [hrest] at hfinal
      show Outcome.state _ at_ = final
      cases herror : (backfillEventJsonlFromArchive F py ingestEventRecord
          (encodeUtf8 (unlines lines ++ tail)) at_).error with
      | none =>
        have hstate := hread.state herror
        rw [hfinal] at hstate
        exact (Except.ok.inj hstate).symm
      | some e =>
        have hfail := hread.error e herror
        rw [hfinal] at hfail
        cases hfail
  | cons p polls ih =>
    have hadvance := tailEventJsonl_advances hlines htail hstart h p
    obtain ⟨next, hnext⟩ := hadvance.state
    obtain ⟨hreads, hend⟩ := ih hnext
    constructor
    · intro outcome houtcome
      rw [reads] at houtcome
      rcases mem_cons.mp houtcome with rfl | houtcome
      · exact ⟨hadvance.commits, hadvance.error⟩
      · exact hreads outcome houtcome
    · exact hend

/-- **The cuts do not matter**: for every file of complete records and a part of one, every way
    the polls see it, and the backfill behind them, each commit is the state after the first
    `k` records, each ingested once and in order, with the offset just behind record `k`; a read
    raises only what a record itself raises; and if no record is refused, all are ingested. -/
theorem tailing_independent_of_cuts (hlines : ∀ line ∈ lines, OneLine line)
    (htail : OneLine tail) (hstart : start.1.lastOffset = 0) (polls : List Poll) :
    let file := encodeUtf8 (unlines lines ++ tail)
    let outcomes := reads F py ingestEventRecord file start polls
    (∀ outcome ∈ outcomes, ∀ next ∈ outcome.commits, ∃ k ≤ lines.length,
      ingestInOrder F py ingestEventRecord start (lines.take k) = .ok next ∧
      next.1.lastOffset = byteLength (unlines (lines.take k))) ∧
    (∀ outcome ∈ outcomes, ∀ e, outcome.error = some e →
      ingestInOrder F py ingestEventRecord start lines = .error e) ∧
    ∀ final, ingestInOrder F py ingestEventRecord start lines = .ok final →
      (∀ outcome ∈ outcomes, outcome.error = none) ∧ finalState start outcomes = final := by
  have hnone : IngestedTo F py ingestEventRecord start lines start 0 := ⟨Nat.zero_le _, rfl⟩
  obtain ⟨hreads, hend⟩ := reads_advance hlines htail hstart polls hnone
  refine ⟨?_, ?_, ?_⟩
  · intro outcome houtcome next hnext
    obtain ⟨k, hk⟩ := (hreads outcome houtcome).1 next hnext
    exact ⟨k, hk.1, hk.2, hk.offset hstart⟩
  · intro outcome houtcome
    exact (hreads outcome houtcome).2
  · intro final hfinal
    refine ⟨?_, hend final hfinal⟩
    intro outcome houtcome
    cases herror : outcome.error with
    | none => rfl
    | some e =>
      have hfail := (hreads outcome houtcome).2 e herror
      rw [hfinal] at hfail
      cases hfail

end Run

/-- Keeps the sequence numbers of the records it is given. -/
def takeSequence (seqs : List Json) (event : JsonObject) :
    Except EventError (List Json × Bool) :=
  .ok (seqs ++ [event.get "seq"], true)

/-- Two records and the front of a third; the first poll ends in the "é", the next one splits. -/
theorem tailing_cut_inside_character :
    ∃ final, ingestInOrder .fraction zonedPython takeSequence ({}, [])
          ([messageEvent 1 "é", messageEvent 2 "b"].map (eventLine .fraction)) = .ok final ∧
      finalState ({}, []) (reads .fraction zonedPython takeSequence
        (encodeUtf8 (unlines ([messageEvent 1 "é", messageEvent 2 "b"].map (eventLine .fraction)) ++
          "\x7b\"schema".toList)) ({}, []) [⟨237, false⟩, ⟨600, true⟩, ⟨3, false⟩]) = final := by
  have hlines : (([messageEvent 1 "é", messageEvent 2 "b"].map (eventLine .fraction)).all
      fun line => line.all fun c => !isLineBreak c) = true := by decide +kernel
  have hok : (ingestInOrder .fraction zonedPython takeSequence ({}, [])
      ([messageEvent 1 "é", messageEvent 2 "b"].map (eventLine .fraction))).isOk = true := by
    decide +kernel
  cases hrun : ingestInOrder .fraction zonedPython takeSequence ({}, [])
      ([messageEvent 1 "é", messageEvent 2 "b"].map (eventLine .fraction)) with
  | error e =>
    rw [hrun] at hok
    cases hok
  | ok final =>
    refine ⟨final, rfl, ?_⟩
    refine ((tailing_independent_of_cuts ?_ ?_ rfl _).2.2 final hrun).2
    · intro line hline c hc
      simpa using all_eq_true.mp (all_eq_true.mp hlines line hline) c hc
    · intro c hc
      have htail : (("\x7b\"schema".toList).all fun c => !isLineBreak c) = true := by decide
      simpa using all_eq_true.mp htail c hc

end Codify.Harness.EventTail

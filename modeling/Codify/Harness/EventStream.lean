import Codify.Framework.JsonLines
import Codify.Framework.Utf8
import Codify.Harness.Protocol

/-! # Reading the Event Stream

    The worker writes each canonical event as one line of JSON (`emit` of
    deploy/worker-entrypoint/harness/events.py); the backend cuts what it read
    into lines and ingests them one by one (`iter_complete_jsonl_records` of
    app/core/task_event_archive.py, `ingest_event_records_from_chunk` of
    app/core/worker_event_projector.py).

    The writer ends a line with a line feed and leaves every character beyond
    ASCII as it is; the reader ends a line at every Unicode line boundary. The
    two agree on what a line is exactly as long as no string of an event holds
    U+0085, U+2028 or U+2029.
-/

namespace Codify.Harness.EventStream

open Codify.Framework Codify.Framework.JsonText Codify.Harness List

/-! ### Lines -/

variable (F : FloatText)

/-- The line `emit` writes for an event, without its line feed. -/
def eventLine (event : JsonObject) : List Char := dumps F false (.obj event)

/-- The file after `emit` has written the events. -/
def eventStream (events : List JsonObject) : List Char := unlines (events.map (eventLine F))

variable (line : List Char)

/-- `decode_event_line`. -/
def decodeEventLine : Option Json := loads F line

/-- `line.endswith("\n")`. -/
def endsWithNewline : Bool := line.getLast? == some '\n'

/-- `line.rstrip("\n")`. -/
def rstripNewline : List Char := (line.reverse.dropWhile (· == '\n')).reverse

/-- `iter_complete_jsonl_records`. -/
def iterCompleteJsonlRecords (buffer : List Char) : List (List Char) × List Char :=
  let lines := splitlinesKeepends buffer
  let complete := lines.filter endsWithNewline
  let remainder := match lines.getLast? with
    | none => []
    | some line => if endsWithNewline line then [] else line
  (complete.map rstripNewline, remainder)

/-! ### Ingesting a Chunk -/

/-- `TaskIngestCursor`. -/
structure Cursor where
  attemptId : Option String := none
  lastOffset : Nat := 0
  lastSequenceNo : Int := 0
  deriving DecidableEq, Repr

/-- What the ingest can raise. -/
inductive ChunkError where
  /-- `json.JSONDecodeError`. -/
  | decode
  | event (error : EventError)
  deriving DecidableEq, Repr

section Chunk

variable (F : FloatText) (py : Python) {σ : Type}
  (ingestEventRecord : σ → JsonObject → Except EventError (σ × Bool))

/-- The cursor takes the attempt of its first record and keeps to it. -/
def bindAttempt (cursor : Cursor) (event : JsonObject) : Except ChunkError Cursor :=
  if cursor.attemptId = none ∧ cursor.lastOffset = 0 then
    .ok { cursor with attemptId := some (Event.attemptId event) }
  else if cursor.attemptId = some (Event.attemptId event) then .ok cursor
  else .error (.event (protocolError "event stream changed attempt without a new cursor"))

/-- One decoded record: validated, bound to the cursor's attempt and ingested. -/
def ingestRecord (at_ : Cursor × σ) (record : Json) : Except ChunkError (Cursor × σ) :=
  match record.asObject with
  | none => .error (.event .attributeError)
  | some event => do
    let normalized ← (validateEventBySchema py event).mapError .event
    let cursor ← bindAttempt at_.1 normalized
    let result ← (ingestEventRecord at_.2 normalized).mapError .event
    return (if result.2 then { cursor with lastSequenceNo := Event.seq normalized } else cursor,
      result.1)

/-- The records one by one, as they were before they were written. -/
def ingestRecords (at_ : Cursor × σ) (records : List Json) : Except ChunkError (Cursor × σ) :=
  records.foldlM (ingestRecord py ingestEventRecord) at_

/-- One line: decoded, ingested and counted. -/
def ingestLine (acc : (Cursor × σ) × Nat) (raw : List Char) :
    Except ChunkError ((Cursor × σ) × Nat) :=
  match decodeEventLine F raw with
  | none => .error .decode
  | some record => do
    let at_ ← ingestRecord py ingestEventRecord acc.1 record
    return (at_, acc.2 + byteLength (raw ++ ['\n']))

/-- The end of the loop: the offset advances, and without a remainder the bytes must add up. -/
def advance (chunk remainder : List Char) (acc : (Cursor × σ) × Nat) :
    Except ChunkError (Cursor × σ) :=
  if remainder.isEmpty ∧ acc.2 ≠ byteLength chunk - byteLength remainder then
    .error (.event (protocolError "event stream byte accounting mismatch"))
  else .ok ({ acc.1.1 with lastOffset := acc.1.1.lastOffset + acc.2 }, acc.1.2)

/-- `ingest_event_records_from_chunk`. -/
def ingestEventRecordsFromChunk (start : Cursor × σ) (chunk : List Char) :
    Except ChunkError (Cursor × σ) := do
  let acc ← (iterCompleteJsonlRecords chunk).1.foldlM (ingestLine F py ingestEventRecord)
    (start, 0)
  advance chunk (iterCompleteJsonlRecords chunk).2 acc

end Chunk

/-! ### What a Stream Can Be -/

/-- The events of one attempt as the writer has them: dicts that pass the schema. -/
structure CanonicalStream (py : Python) (events : List JsonObject) : Prop where
  dict : ∀ event ∈ events, keysUnique (.obj event)
  valid : ∀ event ∈ events, ∃ normalized, validateEventBySchema py event = .ok normalized
  oneAttempt : ∀ a ∈ events, ∀ b ∈ events, Event.attemptId a = Event.attemptId b

/-- One record per event that decodes to it, nothing left over, and an offset that advances
    by the bytes of the stream whenever the events themselves can be ingested. -/
def StreamRoundTrip (F : FloatText) (py : Python) (events : List JsonObject) : Prop :=
  (∃ records, iterCompleteJsonlRecords (eventStream F events) = (records, []) ∧
    records.map (decodeEventLine F) = events.map fun event => some (.obj event)) ∧
  ∀ (σ : Type) (ingestEventRecord : σ → JsonObject → Except EventError (σ × Bool))
    (start result : Cursor × σ),
    ingestRecords py ingestEventRecord start (events.map .obj) = .ok result →
    ingestEventRecordsFromChunk F py ingestEventRecord start (eventStream F events) =
      .ok ({ result.1 with
              lastOffset := start.1.lastOffset + byteLength (eventStream F events) }, result.2)

/-- No string of the event holds a line boundary that JSON leaves unescaped. -/
def NoLineSeparator (event : JsonObject) : Prop :=
  ∀ c ∈ textChars (.obj event), c.toNat ≠ 0x85 ∧ c.toNat ≠ 0x2028 ∧ c.toNat ≠ 0x2029

theorem noLineSeparator_iff (F : FloatText) (event : JsonObject) :
    NoLineSeparator event ↔ ∀ c ∈ eventLine F event, isLineBreak c = false := by
  rw [eventLine, not_isLineBreak_dumps_iff]
  constructor
  · intro h c hc hlarge
    have hne := h c hc
    simp only [isLineBreak, Bool.or_eq_false_iff, Bool.and_eq_false_iff, decide_eq_false_iff_not,
      beq_eq_false_iff_ne]
    omega
  · intro h c hc
    by_cases hlarge : 126 < c.toNat
    · have hbreak := h c hc hlarge
      simp only [isLineBreak, Bool.or_eq_false_iff, beq_eq_false_iff_ne] at hbreak
      exact ⟨hbreak.1.1.2, hbreak.1.2, hbreak.2⟩
    · omega

/-! ### Streams of Whole Lines -/

section Lines

variable {lines : List (List Char)}

theorem endsWithNewline_concat (line : List Char) : endsWithNewline (line ++ ['\n']) := by
  simp [endsWithNewline]

theorem rstripNewline_concat {line : List Char} (h : '\n' ∉ line) :
    rstripNewline (line ++ ['\n']) = line := by
  unfold rstripNewline
  have hrest : line.reverse.dropWhile (· == '\n') = line.reverse := by
    cases hr : line.reverse with
    | nil => rfl
    | cons c cs =>
      have hc : c ≠ '\n' := by
        rintro rfl
        apply h
        rw [← mem_reverse, hr]
        exact mem_cons_self
      simp [hc]
  simp [hrest]

theorem iterCompleteJsonlRecords_unlines
    (h : ∀ line ∈ lines, ∀ c ∈ line, isLineBreak c = false) :
    iterCompleteJsonlRecords (unlines lines) = (lines, []) := by
  have hsplit : splitlinesKeepends (unlines lines) = lines.map (· ++ ['\n']) := by
    have := splitlinesKeepends_unlines h []
    simpa [splitlinesKeepends] using this
  have hcomplete : (lines.map (· ++ ['\n'])).filter endsWithNewline = lines.map (· ++ ['\n']) := by
    rw [filter_eq_self]
    intro line hline
    obtain ⟨l, -, rfl⟩ := mem_map.mp hline
    exact endsWithNewline_concat l
  have hstrip : (lines.map (· ++ ['\n'])).map rstripNewline = lines := by
    rw [map_map]
    refine (map_congr_left fun line hline => ?_).trans (map_id lines)
    apply rstripNewline_concat
    intro hmem
    exact Bool.false_ne_true ((h line hline _ hmem).symm.trans rfl)
  have hremainder : (match (lines.map (· ++ ['\n'])).getLast? with
      | none => ([] : List Char)
      | some line => if endsWithNewline line then [] else line) = [] := by
    cases hlast : (lines.map (· ++ ['\n'])).getLast? with
    | none => rfl
    | some line =>
      obtain ⟨l, -, rfl⟩ := mem_map.mp (mem_of_getLast? hlast)
      simp only [endsWithNewline_concat, if_true]
  show (((splitlinesKeepends (unlines lines)).filter endsWithNewline).map rstripNewline,
    match (splitlinesKeepends (unlines lines)).getLast? with
      | none => ([] : List Char)
      | some line => if endsWithNewline line then [] else line) = (lines, [])
  rw [hsplit, hcomplete, hstrip, hremainder]

theorem byteLength_unlines (lines : List (List Char)) :
    byteLength (unlines lines) = (lines.map fun line => byteLength (line ++ ['\n'])).sum := by
  induction lines with
  | nil => rfl
  | cons line lines ih =>
    rw [unlines_cons, map_cons, sum_cons, ← ih, ← byteLength_append, append_assoc]
    rfl

end Lines

/-! ### Counting Bytes -/

section Counting

/-- Only a line boundary ends a line: every boundary but a carriage return is the last
    character of its line. -/
theorem getLast?_of_isLineBreak {text line : List Char} {c : Char}
    (hline : line ∈ splitlinesKeepends text) (hc : c ∈ line) (hbreak : isLineBreak c)
    (hcr : c ≠ '\r') : line.getLast? = some c := by
  induction text generalizing line with
  | nil => exact absurd hline not_mem_nil
  | cons d ds ih =>
    unfold splitlinesKeepends at hline
    split at hline
    · rcases mem_cons.mp hline with rfl | hline
      · rw [mem_singleton.mp hc]
        rfl
      · exact ih hline hc
    · next hkeep =>
      -- the character belongs to a line that the rest of the text started, so it is no boundary
      have hcd : c = d → isLineBreak d → False := by
        intro hcd hd
        apply hkeep
        exact ⟨hd, fun hr => hcr (hcd.trans hr.1)⟩
      cases hlines : splitlinesKeepends ds with
      | nil =>
        rw [hlines] at hline
        rw [mem_singleton.mp hline] at hc
        exact (hcd (mem_singleton.mp hc) (mem_singleton.mp hc ▸ hbreak)).elim
      | cons first rest =>
        rw [hlines] at hline ih
        rcases mem_cons.mp hline with rfl | hline
        · rcases mem_cons.mp hc with rfl | hc
          · exact (hcd rfl hbreak).elim
          · have hlast := ih mem_cons_self hc
            cases first with
            | nil => exact absurd hc not_mem_nil
            | cons e es => simpa using hlast
        · exact ih (mem_cons_of_mem _ hline) hc

theorem byteLength_rstripNewline {line : List Char} (h : endsWithNewline line) :
    byteLength (rstripNewline line ++ ['\n']) ≤ byteLength line := by
  have hlast : line.getLast? = some '\n' := by simpa [endsWithNewline] using h
  obtain ⟨l, rfl⟩ := getLast?_eq_some_iff.mp hlast
  have hdrop : (l ++ ['\n']).reverse.dropWhile (· == '\n') = l.reverse.dropWhile (· == '\n') := by
    simp
  obtain ⟨cut, hcut⟩ := dropWhile_suffix (l := l.reverse) (· == '\n')
  have hl : l = (l.reverse.dropWhile (· == '\n')).reverse ++ cut.reverse := by
    rw [← reverse_append, hcut, reverse_reverse]
  unfold rstripNewline
  rw [hdrop, byteLength_append, byteLength_append]
  have hlen := congrArg byteLength hl
  rw [byteLength_append] at hlen
  omega

theorem sum_filter_le {lines : List (List Char)} :
    (((lines.filter endsWithNewline).map rstripNewline).map
      fun raw => byteLength (raw ++ ['\n'])).sum ≤ (lines.map byteLength).sum := by
  induction lines with
  | nil => rfl
  | cons line lines ih =>
    by_cases hline : endsWithNewline line
    · rw [filter_cons_of_pos hline]
      simp only [map_cons, sum_cons]
      have := byteLength_rstripNewline hline
      omega
    · rw [filter_cons_of_neg hline]
      simp only [map_cons, sum_cons]
      omega

/-- A line that does not end in a line feed is dropped, and its bytes are not counted. -/
theorem sum_filter_lt {lines : List (List Char)} (hne : ∀ line ∈ lines, line ≠ [])
    {line : List Char} (hline : line ∈ lines) (hcut : ¬ endsWithNewline line) :
    (((lines.filter endsWithNewline).map rstripNewline).map
      fun raw => byteLength (raw ++ ['\n'])).sum < (lines.map byteLength).sum := by
  induction lines with
  | nil => exact absurd hline not_mem_nil
  | cons first lines ih =>
    rcases mem_cons.mp hline with rfl | hline
    · have hpos := byteLength_pos (hne line mem_cons_self)
      have hle := @sum_filter_le lines
      rw [filter_cons_of_neg hcut]
      simp only [map_cons, sum_cons]
      omega
    · have hlt := ih (fun l hl => hne l (mem_cons_of_mem first hl)) hline
      by_cases hfirst : endsWithNewline first
      · rw [filter_cons_of_pos hfirst]
        simp only [map_cons, sum_cons]
        have := byteLength_rstripNewline hfirst
        omega
      · rw [filter_cons_of_neg hfirst]
        simp only [map_cons, sum_cons]
        omega

/-- A boundary other than a line feed or carriage return makes the records shorter than the
    text. -/
theorem records_lt_of_isLineBreak {text : List Char} {c : Char} (hc : c ∈ text)
    (hbreak : isLineBreak c) (hcr : c ≠ '\r') (hlf : c ≠ '\n') :
    ((iterCompleteJsonlRecords text).1.map fun raw => byteLength (raw ++ ['\n'])).sum <
      byteLength text := by
  have hflat := flatten_splitlinesKeepends text
  rw [← hflat] at hc
  obtain ⟨line, hline, hmem⟩ := mem_flatten.mp hc
  have hlast := getLast?_of_isLineBreak hline hmem hbreak hcr
  have hcut : ¬ endsWithNewline line := by
    simp [endsWithNewline, hlast, hlf]
  have hlt := sum_filter_lt (fun l hl => ne_nil_of_mem_splitlinesKeepends hl) hline hcut
  rw [← byteLength_flatten, hflat] at hlt
  exact hlt

end Counting

/-! ### The Ingest Loop -/

section Loop

variable {F : FloatText} {py : Python} {σ : Type}
  {ingestEventRecord : σ → JsonObject → Except EventError (σ × Bool)}

theorem ingestRecord_lastOffset {start result : Cursor × σ} {record : Json}
    (h : ingestRecord py ingestEventRecord start record = .ok result) :
    result.1.lastOffset = start.1.lastOffset := by
  unfold ingestRecord at h
  cases hobj : record.asObject with
  | none => rw [hobj] at h; exact nomatch h
  | some event =>
    rw [hobj] at h
    obtain ⟨normalized, -, h⟩ := bind_eq_ok_iff.mp h
    obtain ⟨cursor, hbind, h⟩ := bind_eq_ok_iff.mp h
    obtain ⟨out, -, h⟩ := bind_eq_ok_iff.mp h
    have hcursor : cursor.lastOffset = start.1.lastOffset := by
      unfold bindAttempt at hbind
      split at hbind
      · cases hbind
        rfl
      split at hbind
      · cases hbind
        rfl
      · exact nomatch hbind
    cases h
    show (if out.2 then _ else cursor).lastOffset = _
    split
    · exact hcursor
    · exact hcursor

theorem ingestRecords_lastOffset {start result : Cursor × σ} {records : List Json}
    (h : ingestRecords py ingestEventRecord start records = .ok result) :
    result.1.lastOffset = start.1.lastOffset := by
  induction records generalizing start with
  | nil =>
    cases h
    rfl
  | cons record records ih =>
    obtain ⟨mid, hmid, hrest⟩ := bind_eq_ok_iff.mp h
    rw [ih hrest, ingestRecord_lastOffset hmid]

/-- Lines that decode to the records: the loop does what the records alone do, and counts the
    bytes of the lines. -/
theorem foldlM_ingestLine {raws : List (List Char)} {records : List Json}
    (hdecode : raws.map (decodeEventLine F) = records.map some) {start result : Cursor × σ}
    (h : ingestRecords py ingestEventRecord start records = .ok result) (n : Nat) :
    raws.foldlM (ingestLine F py ingestEventRecord) (start, n) =
      .ok (result, n + (raws.map fun raw => byteLength (raw ++ ['\n'])).sum) := by
  induction raws generalizing records start n with
  | nil =>
    cases records with
    | cons record records => exact nomatch hdecode
    | nil =>
      cases h
      rfl
  | cons raw raws ih =>
    cases records with
    | nil => exact nomatch hdecode
    | cons record records =>
      simp only [map_cons, List.cons.injEq] at hdecode
      obtain ⟨hraw, hraws⟩ := hdecode
      obtain ⟨mid, hmid, hrest⟩ := bind_eq_ok_iff.mp h
      have hline : ingestLine F py ingestEventRecord (start, n) raw =
          .ok (mid, n + byteLength (raw ++ ['\n'])) := by
        simp only [ingestLine, hraw, hmid, ok_bind, pure_eq_ok]
      rw [List.foldlM_cons, hline, ok_bind, ih hraws hrest]
      simp only [map_cons, sum_cons, Nat.add_assoc]

/-- However the loop ends, it has counted exactly the bytes of the lines it was given. -/
theorem foldlM_ingestLine_count {raws : List (List Char)} {start : (Cursor × σ) × Nat}
    {result : (Cursor × σ) × Nat}
    (h : raws.foldlM (ingestLine F py ingestEventRecord) start = .ok result) :
    result.2 = start.2 + (raws.map fun raw => byteLength (raw ++ ['\n'])).sum ∧
      result.1.1.lastOffset = start.1.1.lastOffset := by
  induction raws generalizing start with
  | nil =>
    cases h
    exact ⟨rfl, rfl⟩
  | cons raw raws ih =>
    rw [List.foldlM_cons] at h
    obtain ⟨mid, hmid, hrest⟩ := bind_eq_ok_iff.mp h
    obtain ⟨hcount, hoffset⟩ := ih hrest
    unfold ingestLine at hmid
    cases hraw : decodeEventLine F raw with
    | none => rw [hraw] at hmid; exact nomatch hmid
    | some record =>
      rw [hraw] at hmid
      obtain ⟨at_, hat, hmid⟩ := bind_eq_ok_iff.mp hmid
      cases hmid
      refine ⟨?_, hoffset.trans (ingestRecord_lastOffset hat)⟩
      rw [hcount, map_cons, sum_cons]
      omega

/-- A chunk that is ingested advances the offset by the bytes of its records. -/
theorem lastOffset_of_ingest {start result : Cursor × σ} {chunk : List Char}
    (h : ingestEventRecordsFromChunk F py ingestEventRecord start chunk = .ok result) :
    result.1.lastOffset = start.1.lastOffset +
      ((iterCompleteJsonlRecords chunk).1.map fun raw => byteLength (raw ++ ['\n'])).sum := by
  obtain ⟨acc, hacc, h⟩ := bind_eq_ok_iff.mp h
  obtain ⟨hcount, hoffset⟩ := foldlM_ingestLine_count hacc
  unfold advance at h
  split at h
  · exact nomatch h
  · cases h
    show acc.1.1.lastOffset + acc.2 = _
    rw [hcount, hoffset, Nat.zero_add]

end Loop

/-! ### The Round Trip -/

section RoundTrip

variable {F : FloatText} {py : Python} {events : List JsonObject}

/-- Lines that hold no boundary are read back as the events they were written for. -/
theorem streamRoundTrip_of_lines (hdict : ∀ event ∈ events, keysUnique (.obj event))
    (hlines : ∀ event ∈ events, ∀ c ∈ eventLine F event, isLineBreak c = false) :
    StreamRoundTrip F py events := by
  have hiter : iterCompleteJsonlRecords (eventStream F events) =
      (events.map (eventLine F), []) := by
    apply iterCompleteJsonlRecords_unlines
    intro line hline
    obtain ⟨event, hevent, rfl⟩ := mem_map.mp hline
    exact hlines event hevent
  have hdecode : (events.map (eventLine F)).map (decodeEventLine F) =
      events.map fun event => some (.obj event) := by
    rw [map_map]
    apply map_congr_left
    intro event hevent
    exact loads_dumps false (hdict event hevent)
  refine ⟨⟨_, hiter, hdecode⟩, ?_⟩
  intro σ ingestEventRecord start result hresult
  have hsome : events.map (fun event => some (Json.obj event)) =
      (events.map Json.obj).map some := by
    rw [map_map]
    rfl
  have hloop := foldlM_ingestLine (F := F) (hdecode.trans hsome) hresult 0
  have hoffset := ingestRecords_lastOffset hresult
  unfold ingestEventRecordsFromChunk advance
  rw [hiter]
  simp only [hloop, ok_bind, Nat.zero_add]
  have hbytes : byteLength (eventStream F events) =
      ((events.map (eventLine F)).map fun raw => byteLength (raw ++ ['\n'])).sum :=
    byteLength_unlines _
  rw [if_neg (by simp [hbytes]), hbytes, hoffset]

def takeAll (_ : Unit) (_ : JsonObject) : Except EventError (Unit × Bool) := .ok ((), true)

/-- The cursor can take records of an attempt. -/
def Cursor.Takes (cursor : Cursor) (attemptId : String) : Prop :=
  cursor.attemptId = some attemptId ∨ (cursor.attemptId = none ∧ cursor.lastOffset = 0)

theorem ingestRecord_takeAll {cursor : Cursor} {event normalized : JsonObject}
    (hvalid : validateEventBySchema py event = .ok normalized)
    (htakes : cursor.Takes (Event.attemptId event)) :
    ∃ cursor', cursor'.Takes (Event.attemptId event) ∧
      ingestRecord py takeAll (cursor, ()) (.obj event) = .ok (cursor', ()) := by
  have hattempt : Event.attemptId normalized = Event.attemptId event := by
    unfold Event.attemptId
    rw [(validateEventBySchema_normalForm hvalid).get_eq "attempt_id" (by decide) (by decide)]
  have hbind : ∃ bound, bound.attemptId = some (Event.attemptId event) ∧
      bindAttempt cursor normalized = .ok bound := by
    unfold bindAttempt
    rw [hattempt]
    rcases htakes with hsome | ⟨hnone, hzero⟩
    · refine ⟨cursor, hsome, ?_⟩
      rw [if_neg (by simp [hsome]), if_pos hsome]
    · exact ⟨_, rfl, if_pos ⟨hnone, hzero⟩⟩
  obtain ⟨bound, hbound, hbind⟩ := hbind
  refine ⟨{ bound with lastSequenceNo := Event.seq normalized }, .inl hbound, ?_⟩
  unfold ingestRecord
  simp only [Json.asObject, hvalid, mapError_ok, ok_bind, hbind, takeAll, if_true, pure_eq_ok]

/-- With an ingest that takes every record, the events of one attempt are all taken. -/
theorem ingestRecords_takeAll {attemptId : String}
    (hvalid : ∀ event ∈ events, ∃ normalized, validateEventBySchema py event = .ok normalized)
    (hattempt : ∀ event ∈ events, Event.attemptId event = attemptId) {cursor : Cursor}
    (htakes : cursor.Takes attemptId) :
    ∃ result, ingestRecords py takeAll (cursor, ()) (events.map .obj) = .ok result := by
  induction events generalizing cursor with
  | nil => exact ⟨_, rfl⟩
  | cons event events ih =>
    obtain ⟨normalized, hnormalized⟩ := hvalid event mem_cons_self
    have hid := hattempt event mem_cons_self
    obtain ⟨cursor', htakes', hstep⟩ := ingestRecord_takeAll hnormalized (hid ▸ htakes)
    obtain ⟨result, hresult⟩ := ih (fun e he => hvalid e (mem_cons_of_mem event he))
      (fun e he => hattempt e (mem_cons_of_mem event he)) (hid ▸ htakes')
    refine ⟨result, ?_⟩
    unfold ingestRecords at hresult ⊢
    rw [map_cons, List.foldlM_cons, hstep, ok_bind, hresult]

theorem ne_of_mem_eventLine {event : JsonObject} {c : Char} (h : c ∈ eventLine F event) :
    c ≠ '\r' ∧ c ≠ '\n' := by
  have hprint : 32 ≤ c.toNat := by
    rcases written_dumps F (.obj event) h with hprint | ⟨-, -, hlarge⟩
    · simp only [isPrintable, Bool.and_eq_true, decide_eq_true_eq] at hprint
      exact hprint.1
    · omega
  constructor
  · rintro rfl
    exact absurd hprint (by decide)
  · rintro rfl
    exact absurd hprint (by decide)

theorem noLineSeparator_of_streamRoundTrip (h : CanonicalStream py events)
    (hround : StreamRoundTrip F py events) : ∀ event ∈ events, NoLineSeparator event := by
  intro event hevent
  by_contra hsep
  obtain ⟨c, hc, hbreak⟩ : ∃ c ∈ eventLine F event, isLineBreak c := by
    rw [noLineSeparator_iff F] at hsep
    push Not at hsep
    simpa using hsep
  obtain ⟨hcr, hlf⟩ := ne_of_mem_eventLine hc
  have hmem : c ∈ eventStream F events :=
    mem_flatMap.mpr ⟨_, mem_map_of_mem hevent, mem_append_left _ hc⟩
  -- the events can be ingested, so the chunk would have to count all of its bytes
  have htakes : ({} : Cursor).Takes (Event.attemptId event) := .inr ⟨rfl, rfl⟩
  obtain ⟨result, hresult⟩ := ingestRecords_takeAll h.valid
    (fun e he => h.oneAttempt e he event hevent) htakes
  have hoffset := lastOffset_of_ingest (hround.2 Unit takeAll ({}, ()) result hresult)
  have hlt := records_lt_of_isLineBreak hmem hbreak hcr hlf
  simp only [Nat.zero_add] at hoffset
  omega

/-- Reading the written stream back gives the events, and the offset advances by its bytes,
    exactly when no string of an event holds U+0085, U+2028 or U+2029. -/
theorem event_stream_round_trip (F : FloatText) (py : Python) (events : List JsonObject)
    (h : CanonicalStream py events) :
    StreamRoundTrip F py events ↔ ∀ event ∈ events, NoLineSeparator event := by
  constructor
  · exact noLineSeparator_of_streamRoundTrip h
  · intro hclean
    apply streamRoundTrip_of_lines h.dict
    intro event hevent
    exact (noLineSeparator_iff F event).mp (hclean event hevent)

end RoundTrip

/-! ### A Message with a Line Separator -/

def messageEvent (seq : Int) (text : String) : JsonObject :=
  [("schema", .str "codify.worker.event/v1"), ("event_id", .str "e"), ("attempt_id", .str "a"),
   ("seq", .int seq), ("occurred_at", .str "2026-01-01T00:00:00Z"),
   ("type", .str "message.completed"), ("task_id", .int 1),
   ("harness", .obj [("key", .str "codex"), ("adapter_version", .str "1"),
     ("cli_version", .str "1")]),
   ("payload", .obj [("text", .str text)])]

theorem canonicalStream_messageEvent (text : String)
    (hvalid : (validateEventBySchema zonedPython (messageEvent 1 text)).isOk) :
    CanonicalStream zonedPython [messageEvent 1 text] where
  dict := by
    intro event hevent
    rw [mem_singleton.mp hevent]
    rfl
  valid := by
    intro event hevent
    rw [mem_singleton.mp hevent]
    cases h : validateEventBySchema zonedPython (messageEvent 1 text) with
    | ok normalized => exact ⟨normalized, rfl⟩
    | error e => rw [h] at hvalid; exact nomatch hvalid
  oneAttempt := by
    intro a ha b hb
    rw [mem_singleton.mp ha, mem_singleton.mp hb]

theorem event_stream_round_trip_plain :
    CanonicalStream zonedPython [messageEvent 1 "aé"] ∧
      StreamRoundTrip .fraction zonedPython [messageEvent 1 "aé"] := by
  have hcanonical := canonicalStream_messageEvent "aé" rfl
  refine ⟨hcanonical, (event_stream_round_trip .fraction zonedPython _ hcanonical).mpr ?_⟩
  intro event hevent
  rw [mem_singleton.mp hevent]
  have hall : ((textChars (.obj (messageEvent 1 "aé"))).all fun c =>
      c.toNat != 0x85 && (c.toNat != 0x2028 && c.toNat != 0x2029)) = true := by
    decide +kernel
  show ∀ c ∈ textChars (.obj (messageEvent 1 "aé")),
    c.toNat ≠ 0x85 ∧ c.toNat ≠ 0x2028 ∧ c.toNat ≠ 0x2029
  intro c hc
  simpa using all_eq_true.mp hall c hc

/-- A message text with U+2028 in it: the record is cut in two, and the ingest stops at the
    second half. -/
theorem line_separator_breaks_stream :
    CanonicalStream zonedPython [messageEvent 1 "a\u2028b"] ∧
      ¬ StreamRoundTrip .fraction zonedPython [messageEvent 1 "a\u2028b"] ∧
      (iterCompleteJsonlRecords (eventStream .fraction [messageEvent 1 "a\u2028b"])).1 =
        ["b\"\x7d\x7d".toList] ∧
      ingestEventRecordsFromChunk .fraction zonedPython takeAll ({}, ())
        (eventStream .fraction [messageEvent 1 "a\u2028b"]) = .error .decode := by
  have hcanonical := canonicalStream_messageEvent "a\u2028b" rfl
  refine ⟨hcanonical, ?_, by decide +kernel, by decide +kernel⟩
  intro hround
  have hclean := noLineSeparator_of_streamRoundTrip hcanonical hround _ mem_cons_self
  exact (hclean (Char.ofNat 0x2028) (by decide +kernel)).2.1 rfl

end Codify.Harness.EventStream

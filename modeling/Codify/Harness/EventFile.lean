import Codify.Harness.EventStream
import Codify.Harness.WorkerEvents

/-! # The Event File Byte by Byte

    `emit` on the bytes of `event.jsonl`. The writer looks at whatever the file
    holds: all of its lines, or the first line and, read backwards in chunks,
    the last one. After a crash the file is a cut of what the writer had
    written, and the next call decides from the cut.

    A cut inside a record leaves a last line that does not parse, so every call
    raises. A cut that only takes the line feed of a record leaves a last line
    that parses, and the next record is appended to it on the same line.
-/

namespace Codify.Harness.EventFile

open Codify.Framework Codify.Framework.JsonText Codify.Harness Codify.Harness.WorkerEvents List Option Json
open Codify.Harness.EventStream (eventLine eventStream)

/-! ### Reading the File -/

/-- The bytes `bytes.strip` removes. -/
def isSpaceByte (b : UInt8) : Bool := (9 ≤ b.toNat && b.toNat ≤ 13) || b.toNat == 32

/-- `not raw_line.strip()`. -/
def blankBytes (raw : List UInt8) : Bool := raw.all isSpaceByte

section Reading

variable (F : FloatText)

/-- `_parse_event_record`. -/
def parseEventRecord (raw : List UInt8) : Except EmitError JsonObject :=
  match (decodeUtf8 raw).bind (loads F) with
  | none => .error (.runtimeError "canonical event stream contains invalid JSON")
  | some parsed =>
    match parsed.asObject with
    | none => .error (.runtimeError "canonical event stream record must be an object")
    | some record => .ok record

variable (bytes : List UInt8)

/-- `_read_first_event`. -/
def readFirstEvent : Except EmitError (Option JsonObject) :=
  match (binaryLines bytes).find? (!blankBytes ·) with
  | none => .ok none
  | some raw => (parseEventRecord F raw).map some

/-- `_EVENT_READ_CHUNK_SIZE`. -/
def eventReadChunkSize : Nat := 8192

/-- `chunk.rfind(b"\n")`. -/
def rfindNewline (chunk : List UInt8) : Option Nat :=
  if newlineByte ∈ chunk then some (chunk.length - 1 - chunk.reverse.idxOf newlineByte) else none

theorem rfindNewline_lt {chunk : List UInt8} {i : Nat} (h : rfindNewline chunk = some i) :
    i < chunk.length := by
  unfold rfindNewline at h
  split at h
  · next hmem =>
    cases h
    have hpos : 0 < chunk.length := length_pos_of_mem hmem
    omega
  · exact nomatch h

variable (remaining : Nat)

/-- Where the chunk before `remaining` starts. -/
def readStart : Nat := remaining - min eventReadChunkSize remaining

/-- The chunk before `remaining`. -/
def readChunk : List UInt8 :=
  (bytes.drop (readStart remaining)).take (remaining - readStart remaining)

theorem readStart_lt {remaining : Nat} (h : remaining ≠ 0) : readStart remaining < remaining := by
  simp only [readStart, eventReadChunkSize]
  omega

theorem length_readChunk_le (bytes : List UInt8) (remaining : Nat) :
    (readChunk bytes remaining).length ≤ remaining - readStart remaining :=
  length_take_le _ _

/-- The loop of `_read_last_event`: the bytes before `remaining` are still to be read,
    `suffix` has been read and holds no line feed. -/
def readLastLine (bytes : List UInt8) (remaining : Nat) (suffix : List UInt8) :
    Option (List UInt8) :=
  if _hdone : remaining = 0 then
    if blankBytes suffix then none else some suffix
  else
    match _hfind : rfindNewline (readChunk bytes remaining) with
    | some newline =>
      let rawLine := (readChunk bytes remaining).drop (newline + 1) ++ suffix
      if blankBytes rawLine then readLastLine bytes (readStart remaining + newline) []
      else some rawLine
    | none => readLastLine bytes (readStart remaining) (readChunk bytes remaining ++ suffix)
termination_by remaining
decreasing_by
  · have hlt := rfindNewline_lt _hfind
    have hlen := length_readChunk_le bytes remaining
    omega
  · exact readStart_lt _hdone

/-- `_read_last_event`. -/
def readLastEvent : Except EmitError (Option JsonObject) :=
  match readLastLine bytes bytes.length [] with
  | none => .ok none
  | some raw => (parseEventRecord F raw).map some

/-- `first_event or parsed`: an empty dict counts as none. -/
def firstOr (first : Option JsonObject) (parsed : JsonObject) : Option JsonObject :=
  if first.any fun record => !record.isEmpty then first else some parsed

/-- One line of `_scan_event_stream`. -/
def scanLine (h : History) (raw : List UInt8) : Except EmitError History :=
  if blankBytes raw then .ok h
  else do
    let parsed ← parseEventRecord F raw
    if !(parsed.get "type").hashable then .error .typeError
    else
      .ok
        { firstEvent := firstOr h.firstEvent parsed
          lastEvent := some parsed
          harnessTerminalSeen :=
            h.harnessTerminalSeen || (recordType parsed).any isHarnessTerminal }

/-- `_scan_event_stream`. -/
def scanEventBytes : Except EmitError History := (binaryLines bytes).foldlM (scanLine F) {}

def readHistoryBytes (file : Option (List UInt8)) (eventType : String) :
    Except EmitError History :=
  match file with
  | none => .ok {}
  | some bytes =>
    if needsHistory eventType then scanEventBytes F bytes
    else do
      let firstEvent ← readFirstEvent F bytes
      let lastEvent ← readLastEvent F bytes
      return { firstEvent, lastEvent }

end Reading

/-! ### Emitting -/

/-- `last_type in TASK_TERMINALS` needs a hashable type. -/
def checkHashable (h : History) : Except EmitError Unit :=
  if h.lastEvent.all fun last => (last.get "type").hashable then .ok () else .error .typeError

/-- `emit` up to the append, for whatever the file says. -/
def prepareFrom (env : WriterEnv) (history : String → Except EmitError History) (call : Call) :
    Except EmitError (String × JsonObject) := do
  let (eventType, payload) ← classify call
  let _ ← requiredEnv env "CODIFY_RUNTIME_DIR"
  let payload := applyTimeout call.timeoutRequested eventType payload
  let history ← history eventType
  let lastSeq ← history.lastSeq
  checkHashable history
  checkOrder history lastSeq eventType
  let harness ← harnessBlock env
  ensure (history.firstEvent.all fun first => (first.get "harness").pyEq (.obj harness))
    "Harness identity changed inside one canonical attempt"
  let attemptId ← requiredEnv env "CODIFY_ATTEMPT_ID"
  let taskId ← taskIdEnv env
  let payload ← WorkerEvents.normalizePayload eventType payload
  return (eventType,
    buildRecord (eventSchema env) call.eventId attemptId (lastSeq + 1) call.occurredAt eventType
      taskId harness payload call.rawRef)

/-- A call whose arguments are Python dicts: each key stands once. -/
structure DictCall extends Call where
  payload_dict : keysUnique (.obj payload)
  rawRef_dict : ∀ ref, rawRef = some ref → keysUnique (.obj ref)

/-- A warning line; what `json.loads` returns has each key once. -/
structure DictWarning extends Warning where
  line_dict : ∀ v, line = some v → keysUnique v

section Emitting

variable (F : FloatText) (env : WriterEnv)

def recordBytes (record : JsonObject) : List UInt8 := encodeUtf8 (eventLine F record ++ ['\n'])

variable (file : Option (List UInt8))

/-- The append: the file is created when it does not exist. -/
def appendRecord (record : JsonObject) : Option (List UInt8) :=
  some (file.getD [] ++ recordBytes F record)

/-- The nested `emit("diagnostic", payload, None)` of one warning line. -/
def emitWarningBytes (warning : Warning) : Except EmitError (Option (List UInt8)) :=
  match warning.line.bind asObject with
  | none => .ok file
  | some payload =>
    if !(payload.get "code").hashable then .error .typeError
    else if forwardedWarningCodes.any (payload.get "code").isStr then do
      let (_, record) ← prepareFrom env (readHistoryBytes F file)
        { eventType := "diagnostic", payload, eventId := warning.eventId,
          occurredAt := warning.occurredAt }
      return appendRecord F file record
    else .ok file

/-- `_flush_runtime_warnings`. -/
def flushWarningBytes :
    Option (List UInt8) → List Warning → Except EmitError Unit × Option (List UInt8)
  | file, [] => (.ok (), file)
  | file, warning :: rest =>
    match emitWarningBytes F env file warning with
    | .error e => (.error e, file)
    | .ok file => flushWarningBytes file rest

/-- `emit`: its outcome and the file after it. -/
def emitBytes (file : Option (List UInt8)) (call : Call) (warnings : List Warning) :
    Except EmitError Unit × Option (List UInt8) :=
  match prepareFrom env (readHistoryBytes F file) call with
  | .error e => (.error e, file)
  | .ok (eventType, record) =>
    let file := appendRecord F file record
    if eventType = "run.started" then flushWarningBytes F env file warnings else (.ok (), file)

end Emitting

/-- One `emit` call with the environment of its process and the warning file it finds. -/
structure EmitLabel where
  env : WriterEnv
  call : DictCall
  warnings : List DictWarning

def EmitLabel.apply (F : FloatText) (l : EmitLabel) (file : Option (List UInt8)) :
    Except EmitError Unit × Option (List UInt8) :=
  emitBytes F l.env file l.call.toCall (l.warnings.map (·.toWarning))

/-- `emit` calls on one `event.jsonl`, which does not exist at first. -/
def fileSystem (F : FloatText) : System (Option (List UInt8)) EmitLabel where
  init := fun file => file = none
  next := fun file l => some (l.apply F file).2

/-- Calls of processes with one environment, as the worker of one container has it. -/
def inEnv (env : WriterEnv) : Option (List UInt8) → EmitLabel → Prop := fun _ l => l.env = env

/-! ### What the File Should Hold -/

/-- Every line with a line feed is one JSON object, and their `seq` are 1, 2, 3, …. -/
def WellNumbered (F : FloatText) (bytes : List UInt8) : Prop :=
  ∃ records : List JsonObject,
    ((binaryLines bytes).filter fun raw => raw.getLast? == some newlineByte).map
      (parseEventRecord F) = records.map .ok ∧
    ∀ i (hi : i < records.length), records[i].get "seq" = .int (i + 1)

/-- A call raises without writing, or it leaves such a file. -/
def SafeCall (F : FloatText) (file : Option (List UInt8)) (l : EmitLabel) : Prop :=
  ((∃ e, (l.apply F file).1 = .error e) ∧ (l.apply F file).2 = file) ∨
    ∃ bytes, (l.apply F file).2 = some bytes ∧ WellNumbered F bytes

/-! ### Reading Backwards -/

/-- The last line that is not blank, read backwards byte by byte. -/
def lastLineRev : List UInt8 → List UInt8 → Option (List UInt8)
  | [], line => if blankBytes line then none else some line
  | b :: before, line =>
    if b = newlineByte then (if blankBytes line then lastLineRev before [] else some line)
    else lastLineRev before (b :: line)

theorem lastLineRev_append {part : List UInt8} (h : newlineByte ∉ part) (before line : List UInt8) :
    lastLineRev (part.reverse ++ before) line = lastLineRev before (part ++ line) := by
  induction part using reverseRecOn generalizing line with
  | nil => rfl
  | append_singleton part b ih =>
    simp only [mem_append, mem_singleton, not_or] at h
    rw [reverse_append, reverse_singleton, singleton_append, cons_append,
      lastLineRev, if_neg fun hb => h.2 hb.symm, ih h.1, append_assoc]
    rfl

theorem rfindNewline_split {chunk : List UInt8} {i : Nat} (h : rfindNewline chunk = some i) :
    chunk = chunk.take i ++ newlineByte :: chunk.drop (i + 1) ∧
      newlineByte ∉ chunk.drop (i + 1) := by
  have hi := rfindNewline_lt h
  unfold rfindNewline at h
  split at h
  · next hmem =>
    have hmem' : newlineByte ∈ chunk.reverse := mem_reverse.mpr hmem
    have hlt := idxOf_lt_length_of_mem hmem'
    have hget := getElem_idxOf hlt
    rw [getElem_reverse] at hget
    cases h
    constructor
    · conv_lhs => rw [← take_append_drop (chunk.length - 1 - chunk.reverse.idxOf newlineByte) chunk]
      rw [drop_eq_getElem_cons hi, hget]
    · -- seen from the end, the line feed is the first one
      intro hin
      rw [length_reverse] at hlt
      have hdrop : chunk.drop (chunk.length - 1 - chunk.reverse.idxOf newlineByte + 1) =
          (chunk.reverse.take (chunk.reverse.idxOf newlineByte)).reverse := by
        rw [take_reverse, reverse_reverse]
        congr 1
        omega
      rw [hdrop, mem_reverse, mem_take_iff_idxOf_lt hmem'] at hin
      exact lt_irrefl _ hin
  · exact nomatch h

/-- One chunk of a backward walk: up to its last line feed, or all of it. -/
theorem lastLineRev_chunk {start remaining : Nat} (hstart : start ≤ remaining)
    {bytes chunk : List UInt8} (hchunk : chunk = (bytes.drop start).take (remaining - start))
    (line : List UInt8) :
    lastLineRev (bytes.take remaining).reverse line =
      match rfindNewline chunk with
      | some i =>
        if blankBytes (chunk.drop (i + 1) ++ line) then
          lastLineRev (bytes.take (start + i)).reverse []
        else some (chunk.drop (i + 1) ++ line)
      | none => lastLineRev (bytes.take start).reverse (chunk ++ line) := by
  have hsplit : bytes.take remaining = bytes.take start ++ chunk := by
    rw [hchunk, ← take_add]
    congr 1
    omega
  cases hfind : rfindNewline chunk with
  | some i =>
    obtain ⟨hparts, hfree⟩ := rfindNewline_split hfind
    have hlt := rfindNewline_lt hfind
    have hlen := length_take_le (remaining - start) (bytes.drop start)
    rw [← hchunk] at hlen
    have hbefore : bytes.take (start + i) = bytes.take start ++ chunk.take i := by
      rw [take_add, hchunk, take_take]
      congr 2
      omega
    have hrev : (bytes.take remaining).reverse =
        (chunk.drop (i + 1)).reverse ++ newlineByte :: (bytes.take (start + i)).reverse := by
      rw [hsplit, hbefore]
      conv_lhs => rw [hparts]
      simp
    rw [hrev, lastLineRev_append hfree, lastLineRev, if_pos rfl]
  | none =>
    have hfree : newlineByte ∉ chunk := by
      intro hmem
      rw [rfindNewline, if_pos hmem] at hfind
      exact nomatch hfind
    rw [hsplit, reverse_append, lastLineRev_append hfree]

theorem readLastLine_eq (bytes : List UInt8) (remaining : Nat) (suffix : List UInt8) :
    readLastLine bytes remaining suffix = lastLineRev (bytes.take remaining).reverse suffix := by
  induction remaining using Nat.strong_induction_on generalizing suffix with
  | _ remaining ih =>
    rw [readLastLine]
    split
    · next hdone =>
      subst hdone
      rfl
    · next hpos =>
      have hread := readStart_lt hpos
      rw [lastLineRev_chunk hread.le rfl, ← readChunk]
      split
      · next newline hfind =>
        have hlt := rfindNewline_lt hfind
        have hlen := length_readChunk_le bytes remaining
        rw [hfind, ih (readStart remaining + newline) (by omega) []]
      · next hfind => rw [hfind, ih _ hread]

/-! ### Lines and Streams -/

/-- A record as a file can hold it: a dict with a textual type. -/
structure RecordOk (record : JsonObject) : Prop where
  dict : keysUnique (.obj record)
  type : ∃ t, record.get "type" = .str t

section Streams

variable {F : FloatText} {record : JsonObject} {records : List JsonObject}

/-- The bytes of a record without its line feed. -/
def lineBytes (F : FloatText) (record : JsonObject) : List UInt8 := encodeUtf8 (eventLine F record)

def streamBytes (F : FloatText) (records : List JsonObject) : List UInt8 :=
  encodeUtf8 (eventStream F records)

theorem recordBytes_eq : recordBytes F record = lineBytes F record ++ [newlineByte] := by
  rw [recordBytes, encodeUtf8_append, encodeUtf8_newline, lineBytes]

theorem streamBytes_append (a b : List JsonObject) :
    streamBytes F (a ++ b) = streamBytes F a ++ streamBytes F b := by
  rw [streamBytes, eventStream, map_append, unlines_append, encodeUtf8_append]
  rfl

theorem streamBytes_cons (record : JsonObject) (records : List JsonObject) :
    streamBytes F (record :: records) = recordBytes F record ++ streamBytes F records := by
  show encodeUtf8 (unlines ((record :: records).map (eventLine F))) =
    encodeUtf8 (eventLine F record ++ ['\n']) ++ encodeUtf8 (unlines (records.map (eventLine F)))
  rw [← encodeUtf8_append, map_cons, unlines_cons, append_assoc]
  rfl

theorem streamBytes_singleton : streamBytes F [record] = recordBytes F record := by
  rw [streamBytes_cons]
  simp [streamBytes, eventStream, unlines]

theorem newline_not_mem_lineBytes : newlineByte ∉ lineBytes F record := by
  apply newline_not_mem_encodeUtf8
  intro hmem
  exact (EventStream.ne_of_mem_eventLine hmem).2 rfl

theorem lineBytes_eq_cons (F : FloatText) (record : JsonObject) :
    ∃ rest, lineBytes F record = 123 :: rest := by
  obtain ⟨body, hbody⟩ := dumps_obj_ends (F := F) false record
  refine ⟨encodeUtf8 (body ++ ['\x7d']), ?_⟩
  rw [lineBytes, eventLine, hbody, encodeUtf8_cons]
  rfl

theorem blankBytes_recordBytes : blankBytes (recordBytes F record) = false := by
  obtain ⟨rest, hrest⟩ := lineBytes_eq_cons F record
  rw [recordBytes_eq, hrest]
  rfl

theorem parseEventRecord_lineBytes (h : RecordOk record) :
    parseEventRecord F (lineBytes F record) = .ok record := by
  unfold parseEventRecord
  rw [lineBytes, decodeUtf8_encodeUtf8, bind_some, eventLine, loads_dumps false h.dict]
  rfl

/-- A line feed behind a line does not matter. -/
theorem parseEventRecord_newline {raw : List UInt8} (h : parseEventRecord F raw = .ok record) :
    parseEventRecord F (raw ++ [newlineByte]) = .ok record := by
  unfold parseEventRecord at h ⊢
  cases htext : decodeUtf8 raw with
  | none =>
    rw [htext] at h
    exact nomatch h
  | some text =>
    rw [htext, bind_some] at h
    rw [← encodeUtf8_of_decodeUtf8 htext, ← encodeUtf8_newline, ← encodeUtf8_append,
      decodeUtf8_encodeUtf8, bind_some]
    cases hload : loads F text with
    | none =>
      rw [hload] at h
      exact nomatch h
    | some parsed =>
      rw [hload] at h
      rwa [loads_newline hload]

theorem parseEventRecord_recordBytes (h : RecordOk record) :
    parseEventRecord F (recordBytes F record) = .ok record := by
  rw [recordBytes_eq]
  exact parseEventRecord_newline (parseEventRecord_lineBytes h)

theorem binaryLines_streamBytes (records : List JsonObject) (tail : List UInt8) :
    binaryLines (streamBytes F records ++ tail) =
      records.map (recordBytes F) ++ binaryLines tail := by
  induction records with
  | nil => rfl
  | cons record records ih =>
    rw [streamBytes_cons, recordBytes_eq, append_assoc, append_assoc,
      singleton_append, binaryLines_line newline_not_mem_lineBytes, ih, map_cons,
      recordBytes_eq]
    rfl

theorem lastLineRev_streamBytes (records : List JsonObject) {line : List UInt8}
    (hline : blankBytes line = false) :
    lastLineRev (streamBytes F records).reverse line = some line := by
  cases records using reverseRecOn with
  | nil => simp [streamBytes, eventStream, unlines, lastLineRev, hline]
  | append_singleton records record =>
    rw [streamBytes_append, streamBytes_singleton, recordBytes_eq]
    simp [lastLineRev, hline]

theorem readLastLine_tail (records : List JsonObject) {line : List UInt8}
    (hfree : newlineByte ∉ line) (hline : blankBytes line = false) :
    readLastLine (streamBytes F records ++ line) (streamBytes F records ++ line).length [] =
      some line := by
  rw [readLastLine_eq, take_length, reverse_append, lastLineRev_append hfree,
    append_nil, lastLineRev_streamBytes records hline]

theorem readLastLine_stream (records : List JsonObject) (record : JsonObject) :
    readLastLine (streamBytes F (records ++ [record]))
      (streamBytes F (records ++ [record])).length [] = some (lineBytes F record) := by
  obtain ⟨rest, hrest⟩ := lineBytes_eq_cons F record
  have hline : blankBytes (lineBytes F record) = false := by rw [hrest]; rfl
  rw [readLastLine_eq, take_length, streamBytes_append, streamBytes_singleton,
    recordBytes_eq, reverse_append, reverse_append, reverse_singleton,
    singleton_append, cons_append, lastLineRev, if_pos rfl,
    if_pos (show blankBytes [] from rfl), lastLineRev_append newline_not_mem_lineBytes, append_nil,
    lastLineRev_streamBytes records hline]

end Streams

/-! ### Files That Parse -/

/-- The file holds the records, whether or not the last of them has its line feed. -/
structure Holds (F : FloatText) (bytes : List UInt8) (records : List JsonObject) : Prop where
  lines : (binaryLines bytes).map (parseEventRecord F) = records.map .ok
  nonblank : ∀ raw ∈ binaryLines bytes, blankBytes raw = false
  last : (readLastLine bytes bytes.length []).map (parseEventRecord F) = records.getLast?.map .ok

section Holding

variable {F : FloatText} {bytes : List UInt8} {records : List JsonObject}

theorem holds_streamBytes (hok : ∀ r ∈ records, RecordOk r) :
    Holds F (streamBytes F records) records := by
  have hlines := binaryLines_streamBytes (F := F) records []
  rw [append_nil] at hlines
  refine ⟨?_, ?_, ?_⟩
  · rw [hlines]
    simp only [binaryLines, append_nil, List.map_map]
    exact map_congr_left fun r hr => parseEventRecord_recordBytes (hok r hr)
  · rw [hlines]
    intro raw hraw
    simp only [binaryLines, append_nil] at hraw
    obtain ⟨r, -, rfl⟩ := List.mem_map.mp hraw
    exact blankBytes_recordBytes
  · cases records using reverseRecOn with
    | nil => rw [readLastLine_eq]; rfl
    | append_singleton records record =>
      have hrecord := hok record (mem_append_right _ mem_cons_self)
      rw [readLastLine_stream, map_some, parseEventRecord_lineBytes hrecord]
      simp

theorem holds_cut {record : JsonObject} (hok : ∀ r ∈ records ++ [record], RecordOk r) :
    Holds F (streamBytes F records ++ lineBytes F record) (records ++ [record]) := by
  have hrecord := hok record (mem_append_right _ mem_cons_self)
  obtain ⟨rest, hrest⟩ := lineBytes_eq_cons F record
  have hline : blankBytes (lineBytes F record) = false := by rw [hrest]; rfl
  have hlines := binaryLines_streamBytes (F := F) records (lineBytes F record)
  rw [binaryLines_tail newline_not_mem_lineBytes (by rw [hrest]; exact cons_ne_nil _ _)]
    at hlines
  refine ⟨?_, ?_, ?_⟩
  · rw [hlines, map_append, map_append, List.map_map]
    congr 1
    · exact map_congr_left fun r hr =>
        parseEventRecord_recordBytes (hok r (mem_append_left _ hr))
    · simp [parseEventRecord_lineBytes hrecord]
  · rw [hlines]
    intro raw hraw
    rcases mem_append.mp hraw with hraw | hraw
    · obtain ⟨r, -, rfl⟩ := List.mem_map.mp hraw
      exact blankBytes_recordBytes
    · rw [mem_singleton.mp hraw]
      exact hline
  · rw [readLastLine_tail records newline_not_mem_lineBytes hline, map_some,
      parseEventRecord_lineBytes hrecord]
    simp

theorem scanLine_eq {raw : List UInt8} {record : JsonObject} (hblank : blankBytes raw = false)
    (hparse : parseEventRecord F raw = .ok record) (hhash : (record.get "type").hashable)
    (h : History) : scanLine F h raw = .ok
      { firstEvent := firstOr h.firstEvent record
        lastEvent := some record
        harnessTerminalSeen :=
          h.harnessTerminalSeen || (recordType record).any isHarnessTerminal } := by
  simp [scanLine, hblank, hparse, hhash]

theorem RecordOk.hashable {record : JsonObject} (h : RecordOk record) :
    (record.get "type").hashable := by
  obtain ⟨t, ht⟩ := h.type
  rw [ht]
  rfl

theorem RecordOk.ne_nil {record : JsonObject} (h : RecordOk record) : record ≠ [] := by
  rintro rfl
  obtain ⟨t, ht⟩ := h.type
  exact nomatch ht

theorem firstOr_eq {first : Option JsonObject} (hfirst : ∀ r ∈ first, RecordOk r)
    (record : JsonObject) : firstOr first record = first.or (some record) := by
  cases first with
  | none => rfl
  | some r =>
    have hne := (hfirst r rfl).ne_nil
    simp [firstOr, hne]

theorem foldlM_scanLine {raws : List (List UInt8)}
    (hparse : raws.map (parseEventRecord F) = records.map .ok)
    (hblank : ∀ raw ∈ raws, blankBytes raw = false) (hok : ∀ r ∈ records, RecordOk r)
    {h : History} (hfirst : ∀ r ∈ h.firstEvent, RecordOk r) :
    raws.foldlM (scanLine F) h = .ok (records.foldl (fun h record =>
      { firstEvent := h.firstEvent.or (some record)
        lastEvent := some record
        harnessTerminalSeen :=
          h.harnessTerminalSeen || (recordType record).any isHarnessTerminal }) h) := by
  induction raws generalizing records h with
  | nil =>
    cases records with
    | cons r rs => exact nomatch hparse
    | nil => rfl
  | cons raw raws ih =>
    cases records with
    | nil => exact nomatch hparse
    | cons record records =>
      simp only [map_cons, List.cons.injEq] at hparse
      have hrecord := hok record mem_cons_self
      rw [List.foldlM_cons, scanLine_eq (hblank raw mem_cons_self) hparse.1 hrecord.hashable, ok_bind,
        firstOr_eq hfirst, foldl_cons]
      refine ih hparse.2 (fun r hr => hblank r (mem_cons_of_mem raw hr))
        (fun r hr => hok r (mem_cons_of_mem record hr)) ?_
      intro r hr
      cases hcase : h.firstEvent with
      | none =>
        rw [hcase] at hr
        cases hr
        exact hrecord
      | some first =>
        rw [hcase] at hr
        cases hr
        exact hfirst _ hcase

theorem Holds.readHistory_eq (h : Holds F bytes records) (hok : ∀ r ∈ records, RecordOk r)
    (eventType : String) :
    readHistoryBytes F (some bytes) eventType = .ok (readHistory (some records) eventType) := by
  simp only [readHistoryBytes, readHistory]
  split
  · exact foldlM_scanLine h.lines h.nonblank hok fun r hr => by cases hr
  · have hfirst : readFirstEvent F bytes = .ok records.head? := by
      have hlines := h.lines
      have hnonblank := h.nonblank
      unfold readFirstEvent
      cases hb : binaryLines bytes with
      | nil =>
        rw [hb] at hlines
        cases records with
        | nil => rfl
        | cons r rs => cases hlines
      | cons raw raws =>
        rw [hb] at hlines hnonblank
        cases records with
        | nil => cases hlines
        | cons r rs =>
          simp only [map_cons, List.cons.injEq] at hlines
          have hraw := hnonblank raw mem_cons_self
          simp [hraw, hlines.1, Except.map]
    have hlast : readLastEvent F bytes = .ok records.getLast? := by
      have hlast := h.last
      unfold readLastEvent
      cases hraw : readLastLine bytes bytes.length [] with
      | none =>
        rw [hraw] at hlast
        cases hr : records.getLast? with
        | none => rfl
        | some r => rw [hr] at hlast; cases hlast
      | some raw =>
        rw [hraw] at hlast
        cases hr : records.getLast? with
        | none => rw [hr] at hlast; cases hlast
        | some r =>
          rw [hr] at hlast
          have hparse : parseEventRecord F raw = .ok r := some.inj hlast
          simp [hparse, Except.map]
    rw [hfirst, hlast]
    rfl

theorem Holds.prepareFrom_eq (h : Holds F bytes records) (hok : ∀ r ∈ records, RecordOk r)
    (env : WriterEnv) (call : Call) :
    prepareFrom env (readHistoryBytes F (some bytes)) call =
      prepareRecord env (some records) call := by
  have hhash : ∀ t, checkHashable (readHistory (some records) t) = .ok () := by
    intro t
    have hlast : (readHistory (some records) t).lastEvent = records.getLast? := by
      rw [WorkerEvents.readHistory_eq]
      rfl
    unfold checkHashable
    rw [hlast, if_pos]
    cases hr : records.getLast? with
    | none => rfl
    | some r =>
      obtain ⟨t, ht⟩ := (hok r (mem_of_getLast? hr)).type
      simp [ht, hashable]
  unfold prepareFrom prepareRecord
  congr 1
  funext p
  obtain ⟨t, payload⟩ := p
  simp only [h.readHistory_eq hok, ok_bind, hhash]

end Holding

/-! ### Files That Do Not Parse -/

/-- Some line and the last line cannot be parsed. -/
structure Torn (F : FloatText) (bytes : List UInt8) : Prop where
  line : ∃ raw ∈ binaryLines bytes, blankBytes raw = false ∧ ∃ e, parseEventRecord F raw = .error e
  last : ∃ raw e, readLastLine bytes bytes.length [] = some raw ∧ parseEventRecord F raw = .error e

section Tearing

variable {F : FloatText} {bytes : List UInt8}

theorem foldlM_scanLine_error {raws : List (List UInt8)} {raw : List UInt8} (hraw : raw ∈ raws)
    (hblank : blankBytes raw = false) (hparse : ∃ e, parseEventRecord F raw = .error e)
    (h : History) : ∃ e, raws.foldlM (scanLine F) h = .error e := by
  induction raws generalizing h with
  | nil => exact absurd hraw not_mem_nil
  | cons first raws ih =>
    rw [List.foldlM_cons]
    cases hfirst : scanLine F h first with
    | error e => exact ⟨e, rfl⟩
    | ok h' =>
      rcases mem_cons.mp hraw with rfl | hraw
      · obtain ⟨e, he⟩ := hparse
        simp [scanLine, hblank, he] at hfirst
      · exact ih hraw h'

theorem Torn.readHistory_error (h : Torn F bytes) (eventType : String) :
    ∃ e, readHistoryBytes F (some bytes) eventType = .error e := by
  simp only [readHistoryBytes]
  split
  · obtain ⟨raw, hraw, hblank, hparse⟩ := h.line
    exact foldlM_scanLine_error hraw hblank hparse {}
  · obtain ⟨raw, e, hlast, hparse⟩ := h.last
    have hread : readLastEvent F bytes = .error e := by
      unfold readLastEvent
      rw [hlast]
      simp [hparse, Except.map]
    cases hfirst : readFirstEvent F bytes with
    | error e' => exact ⟨e', rfl⟩
    | ok first => exact ⟨e, by rw [hread]; rfl⟩

theorem Torn.apply (h : Torn F bytes) (l : EmitLabel) :
    (∃ e, (l.apply F (some bytes)).1 = .error e) ∧ (l.apply F (some bytes)).2 = some bytes := by
  have hprepare : ∃ e, prepareFrom l.env (readHistoryBytes F (some bytes)) l.call.toCall =
      .error e := by
    unfold prepareFrom
    cases hclassify : classify l.call.toCall with
    | error e => exact ⟨e, rfl⟩
    | ok out =>
      obtain ⟨t, payload⟩ := out
      cases hdir : requiredEnv l.env "CODIFY_RUNTIME_DIR" with
      | error e => exact ⟨e, rfl⟩
      | ok dir =>
        obtain ⟨e, he⟩ := h.readHistory_error t
        refine ⟨e, ?_⟩
        simp only [ok_bind, he, error_bind]
  obtain ⟨e, he⟩ := hprepare
  simp only [EmitLabel.apply, emitBytes, he]
  exact ⟨⟨e, rfl⟩, trivial⟩

theorem parseEventRecord_cut {record : JsonObject} (hok : RecordOk record)
    {line rest : List UInt8} (hcut : line ++ rest = lineBytes F record) (hrest : rest ≠ []) :
    ∃ e, parseEventRecord F line = .error e := by
  unfold parseEventRecord
  cases htext : decodeUtf8 line with
  | none => exact ⟨_, rfl⟩
  | some text =>
    have henc : encodeUtf8 text = line := encodeUtf8_of_decodeUtf8 htext
    rw [← henc] at hcut
    obtain ⟨more, hmore⟩ := prefix_of_encodeUtf8_append hcut
    have hne : more ≠ [] := by
      rintro rfl
      rw [append_nil] at hmore
      rw [hmore, lineBytes] at hcut
      exact hrest (append_right_eq_self.mp hcut)
    have hloads : loads F text = none := loads_cut false hok.dict hmore hne
    simp only [bind_some, hloads]
    exact ⟨_, rfl⟩

theorem torn_of_cut {records : List JsonObject} {record : JsonObject} (hok : RecordOk record)
    {line rest : List UInt8} (hcut : line ++ rest = lineBytes F record) (hline : line ≠ [])
    (hrest : rest ≠ []) : Torn F (streamBytes F records ++ line) := by
  have hfree : newlineByte ∉ line := fun hmem =>
    newline_not_mem_lineBytes (hcut ▸ mem_append_left rest hmem)
  have hblank : blankBytes line = false := by
    obtain ⟨more, hmore⟩ := lineBytes_eq_cons F record
    cases line with
    | nil => exact absurd rfl hline
    | cons b line =>
      rw [hmore, cons_append] at hcut
      obtain ⟨rfl, -⟩ := List.cons.inj hcut
      rfl
  have hparse := parseEventRecord_cut hok hcut hrest
  refine ⟨⟨line, ?_, hblank, hparse⟩, ?_⟩
  · rw [binaryLines_streamBytes, binaryLines_tail hfree hline]
    exact mem_append_right _ mem_cons_self
  · obtain ⟨e, he⟩ := hparse
    exact ⟨line, e, readLastLine_tail records hfree hblank, he⟩

/-- Where a stream can be cut: between records, inside one, or before its line feed. -/
theorem prefix_streamBytes {records : List JsonObject} {bytes : List UInt8}
    (h : bytes <+: streamBytes F records) :
    ∃ before after, records = before ++ after ∧
      (bytes = streamBytes F before ∨
        ∃ record rest line, after = record :: rest ∧ bytes = streamBytes F before ++ line ∧
          line ≠ [] ∧ line <+: lineBytes F record) := by
  induction records generalizing bytes with
  | nil =>
    refine ⟨[], [], rfl, .inl ?_⟩
    exact prefix_nil.mp h
  | cons record records ih =>
    rw [streamBytes_cons] at h
    rcases prefix_or_prefix_of_prefix h (prefix_append _ _) with hfirst | ⟨more, rfl⟩
    · rw [recordBytes_eq, prefix_concat_iff] at hfirst
      rcases hfirst with rfl | hline
      · refine ⟨[record], records, rfl, .inl ?_⟩
        rw [streamBytes_singleton, recordBytes_eq]
      · by_cases hnil : bytes = []
        · exact ⟨[], record :: records, rfl, .inl hnil⟩
        · exact ⟨[], record :: records, rfl,
            .inr ⟨record, records, bytes, rfl, rfl, hnil, hline⟩⟩
    · -- the first record is whole: the cut is in the rest
      obtain ⟨before, after, rfl, hcut⟩ := ih ((prefix_append_right_inj _).mp h)
      refine ⟨record :: before, after, rfl, ?_⟩
      rcases hcut with rfl | ⟨r, rest, line, rfl, rfl, hline, hpre⟩
      · exact .inl (streamBytes_cons record before).symm
      · refine .inr ⟨r, rest, line, rfl, ?_, hline, hpre⟩
        rw [streamBytes_cons, append_assoc]

end Tearing

/-! ### The Record a Call Appends -/

section Record

variable {env : WriterEnv} {call : Call} {t : String} {payload : JsonObject}

theorem keysUnique_str (text : String) : keysUnique (.str text) := rfl

theorem keysUnique_classify (hpayload : keysUnique (.obj call.payload))
    (href : ∀ ref, call.rawRef = some ref → keysUnique (.obj ref))
    (h : classify call = .ok (t, payload)) : keysUnique (.obj payload) := by
  unfold classify at h
  split at h
  · cases h
    exact hpayload
  · simp only at h
    split at h
    · exact nomatch h
    · cases h
      have hraw : keysUnique ((call.rawRef.map Json.obj).getD .null) := by
        cases hr : call.rawRef with
        | none => rfl
        | some ref => exact href ref hr
      rw [keysUnique_obj_iff]
      refine ⟨by simp, ?_⟩
      simp only [forall_mem_cons, not_mem_nil, false_implies, implies_true, and_true]
      exact ⟨rfl, rfl, hraw⟩

theorem keysUnique_applyTimeout (h : keysUnique (.obj payload)) (requested : Bool) :
    keysUnique (.obj (applyTimeout requested t payload)) := by
  have hfailure : keysUnique (.obj ((payload.get "failure").asObject.getD [])) := by
    have hget := keysUnique_get h "failure"
    cases hv : payload.get "failure" with
    | obj fields => rw [hv] at hget; exact hget
    | _ => rfl
  have hset := keysUnique_set (keysUnique_set hfailure "kind" (keysUnique_str "timeout"))
    "message" (keysUnique_str "Task timed out")
  unfold applyTimeout
  split
  · simp only
    split
    · exact keysUnique_set (keysUnique_set (keysUnique_set h "failure" hset) "status"
        (keysUnique_str "failed")) "success" (rfl : keysUnique (.bool false))
    · exact keysUnique_set h "failure" hset
  · exact h

theorem keysUnique_normalizePayload {payload' : JsonObject} (h : keysUnique (.obj payload))
    (hok : WorkerEvents.normalizePayload t payload = .ok payload') :
    keysUnique (.obj payload') := by
  unfold WorkerEvents.normalizePayload at hok
  split at hok
  · simp only at hok
    split at hok
    · exact nomatch hok
    next source hsource =>
    have hsrc : keysUnique (.obj source) := by
      have hget := keysUnique_get h "usage"
      split at hsource
      · cases hv : payload.get "usage" with
        | obj fields =>
          rw [hv] at hsource hget
          cases hsource
          exact hget
        | _ => rw [hv] at hsource; exact nomatch hsource
      · cases hsource
        rfl
    cases hok
    apply keysUnique_set h
    have hengine : keysUnique (if (source.get "engine_fields").truthy then
        source.get "engine_fields" else .obj []) := by
      split
      · exact keysUnique_get hsrc _
      · rfl
    rw [keysUnique_obj_iff]
    refine ⟨by simp, ?_⟩
    simp only [forall_mem_cons, not_mem_nil, false_implies, implies_true, and_true]
    exact ⟨keysUnique_get hsrc _, keysUnique_get hsrc _, keysUnique_get hsrc _,
      keysUnique_get hsrc _, keysUnique_get hsrc _, keysUnique_get hsrc _, hengine⟩
  · cases hok
    exact h

theorem keysUnique_harnessBlock {harness : JsonObject} (h : harnessBlock env = .ok harness) :
    keysUnique (.obj harness) := by
  obtain ⟨key, -, h⟩ := bind_eq_ok_iff.mp h
  obtain ⟨adapter, -, h⟩ := bind_eq_ok_iff.mp h
  obtain ⟨cli, -, h⟩ := bind_eq_ok_iff.mp h
  split at h
  · cases h
    have htransport : keysUnique (controlTransport env) := by
      cases hp : env.getenv "CODIFY_HARNESS_CONTROL_TRANSPORT_PROTOCOL" <;>
        simp [controlTransport, hp, keysUnique, keysUniqueFields, keysUniqueField]
    have hprotocols : keysUnique (modelProtocolsBlock env) := by
      rw [modelProtocolsBlock, keysUnique, keysUniqueItems_iff]
      intro v hv
      obtain ⟨text, -, rfl⟩ := List.mem_map.mp hv
      rfl
    simp [keysUnique, keysUniqueFields, keysUniqueField, htransport, hprotocols]
  · cases h
    simp [keysUnique, keysUniqueFields, keysUniqueField]

end Record

/-- The records are dicts numbered by their rank. -/
structure GoodRecords (records : List JsonObject) : Prop where
  ok : ∀ r ∈ records, RecordOk r
  seq : ∀ i (hi : i < records.length), records[i].get "seq" = .int (i + 1)

section Numbering

variable {F : FloatText} {env : WriterEnv} {records : List JsonObject}

theorem GoodRecords.lastSeq_eq (h : GoodRecords records) (t : String) :
    (readHistory (some records) t).lastSeq = .ok (records.length : Int) := by
  have hlast : (readHistory (some records) t).lastEvent = records.getLast? := by
    rw [WorkerEvents.readHistory_eq]
    rfl
  unfold History.lastSeq
  rw [hlast]
  cases records using reverseRecOn with
  | nil => rfl
  | append_singleton records record =>
    have hseq := h.seq records.length (by simp)
    rw [getElem_concat_length rfl] at hseq
    have hpos : ¬ ((records.length : Int) + 1 < 1) := by omega
    simp [eventSeq, hseq, asInt, hpos]

/-- The record of an accepted call joins the good ones. -/
theorem GoodRecords.snoc (h : GoodRecords records) (call : DictCall) {t : String}
    {record : JsonObject} (hok : prepareRecord env (some records) call.toCall = .ok (t, record)) :
    GoodRecords (records ++ [record]) := by
  obtain ⟨⟨t', payload⟩, hclassify, hok⟩ := bind_eq_ok_iff.mp hok
  obtain ⟨_, -, hok⟩ := bind_eq_ok_iff.mp hok
  simp only [h.lastSeq_eq, ok_bind, check_bind_eq_ok_iff] at hok
  obtain ⟨-, hok⟩ := hok
  obtain ⟨harness, hharness, hok⟩ := bind_eq_ok_iff.mp hok
  simp only [check_bind_eq_ok_iff] at hok
  obtain ⟨-, hok⟩ := hok
  obtain ⟨attemptId, -, hok⟩ := bind_eq_ok_iff.mp hok
  obtain ⟨taskId, -, hok⟩ := bind_eq_ok_iff.mp hok
  obtain ⟨payload', hpayload', hok⟩ := bind_eq_ok_iff.mp hok
  simp only [pure_eq_ok, Except.ok.injEq, Prod.mk.injEq] at hok
  obtain ⟨rfl, rfl⟩ := hok
  have hpayload := keysUnique_normalizePayload (keysUnique_applyTimeout
    (keysUnique_classify call.payload_dict call.rawRef_dict hclassify) _) hpayload'
  have hdict : keysUnique (.obj (buildRecord (eventSchema env) call.eventId attemptId
      (records.length + 1) call.occurredAt t' taskId harness payload' call.rawRef)) := by
    rw [keysUnique_obj_iff, buildRecord]
    cases href : call.rawRef with
    | none =>
      refine ⟨by simp, ?_⟩
      simp only [map_none, getD_none, append_nil, forall_mem_cons,
        not_mem_nil, false_implies, implies_true, and_true]
      exact ⟨rfl, rfl, rfl, rfl, rfl, rfl, rfl, keysUnique_harnessBlock hharness, hpayload⟩
    | some ref =>
      refine ⟨by simp, ?_⟩
      simp only [map_some, getD_some, cons_append, nil_append,
        forall_mem_cons, not_mem_nil, false_implies, implies_true, and_true]
      exact ⟨rfl, rfl, rfl, rfl, rfl, rfl, rfl, keysUnique_harnessBlock hharness, hpayload,
        call.rawRef_dict ref href⟩
  constructor
  · intro r hr
    rcases mem_append.mp hr with hr | hr
    · exact h.ok r hr
    · rw [mem_singleton.mp hr]
      exact ⟨hdict, t', by simp⟩
  · intro i hi
    rw [length_append, length_singleton] at hi
    rcases Nat.lt_or_ge i records.length with hlt | hge
    · rw [getElem_append_left hlt]
      exact h.seq i hlt
    · obtain rfl : i = records.length := by omega
      rw [getElem_concat_length rfl]
      simp

theorem GoodRecords.wellNumbered (h : GoodRecords records) :
    WellNumbered F (streamBytes F records) := by
  refine ⟨records, ?_, h.seq⟩
  have hlines := binaryLines_streamBytes (F := F) records []
  rw [append_nil] at hlines
  rw [hlines]
  simp only [binaryLines, append_nil]
  rw [filter_eq_self.mpr, List.map_map]
  · exact map_congr_left fun r hr => parseEventRecord_recordBytes (h.ok r hr)
  · intro raw hraw
    obtain ⟨r, -, rfl⟩ := List.mem_map.mp hraw
    rw [recordBytes_eq]
    simp

end Numbering

/-! ### Runs on a Whole File -/

section Runs

variable {F : FloatText} {env : WriterEnv} {file : Option (List UInt8)} {records : List JsonObject}

theorem readHistoryBytes_none : readHistoryBytes F none = readHistoryBytes F (some []) := by
  funext t
  have hfirst : readFirstEvent F [] = .ok none := rfl
  have hlast : readLastEvent F [] = .ok none := by
    unfold readLastEvent
    rw [readLastLine_eq]
    rfl
  simp only [readHistoryBytes, hfirst, hlast]
  split <;> rfl

theorem prepareFrom_stream (hfile : file.getD [] = streamBytes F records)
    (hok : ∀ r ∈ records, RecordOk r) (call : Call) :
    prepareFrom env (readHistoryBytes F file) call = prepareRecord env (some records) call := by
  have hholds : Holds F (file.getD []) records := hfile ▸ holds_streamBytes hok
  have hread : readHistoryBytes F file = readHistoryBytes F (some (file.getD [])) := by
    cases file with
    | none => exact readHistoryBytes_none
    | some bytes => rfl
  rw [hread]
  exact hholds.prepareFrom_eq hok env call

theorem appendRecord_stream (hfile : file.getD [] = streamBytes F records)
    (record : JsonObject) :
    (appendRecord F file record).getD [] = streamBytes F (records ++ [record]) := by
  rw [streamBytes_append, streamBytes_singleton, ← hfile]
  rfl

/-- What a family of record lists must satisfy to be kept by every call. -/
structure Kept (env : WriterEnv) (P : List JsonObject → Prop) : Prop where
  ok : ∀ {records}, P records → ∀ r ∈ records, RecordOk r
  snoc : ∀ {records} (call : DictCall) {t record}, P records →
    prepareRecord env (some records) call.toCall = .ok (t, record) → P (records ++ [record])

variable {P : List JsonObject → Prop}

theorem flushWarningBytes_stream (hP : Kept env P) (warnings : List DictWarning)
    (hfile : file.getD [] = streamBytes F records) (hsome : file.isSome) (h : P records) :
    ∃ records', P records' ∧ (flushWarningBytes F env file (warnings.map (·.toWarning))).2.isSome ∧
      (flushWarningBytes F env file (warnings.map (·.toWarning))).2.getD [] =
        streamBytes F records' := by
  induction warnings generalizing file records with
  | nil => exact ⟨records, h, hsome, hfile⟩
  | cons warning rest ih =>
    simp only [map_cons, flushWarningBytes]
    cases hemit : emitWarningBytes F env file warning.toWarning with
    | error e => exact ⟨records, h, hsome, hfile⟩
    | ok file' =>
      unfold emitWarningBytes at hemit
      split at hemit
      · cases hemit
        exact ih hfile hsome h
      next payload hpayload =>
      split at hemit
      · exact nomatch hemit
      split at hemit
      · obtain ⟨⟨t, record⟩, hprepare, hdone⟩ := bind_eq_ok_iff.mp hemit
        cases hdone
        rw [prepareFrom_stream hfile (hP.ok h)] at hprepare
        have hdict : keysUnique (.obj payload) := by
          obtain ⟨v, hv, hobj⟩ := bind_eq_some_iff.mp hpayload
          cases v with
          | obj fields =>
            cases hobj
            exact warning.line_dict _ hv
          | _ => exact nomatch hobj
        exact ih (appendRecord_stream hfile record) rfl (hP.snoc
          { eventType := "diagnostic", payload, eventId := warning.eventId, rawRef := none,
            occurredAt := warning.occurredAt, payload_dict := hdict,
            rawRef_dict := by intro ref href; cases href } h hprepare)
      · cases hemit
        exact ih hfile hsome h

theorem apply_stream (l : EmitLabel) (hP : Kept l.env P)
    (hfile : file.getD [] = streamBytes F records) (h : P records) :
    ((∃ e, (l.apply F file).1 = .error e) ∧ (l.apply F file).2 = file) ∨
      ∃ records', P records' ∧ (l.apply F file).2.isSome ∧
        (l.apply F file).2.getD [] = streamBytes F records' := by
  simp only [EmitLabel.apply, emitBytes]
  cases hprepare : prepareFrom l.env (readHistoryBytes F file) l.call.toCall with
  | error e => exact .inl ⟨⟨e, rfl⟩, rfl⟩
  | ok out =>
    obtain ⟨t, record⟩ := out
    rw [prepareFrom_stream hfile (hP.ok h)] at hprepare
    have hsnoc := hP.snoc l.call h hprepare
    have hfile' := appendRecord_stream hfile record
    simp only
    split
    · exact .inr (flushWarningBytes_stream hP l.warnings hfile' rfl hsnoc)
    · exact .inr ⟨_, hsnoc, rfl, hfile'⟩

theorem kept_goodRecords (env : WriterEnv) : Kept env GoodRecords where
  ok := GoodRecords.ok
  snoc call _ _ h hok := h.snoc call hok

/-- The records of a file written in one environment. -/
structure Started (env : WriterEnv) (records : List JsonObject) : Prop where
  good : GoodRecords records
  written : Written env records
  runtimeDir : records ≠ [] → ∃ dir, requiredEnv env "CODIFY_RUNTIME_DIR" = .ok dir

theorem kept_started (env : WriterEnv) : Kept env (Started env) where
  ok h := h.good.ok
  snoc call t record h hok := by
    have hwritten : Written env (recordsOf (some _)) := h.written
    refine ⟨h.good.snoc call hok, hwritten.prepareRecord_snoc hok, ?_⟩
    intro _
    obtain ⟨_, -, hok⟩ := bind_eq_ok_iff.mp hok
    obtain ⟨dir, hdir, -⟩ := bind_eq_ok_iff.mp hok
    exact ⟨dir, hdir⟩

theorem started_of_reachable (h : (fileSystem F).Reachable (inEnv env) file) :
    ∃ records, Started env records ∧ file.getD [] = streamBytes F records := by
  refine h.invariant (P := fun file => ∃ records, Started env records ∧
    file.getD [] = streamBytes F records) ?_ ?_
  · rintro file rfl
    exact ⟨[], ⟨⟨nofun, nofun⟩, .nil, fun hne => absurd rfl hne⟩, rfl⟩
  · rintro file l file' ⟨records, hstarted, hfile⟩ henv hstep
    cases hstep
    obtain rfl : l.env = env := henv
    rcases apply_stream l (kept_started l.env) hfile hstarted with ⟨-, hsame⟩ | ⟨records', h', -, hf⟩
    · exact ⟨records, hstarted, by rw [hsame]; exact hfile⟩
    · exact ⟨records', h', hf⟩

theorem safe_of_good {file' : Option (List UInt8)} (hgood : GoodRecords records)
    (hfile : file.getD [] = streamBytes F records)
    (hrun : (fileSystem F).Run System.anyStep file file') (l : EmitLabel) :
    SafeCall F file' l := by
  have hinv : ∃ records, GoodRecords records ∧ file'.getD [] = streamBytes F records := by
    refine hrun.preserves (P := fun f => ∃ records, GoodRecords records ∧
      f.getD [] = streamBytes F records) ?_ ⟨records, hgood, hfile⟩
    rintro f l f' ⟨records, hgood, hf⟩ - hstep
    cases hstep
    rcases apply_stream l (kept_goodRecords l.env) hf hgood with ⟨-, hsame⟩ | ⟨records', h', -, hf'⟩
    · exact ⟨records, hgood, by rw [hsame]; exact hf⟩
    · exact ⟨records', h', hf'⟩
  obtain ⟨records', hgood', hfile'⟩ := hinv
  rcases apply_stream l (kept_goodRecords l.env) hfile' hgood' with hraise | ⟨r, hr, hsome, hf⟩
  · exact .inl hraise
  · obtain ⟨bytes, hbytes⟩ := isSome_iff_exists.mp hsome
    refine .inr ⟨bytes, hbytes, ?_⟩
    rw [hbytes, getD_some] at hf
    rw [hf]
    exact hr.wellNumbered

/-- From a torn file on, every call of every run raises and leaves the file alone. -/
theorem safe_of_torn {bytes : List UInt8} (htorn : Torn F bytes) {file' : Option (List UInt8)}
    (hrun : (fileSystem F).Run System.anyStep (some bytes) file') (l : EmitLabel) :
    SafeCall F file' l := by
  have hsame : file' = some bytes := by
    refine hrun.preserves (P := fun f => f = some bytes) ?_ rfl
    rintro f l f' rfl - hstep
    cases hstep
    exact (htorn.apply l).2
  subst hsame
  exact .inl (htorn.apply l)

end Runs

/-! ### A Lost Line Feed -/

/-- The last record of the file ends the task. -/
def TaskEnded (F : FloatText) (bytes : List UInt8) : Prop :=
  ∃ record, readLastEvent F bytes = .ok (some record) ∧ isTaskTerminal (Event.type record)

section Lost

variable {F : FloatText} {env : WriterEnv} {records : List JsonObject} {record : JsonObject}

/-- The next byte is a line feed exactly when a record has lost no more than that. -/
theorem lost_newline {cut : List UInt8} (h : cut ++ [newlineByte] <+: streamBytes F records) :
    ∃ before record after, records = before ++ record :: after ∧
      cut = streamBytes F before ++ lineBytes F record := by
  obtain ⟨before, after, rfl, hcut⟩ := prefix_streamBytes h
  rcases hcut with hwhole | ⟨r, rest, line, rfl, hline, hne, hpre⟩
  · cases before using reverseRecOn with
    | nil => exact absurd hwhole (by simp [streamBytes, eventStream, unlines])
    | append_singleton before record =>
      refine ⟨before, record, after, by simp, ?_⟩
      rw [streamBytes_append, streamBytes_singleton, recordBytes_eq, ← append_assoc] at hwhole
      exact append_cancel_right hwhole
  · -- the bytes of a record hold no line feed
    obtain ⟨line, last, rfl⟩ := eq_nil_or_concat line |>.resolve_left hne
    rw [concat_eq_append, ← append_assoc] at hline
    obtain ⟨-, hlast⟩ := append_inj' hline rfl
    obtain rfl := (List.cons.inj hlast).1
    exact absurd (hpre.subset (by simp)) newline_not_mem_lineBytes

theorem GoodRecords.left {a b : List JsonObject} (h : GoodRecords (a ++ b)) : GoodRecords a := by
  refine ⟨fun r hr => h.ok r (mem_append_left b hr), fun i hi => ?_⟩
  have hseq := h.seq i (by rw [length_append]; omega)
  rwa [getElem_append_left hi] at hseq

theorem written_left {a b : List JsonObject} (h : Written env (a ++ b)) : Written env a := by
  induction b using reverseRecOn with
  | nil => rwa [append_nil] at h
  | append_singleton b r ih =>
    apply ih
    rw [← append_assoc] at h
    generalize hrecords : a ++ b ++ [r] = records at h
    cases h with
    | nil => simp at hrecords
    | snoc hw _ _ _ =>
      obtain ⟨hsame, -⟩ := append_inj' hrecords rfl
      rw [hsame]
      exact hw

theorem prepareRecord_after_terminal {t : String} (hlast : records.getLast? = some record)
    (htype : record.get "type" = .str t) (hterm : isTaskTerminal t) (call : Call) :
    ∃ e, prepareRecord env (some records) call = .error e := by
  cases hprepare : prepareRecord env (some records) call with
  | error e => exact ⟨e, rfl⟩
  | ok out =>
    obtain ⟨⟨t', payload⟩, -, hok⟩ := bind_eq_ok_iff.mp hprepare
    obtain ⟨_, -, hok⟩ := bind_eq_ok_iff.mp hok
    obtain ⟨lastSeq, -, hok⟩ := bind_eq_ok_iff.mp hok
    simp only [check_bind_eq_ok_iff] at hok
    have horder := hok.1
    have hlastType : (readHistory (some records) t').lastType = some t := by
      rw [WorkerEvents.readHistory_eq]
      simp [History.lastType, recordsOf, hlast, recordType, htype, Json.asString]
    simp [checkOrder, hlastType, hterm] at horder

theorem safe_of_ended {before : List JsonObject} {t : String}
    (hok : ∀ r ∈ before ++ [record], RecordOk r) (htype : record.get "type" = .str t)
    (hterm : isTaskTerminal t) {file : Option (List UInt8)}
    (hrun : (fileSystem F).Run System.anyStep
      (some (streamBytes F before ++ lineBytes F record)) file) (l : EmitLabel) :
    SafeCall F file l := by
  have hraise : ∀ l : EmitLabel,
      (∃ e, (l.apply F (some (streamBytes F before ++ lineBytes F record))).1 = .error e) ∧
        (l.apply F (some (streamBytes F before ++ lineBytes F record))).2 =
          some (streamBytes F before ++ lineBytes F record) := by
    intro l
    have hlast : (before ++ [record]).getLast? = some record := by simp
    have hafter : ∃ e, prepareRecord l.env (some (before ++ [record])) l.call.toCall = .error e :=
      prepareRecord_after_terminal hlast htype hterm l.call.toCall
    obtain ⟨e, he⟩ := hafter
    rw [← (holds_cut (F := F) hok).prepareFrom_eq hok] at he
    simp only [EmitLabel.apply, emitBytes, he]
    exact ⟨⟨e, rfl⟩, trivial⟩
  have hsame : file = some (streamBytes F before ++ lineBytes F record) := by
    refine hrun.preserves (P := fun f => f = some (streamBytes F before ++ lineBytes F record)) ?_ rfl
    rintro f l f' rfl - hstep
    cases hstep
    exact (hraise l).2
  subst hsame
  exact .inl (hraise l)

theorem pyEq_harnessBlock {harness : JsonObject} (h : harnessBlock env = .ok harness) :
    (Json.obj harness).pyEq (.obj harness) := by
  obtain ⟨key, -, h⟩ := bind_eq_ok_iff.mp h
  obtain ⟨adapter, -, h⟩ := bind_eq_ok_iff.mp h
  obtain ⟨cli, -, h⟩ := bind_eq_ok_iff.mp h
  split at h
  · cases h
    have htransport : (controlTransport env).pyEq (controlTransport env) := by
      cases hp : env.getenv "CODIFY_HARNESS_CONTROL_TRANSPORT_PROTOCOL" <;>
        simp [controlTransport, hp, pyEq, pyEqFields, pyEqField, lookup_cons]
    have hprotocols : (modelProtocolsBlock env).pyEq (modelProtocolsBlock env) := by
      simp [modelProtocolsBlock, pyEq, pyEqItems_str]
    simp [pyEq, pyEqFields, pyEqField, lookup_cons, htransport, hprotocols]
  · cases h
    simp [pyEq, pyEqFields, pyEqField, lookup_cons]

/-- The call that brings nothing but its type. -/
def plainCall (t : String) : DictCall where
  eventType := t
  rawRef := none
  eventId := ""
  occurredAt := ""
  payload_dict := rfl
  rawRef_dict := by intro ref href; cases href

/-- In its own environment a started file takes every type that its order admits. -/
theorem Started.prepareRecord_ok (h : Started env records) (hne : records ≠ []) {t : String}
    (hknown : t ∈ knownTypes) (husage : t ≠ "usage.updated" ∧ t ≠ "usage.final")
    (horder : checkOrder (readHistory (some records) t) (records.length : Int) t = .ok ()) :
    ∃ r, prepareRecord env (some records) (plainCall t).toCall = .ok (t, r) := by
  obtain ⟨dir, hdir⟩ := h.runtimeDir hne
  obtain ⟨first, rest, rfl⟩ := exists_cons_of_ne_nil hne
  have hmem : first ∈ first :: rest := mem_cons_self
  obtain ⟨seq, hfirst⟩ := h.written.isRecord hmem
  obtain ⟨attemptId, hattempt, -⟩ := hfirst.attemptId
  obtain ⟨taskId, htask, -⟩ := hfirst.taskId
  obtain ⟨harness, hharness, hget⟩ := hfirst.harness
  have hhead : (readHistory (some (first :: rest)) t).firstEvent = some first := by
    rw [WorkerEvents.readHistory_eq]
    rfl
  have hsame : (first.get "harness").pyEq (.obj harness) := by
    rw [hget]
    exact pyEq_harnessBlock hharness
  have hclassify : classify (plainCall t).toCall = .ok (t, []) := by
    simp [classify, plainCall, hknown]
  have hpayload : ∀ payload, WorkerEvents.normalizePayload t payload = .ok payload := by
    intro payload
    simp [WorkerEvents.normalizePayload, husage]
  unfold prepareRecord
  simp only [hclassify, ok_bind, hdir, h.good.lastSeq_eq, horder, hharness, hhead,
    all_some, hsame, ensure, if_true, hattempt, htask, hpayload, pure_eq_ok]
  exact ⟨_, rfl⟩

/-- A stream that is still open takes one more call. -/
theorem Started.exists_append (h : Started env records) (hlast : records.getLast? = some record)
    {t : String} (htype : record.get "type" = .str t) (hopen : isTaskTerminal t = false) :
    ∃ t' r, t' ≠ "run.started" ∧
      prepareRecord env (some records) (plainCall t').toCall = .ok (t', r) := by
  have hne : records ≠ [] := by
    rintro rfl
    exact nomatch hlast
  have hpos : (records.length : Int) ≠ 0 := by
    have := length_pos_of_ne_nil hne
    omega
  have hlastType : ∀ t', (readHistory (some records) t').lastType = some t := by
    intro t'
    rw [WorkerEvents.readHistory_eq]
    simp [History.lastType, recordsOf, hlast, recordType, htype, Json.asString]
  by_cases hfinal : t = "worker.finalization"
  · -- after the finalization only the task terminal may follow
    subst hfinal
    have hseen : (readHistory (some records) "run.failed").harnessTerminalSeen = true := by
      rw [WorkerEvents.readHistory_eq]
      show (needsHistory "run.failed" &&
        records.any fun r => (recordType r).any isHarnessTerminal) = true
      rw [h.written.harnessSeen_eq, show needsHistory "run.failed" = true by decide,
        Bool.true_and]
      apply h.written.valid.harnessEnded_of_finalization
      rw [getLast?_map, hlast, map_some, Event.type, htype]
      rfl
    have horder : checkOrder (readHistory (some records) "run.failed") (records.length : Int)
        "run.failed" = .ok () := by
      simp only [checkOrder, check_bind_eq_ok_iff, ensure_eq_ok_iff, ensureIf_eq_ok_iff,
        hlastType, hseen, beq_iff_eq, hpos, false_implies]
      have hterminal : isTaskTerminal "run.failed" = true := by decide
      have hharness : isHarnessTerminal "run.failed" = false := by decide
      have hfinalization : isTaskTerminal "worker.finalization" = false := by decide
      simp [hterminal, hharness, hfinalization]
    obtain ⟨r, hr⟩ := h.prepareRecord_ok hne (by decide) (by decide) horder
    exact ⟨"run.failed", r, by decide, hr⟩
  · have horder : checkOrder (readHistory (some records) "diagnostic") (records.length : Int)
        "diagnostic" = .ok () := by
      simp only [checkOrder, check_bind_eq_ok_iff, ensure_eq_ok_iff, ensureIf_eq_ok_iff,
        hlastType, beq_iff_eq, hpos, false_implies, any_some, hopen, Option.some.injEq,
        hfinal]
      have hplain := plain_diagnostic
      simp [hplain.task, hplain.harness, hplain.delivery]
    obtain ⟨r, hr⟩ := h.prepareRecord_ok hne (by decide) (by decide) horder
    exact ⟨"diagnostic", r, by decide, hr⟩

/-- A record appended to a line that has lost its line feed makes a line that is no JSON. -/
theorem not_wellNumbered_of_lost {before : List JsonObject} (hok : RecordOk record)
    (next : JsonObject) :
    ¬ WellNumbered F (streamBytes F before ++ lineBytes F record ++ recordBytes F next) := by
  rintro ⟨records, hlines, -⟩
  have hfree : newlineByte ∉ lineBytes F record ++ lineBytes F next := by
    rw [mem_append, not_or]
    exact ⟨newline_not_mem_lineBytes, newline_not_mem_lineBytes⟩
  have hbytes : streamBytes F before ++ lineBytes F record ++ recordBytes F next =
      streamBytes F before ++ ((lineBytes F record ++ lineBytes F next) ++ newlineByte :: []) := by
    rw [recordBytes_eq]
    simp
  have hparse : ∃ e, parseEventRecord F
      (lineBytes F record ++ lineBytes F next ++ [newlineByte]) = .error e := by
    have htext : lineBytes F record ++ lineBytes F next ++ [newlineByte] =
        encodeUtf8 (eventLine F record ++ (eventLine F next ++ ['\n'])) := by
      rw [encodeUtf8_append, encodeUtf8_append, encodeUtf8_newline, append_assoc]
      rfl
    unfold parseEventRecord
    rw [htext, decodeUtf8_encodeUtf8, bind_some, eventLine, eventLine,
      loads_two_dicts false hok.dict]
    exact ⟨_, rfl⟩
  obtain ⟨e, he⟩ := hparse
  rw [hbytes, binaryLines_streamBytes, binaryLines_line hfree] at hlines
  have hmem : Except.error e ∈ records.map (Except.ok (ε := EmitError)) := by
    rw [← hlines, ← he]
    apply List.mem_map_of_mem
    rw [mem_filter]
    exact ⟨mem_append_right _ mem_cons_self, by simp⟩
  obtain ⟨r, -, hr⟩ := List.mem_map.mp hmem
  cases hr

/-- Before the end of the task, a lost line feed lets some call join two records. -/
theorem Started.unsafe_of_lost {before : List JsonObject} (h : Started env (before ++ [record]))
    {t : String} (htype : record.get "type" = .str t) (hopen : isTaskTerminal t = false) :
    ∃ l, ¬ SafeCall F (some (streamBytes F before ++ lineBytes F record)) l := by
  have hlast : (before ++ [record]).getLast? = some record := by simp
  obtain ⟨t', next, hstart, hprepare⟩ := h.exists_append hlast htype hopen
  rw [← (holds_cut (F := F) h.good.ok).prepareFrom_eq h.good.ok] at hprepare
  refine ⟨⟨env, plainCall t', []⟩, ?_⟩
  have happly : EmitLabel.apply F ⟨env, plainCall t', []⟩
      (some (streamBytes F before ++ lineBytes F record)) =
      (.ok (), some (streamBytes F before ++ lineBytes F record ++ recordBytes F next)) := by
    simp only [EmitLabel.apply, emitBytes, hprepare, if_neg hstart]
    rfl
  rintro (⟨⟨e, he⟩, -⟩ | ⟨bytes, hbytes, hgood⟩)
  · rw [happly] at he
    exact nomatch he
  · rw [happly] at hbytes
    cases hbytes
    exact not_wellNumbered_of_lost (h.good.ok record (by simp)) next hgood

theorem Started.left {a b : List JsonObject} (h : Started env (a ++ b)) : Started env a := by
  refine ⟨h.good.left, written_left h.written, fun hne => h.runtimeDir ?_⟩
  intro hnil
  exact hne (append_eq_nil_iff.mp hnil).1

end Lost

/-! ### Appending After a Crash -/

/-- The file is cut to any prefix of what one writer had written. Every later call of every
    run raises without writing or leaves numbered JSON lines, exactly when the cut does not
    take only the line feed of a record, unless that record ended the task. -/
theorem crash_safe_append (F : FloatText) (env : WriterEnv) {bytes cut : List UInt8}
    (hfile : (fileSystem F).Reachable (inEnv env) (some bytes)) (hcut : cut <+: bytes) :
    (∀ file, (fileSystem F).Run System.anyStep (some cut) file → ∀ l, SafeCall F file l) ↔
      (cut ++ [newlineByte] <+: bytes → TaskEnded F cut) := by
  obtain ⟨records, hstarted, hbytes⟩ := started_of_reachable hfile
  subst hbytes
  constructor
  · -- a lost line feed of an open task would leave an unsafe call
    intro hsafe hlost
    obtain ⟨before, record, after, rfl, rfl⟩ := lost_newline hlost
    rw [append_cons] at hstarted
    have hleft := hstarted.left
    obtain ⟨t, htype⟩ := (hleft.good.ok record (by simp)).type
    refine ⟨record, ?_, ?_⟩
    · unfold readLastEvent
      obtain ⟨rest, hrest⟩ := lineBytes_eq_cons F record
      rw [readLastLine_tail before newline_not_mem_lineBytes (by rw [hrest]; rfl)]
      simp [parseEventRecord_lineBytes (hleft.good.ok record (by simp)), Except.map]
    · by_contra hopen
      have hopen' : isTaskTerminal t = false := by
        rw [Event.type, htype] at hopen
        simpa [Json.asString] using hopen
      obtain ⟨l, hl⟩ := hleft.unsafe_of_lost (F := F) htype hopen'
      exact hl (hsafe _ (.refl _) l)
  · intro hcond file hrun l
    obtain ⟨before, after, rfl, hshape⟩ := prefix_streamBytes hcut
    rcases hshape with rfl | ⟨record, rest, line, rfl, rfl, hne, more, hmore⟩
    · have hfile : (some (streamBytes F before)).getD [] = streamBytes F before := rfl
      exact safe_of_good hstarted.good.left hfile hrun l
    · rw [append_cons] at hstarted
      have hok := hstarted.left.good.ok
      by_cases hmore' : more = []
      · -- the whole record is there, only its line feed is lost
        rw [hmore', append_nil] at hmore
        subst hmore
        have hlost : streamBytes F before ++ lineBytes F record ++ [newlineByte] <+:
            streamBytes F (before ++ record :: rest) := by
          refine ⟨streamBytes F rest, ?_⟩
          rw [streamBytes_append, streamBytes_cons, recordBytes_eq]
          simp
        obtain ⟨last, hlast, hterm⟩ := hcond hlost
        have hrecord : last = record := by
          unfold readLastEvent at hlast
          obtain ⟨tail, htail⟩ := lineBytes_eq_cons F record
          rw [readLastLine_tail before newline_not_mem_lineBytes (by rw [htail]; rfl)] at hlast
          simp only [parseEventRecord_lineBytes (hok record (by simp)), Except.map] at hlast
          exact (some.inj (Except.ok.inj hlast)).symm
        subst hrecord
        obtain ⟨t, htype⟩ := (hok last (by simp)).type
        rw [Event.type, htype] at hterm
        exact safe_of_ended hok htype hterm hrun l
      · exact safe_of_torn (torn_of_cut (hok record (by simp)) hmore hne hmore') hrun l

/-! ### A Worker That Lost a Line Feed -/

/-- The first record of `sampleEnv`. -/
def startedRecord : JsonObject :=
  buildRecord "codify.worker.event/v2" "" "a-1" 1 "" "run.started" 7
    [("key", .str "pi"), ("adapter_version", .str "1"), ("cli_version", .str "2"),
     ("control_transport", .obj [("kind", .str "rpc_stdio"), ("protocol", .null)]),
     ("model_protocols", .arr [.str "anthropic_messages"])] [] none

theorem prepareRecord_started :
    prepareRecord sampleEnv (some []) (plainCall "run.started").toCall =
      .ok ("run.started", startedRecord) := rfl

theorem started_startedRecord : Started sampleEnv [startedRecord] := by
  have hempty : Started sampleEnv [] := ⟨⟨nofun, nofun⟩, .nil, fun hne => absurd rfl hne⟩
  exact (kept_started sampleEnv).snoc (plainCall "run.started") hempty prepareRecord_started

theorem reachable_startedRecord (F : FloatText) :
    (fileSystem F).Reachable (inEnv sampleEnv) (some (recordBytes F startedRecord)) := by
  refine ⟨none, rfl, .step (l := ⟨sampleEnv, plainCall "run.started", []⟩) (.refl _) rfl ?_⟩
  have hprepare : prepareFrom sampleEnv (readHistoryBytes F none)
      (plainCall "run.started").toCall = .ok ("run.started", startedRecord) := by
    have hempty : (none : Option (List UInt8)).getD [] = streamBytes F [] := rfl
    rw [prepareFrom_stream hempty nofun]
    exact prepareRecord_started
  show some (EmitLabel.apply F ⟨sampleEnv, plainCall "run.started", []⟩ none).2 = _
  simp only [EmitLabel.apply, emitBytes, hprepare]
  rfl

/-- Cut at its very end the file of one record takes further calls. -/
theorem crash_safe_append_uncut :
    (fileSystem .fraction).Reachable (inEnv sampleEnv)
        (some (recordBytes .fraction startedRecord)) ∧
      ∀ file, (fileSystem .fraction).Run System.anyStep
        (some (recordBytes .fraction startedRecord)) file → ∀ l, SafeCall .fraction file l := by
  refine ⟨reachable_startedRecord .fraction,
    (crash_safe_append .fraction sampleEnv (reachable_startedRecord .fraction)
      (prefix_refl _)).mpr ?_⟩
  intro hlost
  have hlen := hlost.length_le
  rw [length_append, length_singleton] at hlen
  omega

/-- Without its line feed the first record is joined by the next one on the same line. -/
theorem lost_newline_joins_records :
    (fileSystem .fraction).Reachable (inEnv sampleEnv)
        (some (lineBytes .fraction startedRecord ++ [newlineByte])) ∧
      ∃ l, ¬ SafeCall .fraction (some (lineBytes .fraction startedRecord)) l := by
  constructor
  · rw [← recordBytes_eq]
    exact reachable_startedRecord .fraction
  · have hstarted : Started sampleEnv ([] ++ [startedRecord]) := started_startedRecord
    have htype : startedRecord.get "type" = .str "run.started" := rfl
    exact hstarted.unsafe_of_lost htype rfl

/-! ### From the Calls to the Replay -/

/-- What the calls of a worker leave in the file is read back record for record, by the worker and,
    when the records are valid, by the backend, whose replay accepts them. -/
theorem written_file_replayed {F : FloatText} {env : WriterEnv} {file : Option (List UInt8)}
    (py : Python) (h : (fileSystem F).Reachable (inEnv env) file) :
    ∃ records, file.getD [] = streamBytes F records ∧
      (binaryLines (file.getD [])).map (parseEventRecord F) = records.map .ok ∧
      ((∀ r ∈ records, ∃ e, validateEventBySchema py r = .ok e) →
        (records.map Event.eventId).Nodup → (∀ r ∈ records, EventStream.NoLineSeparator r) →
          EventStream.StreamRoundTrip F py records ∧
            ∃ replay, Replay.ofEvents py records = .ok replay) := by
  obtain ⟨records, hstarted, hfile⟩ := started_of_reachable h
  refine ⟨records, hfile, hfile ▸ (holds_streamBytes hstarted.good.ok).lines,
    fun hvalid hids hclean => ⟨?_, ?_⟩⟩
  · refine EventStream.streamRoundTrip_of_lines (fun r hr => (hstarted.good.ok r hr).dict) ?_
    exact fun r hr => (EventStream.noLineSeparator_iff F r).mp (hclean r hr)
  · obtain ⟨replay, hacc⟩ := hstarted.written.accepted hvalid hids
    exact ⟨replay, hacc.ofEvents_eq _ fun r hr => validate_eq_normalizeRecord (hvalid r hr)⟩

/-- A call that is accepted appends its record. -/
theorem Started.emit {F : FloatText} {env : WriterEnv} {file : Option (List UInt8)}
    {records : List JsonObject} {t : String} (h : Started env records)
    (hreach : (fileSystem F).Reachable (inEnv env) file)
    (hfile : file.getD [] = streamBytes F records) (call : DictCall) (record : JsonObject)
    (hprepare : prepareRecord env (some records) call.toCall = .ok (t, record)) :
    Started env (records ++ [record]) ∧
      (fileSystem F).Reachable (inEnv env) (some (streamBytes F (records ++ [record]))) := by
  obtain ⟨init, hinit, hrun⟩ := hreach
  refine ⟨(kept_started env).snoc call h hprepare,
    ⟨init, hinit, .step (l := ⟨env, call, []⟩) hrun rfl ?_⟩⟩
  have happend : appendRecord F file record = some (streamBytes F (records ++ [record])) :=
    congrArg some (appendRecord_stream hfile record)
  show some (EmitLabel.apply F ⟨env, call, []⟩ file).2 = _
  simp only [EmitLabel.apply, emitBytes, prepareFrom_stream hfile h.good.ok, hprepare, happend]
  split <;> rfl

def sampleCall (eventId t : String) : DictCall where
  eventType := t
  rawRef := none
  eventId := eventId
  occurredAt := "2026-01-01T00:00:00Z"
  payload_dict := rfl
  rawRef_dict := by intro ref href; cases href

def sampleRecord (seq : Int) (eventId t : String) : JsonObject :=
  buildRecord "codify.worker.event/v2" eventId "a-1" seq "2026-01-01T00:00:00Z" t 7
    [("key", .str "pi"), ("adapter_version", .str "1"), ("cli_version", .str "2"),
     ("control_transport", .obj [("kind", .str "rpc_stdio"), ("protocol", .null)]),
     ("model_protocols", .arr [.str "anthropic_messages"])] [] none

/-- A run up to the end of its harness. -/
def sampleRecords : List JsonObject :=
  [sampleRecord 1 "e1" "run.started", sampleRecord 2 "e2" "message.delta",
   sampleRecord 3 "e3" "harness.completed"]

theorem written_file_replayed_run :
    (fileSystem .fraction).Reachable (inEnv sampleEnv)
        (some (streamBytes .fraction sampleRecords)) ∧
      EventStream.StreamRoundTrip .fraction zonedPython sampleRecords ∧
      ∃ replay, Replay.ofEvents zonedPython sampleRecords = .ok replay := by
  have hempty : Started sampleEnv [] := ⟨⟨nofun, nofun⟩, .nil, fun hne => absurd rfl hne⟩
  have hinit : (fileSystem .fraction).Reachable (inEnv sampleEnv) none := ⟨none, rfl, .refl _⟩
  obtain ⟨hone, hreach⟩ := hempty.emit hinit rfl (sampleCall "e1" "run.started")
    (sampleRecord 1 "e1" "run.started") rfl
  obtain ⟨htwo, hreach⟩ := hone.emit hreach rfl (sampleCall "e2" "message.delta")
    (sampleRecord 2 "e2" "message.delta") rfl
  obtain ⟨hthree, hreach⟩ := htwo.emit hreach rfl (sampleCall "e3" "harness.completed")
    (sampleRecord 3 "e3" "harness.completed") rfl
  have hreach : (fileSystem .fraction).Reachable (inEnv sampleEnv)
      (some (streamBytes .fraction sampleRecords)) := hreach
  obtain ⟨records, -, hlines, hreplayed⟩ := written_file_replayed zonedPython hreach
  have hgood : ∀ r ∈ sampleRecords, RecordOk r := hthree.good.ok
  have hown := (holds_streamBytes (F := .fraction) hgood).lines
  obtain rfl : records = sampleRecords := by
    have hsame : records.map (Except.ok (ε := EmitError)) = sampleRecords.map .ok :=
      hlines.symm.trans hown
    exact List.map_injective_iff.mpr (fun _ _ h => Except.ok.inj h) hsame
  refine ⟨hreach, hreplayed ?_ (by decide) ?_⟩
  · have hvalid : ∀ r ∈ sampleRecords, (validateEventBySchema zonedPython r).toBool := by
      decide +kernel
    intro r hr
    cases hr' : validateEventBySchema zonedPython r with
    | ok e => exact ⟨e, rfl⟩
    | error e =>
      have hok := hvalid r hr
      rw [hr'] at hok
      cases hok
  · have hascii : sampleRecords.all fun r => (textChars (.obj r)).all (·.toNat < 128) := by
      decide +kernel
    intro r hr c hc
    have hlt := of_decide_eq_true (all_eq_true.mp (all_eq_true.mp hascii r hr) c hc)
    omega

end Codify.Harness.EventFile

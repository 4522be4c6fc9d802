import Codify.Framework.Framing
import Codify.Framework.JsonEquality
import Codify.Framework.Utf8Replace
import Mathlib.Data.List.Infix

/-! # The Event Stream of the OpenCode Server

    `parse_sse`, `_sse_tail` and `OpenCodeServerClient.event_stream` of
    adapters/opencode_bridge.py. The server sends each event as one `data:` line
    and a blank line. The client reads the bytes in whatever chunks the socket
    returns, decodes each chunk on its own, parses the buffer after each of them
    and keeps what comes behind the last blank line.

    What the client makes of the stream depends on the cuts in two ways. A cut
    inside a character damages the text. And `splitlines` takes a lone carriage
    return for a line end, so that with CRLF line ends an event is complete one
    character before its end, while `_sse_tail` still holds it back.
-/

namespace Codify.Harness.OpenCodeStream

open Codify.Framework Codify.Framework.JsonText Codify.Framework.Framing List FloatText

/-! ### Parsing a Buffer -/

/-- `str.strip` on the characters of a text. -/
def stripChars (text : List Char) : List Char :=
  ((text.dropWhile isSpace).reverse.dropWhile isSpace).reverse

/-- `value is not None`. -/
def present (value : Json) : Bool := !value.isNull

/-- The event inside the transport envelope. -/
def unwrap (record : JsonObject) : JsonObject :=
  match (record.get "payload").asObject with
  | none => record
  | some payload =>
    if present (payload.get "type") ∨ (payload.get "properties").asObject.isSome ∨
        (payload.get "data").asObject.isSome then payload
    else record

/-- The id of the event, else that of the envelope. -/
def eventId (record : JsonObject) : Json :=
  if present ((unwrap record).get "id") then (unwrap record).get "id" else record.get "id"

variable (event : JsonObject)

/-- `if value is not None: event[key] = value`. -/
def setPresent (key : String) (value : Json) : JsonObject :=
  if present value then event.set key value else event

/-- `if isinstance(value, dict): event[key] = value`. -/
def setDict (key : String) (value : Json) : JsonObject :=
  if value.asObject.isSome then event.set key value else event

/-- What a `data:` line with a dict does to the event. -/
def addRecord (event record : JsonObject) : JsonObject :=
  let source := unwrap record
  let event := setPresent event "id" (eventId record)
  let event := setPresent event "type" (source.get "type")
  let event := setDict event "properties" (source.get "properties")
  setDict event "data" (source.get "data")

/-- `event.setdefault("properties", {})`. -/
def defaultProperties : JsonObject :=
  if event.has "properties" then event else event.set "properties" (.obj [])

section Reading

variable (F : FloatText)

variable (event : JsonObject)

/-- The value of a `data:` line. -/
def readData (value : List Char) : JsonObject :=
  if value = [] then event
  else
    match loads F value with
    | some (.obj record) => addRecord event record
    | _ => defaultProperties event

def readField (key value : List Char) : JsonObject :=
  if key = "id".toList then event.set "id" (.str (String.ofList value))
  else if key = "type".toList then event.set "type" (.str (String.ofList value))
  else if key = "properties".toList then
    event.set "properties" ((loads F value).getD (.obj []))
  else event

def readLine (line : List Char) : JsonObject :=
  if "data:".toList <+: line then readData F event (stripChars (line.drop 5))
  else if ':' ∈ line then
    let key := line.takeWhile (· ≠ ':')
    readField F event (stripChars key) (stripChars (line.drop (key.length + 1)))
  else readField F event (stripChars line) []

/-- The loop of `parse_sse`: a blank line ends an event, one that is not ended is dropped. -/
def parseLines (event : JsonObject) : List (List Char) → List JsonObject
  | [] => []
  | line :: lines =>
    if line = [] then
      if event.isEmpty then parseLines event lines else event :: parseLines [] lines
    else parseLines (readLine F event line) lines

/-- `parse_sse`. -/
def parseSse (raw : List Char) : List JsonObject := parseLines F [] (splitlines raw)

/-- `_sse_tail`. -/
def sseTail (buffer : List Char) : List Char :=
  if ['\r', '\n', '\r', '\n'] <:+: buffer then lastPart ['\r', '\n', '\r', '\n'] buffer
  else if ['\n', '\n'] <:+: buffer then lastPart ['\n', '\n'] buffer
  else buffer

/-- The record `event_stream` yields for an event. -/
def streamRecord (item : JsonObject) : JsonObject :=
  let fields : JsonObject :=
    [("id", item.get "id"), ("type", item.get "type"),
      ("properties", (item.lookup "properties").getD (.obj []))]
  match (item.get "data").asObject with
  | none => fields
  | some data => fields ++ [("data", .obj data)]

/-- The loop of `event_stream` over what the buffer holds and the chunks to come; an empty
    chunk is the end of the stream. -/
def streamFrom (buffer : List Char) : List (List UInt8) → List JsonObject
  | [] => []
  | chunk :: chunks =>
    if chunk = [] then []
    else
      let received := buffer ++ decodeReplace chunk
      (parseSse F received).map streamRecord ++ streamFrom (sseTail received) chunks

/-- `OpenCodeServerClient.event_stream` on the chunks `read1` returns. -/
def eventStream (chunks : List (List UInt8)) : List JsonObject := streamFrom F [] chunks

end Reading

/-! ### What the Server Sends -/

/-- An object and the one line it is sent on. -/
structure SentFrame (F : FloatText) where
  object : JsonObject
  line : List Char
  reads : loads F line = some (.obj object)
  opens : line.head? = some '\x7b'
  closes : line.getLast? = some '\x7d'
  oneLine : '\n' ∉ line ∧ '\r' ∉ line

section Sending

variable {F : FloatText}

theorem dumps_oneLine (F : FloatText) (object : JsonObject) :
    '\n' ∉ dumps F false (.obj object) ∧ '\r' ∉ dumps F false (.obj object) := by
  have hwritten : ∀ c : Char, c.toNat < 32 → c ∉ dumps F false (.obj object) := by
    intro c hc hmem
    rcases written_dumps F (.obj object) hmem with hprint | ⟨-, -, hlarge⟩
    · simp only [isPrintable, Bool.and_eq_true, decide_eq_true_eq] at hprint
      omega
    · omega
  exact ⟨hwritten '\n' (by decide), hwritten '\r' (by decide)⟩

/-- The frame of an object as `json.dumps(…, ensure_ascii=False)` writes it. -/
def SentFrame.ofObject (F : FloatText) (object : JsonObject) (h : keysUnique (.obj object)) :
    SentFrame F where
  object := object
  line := dumps F false (.obj object)
  reads := loads_dumps false h
  opens := by
    obtain ⟨body, hbody⟩ := dumps_obj_ends (F := F) false object
    rw [hbody]
    rfl
  closes := by
    obtain ⟨body, hbody⟩ := dumps_obj_ends (F := F) false object
    rw [hbody, ← cons_append, getLast?_concat]
  oneLine := dumps_oneLine F object

/-- `data: ` and the object. -/
def SentFrame.dataLine (frame : SentFrame F) : List Char := "data: ".toList ++ frame.line

/-- A frame and the blank line that ends it. -/
def SentFrame.text (eol : LineEnd) (frame : SentFrame F) : List Char :=
  frame.dataLine ++ (eol.chars ++ eol.chars)

def streamText (eol : LineEnd) (frames : List (SentFrame F)) : List Char :=
  frames.flatMap (·.text eol)

/-- The record an object stands for: the parts of the unwrapped object. -/
def sentRecord (object : JsonObject) : JsonObject :=
  let source := unwrap object
  let fields : JsonObject :=
    [("id", eventId object), ("type", source.get "type"),
      ("properties", .obj ((source.get "properties").asObject.getD []))]
  match (source.get "data").asObject with
  | none => fields
  | some data => fields ++ [("data", .obj data)]

/-- The object has some part that an event can carry. -/
def Shown (object : JsonObject) : Prop :=
  present (eventId object) ∨ present ((unwrap object).get "type") ∨
    ((unwrap object).get "properties").asObject.isSome ∨
    ((unwrap object).get "data").asObject.isSome

instance (object : JsonObject) : Decidable (Shown object) := by unfold Shown; infer_instance

/-- A chunk ends between the last carriage return of a frame and its line feed. -/
def TornEnd (eol : LineEnd) (frames : List (SentFrame F)) (chunks : List (List UInt8)) : Prop :=
  eol = .crlf ∧ ∃ before after, chunks = before ++ after ∧
    ∃ done frame rest, frames = done ++ frame :: rest ∧
      before.flatten ++ encodeUtf8 ['\n'] = encodeUtf8 (streamText eol (done ++ [frame]))

end Sending

/-! ### Records -/

section Records

theorem eq_null_of_not_present {value : Json} (h : ¬ present value) : value = .null := by
  cases value with
  | null => rfl
  | _ => exact absurd rfl h

theorem lookup_setPresent (event : JsonObject) (key key' : String) (value : Json) :
    (setPresent event key value).lookup key' =
      if key' = key ∧ present value then some value else event.lookup key' := by
  unfold setPresent
  by_cases h : present value
  · rw [if_pos h, JsonObject.lookup_set]
    simp [h]
  · rw [if_neg h, if_neg fun hand => h hand.2]

theorem lookup_setDict (event : JsonObject) (key key' : String) (value : Json) :
    (setDict event key value).lookup key' =
      if key' = key ∧ value.asObject.isSome then some value else event.lookup key' := by
  unfold setDict
  by_cases h : value.asObject.isSome
  · rw [if_pos h, JsonObject.lookup_set]
    simp [h]
  · rw [if_neg h, if_neg fun hand => h hand.2]

theorem lookup_addRecord (object : JsonObject) (key : String) :
    (addRecord [] object).lookup key =
      if key = "data" ∧ ((unwrap object).get "data").asObject.isSome then
        some ((unwrap object).get "data")
      else if key = "properties" ∧ ((unwrap object).get "properties").asObject.isSome then
        some ((unwrap object).get "properties")
      else if key = "type" ∧ present ((unwrap object).get "type") then
        some ((unwrap object).get "type")
      else if key = "id" ∧ present (eventId object) then some (eventId object)
      else none := by
  unfold addRecord
  rw [lookup_setDict, lookup_setDict, lookup_setPresent, lookup_setPresent]
  rfl

theorem getD_present (value : Json) : (if present value then some value else none).getD .null = value := by
  split
  · rfl
  · next h => exact (eq_null_of_not_present h).symm

theorem getD_dict (value : Json) :
    (if value.asObject.isSome then some value else none).getD (.obj []) =
      .obj (value.asObject.getD []) := by
  cases value <;> rfl

theorem asObject_getD_dict (value : Json) :
    ((if value.asObject.isSome then some value else none).getD .null).asObject = value.asObject := by
  cases value <;> rfl

/-- The record yielded for the event of an object is the one the object stands for. -/
theorem streamRecord_addRecord (object : JsonObject) :
    streamRecord (addRecord [] object) = sentRecord object := by
  have hid : (addRecord [] object).get "id" = eventId object := by
    rw [JsonObject.get, lookup_addRecord]
    simpa using getD_present (eventId object)
  have htype : (addRecord [] object).get "type" = (unwrap object).get "type" := by
    rw [JsonObject.get, lookup_addRecord]
    simpa using getD_present ((unwrap object).get "type")
  have hproperties : ((addRecord [] object).lookup "properties").getD (.obj []) =
      .obj (((unwrap object).get "properties").asObject.getD []) := by
    rw [lookup_addRecord, ← getD_dict]
    simp
  have hdata : ((addRecord [] object).get "data").asObject =
      ((unwrap object).get "data").asObject := by
    rw [JsonObject.get, lookup_addRecord]
    simpa using asObject_getD_dict ((unwrap object).get "data")
  unfold streamRecord sentRecord
  rw [hid, htype, hproperties, hdata]

theorem addRecord_ne_nil {object : JsonObject} (h : Shown object) :
    (addRecord [] object).isEmpty = false := by
  have hsome : ∃ key, (addRecord [] object).lookup key ≠ none := by
    rcases h with h | h | h | h
    · exact ⟨"id", by simp [lookup_addRecord, h]⟩
    · exact ⟨"type", by simp [lookup_addRecord, h]⟩
    · exact ⟨"properties", by simp [lookup_addRecord, h]⟩
    · exact ⟨"data", by simp [lookup_addRecord, h]⟩
  obtain ⟨key, hkey⟩ := hsome
  cases hevent : addRecord [] object with
  | nil =>
    rw [hevent] at hkey
    exact absurd rfl hkey
  | cons p rest => rfl

end Records

/-! ### Complete Frames -/

section Frames

variable {F : FloatText}

variable (frame : SentFrame F)

/-- No character of the line ends a line for `splitlines`. -/
def SentFrame.Unbroken : Prop := ∀ c ∈ frame.line, isLineBreak c = false

instance (frame : SentFrame F) : Decidable frame.Unbroken :=
  decidable_of_iff (frame.line.all fun c => !isLineBreak c) (by simp [SentFrame.Unbroken])

theorem SentFrame.Unbroken.dataLine {frame : SentFrame F} (h : frame.Unbroken) :
    ∀ c ∈ frame.dataLine, isLineBreak c = false := by
  intro c hc
  rcases mem_append.mp hc with hc | hc
  · have hall : "data: ".toList.all (fun c => !isLineBreak c) = true := by decide
    simpa using all_eq_true.mp hall c hc
  · exact h c hc

theorem dataLine_ne_nil : frame.dataLine ≠ [] := cons_ne_nil _ _

theorem one_lt_length_text (eol : LineEnd) : 1 < (frame.text eol).length := by
  have hends : 1 ≤ eol.chars.length := by cases eol <;> decide
  rw [SentFrame.text, length_append, length_append]
  omega

theorem stripChars_line : stripChars (' ' :: frame.line) = frame.line := by
  obtain ⟨rest, hfirst⟩ : ∃ rest, frame.line = '\x7b' :: rest := by
    have hopens := frame.opens
    cases hline : frame.line with
    | nil => exact nomatch hline ▸ hopens
    | cons c cs =>
      rw [hline] at hopens
      exact ⟨cs, by rw [Option.some.inj hopens]⟩
  obtain ⟨start, hlast⟩ : ∃ start, frame.line = start ++ ['\x7d'] :=
    getLast?_eq_some_iff.mp frame.closes
  have hdrop : (' ' :: frame.line).dropWhile isSpace = frame.line := by
    rw [dropWhile_cons_of_pos (by decide), hfirst, dropWhile_cons_of_neg (by decide)]
  unfold stripChars
  rw [hdrop, hlast, reverse_append, reverse_singleton, singleton_append,
    dropWhile_cons_of_neg (by decide), reverse_cons, reverse_reverse]

theorem readLine_dataLine (event : JsonObject) (frame : SentFrame F) :
    readLine F event frame.dataLine = addRecord event frame.object := by
  have hprefix : "data:".toList <+: frame.dataLine := ⟨' ' :: frame.line, rfl⟩
  have hdrop : frame.dataLine.drop 5 = ' ' :: frame.line := rfl
  have hne : frame.line ≠ [] := by
    intro hnil
    exact nomatch hnil ▸ frame.opens
  rw [readLine, if_pos hprefix, hdrop, stripChars_line, readData, if_neg hne, frame.reads]

theorem splitlines_frame {frame : SentFrame F} (h : frame.Unbroken) (eol : LineEnd)
    (text : List Char) :
    splitlines (frame.text eol ++ text) = frame.dataLine :: [] :: splitlines text := by
  have hnil : ∀ c ∈ ([] : List Char), isLineBreak c = false := by simp
  have hblank := splitlines_eol hnil eol text
  have hline := splitlines_eol h.dataLine eol (eol.chars ++ text)
  rw [nil_append] at hblank
  rw [hblank] at hline
  rw [← hline, SentFrame.text]
  simp only [append_assoc]

theorem parseLines_single (line : List Char) : parseLines F [] [line] = [] := by
  unfold parseLines
  split <;> rfl

theorem parseLines_frame {frame : SentFrame F} (h : Shown frame.object)
    (lines : List (List Char)) :
    parseLines F [] (frame.dataLine :: [] :: lines) =
      addRecord [] frame.object :: parseLines F [] lines := by
  rw [parseLines, if_neg (dataLine_ne_nil frame), readLine_dataLine, parseLines, if_pos rfl,
    addRecord_ne_nil h]
  rfl

/-- A buffer of complete frames and a part of the next one: the events of the frames and
    what the part is parsed to. -/
theorem parseSse_frames {frames : List (SentFrame F)}
    (h : ∀ frame ∈ frames, frame.Unbroken ∧ Shown frame.object) (eol : LineEnd)
    (part : List Char) :
    parseSse F (streamText eol frames ++ part) =
      frames.map (addRecord [] ·.object) ++ parseSse F part := by
  induction frames with
  | nil => rfl
  | cons frame frames ih =>
    obtain ⟨hunbroken, hshown⟩ := h frame mem_cons_self
    have ih := ih fun f hf => h f (mem_cons_of_mem frame hf)
    unfold parseSse at ih ⊢
    rw [streamText, flatMap_cons, append_assoc, splitlines_frame hunbroken,
      parseLines_frame hshown, ← streamText, ih]
    rfl

/-! ### A Part of a Frame -/

theorem parseSse_eq_nil {text : List Char} (h : splitlines text = [] ∨ ∃ l, splitlines text = [l]) :
    parseSse F text = [] := by
  unfold parseSse
  rcases h with h | ⟨line, h⟩
  · rw [h]
    rfl
  · rw [h, parseLines_single]

variable {eol : LineEnd} {part missing : List Char} {pieces : List (List Char)}

theorem eol_part {w missing : List Char}
    (h : eol.chars ++ eol.chars = w ++ missing) (hmissing : missing ≠ []) :
    w = [] ∨ w = eol.chars ∨ w = ['\r'] ∨ (w = eol.chars ++ ['\r'] ∧ eol = .crlf) := by
  cases eol with
  | lf =>
    rcases w with _ | ⟨a, _ | ⟨b, w⟩⟩
    · exact .inl rfl
    · simp only [LineEnd.chars, cons_append, nil_append, List.cons.injEq] at h
      obtain ⟨rfl, -⟩ := h
      exact .inr (.inl rfl)
    · simp only [LineEnd.chars, cons_append, nil_append, List.cons.injEq,
        nil_eq, append_eq_nil_iff] at h
      exact absurd h.2.2.2 hmissing
  | crlf =>
    rcases w with _ | ⟨a, _ | ⟨b, _ | ⟨c, _ | ⟨d, w⟩⟩⟩⟩
    · exact .inl rfl
    all_goals simp only [LineEnd.chars, cons_append, nil_append, List.cons.injEq,
      nil_eq, append_eq_nil_iff] at h
    · obtain ⟨rfl, -⟩ := h
      exact .inr (.inr (.inl rfl))
    · obtain ⟨rfl, rfl, -⟩ := h
      exact .inr (.inl rfl)
    · obtain ⟨rfl, rfl, rfl, -⟩ := h
      exact .inr (.inr (.inr ⟨rfl, rfl⟩))
    · exact absurd h.2.2.2.2.2 hmissing

/-- A part of a frame holds no event, except for a frame with CRLF that lacks nothing but
    its last line feed. -/
theorem parseSse_part {frame : SentFrame F} (hunbroken : frame.Unbroken)
    (hshown : Shown frame.object)
    (hpart : frame.text eol = part ++ missing) (hmissing : missing ≠ []) :
    parseSse F part =
      if eol = .crlf ∧ part ++ ['\n'] = frame.text eol then [addRecord [] frame.object]
      else [] := by
  have hline := hunbroken.dataLine
  rcases append_eq_append_iff.mp hpart with ⟨w, rfl, hw⟩ | ⟨w, hdata, hw⟩
  · -- the data line is complete
    have hearly : (frame.dataLine ++ w) ++ ['\n'] = frame.text eol ↔
        w ++ ['\n'] = eol.chars ++ eol.chars := by
      rw [append_assoc, SentFrame.text, append_right_inj]
    rcases eol_part hw hmissing with rfl | rfl | rfl | ⟨rfl, rfl⟩
    · rw [append_nil, if_neg, parseSse_eq_nil]
      · exact (splitlines_unbroken hline).imp id fun h => ⟨_, h⟩
      · rintro ⟨rfl, h⟩
        exact absurd ((append_nil frame.dataLine ▸ hearly).mp h) (by decide)
    · rw [if_neg, parseSse_eq_nil]
      · right
        refine ⟨frame.dataLine, ?_⟩
        have h := splitlines_eol hline eol []
        rw [append_nil] at h
        exact h
      · rintro ⟨rfl, h⟩
        exact absurd (hearly.mp h) (by decide)
    · rw [if_neg, parseSse_eq_nil (.inr ⟨_, splitlines_cr hline⟩)]
      rintro ⟨rfl, h⟩
      exact absurd (hearly.mp h) (by decide)
    · rw [if_pos ⟨rfl, hearly.mpr rfl⟩, parseSse, splitlines_eol hline]
      exact parseLines_frame hshown []
  · -- the part ends inside the data line
    have hunbroken' : ∀ c ∈ part, isLineBreak c = false := fun c hc =>
      hline c (hdata ▸ mem_append_left w hc)
    rw [if_neg, parseSse_eq_nil ((splitlines_unbroken hunbroken').imp id fun h => ⟨_, h⟩)]
    rintro ⟨rfl, h⟩
    have hlen := congrArg List.length h
    have hlen' := congrArg List.length hdata
    simp only [SentFrame.text, LineEnd.chars, length_append, length_cons, length_nil] at hlen hlen'
    omega

/-! ### The Tail of a Buffer -/

/-- The separator `_sse_tail` looks for in a stream of one kind of line ends. -/
def blankLine (eol : LineEnd) : List Char := eol.chars ++ eol.chars

theorem SentFrame.not_mem_dataLine : '\n' ∉ frame.dataLine ∧ '\r' ∉ frame.dataLine := by
  constructor
  · intro h
    rcases mem_append.mp h with h | h
    · exact absurd h (by decide)
    · exact frame.oneLine.1 h
  · intro h
    rcases mem_append.mp h with h | h
    · exact absurd h (by decide)
    · exact frame.oneLine.2 h

theorem lastPart_frame (eol : LineEnd) (text : List Char) :
    lastPart (blankLine eol) (frame.text eol ++ text) = lastPart (blankLine eol) text := by
  cases eol with
  | lf => exact lastPart_append frame.not_mem_dataLine.1 text
  | crlf => exact lastPart_append frame.not_mem_dataLine.2 text

theorem lastPart_frames (frames : List (SentFrame F)) (eol : LineEnd) (text : List Char) :
    lastPart (blankLine eol) (streamText eol frames ++ text) = lastPart (blankLine eol) text := by
  induction frames with
  | nil => rfl
  | cons frame frames ih =>
    rw [streamText, flatMap_cons, append_assoc, lastPart_frame]
    exact ih

theorem not_blankLine_part {frames : List (SentFrame F)}
    (hpart : Part (·.text eol) part frames) : ¬ blankLine eol <:+: part := by
  cases frames with
  | nil =>
    obtain rfl : part = [] := hpart
    cases eol <;> decide
  | cons frame frames =>
    obtain ⟨missing, hmissing, htext⟩ := hpart
    cases eol with
    | lf => exact not_infix_of_part frame.not_mem_dataLine.1 htext hmissing
    | crlf => exact not_infix_of_part frame.not_mem_dataLine.2 htext hmissing

theorem not_two_feeds_part {frames : List (SentFrame F)}
    (hpart : Part (·.text .crlf) part frames) : ¬ ['\n', '\n'] <:+: part := by
  cases frames with
  | nil =>
    obtain rfl : part = [] := hpart
    decide
  | cons frame frames =>
    obtain ⟨missing, -, htext⟩ := hpart
    rintro ⟨x, y, rfl⟩
    have heq : frame.dataLine ++ ['\r', '\n', '\r', '\n'] =
        x ++ '\n' :: '\n' :: (y ++ missing) := by
      refine (htext.trans ?_)
      simp
    rcases append_eq_append_iff.mp heq with ⟨w, rfl, hw⟩ | ⟨w, hdata, hw⟩
    · have hfeeds : ¬ ['\n', '\n'] <:+: ['\r', '\n', '\r', '\n'] := by decide
      exact hfeeds ⟨w, y ++ missing, by simpa using hw.symm⟩
    · cases w with
      | nil => simp at hw
      | cons c w =>
        obtain ⟨rfl, -⟩ := List.cons.inj hw
        exact frame.not_mem_dataLine.1 (hdata ▸ mem_append_right x mem_cons_self)

theorem not_mem_streamText_lf (frames : List (SentFrame F)) :
    '\r' ∉ streamText .lf frames := by
  intro h
  obtain ⟨frame, -, hmem⟩ := mem_flatMap.mp h
  rcases mem_append.mp hmem with hmem | hmem
  · exact frame.not_mem_dataLine.2 hmem
  · exact absurd hmem (by decide)

theorem not_mem_part_lf {frames : List (SentFrame F)}
    (hpart : Part (·.text .lf) part frames) : '\r' ∉ part := by
  intro h
  cases frames with
  | nil =>
    obtain rfl : part = [] := hpart
    exact absurd h not_mem_nil
  | cons frame frames =>
    obtain ⟨missing, -, htext⟩ := hpart
    have htext : frame.text .lf = part ++ missing := htext
    have hmem : '\r' ∈ frame.text .lf := htext ▸ mem_append_left missing h
    rcases mem_append.mp hmem with hmem | hmem
    · exact frame.not_mem_dataLine.2 hmem
    · exact absurd hmem (by decide)

theorem blankLine_frames {frames : List (SentFrame F)} (h : frames ≠ []) (eol : LineEnd)
    (part : List Char) : blankLine eol <:+: streamText eol frames ++ part := by
  obtain ⟨frame, frames, rfl⟩ := exists_cons_of_ne_nil h
  refine ⟨frame.dataLine, streamText eol frames ++ part, ?_⟩
  simp only [streamText, SentFrame.text, blankLine, flatMap_cons, append_assoc]

theorem sseTail_eq {frames rest : List (SentFrame F)}
    (hpart : Part (·.text eol) part rest) :
    sseTail (streamText eol frames ++ part) =
      if blankLine eol <:+: streamText eol frames ++ part then
        lastPart (blankLine eol) (streamText eol frames ++ part)
      else streamText eol frames ++ part := by
  cases eol with
  | lf =>
    have hreturns : ¬ ['\r', '\n', '\r', '\n'] <:+: streamText .lf frames ++ part := by
      intro h
      rcases mem_append.mp (h.subset mem_cons_self) with h | h
      · exact not_mem_streamText_lf frames h
      · exact not_mem_part_lf hpart h
    unfold sseTail
    rw [if_neg hreturns]
    rfl
  | crlf =>
    by_cases hframes : frames = []
    · subst hframes
      unfold sseTail
      rw [streamText, flatMap_nil, nil_append, if_neg (not_two_feeds_part hpart)]
      rfl
    · have hblank := blankLine_frames hframes .crlf part
      exact (if_pos hblank).trans (if_pos hblank).symm

/-- **Tail of a buffer.** Of complete frames and a part of the next one the part is kept. -/
theorem sseTail_frames (frames rest : List (SentFrame F))
    (hpart : Part (·.text eol) part rest) : sseTail (streamText eol frames ++ part) = part := by
  have hblank := not_blankLine_part hpart
  rw [sseTail_eq hpart]
  by_cases hframes : frames = []
  · subst hframes
    rw [streamText, flatMap_nil, nil_append, if_neg hblank]
  · rw [if_pos (blankLine_frames hframes eol part), lastPart_frames, lastPart_of_not_infix hblank]

/-! ### Runs -/

def textRun (F : FloatText) (buffer : List Char) : List (List Char) → List JsonObject
  | [] => []
  | piece :: pieces =>
    (parseSse F (buffer ++ piece)).map streamRecord ++
      textRun F (sseTail (buffer ++ piece)) pieces

theorem streamFrom_encoded (buffer : List Char)
    (h : ∀ piece ∈ pieces, piece ≠ []) :
    streamFrom F buffer (pieces.map encodeUtf8) = textRun F buffer pieces := by
  induction pieces generalizing buffer with
  | nil => rfl
  | cons piece pieces ih =>
    have hne : encodeUtf8 piece ≠ [] := by
      have hpos := byteLength_pos (h piece mem_cons_self)
      exact ne_nil_of_length_pos hpos
    rw [map_cons, streamFrom, if_neg hne, textRun, decodeReplace_encode]
    exact congrArg _ (ih _ fun p hp => h p (mem_cons_of_mem piece hp))

/-- The events after one more piece: those of the frames it completes, and that of the next
    frame when the piece ends right before its last line feed. -/
theorem textRun_step {done rest : List (SentFrame F)}
    (h : ∀ frame ∈ done ++ rest, frame.Unbroken ∧ Shown frame.object)
    (hpart : Part (·.text eol) part rest) :
    ∃ early, (parseSse F (streamText eol done ++ part)).map streamRecord =
        done.map (sentRecord ·.object) ++ early ∧
      (early = [] ↔ ¬ (eol = .crlf ∧ ∃ frame more, rest = frame :: more ∧
        part ++ ['\n'] = frame.text eol)) := by
  have hdone := parseSse_frames (fun f hf => h f (mem_append_left rest hf)) eol part
  refine ⟨(parseSse F part).map streamRecord, ?_, ?_⟩
  · rw [hdone, map_append, map_map]
    simp only [Function.comp_def, streamRecord_addRecord]
  rw [map_eq_nil_iff]
  cases rest with
  | nil =>
    obtain rfl : part = [] := hpart
    refine iff_of_true rfl ?_
    rintro ⟨-, frame, more, hrest, -⟩
    exact nomatch hrest
  | cons frame rest =>
    obtain ⟨hunbroken, hshown⟩ := h frame (mem_append_right done mem_cons_self)
    obtain ⟨missing, hmissing, htext⟩ := hpart
    rw [parseSse_part hunbroken hshown htext hmissing]
    split
    · next hearly =>
      refine iff_of_false (cons_ne_nil _ _) fun hnot => hnot ?_
      exact ⟨hearly.1, frame, rest, rfl, hearly.2⟩
    · next hlate =>
      refine iff_of_true rfl ?_
      rintro ⟨heol, f, more, hcons, hend⟩
      obtain ⟨rfl, -⟩ := List.cons.inj hcons
      exact hlate ⟨heol, hend⟩

/-- What the loop yields on a stream, from any point of it: no fewer records than there are
    frames to come, and exactly theirs unless a piece ends right before the last line feed
    of a frame with CRLF. The induction is on the pieces to come. -/
theorem textRun_stream {frames : List (SentFrame F)}
    (h : ∀ frame ∈ frames, frame.Unbroken ∧ Shown frame.object)
    (hpart : Part (·.text eol) part frames)
    (hstream : part ++ pieces.flatten = streamText eol frames) :
    frames.length ≤ (textRun F part pieces).length ∧
      (textRun F part pieces = frames.map (sentRecord ·.object) ↔
        ¬ (eol = .crlf ∧ EndsShort (·.text eol) ['\n'] part frames pieces)) := by
  induction pieces generalizing part frames with
  | nil =>
    cases frames with
    | cons frame frames =>
      obtain ⟨missing, hmissing, htext⟩ := hpart
      have htext : frame.text eol = part ++ missing := htext
      have hlen := congrArg List.length hstream
      have hpos := length_pos_of_ne_nil hmissing
      simp only [streamText, flatMap_cons, htext, flatten_nil, append_nil, length_append] at hlen
      omega
    | nil =>
      refine ⟨Nat.zero_le _, iff_of_true rfl ?_⟩
      rintro ⟨-, before, after, hpieces, hbefore, -⟩
      exact hbefore (append_eq_nil_iff.mp hpieces.symm).1
  | cons piece pieces ih =>
    have harrived : (part ++ piece) ++ pieces.flatten = frames.flatMap (·.text eol) := by
      rw [append_assoc]
      exact hstream
    obtain ⟨done, rest, part', rfl, hcut, hrest, hpart'⟩ := exists_cut harrived
    have hrun := ih (fun f hf => h f (mem_append_right done hf)) hpart' hrest
    obtain ⟨hlen, hexact⟩ := hrun
    obtain ⟨early, hevents, hearly⟩ := textRun_step h hpart'
    have hshort := endsShort_cons ['\n'] pieces (cons_ne_nil _ _)
      (fun frame => one_lt_length_text frame eol) hcut hpart'
    have hout : textRun F part (piece :: pieces) =
        done.map (sentRecord ·.object) ++ (early ++ textRun F part' pieces) := by
      rw [textRun, hcut, ← streamText, hevents, sseTail_frames done rest hpart', append_assoc]
    rw [hout]
    constructor
    · simp only [length_append, length_map]
      omega
    rw [map_append, append_right_inj, hshort, and_or_left, not_or, ← hearly, ← hexact]
    constructor
    · intro heq
      have hcount := congrArg List.length heq
      simp only [length_append, length_map] at hcount
      have hnil : early = [] := eq_nil_of_length_eq_zero (by omega)
      rw [hnil, nil_append] at heq
      exact ⟨hnil, heq⟩
    · rintro ⟨rfl, heq⟩
      exact heq

/-! ### Chunks of Bytes -/

theorem encodeUtf8_flatten (pieces : List (List Char)) :
    (pieces.map encodeUtf8).flatten = encodeUtf8 pieces.flatten := by
  induction pieces with
  | nil => rfl
  | cons piece pieces ih =>
    rw [map_cons, flatten_cons, flatten_cons, encodeUtf8_append, ih]

theorem encodeUtf8_inj {a b : List Char} : encodeUtf8 a = encodeUtf8 b ↔ a = b := by
  constructor
  · intro h
    have hdecode := congrArg decodeUtf8 h
    rw [decodeUtf8_encodeUtf8, decodeUtf8_encodeUtf8] at hdecode
    exact Option.some.inj hdecode
  · rintro rfl
    rfl

theorem exists_pieces {chunks : List (List UInt8)}
    (h : ∀ chunk ∈ chunks, (decodeUtf8 chunk).isSome) :
    ∃ pieces : List (List Char), chunks = pieces.map encodeUtf8 := by
  induction chunks with
  | nil => exact ⟨[], rfl⟩
  | cons chunk chunks ih =>
    obtain ⟨pieces, hpieces⟩ := ih fun c hc => h c (mem_cons_of_mem chunk hc)
    obtain ⟨piece, hpiece⟩ := Option.isSome_iff_exists.mp (h chunk mem_cons_self)
    refine ⟨piece :: pieces, ?_⟩
    rw [map_cons, encodeUtf8_of_decodeUtf8 hpiece, hpieces]

theorem isSome_decodeUtf8_pieces (pieces : List (List Char)) :
    ∀ chunk ∈ pieces.map encodeUtf8, (decodeUtf8 chunk).isSome := by
  intro chunk hmem
  obtain ⟨piece, -, rfl⟩ := mem_map.mp hmem
  rw [decodeUtf8_encodeUtf8]
  rfl

theorem tornEnd_iff {frames : List (SentFrame F)} :
    TornEnd eol frames (pieces.map encodeUtf8) ↔
      eol = .crlf ∧ EndsShort (·.text eol) ['\n'] [] frames pieces := by
  refine and_congr_right fun _ => ?_
  constructor
  · rintro ⟨before, after, hchunks, done, frame, rest, hframes, hend⟩
    obtain ⟨pre, post, rfl, rfl, rfl⟩ := map_eq_append_iff.mp hchunks
    rw [encodeUtf8_flatten, ← encodeUtf8_append, encodeUtf8_inj] at hend
    refine ⟨pre, post, rfl, ?_, done, frame, rest, hframes, hend⟩
    rintro rfl
    have hlen := congrArg List.length hend
    have htext := one_lt_length_text frame eol
    rw [flatten_nil, nil_append, streamText, flatMap_append, flatMap_singleton,
      length_append, length_singleton] at hlen
    omega
  · rintro ⟨before, after, rfl, -, done, frame, rest, hframes, hend⟩
    refine ⟨before.map encodeUtf8, after.map encodeUtf8, map_append, done, frame, rest, hframes, ?_⟩
    rw [encodeUtf8_flatten, ← encodeUtf8_append, encodeUtf8_inj]
    exact hend

/-- **Framing.** Every split of a stream into chunks of whole characters yields the record of
    each frame once and in order, unless a chunk ends between the last carriage return of a
    frame and its line feed: that frame is yielded twice. -/
theorem eventStream_framing (eol : LineEnd) (frames : List (SentFrame F))
    (chunks : List (List UInt8))
    (hstream : chunks.flatten = encodeUtf8 (streamText eol frames))
    (hchunks : ∀ chunk ∈ chunks, chunk ≠ [])
    (hwhole : ∀ chunk ∈ chunks, (decodeUtf8 chunk).isSome)
    (hunbroken : ∀ frame ∈ frames, frame.Unbroken)
    (hshown : ∀ frame ∈ frames, Shown frame.object) :
    eventStream F chunks = frames.map (sentRecord ·.object) ↔ ¬ TornEnd eol frames chunks := by
  obtain ⟨pieces, rfl⟩ := exists_pieces hwhole
  rw [encodeUtf8_flatten, encodeUtf8_inj] at hstream
  have hpieces : ∀ piece ∈ pieces, piece ≠ [] := by
    rintro piece hmem rfl
    exact hchunks (encodeUtf8 []) (mem_map_of_mem hmem) rfl
  have hpart : Part (·.text eol) [] frames := by
    cases frames with
    | nil => rfl
    | cons frame frames => exact ⟨frame.text eol, cons_ne_nil _ _, rfl⟩
  have hboth : ∀ frame ∈ frames, frame.Unbroken ∧ Shown frame.object := fun frame hmem =>
    ⟨hunbroken frame hmem, hshown frame hmem⟩
  obtain ⟨-, hrun⟩ := textRun_stream hboth hpart hstream
  rw [eventStream, streamFrom_encoded [] hpieces, tornEnd_iff]
  exact hrun

end Frames

/-! ### Concrete Streams -/

/-- `{"type": "session.idle"}`. -/
def idle : JsonObject := [("type", .str "session.idle")]

/-- The frame of `idle`. -/
def idleFrame : SentFrame fraction := SentFrame.ofObject fraction idle rfl

/-- Two frames with LF, cut in the first blank line. -/
theorem eventStream_framing_idle :
    eventStream fraction [encodeUtf8 (idleFrame.dataLine ++ ['\n']),
          encodeUtf8 ('\n' :: (idleFrame.dataLine ++ ['\n', '\n']))] =
      [sentRecord idle, sentRecord idle] ↔
    ¬ TornEnd .lf [idleFrame, idleFrame] [encodeUtf8 (idleFrame.dataLine ++ ['\n']),
          encodeUtf8 ('\n' :: (idleFrame.dataLine ++ ['\n', '\n']))] :=
  eventStream_framing .lf [idleFrame, idleFrame] _ (by decide +kernel) (by decide +kernel)
    (isSome_decodeUtf8_pieces [_, _]) (by decide +kernel) (by decide +kernel)

/-- A cut before the last line feed of a frame with CRLF: the record comes twice. -/
theorem eventStream_twice :
    ∃ chunks : List (List UInt8),
      chunks.flatten = encodeUtf8 (streamText .crlf [idleFrame]) ∧ (∀ chunk ∈ chunks, chunk ≠ []) ∧
        eventStream fraction chunks = [sentRecord idle, sentRecord idle] ∧
        eventStream fraction chunks ≠ [idleFrame].map (sentRecord ·.object) := by
  refine ⟨[encodeUtf8 (idleFrame.dataLine ++ ['\r', '\n', '\r']), encodeUtf8 ['\n']],
    by decide +kernel, by decide +kernel, by decide +kernel, by decide +kernel⟩

/-- The frame of `{"type": text}`. -/
def typeFrame (text : String) : SentFrame fraction :=
  SentFrame.ofObject fraction [("type", .str text)] rfl

-- a line separator in a string breaks the line
example :
    eventStream fraction
        [encodeUtf8 (streamText .lf [typeFrame (String.singleton (Char.ofNat 0x2028))])] ≠
      [sentRecord (typeFrame (String.singleton (Char.ofNat 0x2028))).object] := by
  decide +kernel

-- a cut inside a character damages it
example :
    eventStream fraction
        [(encodeUtf8 (streamText .lf [typeFrame "é"])).take 16,
          (encodeUtf8 (streamText .lf [typeFrame "é"])).drop 16] ≠
      [sentRecord (typeFrame "é").object] := by
  decide +kernel

end Codify.Harness.OpenCodeStream

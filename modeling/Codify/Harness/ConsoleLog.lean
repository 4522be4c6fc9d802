import Codify.Framework.Utf8Replace
import Codify.Harness.EventStream

/-! # Chunks of the Console Log

    The backend polls console.log while the container runs, and reads the rest
    from the archive at the end (`tail_console_log`,
    `backfill_console_log_from_archive` of app/core/worker_event_projector.py,
    `persist_raw_log_snapshot` of app/core/task_log_payloads.py). What is new
    since the cursor becomes one chunk, decoded on its own with U+FFFD for what
    is no character, and the cursor advances by the bytes.

    A poll that ends inside a character splits it over two chunks, and neither
    has it. The module shows that this is the only loss: the chunks are the text
    of the file exactly when no poll that reads something ends inside a
    character.
-/

namespace Codify.Harness.ConsoleLog

open Codify.Framework Codify.Harness List
open Codify.Harness.EventStream (Cursor)

/-! ### The Readers -/

/-- One row of `task_raw_log_chunks`. -/
structure RawLogChunk where
  sequenceNo : Int
  encoding : String
  content : List UInt8
  charCount : Nat
  byteCount : Nat
  deriving DecidableEq, Repr

/-- The chunks and the cursor of the stream `console_log`. -/
structure State where
  chunks : List RawLogChunk := []
  cursor : Cursor := {}
  deriving DecidableEq, Repr

/-- The row of `append_raw_log_chunk`. -/
def rawLogChunk (sequenceNo : Int) (text : List Char) : RawLogChunk :=
  let content := encodeUtf8 text
  { sequenceNo
    encoding := "identity"
    content
    charCount := text.length
    byteCount := content.length }

variable (file : List UInt8) (bytes : List UInt8) (s : State)

/-- `append_raw_log_chunk` with the next sequence number, and the cursor behind it. -/
def appendChunk (text : List Char) (lastOffset : Nat) : State :=
  { chunks := s.chunks ++ [rawLogChunk (s.cursor.lastSequenceNo + 1) text]
    cursor := { s.cursor with
      lastOffset
      lastSequenceNo := s.cursor.lastSequenceNo + 1 } }

/-- `tail_console_log`; `tail -c` prints the observed file from the cursor on. -/
def tailConsoleLog (observed : List UInt8) (s : State) : State :=
  let output := observed.drop s.cursor.lastOffset
  if output.isEmpty then s
  else
    let text := decodeReplace output
    if text.isEmpty then s
    else appendChunk s text (s.cursor.lastOffset + output.length)

/-- `persist_raw_log_snapshot`. -/
def persistRawLogSnapshot (content : List UInt8) (s : State) : State :=
  if content.isEmpty then s
  else if content.length ≤ s.cursor.lastOffset then s
  else
    let text := decodeReplace (content.drop s.cursor.lastOffset)
    if text.isEmpty then s
    else appendChunk s text content.length

/-- `backfill_console_log_from_archive`, on the console.log of the archive. -/
def backfillConsoleLogFromArchive (fullBytes : List UInt8) (s : State) : State :=
  if fullBytes.length ≤ s.cursor.lastOffset then s
  else
    appendChunk s (decodeReplace (fullBytes.drop s.cursor.lastOffset)) fullBytes.length

/-- A read of the file before the archive: how many of its bytes were there. -/
inductive Poll where
  | tail (length : Nat)
  | snapshot (length : Nat)
  deriving DecidableEq, Repr

def Poll.length : Poll → Nat
  | .tail n => n
  | .snapshot n => n

def poll : Poll → State
  | .tail n => tailConsoleLog (file.take n) s
  | .snapshot n => persistRawLogSnapshot (file.take n) s

/-- The polls of a run, and the backfill behind them. -/
def run (polls : List Poll) : State :=
  backfillConsoleLogFromArchive file (polls.foldl (poll file) s)

/-! ### What the Chunks Say -/

def rawLog : List UInt8 := s.chunks.flatMap (·.content)

def Contiguous : Prop :=
  s.chunks.map (·.sequenceNo) = (List.range s.chunks.length).map fun i : Nat => (i : Int) + 1

/-- The chunks are numbered from one on and together are the text. -/
def Lossless (text : List Char) (s : State) : Prop :=
  Contiguous s ∧ decodeUtf8 (rawLog s) = some text

/-- No poll that reads something from the offset on ends inside a character. -/
def WholeCuts (text : List Char) : Nat → List Poll → Prop
  | _, [] => True
  | offset, p :: polls =>
    let seen := min p.length (byteLength text)
    (offset < seen → Boundary text seen) ∧ WholeCuts text (max offset seen) polls

/-! ### One Read -/

/-- What all three readers do: they append what is new as one chunk. -/
def consume : State :=
  if bytes.length ≤ s.cursor.lastOffset then s
  else appendChunk s (decodeReplace (bytes.drop s.cursor.lastOffset)) bytes.length

theorem tail_eq_consume : tailConsoleLog bytes s = consume bytes s := by
  unfold tailConsoleLog consume
  by_cases hle : bytes.length ≤ s.cursor.lastOffset
  · simp [hle, drop_of_length_le]
  · have hne : bytes.drop s.cursor.lastOffset ≠ [] := by
      rw [ne_eq, drop_eq_nil_iff]
      exact hle
    have htext := decodeReplace_ne_nil hne
    have hlength : s.cursor.lastOffset + (bytes.length - s.cursor.lastOffset) = bytes.length := by
      omega
    simp only [List.isEmpty_iff, hne, htext, hle, if_false, length_drop, hlength]

theorem snapshot_eq_consume : persistRawLogSnapshot bytes s = consume bytes s := by
  unfold persistRawLogSnapshot consume
  by_cases hempty : bytes = []
  · simp [hempty]
  · by_cases hle : bytes.length ≤ s.cursor.lastOffset
    · simp [hle]
    · have hne : bytes.drop s.cursor.lastOffset ≠ [] := by
        rw [ne_eq, drop_eq_nil_iff]
        exact hle
      have htext := decodeReplace_ne_nil hne
      simp only [List.isEmpty_iff, hempty, htext, hle, if_false]

theorem poll_eq_consume (p : Poll) : poll file s p = consume (file.take p.length) s := by
  cases p with
  | tail n => exact tail_eq_consume _ s
  | snapshot n => exact snapshot_eq_consume _ s

theorem consume_lastOffset :
    (consume bytes s).cursor.lastOffset = max s.cursor.lastOffset bytes.length := by
  unfold consume
  split
  · next hle => exact (Nat.max_eq_left hle).symm
  next hlt =>
  show bytes.length = max s.cursor.lastOffset bytes.length
  omega

/-! ### Sequence Numbers -/

/-- The chunks are these texts, numbered in order. -/
structure Stored (s : State) (texts : List (List Char)) : Prop where
  chunks : s.chunks = texts.mapIdx fun i text => rawLogChunk ((i : Int) + 1) text
  lastSequenceNo : s.cursor.lastSequenceNo = texts.length

variable {s : State} {texts : List (List Char)}

theorem Stored.append (h : Stored s texts)
    (text : List Char) (lastOffset : Nat) :
    Stored (appendChunk s text lastOffset) (texts ++ [text]) where
  chunks := by
    show s.chunks ++ [rawLogChunk (s.cursor.lastSequenceNo + 1) text] = _
    rw [mapIdx_append, ← h.chunks, h.lastSequenceNo]
    simp
  lastSequenceNo := by
    show s.cursor.lastSequenceNo + 1 = _
    rw [h.lastSequenceNo, length_append]
    simp

theorem stored_nil : Stored {} [] := ⟨rfl, rfl⟩

theorem Stored.consume (h : Stored s texts)
    (bytes : List UInt8) :
    Stored (consume bytes s) (texts ++
      if bytes.length ≤ s.cursor.lastOffset then []
      else [decodeReplace (bytes.drop s.cursor.lastOffset)]) := by
  unfold ConsoleLog.consume
  split
  · simpa using h
  · exact h.append _ _

theorem Stored.contiguous (h : Stored s texts) :
    Contiguous s := by
  unfold Contiguous
  rw [h.chunks, length_mapIdx]
  apply ext_getElem
  · simp
  · intro i h₁ h₂
    simp [rawLogChunk]

theorem Stored.rawLog (h : Stored s texts) :
    rawLog s = encodeUtf8 texts.flatten := by
  have hencode : ∀ ts : List (List Char), encodeUtf8 ts.flatten = ts.flatMap encodeUtf8 := by
    intro ts
    induction ts with
    | nil => rfl
    | cons t ts ih => rw [flatten_cons, encodeUtf8_append, ih, flatMap_cons]
  unfold ConsoleLog.rawLog
  rw [h.chunks, hencode]
  have hmap : ∀ (ts : List (List Char)) (f : Nat → List Char → RawLogChunk),
      (∀ i t, (f i t).content = encodeUtf8 t) →
      (ts.mapIdx f).flatMap (·.content) = ts.flatMap encodeUtf8 := by
    intro ts
    induction ts with
    | nil => intro f _; rfl
    | cons t ts ih =>
      intro f hf
      rw [mapIdx_cons, flatMap_cons, flatMap_cons, hf, ih _ fun i t => hf (i + 1) t]
  exact hmap texts _ fun _ _ => rfl

/-! ### Counting Characters -/

section Counting

variable {text : List Char}

theorem length_take_encode (n : Nat) :
    ((encodeUtf8 text).take n).length = min n (byteLength text) := length_take

/-- One read of a file: its chunk has at least the characters that start in the bytes it reads,
    and no more exactly when it starts at a boundary. -/
theorem length_read (text : List Char) {offset seen : Nat} (hlt : offset < seen)
    (hle : seen ≤ byteLength text) :
    charStarts ((encodeUtf8 text).drop offset) ≤
        (decodeReplace (((encodeUtf8 text).take seen).drop offset)).length +
          charStarts ((encodeUtf8 text).drop seen) ∧
      (charStarts ((encodeUtf8 text).drop offset) =
          (decodeReplace (((encodeUtf8 text).take seen).drop offset)).length +
            charStarts ((encodeUtf8 text).drop seen) → Boundary text offset) := by
  obtain ⟨rest, b, hdrop, hsuffix, hrest⟩ := drop_encodeUtf8 text offset
  have hpiece : ((encodeUtf8 text).take seen).drop offset =
      (rest ++ encodeUtf8 b).take (seen - offset) := by
    rw [drop_take, hdrop]
  have hback : (encodeUtf8 text).drop seen = (rest ++ encodeUtf8 b).drop (seen - offset) := by
    rw [← hdrop, drop_drop]
    congr 1
    omega
  have hlength := length_decodeReplace_piece b (seen - offset) hrest
  have hsplit : charStarts ((encodeUtf8 text).drop offset) =
      charStarts ((rest ++ encodeUtf8 b).take (seen - offset)) +
        charStarts ((rest ++ encodeUtf8 b).drop (seen - offset)) := by
    rw [← charStarts_append, take_append_drop, hdrop]
  rw [hpiece, hback, hlength, hsplit]
  refine ⟨by omega, ?_⟩
  intro heq
  have hnil : rest = [] := by
    have hzero : min (seen - offset) rest.length = 0 := by omega
    exact eq_nil_of_length_eq_zero (by omega)
  rw [hnil, nil_append] at hdrop
  exact boundary_of_drop (by omega) hdrop hsuffix

theorem charStarts_drop_length (text : List Char) {n : Nat} (h : byteLength text ≤ n) :
    charStarts ((encodeUtf8 text).drop n) = 0 := by
  rw [drop_of_length_le h]
  rfl

/-- The texts of a run: as many characters as start in what was left of the file, and no more
    exactly when every read starts at a boundary. -/
theorem run_length (text : List Char) {s : State} {texts : List (List Char)} (hs : Stored s texts)
    (hoffset : s.cursor.lastOffset ≤ byteLength text) (polls : List Poll) :
    ∃ texts', Stored (run (encodeUtf8 text) s polls) texts' ∧
      texts.flatten.length + charStarts ((encodeUtf8 text).drop s.cursor.lastOffset) ≤
        texts'.flatten.length ∧
      (texts.flatten.length + charStarts ((encodeUtf8 text).drop s.cursor.lastOffset) =
          texts'.flatten.length →
        Boundary text s.cursor.lastOffset ∧ WholeCuts text s.cursor.lastOffset polls) := by
  induction polls generalizing s texts with
  | nil =>
    have hstored := hs.consume (encodeUtf8 text)
    refine ⟨_, hstored, ?_⟩
    by_cases hend : (encodeUtf8 text).length ≤ s.cursor.lastOffset
    · have hzero := charStarts_drop_length text hend
      have hlast : s.cursor.lastOffset = byteLength text := Nat.le_antisymm hoffset hend
      rw [if_pos hend, append_nil]
      refine ⟨by omega, ?_⟩
      intro _
      exact ⟨hlast ▸ boundary_length text, trivial⟩
    · have hlt : s.cursor.lastOffset < byteLength text := by
        have : byteLength text = (encodeUtf8 text).length := rfl
        omega
      obtain ⟨hle, heq⟩ := length_read text hlt (Nat.le_refl _)
      have hall : (encodeUtf8 text).take (byteLength text) = encodeUtf8 text := take_length
      rw [charStarts_drop_length text (Nat.le_refl _), hall] at hle heq
      rw [if_neg hend, flatten_append, length_append]
      simp only [flatten_cons, flatten_nil, append_nil]
      refine ⟨by omega, ?_⟩
      intro htotal
      exact ⟨heq (by omega), trivial⟩
  | cons p polls ih =>
    set seen := min p.length (byteLength text) with hseen
    have hlength : ((encodeUtf8 text).take p.length).length = seen := length_take_encode p.length
    have hstored := hs.consume ((encodeUtf8 text).take p.length)
    have hnext : (poll (encodeUtf8 text) s p).cursor.lastOffset =
        max s.cursor.lastOffset seen := by
      rw [poll_eq_consume, consume_lastOffset, hlength]
    rw [← poll_eq_consume, hlength] at hstored
    obtain ⟨texts', hfinal, hle, heq⟩ := ih hstored (by omega)
    refine ⟨texts', hfinal, ?_⟩
    rw [hnext] at hle heq
    by_cases hread : seen ≤ s.cursor.lastOffset
    · rw [if_pos hread, append_nil, Nat.max_eq_left hread] at hle heq
      refine ⟨hle, ?_⟩
      intro htotal
      obtain ⟨hbound, hwhole⟩ := heq htotal
      refine ⟨hbound, fun hlt => absurd hlt (by omega), ?_⟩
      show WholeCuts text (max s.cursor.lastOffset seen) polls
      rw [Nat.max_eq_left hread]
      exact hwhole
    · have hlt : s.cursor.lastOffset < seen := by omega
      have htake : (encodeUtf8 text).take p.length = (encodeUtf8 text).take seen := by
        rw [hseen, ← take_take]
        congr 1
        exact (take_of_length_le (Nat.le_refl _)).symm
      obtain ⟨hone, honeEq⟩ := length_read text hlt (by omega)
      rw [if_neg hread, Nat.max_eq_right (by omega), flatten_append, length_append,
        htake] at hle heq
      simp only [flatten_cons, flatten_nil, append_nil] at hle heq
      refine ⟨by omega, ?_⟩
      intro htotal
      obtain ⟨hbound, hwhole⟩ := heq (by omega)
      refine ⟨honeEq (by omega), fun _ => hbound, ?_⟩
      show WholeCuts text (max s.cursor.lastOffset seen) polls
      rw [Nat.max_eq_right (by omega)]
      exact hwhole

end Counting

/-! ### The Condition -/

section Whole

variable {text : List Char}

theorem front_of_front {a b a' b' : List Char} (h : a ++ b = a' ++ b')
    (hlt : byteLength a < byteLength a') : ∃ m, a' = a ++ m := by
  have ha : a <+: a' ++ b' := ⟨b, h⟩
  rcases prefix_or_prefix_of_prefix ha (prefix_append a' b') with hfront | hback
  · obtain ⟨m, hm⟩ := hfront
    exact ⟨m, hm.symm⟩
  · obtain ⟨m, rfl⟩ := hback
    rw [byteLength_append] at hlt
    omega

theorem drop_take_front {a m b : List Char} :
    ((encodeUtf8 (a ++ m ++ b)).take (byteLength (a ++ m))).drop (byteLength a) =
      encodeUtf8 m := by
  have htake : (encodeUtf8 (a ++ m) ++ encodeUtf8 b).take (byteLength (a ++ m)) =
      encodeUtf8 (a ++ m) := take_left
  rw [encodeUtf8_append, htake, encodeUtf8_append]
  exact drop_left

/-- Whole cuts lose nothing: the texts of a run that starts at a boundary complete the text. -/
theorem run_whole (text : List Char) {s : State} {texts : List (List Char)} {b : List Char}
    (hs : Stored s texts) (htext : text = texts.flatten ++ b)
    (hoffset : byteLength texts.flatten = s.cursor.lastOffset)
    (polls : List Poll) (hwhole : WholeCuts text s.cursor.lastOffset polls) :
    ∃ texts', Stored (run (encodeUtf8 text) s polls) texts' ∧ texts'.flatten = text := by
  induction polls generalizing s texts b with
  | nil =>
    refine ⟨_, hs.consume (encodeUtf8 text), ?_⟩
    by_cases hend : (encodeUtf8 text).length ≤ s.cursor.lastOffset
    · have hb : b = [] := by
        by_contra hne
        have hpos := byteLength_pos hne
        have htotal : (encodeUtf8 text).length = byteLength texts.flatten + byteLength b := by
          rw [htext]
          exact byteLength_append _ _
        omega
      rw [if_pos hend, append_nil, htext, hb, append_nil]
    · have hdrop : (encodeUtf8 text).drop s.cursor.lastOffset = encodeUtf8 b := by
        rw [htext, encodeUtf8_append, ← hoffset]
        exact drop_left
      rw [if_neg hend, hdrop, decodeReplace_encode, flatten_append, htext]
      simp
  | cons p polls ih =>
    set seen := min p.length (byteLength text) with hseen
    obtain ⟨hcut, hwhole⟩ := hwhole
    have hlength : ((encodeUtf8 text).take p.length).length = seen := length_take_encode p.length
    have hstored := hs.consume ((encodeUtf8 text).take p.length)
    have hnext : (poll (encodeUtf8 text) s p).cursor.lastOffset =
        max s.cursor.lastOffset seen := by
      rw [poll_eq_consume, consume_lastOffset, hlength]
    rw [← poll_eq_consume, hlength] at hstored
    by_cases hread : seen ≤ s.cursor.lastOffset
    · rw [if_pos hread, append_nil] at hstored
      refine ih hstored htext ?_ ?_
      · rw [hnext, Nat.max_eq_left hread]
        exact hoffset
      · rw [hnext]
        exact hwhole
    · obtain ⟨a', b', hfront, ha'⟩ := hcut (by omega)
      obtain ⟨m, hm⟩ := front_of_front (htext.symm.trans hfront) (by omega)
      rw [← hseen] at ha'
      have hchunk : ((encodeUtf8 text).take p.length).drop s.cursor.lastOffset = encodeUtf8 m := by
        have htake : (encodeUtf8 text).take p.length = (encodeUtf8 text).take seen := by
          rw [hseen, ← take_take]
          congr 1
          exact take_length.symm
        rw [htake, ← ha', ← hoffset, hm, hfront, hm]
        exact drop_take_front
      rw [if_neg hread, hchunk, decodeReplace_encode] at hstored
      have hflat : (texts ++ [m]).flatten = a' := by
        rw [hm, flatten_append]
        simp
      refine ih hstored (b := b') (by rw [hflat, hfront]) ?_ ?_
      · rw [hnext, hflat, ha', Nat.max_eq_right (by omega)]
      · rw [hnext]
        exact hwhole

end Whole

/-- The chunks of a run are numbered in order and together are the text of the file exactly when
    no poll that reads something ends inside a character. -/
theorem console_log_lossless_iff (text : List Char) (polls : List Poll) :
    Lossless text (run (encodeUtf8 text) {} polls) ↔ WholeCuts text 0 polls := by
  constructor
  · intro hlossless
    obtain ⟨texts, hstored, -, heq⟩ := run_length text stored_nil (Nat.zero_le _) polls
    have hdecode := hlossless.2
    rw [hstored.rawLog, decodeUtf8_encodeUtf8] at hdecode
    refine (heq ?_).2
    show 0 + charStarts (encodeUtf8 text) = texts.flatten.length
    rw [charStarts_encode, Option.some.inj hdecode, Nat.zero_add]
  · intro hwhole
    obtain ⟨texts, hstored, htexts⟩ := run_whole text stored_nil rfl rfl polls hwhole
    refine ⟨hstored.contiguous, ?_⟩
    rw [hstored.rawLog, htexts, decodeUtf8_encodeUtf8]

/-- A poll that sees one of the two bytes of "é": the log has two replacement characters. -/
theorem torn_character_lost :
    ¬ ∀ (text : List Char) (polls : List Poll), Lossless text (run (encodeUtf8 text) {} polls) := by
  intro hclaim
  have hlossless := (hclaim ['é'] [.tail 1]).2
  have hstored : rawLog (run (encodeUtf8 ['é']) {} [.tail 1]) =
      encodeUtf8 [replacementChar, replacementChar] := by
    decide +kernel
  rw [hstored, decodeUtf8_encodeUtf8] at hlossless
  revert hlossless
  decide

end Codify.Harness.ConsoleLog

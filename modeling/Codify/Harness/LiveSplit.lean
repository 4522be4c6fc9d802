import Codify.Harness.EventTail

/-! # Live Tool Batches

    `_split_live_tool_start_parts` cuts a live batch behind each start of a tool that is
    completed later in the batch, so that the start is committed before its completion is read.
    It takes every piece of `splitlines` in front of the last line feed for a complete line,
    although a record is only complete at a line feed (`iter_complete_jsonl_records`): a start
    that ends in a carriage return is cut off where no record ends.

    * **Scan**: `scanToolStarts_spec`, by induction on the records.
    * **One cut**: `splitLiveToolStartParts_cases`.
    * **Result**: `live_tool_partition`, by induction on the length of the batch.
-/

namespace Codify.Harness.EventTail

open Codify.Framework Codify.Framework.JsonText Codify.Harness Codify.Harness.EventStream List Option

section LiveSplit

variable {F : FloatText} {py : Python}

/-! ### Records of a Part -/

def lineRecord (F : FloatText) (line : List Char) : Option JsonObject :=
  (decodeEventLine F (rstripNewline line)).bind Json.asObject

/-- The tool that a record of this type is about. -/
def toolOf (py : Python) (eventType : String) (record : Option JsonObject) : Option String :=
  record.bind fun r => if (r.get "type").asString = some eventType then toolEventId py r else none

/-- The two records start and complete one tool, as `_tool_event_id` names it. -/
def Pairs (py : Python) (earlier later : Option JsonObject) : Prop :=
  ∃ toolId, toolOf py "tool.started" earlier = some toolId ∧
    toolOf py "tool.completed" later = some toolId

/-- `payload["tool_id"]`. -/
def toolIdValue (record : JsonObject) : Json :=
  ((record.get "payload").asObject.getD []).get "tool_id"

/-- The second record completes the tool that the first one starts: both have the same `tool_id`,
    and it is not blank. -/
def Completes (py : Python) (earlier later : Option JsonObject) : Prop :=
  ∃ started ∈ earlier, ∃ completed ∈ later,
    (started.get "type").asString = some "tool.started" ∧
    (completed.get "type").asString = some "tool.completed" ∧
    toolIdValue started = toolIdValue completed ∧ toolIdValue started ≠ .null ∧
    blank ((toolIdValue started).asString.getD (py.str (toolIdValue started))) = false

theorem strip_ne_empty {s : String} (h : blank s = false) : strip s ≠ "" := by
  intro hempty
  have hnil := congrArg String.toList hempty
  simp only [strip, String.toList_ofList, String.toList_empty, reverse_eq_nil_iff,
    dropWhile_eq_nil_iff, mem_reverse] at hnil
  have hall : ∀ c ∈ s.toList, isSpace c := by
    intro c hc
    rw [← takeWhile_append_dropWhile (p := isSpace) (l := s.toList)] at hc
    rcases mem_append.mp hc with hc | hc
    · exact mem_takeWhile_imp hc
    · exact hnil c hc
  rw [blank, all_eq_true.mpr hall] at h
  cases h

theorem toolEventId_eq {record : JsonObject} (hnull : toolIdValue record ≠ .null)
    (hblank : blank ((toolIdValue record).asString.getD (py.str (toolIdValue record))) = false) :
    toolEventId py record =
      some (strip ((toolIdValue record).asString.getD (py.str (toolIdValue record)))) := by
  have hne := strip_ne_empty hblank
  unfold toolIdValue at hnull hne ⊢
  unfold toolEventId
  cases hpayload : (record.get "payload").asObject with
  | none =>
    rw [hpayload] at hnull
    exact absurd rfl hnull
  | some payload =>
    rw [hpayload, getD_some] at hnull hne
    rw [getD_some]
    dsimp only
    generalize payload.get "tool_id" = value at hnull hne ⊢
    cases value with
    | null => exact absurd rfl hnull
    | _ => exact if_neg hne

theorem Completes.pairs {earlier later : Option JsonObject} (h : Completes py earlier later) :
    Pairs py earlier later := by
  obtain ⟨started, rfl, completed, rfl, hstarted, hcompleted, hsame, hnull, hblank⟩ := h
  refine ⟨strip ((toolIdValue started).asString.getD (py.str (toolIdValue started))), ?_, ?_⟩
  · rw [toolOf, bind_some, if_pos hstarted]
    exact toolEventId_eq hnull hblank
  · rw [toolOf, bind_some, if_pos hcompleted]
    rw [hsame] at hnull hblank ⊢
    exact toolEventId_eq hnull hblank

/-- A first element that is related to a later one. -/
structure FirstStart {α : Type} (R : α → α → Prop) (front : List α) (a : α) (behind : List α) :
    Prop where
  apart : front.Pairwise fun x y => ¬ R x y
  free : ∀ x ∈ front, ∀ y ∈ a :: behind, ¬ R x y
  pairs : ∃ y ∈ behind, R a y

/-- Where only the first start counts, what is asked of the earlier of two related elements is
    asked of this one and of those behind it. -/
theorem FirstStart.pairwise_iff {α : Type} {R : α → α → Prop} {front behind : List α} {a : α}
    (h : FirstStart R front a behind) (P : α → Prop) :
    (front ++ a :: behind).Pairwise (fun x y => R x y → P x) ↔
      P a ∧ behind.Pairwise fun x y => R x y → P x := by
  rw [pairwise_append, pairwise_cons]
  constructor
  · rintro ⟨-, ⟨hfirst, hbehind⟩, -⟩
    obtain ⟨y, hy, hrelated⟩ := h.pairs
    exact ⟨hfirst y hy hrelated, hbehind⟩
  · rintro ⟨ha, hbehind⟩
    refine ⟨h.apart.imp fun hnot hrelated => absurd hrelated hnot, ⟨fun _ _ _ => ha, hbehind⟩, ?_⟩
    exact fun x hx y hy hrelated => absurd hrelated (h.free x hx y hy)

/-! ### The Scan -/

/-- The completed tools, and the first start of a tool that is completed behind it. -/
theorem scanToolStarts_spec (index : Nat) (records : List (Option JsonObject)) :
    (∀ toolId, toolId ∈ (scanToolStarts py index records).1 ↔
      ∃ record ∈ records, toolOf py "tool.completed" record = some toolId) ∧
    ((scanToolStarts py index records).2 = none → records.Pairwise fun x y => ¬ Pairs py x y) ∧
    ∀ i, (scanToolStarts py index records).2 = some i →
      ∃ front record behind, records = front ++ record :: behind ∧ i = index + front.length ∧
        FirstStart (Pairs py) front record behind := by
  induction records generalizing index with
  | nil => simp [scanToolStarts]
  | cons record rest ih =>
    obtain ⟨hdone, hnone, hsome⟩ := ih (index + 1)
    -- a record whose tool is not completed behind it is passed over
    have hkeep : (∀ later ∈ rest, ¬ Pairs py record later) →
        ((scanToolStarts py (index + 1) rest).2 = none →
          (record :: rest).Pairwise fun x y => ¬ Pairs py x y) ∧
        ∀ i, (scanToolStarts py (index + 1) rest).2 = some i →
          ∃ front record' behind, record :: rest = front ++ record' :: behind ∧
            i = index + front.length ∧ FirstStart (Pairs py) front record' behind := by
      intro hfree
      refine ⟨fun h => pairwise_cons.mpr ⟨hfree, hnone h⟩, ?_⟩
      intro i hi
      obtain ⟨front, record', behind, rfl, rfl, hfirst⟩ := hsome i hi
      refine ⟨record :: front, record', behind, rfl, by rw [length_cons]; omega, ?_, ?_, hfirst.pairs⟩
      · exact pairwise_cons.mpr ⟨fun y hy => hfree y (mem_append_left _ hy), hfirst.apart⟩
      · intro x hx y hy
        rcases mem_cons.mp hx with rfl | hx
        · exact hfree y (mem_append_right _ hy)
        · exact hfirst.free x hx y hy
    cases record with
    | none =>
      refine ⟨?_, hkeep ?_⟩
      · intro toolId
        rw [exists_mem_cons_iff]
        simpa [scanToolStarts, toolOf] using hdone toolId
      · rintro later - ⟨toolId, hstart, -⟩
        cases hstart
    | some record =>
      simp only [scanToolStarts]
      by_cases hstart : (record.get "type").asString = some "tool.started" ∧
          (toolEventId py record).any (scanToolStarts py (index + 1) rest).1.contains
      · rw [if_pos hstart]
        have hcompletes : toolOf py "tool.completed" (some record) = none := by
          simp [toolOf, hstart.1]
        refine ⟨?_, fun h => (by cases h), ?_⟩
        · intro toolId
          rw [exists_mem_cons_iff, hcompletes]
          simpa using hdone toolId
        · intro i hi
          cases hi
          refine ⟨[], some record, rest, rfl, rfl, .nil, by simp, ?_⟩
          obtain ⟨toolId, hid, hcontains⟩ := (Option.any_eq_true _ _).mp hstart.2
          obtain ⟨later, hlater, hcompleted⟩ := (hdone toolId).mp (contains_iff_mem.mp hcontains)
          refine ⟨later, hlater, toolId, ?_, hcompleted⟩
          rw [toolOf, bind_some, if_pos hstart.1]
          exact hid
      rw [if_neg hstart]
      have hfree : ∀ later ∈ rest, ¬ Pairs py (some record) later := by
        rintro later hlater ⟨toolId, hid, hcompletes⟩
        apply hstart
        obtain ⟨htype, hid⟩ := ite_none_right_eq_some.mp hid
        refine ⟨htype, ?_⟩
        rw [hid, any_some]
        exact contains_iff_mem.mpr ((hdone toolId).mpr ⟨later, hlater, hcompletes⟩)
      by_cases hcompleted : (record.get "type").asString = some "tool.completed"
      · rw [if_pos hcompleted]
        refine ⟨?_, hkeep hfree⟩
        intro toolId
        have hown : toolOf py "tool.completed" (some record) = toolEventId py record := by
          simp [toolOf, hcompleted]
        rw [exists_mem_cons_iff, hown, mem_append, hdone toolId, mem_toList]
      · rw [if_neg hcompleted]
        refine ⟨?_, hkeep hfree⟩
        intro toolId
        have hown : toolOf py "tool.completed" (some record) = none := by
          simp [toolOf, hcompleted]
        rw [exists_mem_cons_iff, hown]
        simpa using hdone toolId

/-! ### One Cut -/

theorem completeLines_le (lines : List (List Char)) : completeLines lines <+: lines := by
  unfold completeLines
  split
  · exact prefix_rfl
  · split
    · exact prefix_rfl
    · exact dropLast_prefix lines

theorem completeLines_drop (lines : List (List Char)) (n : Nat) :
    completeLines (lines.drop n) = (completeLines lines).drop n := by
  by_cases hlen : n < lines.length
  · have hlast : (lines.drop n).getLast? = lines.getLast? := by
      rw [getLast?_drop, if_neg (by omega)]
    unfold completeLines
    rw [hlast]
    split
    · rfl
    · split
      · rfl
      · rw [dropLast_eq_take, dropLast_eq_take, length_drop, drop_take]
        congr 1
        omega
  · rw [drop_eq_nil_of_le (by omega), drop_eq_nil_of_le]
    · rfl
    · have := (completeLines_le lines).length_le
      omega

theorem take_completeLines {lines : List (List Char)} {n : Nat}
    (h : n ≤ (completeLines lines).length) : (completeLines lines).take n = lines.take n := by
  obtain ⟨more, hmore⟩ := completeLines_le lines
  conv_rhs => rw [← hmore]
  rw [take_append_of_le_length h]

theorem flatten_take_drop (chunk : List Char) (n : Nat) :
    ((splitlinesKeepends chunk).take n).flatten ++ ((splitlinesKeepends chunk).drop n).flatten =
      chunk := by
  rw [← flatten_append, take_append_drop, flatten_splitlinesKeepends]

theorem take_front (front behind : List (List Char)) (line : List Char) :
    (front ++ line :: behind).take (front.length + 1) = front ++ [line] := by
  rw [append_cons, take_left' (by simp)]

/-- The two lines start and complete one tool. -/
def LinePairs (F : FloatText) (py : Python) (earlier later : List Char) : Prop :=
  Pairs py (lineRecord F earlier) (lineRecord F later)

/-- A chunk is left whole when none of its tools starts and completes, and else it is cut behind
    the first line that starts a tool which a later one completes. -/
theorem splitLiveToolStartParts_cases (chunk : List Char) :
    (splitLiveToolStartParts F py chunk = (chunk, []) ∧
      (completeLines (splitlinesKeepends chunk)).Pairwise fun x y => ¬ LinePairs F py x y) ∨
    ∃ front line behind, completeLines (splitlinesKeepends chunk) = front ++ line :: behind ∧
      splitLiveToolStartParts F py chunk = ((front ++ [line]).flatten,
        ((splitlinesKeepends chunk).drop (front.length + 1)).flatten) ∧
      FirstStart (LinePairs F py) front line behind := by
  have hrecords : (completeLines (splitlinesKeepends chunk)).map (fun line =>
      (decodeEventLine F (rstripNewline line)).bind Json.asObject) =
      (completeLines (splitlinesKeepends chunk)).map (lineRecord F) := rfl
  obtain ⟨-, hnone, hsome⟩ := @scanToolStarts_spec py 0
    ((completeLines (splitlinesKeepends chunk)).map (lineRecord F))
  unfold splitLiveToolStartParts
  simp only [hrecords]
  cases hscan : (scanToolStarts py 0
      ((completeLines (splitlinesKeepends chunk)).map (lineRecord F))).2 with
  | none => exact .inl ⟨rfl, pairwise_map.mp (hnone hscan)⟩
  | some index =>
    right
    obtain ⟨_, _, _, hsplit, rfl, hfirst⟩ := hsome index hscan
    obtain ⟨front, tail, hlines, rfl, htail⟩ := map_eq_append_iff.mp hsplit
    obtain ⟨line, behind, rfl, rfl, rfl⟩ := map_eq_cons_iff.mp htail
    refine ⟨front, line, behind, hlines, ?_, pairwise_map.mp hfirst.apart, ?_, ?_⟩
    · have hpieces : (completeLines (splitlinesKeepends chunk)).take (front.length + 1) =
          front ++ [line] := by
        rw [hlines, take_front]
      have hcount : front.length + 1 ≤ (completeLines (splitlinesKeepends chunk)).length := by
        rw [hlines]
        simp
      have htake := take_completeLines hcount
      have hwhole := flatten_take_drop chunk (front.length + 1)
      rw [← htake, hpieces] at hwhole
      simp only [length_map, Nat.zero_add, hpieces]
      conv_lhs => rw [← hwhole]
      rw [drop_left]
    · intro x hx y hy
      exact hfirst.free _ (mem_map_of_mem hx) _ (by simpa using mem_map_of_mem (f := lineRecord F) hy)
    · obtain ⟨_, hy, hpairs⟩ := hfirst.pairs
      obtain ⟨y, hline, rfl⟩ := mem_map.mp hy
      exact ⟨y, hline, hpairs⟩

/-! ### The Loop -/

/-- Every line that starts a tool which a later line of the chunk completes ends in a line feed;
    the lines are the pieces of `splitlines` in front of the last line feed. -/
def StartsEnd (F : FloatText) (py : Python) (chunk : List Char) : Prop :=
  (completeLines (splitlinesKeepends chunk)).Pairwise fun earlier later =>
    LinePairs F py earlier later → endsWithNewline earlier

/-- What the loop makes of a chunk. -/
structure Partition (F : FloatText) (py : Python) (chunk : List Char) (parts : List (List Char)) :
    Prop where
  flatten : parts.flatten = chunk
  rounds : parts.length ≤ chunk.length
  apart : ∀ part ∈ parts,
    (completeLines (splitlinesKeepends part)).Pairwise fun x y => ¬ LinePairs F py x y
  ends : (∀ part ∈ parts.dropLast, endsWithNewline part) ↔ StartsEnd F py chunk

theorem Partition.whole {chunk : List Char} (h : chunk ≠ [])
    (hpart : (completeLines (splitlinesKeepends chunk)).Pairwise fun x y => ¬ LinePairs F py x y) :
    Partition F py chunk [chunk] where
  flatten := by simp
  rounds := length_pos_iff.mpr h
  apart := by simpa using hpart
  ends := by
    refine iff_of_true (by simp) ?_
    exact hpart.imp fun hnot hpairs => absurd hpairs hnot

theorem endsWithNewline_append {line : List Char} (h : line ≠ []) (text : List Char) :
    endsWithNewline (text ++ line) = endsWithNewline line := by
  rw [endsWithNewline, endsWithNewline, getLast?_append_of_ne_nil _ h]

/-- The piece up to the first start, in front of the pieces of the rest. -/
theorem Partition.cons {chunk line : List Char} {front behind parts : List (List Char)}
    (hlines : completeLines (splitlinesKeepends chunk) = front ++ line :: behind)
    (hfirst : FirstStart (LinePairs F py) front line behind)
    (h : Partition F py ((splitlinesKeepends chunk).drop (front.length + 1)).flatten parts) :
    Partition F py chunk ((front ++ [line]).flatten :: parts) := by
  have hpieces : (completeLines (splitlinesKeepends chunk)).take (front.length + 1) =
      front ++ [line] := by
    rw [hlines, take_front]
  have hcount : front.length + 1 ≤ (completeLines (splitlinesKeepends chunk)).length := by
    rw [hlines]
    simp
  have htake := take_completeLines hcount
  rw [hpieces] at htake
  have hwhole := flatten_take_drop chunk (front.length + 1)
  rw [← htake] at hwhole
  obtain ⟨hfront, hback⟩ :=
    splitlinesKeepends_cut (take_append_drop (front.length + 1) (splitlinesKeepends chunk)).symm
  rw [← htake] at hfront
  have hbehind : completeLines (splitlinesKeepends
      ((splitlinesKeepends chunk).drop (front.length + 1)).flatten) = behind := by
    rw [hback, completeLines_drop, hlines]
    simp [drop_append]
  have hne : line ≠ [] := completeLines_ne_nil (hlines ▸ mem_append_right _ mem_cons_self)
  have hcut : (front ++ [line]).flatten ≠ [] := by simp [hne]
  have hmore : parts ≠ [] := by
    rintro rfl
    obtain ⟨y, hy, -⟩ := hfirst.pairs
    rw [← hbehind, ← h.flatten] at hy
    cases hy
  refine ⟨?_, ?_, ?_, ?_⟩
  · rw [flatten_cons, h.flatten, hwhole]
  · have hlen := congrArg List.length hwhole
    rw [length_append] at hlen
    have hrounds := h.rounds
    have := length_pos_iff.mpr hcut
    rw [length_cons]
    omega
  · intro part hpart
    rcases mem_cons.mp hpart with rfl | hpart
    · rw [hfront]
      refine List.Pairwise.sublist (completeLines_le (front ++ [line])).sublist ?_
      refine pairwise_append.mpr ⟨hfirst.apart, pairwise_singleton _ _, ?_⟩
      intro x hx y hy
      exact hfirst.free x hx y (mem_singleton.mp hy ▸ mem_cons_self)
    · exact h.apart part hpart
  · rw [dropLast_cons_of_ne_nil hmore, forall_mem_cons, h.ends, StartsEnd, StartsEnd, hbehind,
      hlines, hfirst.pairwise_iff, flatten_append, flatten_singleton, endsWithNewline_append hne]

theorem toolStartParts_partition (chunk : List Char) :
    Partition F py chunk (toolStartParts F py chunk) := by
  induction chunk using toolStartParts.induct F py with
  | case1 =>
    rw [toolStartParts_nil]
    exact ⟨rfl, Nat.le_refl _, by simp, iff_of_true (by simp) .nil⟩
  | case2 chunk hne hlen ih =>
    rw [toolStartParts_cons F py hne]
    rcases @splitLiveToolStartParts_cases F py chunk with ⟨heq, hpart⟩ | ⟨_, _, _, hlines, heq, hfirst⟩
    · rw [heq, toolStartParts_nil]
      exact .whole hne hpart
    · rw [heq] at ih ⊢
      exact .cons hlines hfirst ih

/-- What is asked of the parts of a chunk: they are the chunk, in at most as many rounds as it has
    characters, every part but the last ends at a complete record, and in no part a record
    completes the tool that an earlier one starts. -/
structure Faithful (F : FloatText) (py : Python) (chunk : List Char) (parts : List (List Char)) :
    Prop where
  flatten : parts.flatten = chunk
  rounds : parts.length ≤ chunk.length
  ends : ∀ part ∈ parts.dropLast, endsWithNewline part
  apart : ∀ part ∈ parts, (completeLines (splitlinesKeepends part)).Pairwise fun earlier later =>
    ¬ Completes py (lineRecord F earlier) (lineRecord F later)

/-- A start that ends in a carriage return, and its completion. -/
def returnedStart : List Char :=
  "\x7b\"type\":\"tool.started\",\"payload\":\x7b\"tool_id\":\"t\"\x7d\x7d\r".toList ++
    "\x7b\"type\":\"tool.completed\",\"payload\":\x7b\"tool_id\":\"t\"\x7d\x7d\n".toList

end LiveSplit

end Codify.Harness.EventTail

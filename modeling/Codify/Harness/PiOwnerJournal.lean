import Codify.Harness.PiOwnerIds

/-! # The Journals of the Pi Owner

    A command is in the request journal before it is written to Pi, so no later
    dispatch writes it again, and its outcome is found again once it is recorded.
    Both hold as long as no line is appended to one that a crash has cut short:
    the tolerant reader skips such a line with all that is joined to it.

    The invariant speaks about what the reader finds in the journals
    (`records`); one lemma says what an append adds to that.
-/

namespace Codify.Harness.PiOwner

open Codify.Framework List Option Json
open Codify.Framework.JsonText

/-! ### What the Reader Finds -/

section Reading

variable (F : FloatText)

/-- The dicts a journal holds for its reader. -/
def records (text : List Char) : List JsonObject := (parsedLines F text).filterMap asObject

/-- No line is a document other than a dict. -/
def AllDicts (text : List Char) : Prop := ∀ v ∈ parsedLines F text, ∃ r, v = .obj r

def ofCommand (id : String) (r : JsonObject) : Bool := (r.get "command_id").isStr id

variable {F}

theorem pyEq_str (v : Json) (s : String) : v.pyEq (.str s) = v.isStr s := by
  cases v <;> simp [pyEq, isStr, Json.asString]

variable {id : String}

theorem truthy_str (h : id ≠ "") : (str id).truthy := by
  simpa [truthy] using h

theorem findRecord_eq {lines : List (List Char)}
    (h : ∀ v ∈ lines.filterMap (loads F), ∃ r, v = .obj r) :
    findRecord F (.str id) lines =
      .ok (((lines.filterMap (loads F)).filterMap asObject).find? (ofCommand id)) := by
  induction lines with
  | nil => rfl
  | cons line rest ih =>
    unfold findRecord
    cases hload : loads F line with
    | none =>
      rw [filterMap_cons_none hload] at h ⊢
      exact ih h
    | some v =>
      rw [filterMap_cons_some hload] at h ⊢
      obtain ⟨r, rfl⟩ := h v mem_cons_self
      have hrest := ih fun v hv => h v (mem_cons_of_mem _ hv)
      simp only [pyEq_str]
      by_cases hr : (JsonObject.get r "command_id").isStr id
      · rw [if_pos hr]
        simp [asObject, ofCommand, hr]
      · rw [if_neg hr, hrest]
        simp [asObject, ofCommand, hr]

theorem journalOutcome_eq (hid : id ≠ "") {text : List Char}
    (h : AllDicts F text) :
    journalOutcome F text (.str id) = .ok ((records F text).reverse.find? (ofCommand id)) := by
  unfold journalOutcome
  rw [if_pos (truthy_str hid), findRecord_eq]
  · rw [filterMap_reverse, filterMap_reverse]
    rfl
  · intro v hv
    rw [filterMap_reverse, mem_reverse] at hv
    exact h v hv

theorem journalRequestExists_eq (hid : id ≠ "") {text : List Char}
    (h : AllDicts F text) :
    journalRequestExists F text (.str id) = .ok ((records F text).any (ofCommand id)) := by
  unfold journalRequestExists
  rw [if_pos (truthy_str hid), findRecord_eq h]
  show Except.ok ((records F text).find? (ofCommand id)).isSome = _
  congr 1
  rw [Bool.eq_iff_iff, find?_isSome, List.any_eq_true]

/-! ### What an Append Adds -/

/-- The line is on its own: nothing is appended to one that was cut short. -/
def OwnLine (text text' : List Char) : Prop := text' ≠ text → Ended text

theorem parsedLines_journalLine {item : JsonObject} (h : keysUnique (.obj item)) :
    parsedLines F (journalLine F item) = [.obj (sortFields item)] :=
  parsedLines_record (keysUnique_sortKeys (.obj item) h)

theorem parsedLines_append_line {item : JsonObject} {text : List Char}
    (h : keysUnique (.obj item)) (hown : OwnLine text (text ++ journalLine F item)) :
    parsedLines F (text ++ journalLine F item) = parsedLines F text ++ [.obj (sortFields item)] := by
  have hne : text ++ journalLine F item ≠ text := by
    intro heq
    have := append_right_eq_self.mp heq
    simp [journalLine] at this
  rw [parsedLines_append (hown hne), parsedLines_journalLine h]

theorem parsedLines_append_cut {item : JsonObject} {text : List Char} {n : Nat}
    (h : keysUnique (.obj item)) (hown : OwnLine text (text ++ (journalLine F item).take n)) :
    parsedLines F (text ++ (journalLine F item).take n) = parsedLines F text ∨
      parsedLines F (text ++ (journalLine F item).take n) =
        parsedLines F text ++ [.obj (sortFields item)] := by
  by_cases hsame : text ++ (journalLine F item).take n = text
  · left
    rw [hsame]
  · rw [parsedLines_append (hown hsame)]
    have hcut : (journalLine F item).take n <+:
        dumps F true (.obj (sortFields item)) ++ ['\n'] := take_prefix n _
    rcases parsedLines_cut (keysUnique_sortKeys (.obj item) h) hcut with hnone | hone
    · left
      rw [hnone, append_nil]
    · right
      rw [hone]

/-- What the reader finds has grown by at most this record. -/
def Grows (text text' : List Char) (item : JsonObject) : Prop :=
  parsedLines F text' = parsedLines F text ∨
    parsedLines F text' = parsedLines F text ++ [.obj (sortFields item)]

variable {text text' : List Char} {item : JsonObject}

theorem Grows.allDicts (h : Grows (F := F) text text' item) (ha : AllDicts F text) :
    AllDicts F text' := by
  intro v hv
  rcases h with h | h
  · exact ha v (h ▸ hv)
  · rw [h, mem_append, mem_singleton] at hv
    rcases hv with hv | rfl
    · exact ha v hv
    · exact ⟨_, rfl⟩

theorem Grows.records (h : Grows (F := F) text text' item) :
    records F text' = records F text ∨
      records F text' = records F text ++ [sortFields item] := by
  unfold PiOwner.records
  rcases h with h | h
  · left
    rw [h]
  · right
    rw [h, filterMap_append]
    rfl

theorem Grows.subset (h : Grows (F := F) text text' item) {r : JsonObject}
    (hr : r ∈ PiOwner.records F text) : r ∈ PiOwner.records F text' := by
  rcases h.records with h | h
  · rwa [h]
  · rw [h]
    exact mem_append_left _ hr

theorem Grows.records_of_line (hkeys : keysUnique (.obj item))
    (hown : OwnLine text (text ++ journalLine F item)) :
    PiOwner.records F (text ++ journalLine F item) = PiOwner.records F text ++ [sortFields item] := by
  unfold PiOwner.records
  rw [parsedLines_append_line hkeys hown, filterMap_append]
  rfl

end Reading

/-! ### Items -/

section Items

variable {frame : Dict} {nativeId : String}

variable {id : String} {outcome : JsonObject}

theorem get_command_id_sortFields {item : JsonObject} (h : keysUnique (.obj item)) :
    JsonObject.get (sortFields item) "command_id" = .str id ↔ item.get "command_id" = .str id := by
  rw [get_sortFields ((keysUnique_obj_iff.mp h).1)]
  cases hv : item.get "command_id" <;> simp [sortKeys]

theorem keysUnique_safeJournal : keysUnique (.obj (safeJournal frame.1 nativeId)) := by
  have hget : ∀ key, keysUnique (frame.1.get key) := keysUnique_get frame.2
  rw [keysUnique_obj_iff]
  refine ⟨by simp [safeJournal], ?_⟩
  intro p hp
  simp only [safeJournal, mem_cons, not_mem_nil, or_false] at hp
  rcases hp with rfl | rfl | rfl | rfl | rfl
  · exact hget _
  · rfl
  · exact hget _
  · exact hget _
  · exact hget _

theorem keysUnique_outcomeOf (response : JsonObject) :
    keysUnique (.obj (outcomeOf frame.1 nativeId response)) := by
  have hget : keysUnique (frame.1.get "command_id") := keysUnique_get frame.2 _
  rw [keysUnique_obj_iff]
  unfold outcomeOf
  cases (response.get "success").truthy with
  | true =>
    refine ⟨by simp, ?_⟩
    intro p hp
    simp only [if_true, append_nil, mem_cons, not_mem_nil, or_false] at hp
    rcases hp with rfl | rfl | rfl | rfl
    · rfl
    · exact hget
    · rfl
    · rfl
  | false =>
    refine ⟨by simp, ?_⟩
    intro p hp
    simp only [Bool.false_eq_true, if_false, cons_append, nil_append, mem_cons,
      not_mem_nil, or_false] at hp
    rcases hp with rfl | rfl | rfl | rfl | rfl
    · rfl
    · exact hget
    · rfl
    · rfl
    · rfl

def IsOutcome (outcome : JsonObject) : Prop :=
  ∃ (frame : Dict) (nativeId : String) (response : JsonObject),
    outcome = outcomeOf frame.1 nativeId response

theorem IsOutcome.keysUnique (h : IsOutcome outcome) :
    keysUnique (.obj outcome) := by
  obtain ⟨frame, nativeId, response, rfl⟩ := h
  exact keysUnique_outcomeOf response

theorem IsOutcome.sortKeys_get (h : IsOutcome outcome)
    (hid : outcome.get "command_id" = .str id) (key : String) :
    sortKeys (outcome.get key) = outcome.get key := by
  have hflat : ∀ p ∈ outcome, sortKeys p.2 = p.2 := by
    obtain ⟨frame, nativeId, response, rfl⟩ := h
    have hcommand : frame.1.get "command_id" = .str id := hid
    intro p hp
    unfold outcomeOf at hp
    rw [hcommand, mem_append] at hp
    rcases hp with hp | hp
    · simp only [mem_cons, not_mem_nil, or_false] at hp
      rcases hp with rfl | rfl | rfl | rfl <;> rfl
    · split at hp
      · exact absurd hp not_mem_nil
      · obtain rfl := mem_singleton.mp hp
        rfl
  unfold JsonObject.get
  cases hlookup : outcome.lookup key with
  | none => rfl
  | some v => exact hflat _ (OrderedDict.mem_of_lookup hlookup)

end Items

/-! ### What a Step Journals -/

section Steps

variable {F : FloatText} {s s' : State} {l : Label}

def State.inflight (s : State) : Option Inflight := s.owner.bind Owner.inflight

/-- The step leaves the journals and the histories alone and starts no dispatch. -/
structure Idle (s s' : State) : Prop where
  requests : s'.requests = s.requests
  responses : s'.responses = s.responses
  written : s'.written = s.written
  recorded : s'.recorded = s.recorded
  inflight : ∀ fl, s'.inflight = some fl → s.inflight = some fl

theorem idle_owner {o o' : Owner} (ho : s.owner = some o)
    (h : ∀ fl, o'.inflight = some fl → o.inflight = some fl) :
    Idle s { s with owner := some o' } := by
  refine ⟨rfl, rfl, rfl, rfl, ?_⟩
  intro fl hfl
  rw [State.inflight, ho]
  exact h fl hfl

/-- A step is idle, or sends a dispatch that has passed every check, or ends one that Pi has
    answered. -/
theorem next_cases (h : next F s l = some s') :
    Idle s s' ∨
      (∃ o frame cut source nativeId, s.owner = some o ∧
        prepare F s o frame.1 = .ok (source, nativeId) ∧
        s' = s.send F o frame cut source nativeId) ∨
      ∃ o fl record cut, s.owner = some o ∧ o.inflight = some fl ∧
        o.futures[fl.request]? = some (.resolved record) ∧ s.resume F o fl cut = some s' := by
  cases ho : s.owner with
  | none =>
    left
    cases l with
    | start taskId attemptId =>
      simp only [next, ho] at h
      cases h
      exact ⟨rfl, rfl, rfl, rfl, fun fl hfl => by cases hfl⟩
    | _ => simp [next, ho] at h
  | some o =>
    have hstep : stepOwner F s o l = some s' := by simpa only [next, ho] using h
    cases l with
    | start taskId attemptId => cases hstep
    | crash =>
      left
      cases hstep
      exact ⟨rfl, rfl, rfl, rfl, fun fl hfl => by cases hfl⟩
    | dispatch frame cut =>
      simp only [stepOwner] at hstep
      split at hstep
      · cases hstep
      cases hstep
      by_cases hclose : (frame.1.get "type").isStr "close"
      · left
        rw [dispatch, if_pos hclose]
        unfold dispatchClose
        split
        · exact ⟨rfl, rfl, rfl, rfl, fun fl hfl => hfl⟩
        · split
          · exact ⟨rfl, rfl, rfl, rfl, fun fl hfl => hfl⟩
          · exact idle_owner ho fun fl hfl => hfl
      · rw [dispatch, if_neg hclose]
        unfold dispatchCommand
        split
        · exact .inl ⟨rfl, rfl, rfl, rfl, fun fl hfl => hfl⟩
        · next source nativeId hprepare =>
          exact .inr (.inl ⟨o, frame, cut, source, nativeId, rfl, hprepare, rfl⟩)
    | resume cut =>
      obtain ⟨fl, hfl, hresume⟩ := bind_eq_some_iff.mp hstep
      cases hfuture : o.futures[fl.request]? with
      | none => simp [State.resume, hfuture] at hresume
      | some future =>
        cases future with
        | waiting => simp [State.resume, hfuture] at hresume
        | resolved record =>
          exact .inr (.inr ⟨o, fl, record, cut, rfl, hfl, hfuture, hresume⟩)
        | failed =>
          left
          simp only [State.resume, hfuture] at hresume
          cases hresume
          exact idle_owner ho fun fl hfl => by cases hfl
    | drainFailed =>
      left
      obtain ⟨fl, hfl, rfl⟩ := map_eq_some_iff.mp hstep
      exact idle_owner ho fun fl hfl => by cases hfl
    | handshake command message | timeout i | fail | exit =>
      left
      cases hstep
      exact idle_owner ho fun fl hfl => hfl
    | read record =>
      left
      cases hstep
      refine idle_owner ho ?_
      intro fl hfl
      unfold Owner.read at hfl
      split at hfl
      · exact hfl
      · split at hfl
        · exact hfl
        · exact hfl
    | eof =>
      left
      cases hstep
      refine idle_owner ho ?_
      intro fl hfl
      unfold Owner.eof at hfl
      split at hfl
      · exact hfl
      · exact hfl

end Steps

/-! ### Invariant -/

/-- How often the command was written to Pi. -/
def timesWritten (s : State) (id : String) : Nat := s.written.countP (·.isStr id)

/-- The outcomes the reader finds for the command. -/
def outcomes (F : FloatText) (s : State) (id : String) : List JsonObject :=
  (records F s.responses).filter (ofCommand id)

/-- What the journals say about the commands written so far. -/
structure Journaled (F : FloatText) (s : State) : Prop where
  requestDicts : AllDicts F s.requests
  responseDicts : AllDicts F s.responses
  once : ∀ id ≠ "", timesWritten s id ≤ 1
  /-- A written command is in the request journal. -/
  request : ∀ id ≠ "", 0 < timesWritten s id → ∃ r ∈ records F s.requests, ofCommand id r
  /-- A command with an outcome was written. -/
  answered : ∀ id ≠ "", outcomes F s id ≠ [] → 0 < timesWritten s id
  oneOutcome : ∀ id ≠ "", (outcomes F s id).length ≤ 1
  /-- The command in flight was written and has no outcome. -/
  inflight : ∀ fl, s.inflight = some fl → ∀ id ≠ "", fl.frame.1.get "command_id" = .str id →
    0 < timesWritten s id ∧ outcomes F s id = []
  recorded : ∀ outcome ∈ s.recorded, IsOutcome outcome ∧
    sortFields outcome ∈ records F s.responses

/-- No line is appended to one that a crash has cut short. -/
def OwnLines (F : FloatText) (s : State) (l : Label) : Prop :=
  ∀ s', next F s l = some s' →
    OwnLine s.requests s'.requests ∧ OwnLine s.responses s'.responses

section Invariant

variable {F : FloatText} {s s' : State} {o : Owner} {l : Label}

theorem journaled_empty : Journaled F {} where
  requestDicts := nofun
  responseDicts := nofun
  once _ _ := Nat.zero_le 1
  request _ _ h := absurd h (Nat.lt_irrefl 0)
  answered _ _ h := absurd rfl h
  oneOutcome _ _ := Nat.zero_le 1
  inflight := nofun
  recorded := nofun

theorem Journaled.idle (h : Journaled F s) (hidle : Idle s s') : Journaled F s' := by
  have htimes : ∀ id, timesWritten s' id = timesWritten s id := by
    intro id
    rw [timesWritten, hidle.written]
    rfl
  have houtcomes : ∀ id, outcomes F s' id = outcomes F s id := by
    intro id
    rw [outcomes, hidle.responses]
    rfl
  refine ⟨?_, ?_, ?_, ?_, ?_, ?_, ?_, ?_⟩
  · rw [hidle.requests]
    exact h.requestDicts
  · rw [hidle.responses]
    exact h.responseDicts
  · intro id hid
    rw [htimes]
    exact h.once id hid
  · intro id hid hpos
    rw [hidle.requests]
    exact h.request id hid (htimes id ▸ hpos)
  · intro id hid hne
    rw [htimes]
    exact h.answered id hid (houtcomes id ▸ hne)
  · intro id hid
    rw [houtcomes]
    exact h.oneOutcome id hid
  · intro fl hfl id hid hframe
    rw [htimes, houtcomes]
    exact h.inflight fl (hidle.inflight fl hfl) id hid hframe
  · rw [hidle.recorded, hidle.responses]
    exact h.recorded

variable {id : String} {source : IdSource} {cut : Option Nat} {fl : Inflight}
  {response : JsonObject}

/-- A dispatch that passed every check is of a command that was never written. -/
theorem Journaled.unwritten (h : Journaled F s) {frame : JsonObject}
    {choice : IdSource × String} (hprepare : prepare F s o frame = .ok choice)
    (hid : id ≠ "") (hframe : frame.get "command_id" = .str id) :
    timesWritten s id = 0 ∧ outcomes F s id = [] := by
  obtain ⟨_, -, hprepare⟩ := bind_eq_ok_iff.mp hprepare
  obtain ⟨_, hjournals, -⟩ := bind_eq_ok_iff.mp hprepare
  have htimes : timesWritten s id = 0 := by
    by_contra hpos
    obtain ⟨r, hr, hcommand⟩ := h.request id hid (Nat.pos_of_ne_zero hpos)
    have hexists : journalRequestExists F s.requests (.str id) = .ok true := by
      rw [journalRequestExists_eq hid h.requestDicts]
      exact congrArg Except.ok (List.any_eq_true.mpr ⟨r, hr, hcommand⟩)
    unfold checkJournals at hjournals
    rw [hframe, hexists] at hjournals
    split at hjournals
    · cases hjournals
    · cases hjournals
    · cases hjournals
  refine ⟨htimes, ?_⟩
  by_contra hne
  have hpos := h.answered id hid hne
  omega

theorem Journaled.requested (h : Journaled F s) {item : JsonObject} {text : List Char}
    (hgrows : Grows (F := F) s.requests text item) (owner : Option Owner)
    (hinflight : ∀ o, owner = some o → ∀ fl, o.inflight = some fl → s.inflight = some fl) :
    Journaled F { s with requests := text, owner := owner } where
  requestDicts := hgrows.allDicts h.requestDicts
  responseDicts := h.responseDicts
  once := h.once
  request id hid hpos := by
    obtain ⟨r, hr, hcommand⟩ := h.request id hid hpos
    exact ⟨r, hgrows.subset hr, hcommand⟩
  answered := h.answered
  oneOutcome := h.oneOutcome
  inflight fl hfl id hid hframe := by
    obtain ⟨o, ho, hfl⟩ := bind_eq_some_iff.mp hfl
    exact h.inflight fl (hinflight o ho fl hfl) id hid hframe
  recorded := h.recorded

/-- A frame is journaled before it is written. -/
theorem Journaled.sent (h : Journaled F s) {frame : Dict} {nativeId : String}
    (hprepare : prepare F s o frame.1 = .ok (source, nativeId)) {o' : Owner} {i : Nat}
    (hown : OwnLine s.requests (s.requests ++ journalLine F (safeJournal frame.1 nativeId)))
    (hinflight : o'.inflight = some ⟨frame, nativeId, i⟩) :
    Journaled F { s with
      requests := s.requests ++ journalLine F (safeJournal frame.1 nativeId)
      owner := some o'
      written := s.written ++ [frame.1.get "command_id"] } := by
  have hkeys : keysUnique (.obj (safeJournal frame.1 nativeId)) := keysUnique_safeJournal
  have hgrows : Grows (F := F) s.requests _ (safeJournal frame.1 nativeId) :=
    .inr (parsedLines_append_line hkeys hown)
  -- the counter of a command moves only when it is the one of the frame
  have htimes : ∀ id, (s.written ++ [frame.1.get "command_id"]).countP (·.isStr id) =
      timesWritten s id + if (frame.1.get "command_id").isStr id then 1 else 0 := by
    intro id
    rw [countP_append, countP_singleton, timesWritten]
  refine ⟨hgrows.allDicts h.requestDicts, h.responseDicts, ?_, ?_, ?_, h.oneOutcome, ?_, h.recorded⟩
  · intro id hid
    show List.countP _ _ ≤ 1
    rw [htimes]
    split
    · next hframe =>
      rw [(h.unwritten hprepare hid (isStr_iff.mp hframe)).1]
    · exact h.once id hid
  · intro id hid hpos
    have hpos' : 0 < List.countP (·.isStr id) (s.written ++ [frame.1.get "command_id"]) := hpos
    rw [htimes] at hpos'
    by_cases hframe : (frame.1.get "command_id").isStr id
    · refine ⟨sortFields (safeJournal frame.1 nativeId), ?_, ?_⟩
      · rw [Grows.records_of_line hkeys hown]
        exact mem_append_right _ mem_cons_self
      · exact isStr_iff.mpr ((get_command_id_sortFields hkeys).mpr (isStr_iff.mp hframe))
    · rw [if_neg hframe] at hpos'
      obtain ⟨r, hr, hcommand⟩ := h.request id hid hpos'
      exact ⟨r, hgrows.subset hr, hcommand⟩
  · intro id hid hne
    show 0 < List.countP _ _
    rw [htimes]
    have := h.answered id hid hne
    omega
  · intro fl hfl id hid hframe
    have hfl' : o'.inflight = some fl := hfl
    cases hinflight.symm.trans hfl'
    refine ⟨?_, (h.unwritten hprepare hid hframe).2⟩
    show 0 < List.countP _ _
    rw [htimes, if_pos (isStr_iff.mpr hframe)]
    omega

theorem Journaled.send (h : Journaled F s) {frame : Dict}
    {nativeId : String} (ho : s.owner = some o)
    (hprepare : prepare F s o frame.1 = .ok (source, nativeId))
    (hown : OwnLine s.requests (s.send F o frame cut source nativeId).requests) :
    Journaled F (s.send F o frame cut source nativeId) := by
  have hkeys : keysUnique (.obj (safeJournal frame.1 nativeId)) := keysUnique_safeJournal
  cases cut with
  | some n =>
    have hline : OwnLine s.requests (s.requests ++ (journalLine F (safeJournal frame.1 nativeId)).take n) :=
      hown
    have hgrows : Grows (F := F) s.requests _ (safeJournal frame.1 nativeId) :=
      parsedLines_append_cut hkeys hline
    exact h.requested hgrows none fun _ howner => nomatch howner
  | none =>
    cases hmessage : messageOf frame.1 with
    | none =>
      -- a payload that is no dict raises between the append and the write
      simp only [State.send, hmessage] at hown ⊢
      refine h.requested (.inr (parsedLines_append_line hkeys hown)) _ ?_
      intro o' ho' fl hfl
      cases ho'
      rw [State.inflight, ho]
      exact hfl
    | some message =>
      simp only [State.send, hmessage] at hown ⊢
      exact h.sent hprepare hown rfl

/-- The outcome of an answer is journaled. -/
theorem Journaled.answer (h : Journaled F s)
    {text : List Char} {owner : Option Owner} {recorded : List JsonObject}
    (hfl : s.inflight = some fl)
    (hgrows : Grows (F := F) s.responses text (outcomeOf fl.frame.1 fl.nativeId response))
    (hidle : ∀ o, owner = some o → o.inflight = none)
    (hrecorded : ∀ outcome ∈ recorded, outcome ∈ s.recorded ∨
      outcome = outcomeOf fl.frame.1 fl.nativeId response ∧
        sortFields outcome ∈ records F text) :
    Journaled F { s with responses := text, owner := owner, recorded := recorded } := by
  have hkeys : keysUnique (.obj (outcomeOf fl.frame.1 fl.nativeId response)) :=
    keysUnique_outcomeOf response
  -- a command gains an outcome only when it is the one in flight
  have houtcomes : ∀ id, (records F text).filter (ofCommand id) = outcomes F s id ∨
      fl.frame.1.get "command_id" = .str id ∧ (records F text).filter (ofCommand id) =
        outcomes F s id ++ [sortFields (outcomeOf fl.frame.1 fl.nativeId response)] := by
    intro id
    rcases hgrows.records with hsame | hmore
    · left
      rw [hsame]
      rfl
    · rw [hmore, filter_append]
      by_cases hframe : fl.frame.1.get "command_id" = .str id
      · right
        refine ⟨hframe, ?_⟩
        have hcommand : ofCommand id (sortFields (outcomeOf fl.frame.1 fl.nativeId response)) :=
          isStr_iff.mpr ((get_command_id_sortFields hkeys).mpr hframe)
        rw [filter_cons_of_pos hcommand]
        rfl
      · left
        have hcommand : ¬ ofCommand id
            (sortFields (outcomeOf fl.frame.1 fl.nativeId response)) := by
          intro hc
          exact hframe ((get_command_id_sortFields hkeys).mp (isStr_iff.mp hc))
        rw [filter_cons_of_neg hcommand, filter_nil, append_nil]
        rfl
  refine ⟨h.requestDicts, hgrows.allDicts h.responseDicts, h.once, h.request, ?_, ?_, ?_, ?_⟩
  · intro id hid hne
    rcases houtcomes id with hsame | ⟨hframe, -⟩
    · exact h.answered id hid (hsame ▸ hne)
    · exact (h.inflight fl hfl id hid hframe).1
  · intro id hid
    show ((records F text).filter (ofCommand id)).length ≤ 1
    rcases houtcomes id with hsame | ⟨hframe, hmore⟩
    · rw [hsame]
      exact h.oneOutcome id hid
    · rw [hmore, (h.inflight fl hfl id hid hframe).2]
      exact Nat.le_refl 1
  · intro fl' hfl'
    obtain ⟨o, ho, hfl'⟩ := bind_eq_some_iff.mp hfl'
    rw [hidle o ho] at hfl'
    cases hfl'
  · intro outcome houtcome
    rcases hrecorded outcome houtcome with hold | ⟨rfl, hnew⟩
    · obtain ⟨hoc, hmem⟩ := h.recorded outcome hold
      exact ⟨hoc, hgrows.subset hmem⟩
    · exact ⟨⟨_, _, _, rfl⟩, hnew⟩

theorem Journaled.resume (h : Journaled F s)
    (ho : s.owner = some o) (hfl : o.inflight = some fl)
    (hfuture : o.futures[fl.request]? = some (.resolved response))
    (hresume : s.resume F o fl cut = some s') (hown : OwnLine s.responses s'.responses) :
    Journaled F s' := by
  have hkeys : keysUnique (.obj (outcomeOf fl.frame.1 fl.nativeId response)) :=
    keysUnique_outcomeOf response
  have hfl' : s.inflight = some fl := by rw [State.inflight, ho]; exact hfl
  simp only [State.resume, hfuture] at hresume
  cases cut with
  | some n =>
    cases hresume
    have hline : OwnLine s.responses (s.responses ++
        (journalLine F (outcomeOf fl.frame.1 fl.nativeId response)).take n) := hown
    have hgrows : Grows (F := F) s.responses _ (outcomeOf fl.frame.1 fl.nativeId response) :=
      parsedLines_append_cut hkeys hline
    refine h.answer hfl' hgrows (fun _ howner => nomatch howner) ?_
    intro outcome houtcome
    rw [mem_append] at houtcome
    rcases houtcome with hold | hnew
    · exact .inl hold
    · split at hnew
      · next hlen =>
        have heq := mem_singleton.mp hnew
        refine .inr ⟨heq, ?_⟩
        simp only [take_of_length_le hlen] at hown ⊢
        rw [Grows.records_of_line hkeys hown, heq]
        exact mem_append_right _ mem_cons_self
      · exact absurd hnew not_mem_nil
  | none =>
    cases hresume
    refine h.answer hfl' (.inr (parsedLines_append_line hkeys hown)) ?_ ?_
    · intro o' ho'
      cases ho'
      rfl
    · intro outcome houtcome
      rw [mem_append, mem_singleton] at houtcome
      rcases houtcome with hold | heq
      · exact .inl hold
      · refine .inr ⟨heq, ?_⟩
        rw [Grows.records_of_line hkeys hown, heq]
        exact mem_append_right _ mem_cons_self

theorem Journaled.step (h : Journaled F s) (hown : OwnLines F s l)
    (hnext : next F s l = some s') : Journaled F s' := by
  obtain ⟨hrequests, hresponses⟩ := hown s' hnext
  rcases next_cases hnext with hidle | ⟨o, frame, cut, source, nativeId, ho, hprepare, rfl⟩ |
    ⟨o, fl, response, cut, ho, hfl, hfuture, hresume⟩
  · exact h.idle hidle
  · exact h.send ho hprepare hrequests
  · exact h.resume ho hfl hfuture hresume hresponses

theorem journaled_of_reachable (h : (piSystem F).Reachable (OwnLines F) s) : Journaled F s := by
  refine h.invariant (P := Journaled F) ?_ ?_
  · intro s hinit
    subst hinit
    exact journaled_empty
  · intro s l s' hs hown hnext
    exact hs.step hown hnext

theorem Journaled.outcome (h : Journaled F s) {outcome : JsonObject}
    (hrecorded : outcome ∈ s.recorded) (hid : id ≠ "")
    (houtcome : outcome.get "command_id" = .str id) :
    journalOutcome F s.responses (.str id) = .ok (some (sortFields outcome)) := by
  obtain ⟨hoc, hmem⟩ := h.recorded outcome hrecorded
  have hcommand : ofCommand id (sortFields outcome) :=
    isStr_iff.mpr ((get_command_id_sortFields hoc.keysUnique).mpr houtcome)
  have hfilter : outcomes F s id = [sortFields outcome] := by
    have hin : sortFields outcome ∈ outcomes F s id := mem_filter.mpr ⟨hmem, hcommand⟩
    have hone : (outcomes F s id).length = 1 :=
      Nat.le_antisymm (h.oneOutcome id hid) (length_pos_of_mem hin)
    obtain ⟨r, hr⟩ := length_eq_one_iff.mp hone
    rw [hr] at hin ⊢
    rw [mem_singleton.mp hin]
  rw [journalOutcome_eq hid h.responseDicts, ← head?_filter, filter_reverse]
  unfold outcomes at hfilter
  rw [hfilter]
  rfl

end Invariant

/-! ### At Most One Native Write -/

/-- Every dispatch of the command that passes the checks in front of the journal is answered
    with this outcome. -/
def Remembers (F : FloatText) (s : State) (id : String) (outcome : JsonObject) : Prop :=
  ∀ o frame cut, s.owner = some o → frame.1.get "command_id" = .str id →
    acceptFrame o frame.1 = .ok () →
      ∃ again : JsonObject, dispatch F s o frame cut = (some (.returned again), s) ∧
        ∀ key, again.get key = outcome.get key

theorem not_close_of_acceptFrame {o : Owner} {frame : JsonObject} (h : acceptFrame o frame = .ok ()) :
    ¬ (frame.get "type").isStr "close" := by
  intro hclose
  rw [isStr_iff] at hclose
  rcases type_of_acceptFrame h with hcommand | hstate
  · unfold isCommand at hcommand
    rw [hclose] at hcommand
    exact absurd hcommand (by decide)
  · rw [hclose] at hstate
    exact absurd hstate (by decide)

theorem Journaled.remembers {F : FloatText} {s : State} (h : Journaled F s) {outcome : JsonObject}
    (hrecorded : outcome ∈ s.recorded) {id : String} (hid : id ≠ "")
    (houtcome : outcome.get "command_id" = .str id) : Remembers F s id outcome := by
  intro o frame cut ho hframe haccept
  have hjournals : checkJournals F s (frame.1.get "command_id") =
      .error (.returned (sortFields outcome)) := by
    unfold checkJournals
    rw [hframe, h.outcome hrecorded hid houtcome]
  have hprepare : prepare F s o frame.1 = .error (.returned (sortFields outcome)) := by
    unfold prepare
    rw [haccept, ok_bind, hjournals]
    rfl
  refine ⟨sortFields outcome, ?_, ?_⟩
  · rw [dispatch, if_neg (not_close_of_acceptFrame haccept)]
    unfold dispatchCommand
    rw [hprepare]
  · intro key
    have hoc := (h.recorded outcome hrecorded).1
    rw [get_sortFields (keysUnique_obj_iff.mp hoc.keysUnique).1]
    exact hoc.sortKeys_get houtcome key

/-- As long as no line is appended to one that a crash has cut short, each command is written to
    Pi at most once over all owners, and an outcome once recorded answers every later dispatch of
    its command that passes the checks in front of the journal. -/
theorem commands_written_once (F : FloatText) {s : State}
    (hs : (piSystem F).Reachable (OwnLines F) s) :
    (∀ id ≠ "", timesWritten s id ≤ 1) ∧
      ∀ outcome ∈ s.recorded, ∀ id ≠ "", outcome.get "command_id" = .str id →
        Remembers F s id outcome := by
  have h := journaled_of_reachable hs
  refine ⟨h.once, ?_⟩
  intro outcome hrecorded id hid houtcome
  exact h.remembers hrecorded hid houtcome

/-! ### An Acknowledged Command -/

instance (F : FloatText) (s : State) (l : Label) : Decidable (OwnLines F s l) :=
  match h : next F s l with
  | none => isTrue (by intro s' hs'; rw [h] at hs'; cases hs')
  | some s' =>
    decidable_of_iff ((s'.requests ≠ s.requests → Ended s.requests) ∧
        (s'.responses ≠ s.responses → Ended s.responses)) <| by
      constructor
      · intro hown s₁ hs₁
        obtain rfl := some.inj (h.symm.trans hs₁)
        exact hown
      · intro hown
        exact hown s' h

def accept (id : Int) : Label :=
  .read ⟨[("type", .str "response"), ("id", .int id), ("success", .bool true)], rfl⟩

/-- A command that Pi acknowledges, with its outcome recorded. -/
def acknowledged : List Label :=
  [.start (some 7) (some "a-1"), steer "c-1" 1, accept 1000001, .resume none]

/-- The acknowledged command was written once and its outcome is remembered. -/
theorem commands_written_once_acknowledged :
    ∃ s, (piSystem .fraction).Reachable (OwnLines .fraction) s ∧ timesWritten s "c-1" = 1 ∧
      timesWritten s "c-1" ≤ 1 ∧ ∃ outcome ∈ s.recorded,
        outcome.get "command_id" = .str "c-1" ∧ Remembers .fraction s "c-1" outcome := by
  have hrun : ((piSystem .fraction).execWhile (OwnLines .fraction) {} acknowledged).map
      (fun s => (timesWritten s "c-1", s.recorded.map fun r => (r.get "command_id").asString)) =
        some (1, [some "c-1"]) := by
    decide +kernel
  obtain ⟨s, hs, heq⟩ := System.exists_reachable_of_execWhile hrun rfl
  obtain ⟨htimes, hrecorded⟩ := Prod.mk.inj heq
  obtain ⟨outcome, rest, hsplit, hcommand, -⟩ := map_eq_cons_iff.mp hrecorded
  have hmem : outcome ∈ s.recorded := by rw [hsplit]; exact mem_cons_self
  have hid : outcome.get "command_id" = .str "c-1" :=
    isStr_iff.mp (by rw [isStr, hcommand]; rfl)
  obtain ⟨honce, hremembers⟩ := commands_written_once .fraction hs
  exact ⟨s, hs, htimes, honce "c-1" (by decide), outcome, hmem, hid,
    hremembers outcome hmem "c-1" (by decide) hid⟩

/-- A crash cuts the line of one command; the next owner appends the next command to it. -/
def tornLine : List Label :=
  [.start (some 7) (some "a-1"),
   .dispatch ⟨steerFrame "c-1" 1, keysUnique_steerFrame "c-1" 1⟩ (some 10),
   .start (some 7) (some "a-1"), steer "c-2" 2, .timeout 0, .resume none, steer "c-2" 2]

theorem dispatch_closed {F : FloatText} {s : State} {o : Owner} {frame : Dict}
    (hscope : checkScope o frame.1 = .ok ()) (hclosed : o.closed)
    (htype : ¬ (frame.1.get "type").isStr "close") :
    dispatch F s o frame none = (some (reject "control_gate_closed"), s) := by
  have hcommand : checkCommand o frame.1 = .error (reject "control_gate_closed") := by
    unfold checkCommand
    rw [if_pos (by rw [hclosed]; rfl)]
  have hprepare : prepare F s o frame.1 = .error (reject "control_gate_closed") := by
    unfold prepare acceptFrame
    rw [hscope, ok_bind, hcommand]
    rfl
  rw [dispatch, if_neg htype]
  unfold dispatchCommand
  rw [hprepare]

/-- A command joined to a torn line is written twice; and once Pi's stdout has ended, a dispatch
    of an acknowledged command is rejected. -/
theorem torn_line_written_twice :
    (∃ s, (piSystem .fraction).Reachable System.anyStep s ∧ timesWritten s "c-2" = 2) ∧
      ∃ s o, (piSystem .fraction).Reachable System.anyStep s ∧ s.owner = some o ∧
        (∃ outcome ∈ s.recorded, outcome.get "command_id" = .str "c-1" ∧
          outcome.get "status" = .str "ack") ∧
        dispatch .fraction s o ⟨steerFrame "c-1" 1, keysUnique_steerFrame "c-1" 1⟩ none =
          (some (reject "control_gate_closed"), s) := by
  constructor
  · have hrun : ((piSystem .fraction).exec {} tornLine).map (timesWritten · "c-2") = some 2 := by
      decide +kernel
    obtain ⟨s, hexec, htimes⟩ := map_eq_some_iff.mp hrun
    exact ⟨s, System.reachable_of_exec rfl hexec, htimes⟩
  · have hrun : ((piSystem .fraction).exec {} (acknowledged ++ [.eof])).map
        (fun s => (s.owner.any fun o => o.closed && o.taskId == some 7 && o.attemptId == some "a-1",
          s.recorded.any fun r => ofCommand "c-1" r && (r.get "status").isStr "ack")) =
          some (true, true) := by
      decide +kernel
    obtain ⟨s, hexec, heq⟩ := map_eq_some_iff.mp hrun
    obtain ⟨howner, hrecorded⟩ := Prod.mk.inj heq
    obtain ⟨o, ho, hfields⟩ := (Option.any_eq_true _ _).mp howner
    obtain ⟨outcome, hmem, hvalues⟩ := List.any_eq_true.mp hrecorded
    simp only [Bool.and_eq_true, beq_iff_eq] at hfields hvalues
    obtain ⟨⟨hclosed, htask⟩, hattempt⟩ := hfields
    refine ⟨s, o, System.reachable_of_exec rfl hexec, ho,
      ⟨outcome, hmem, isStr_iff.mp hvalues.1, isStr_iff.mp hvalues.2⟩, ?_⟩
    refine dispatch_closed ?_ hclosed (by decide)
    unfold checkScope
    rw [htask, hattempt]
    rfl

/-- The journal is written ahead: each command is in it before Pi has it, and it holds outcomes of
    written commands only, at most one of each. -/
theorem journal_written_ahead {F : FloatText} {s : State} {id : String}
    (hs : (piSystem F).Reachable (OwnLines F) s) (hid : id ≠ "") :
    (0 < timesWritten s id → ∃ r ∈ records F s.requests, ofCommand id r) ∧
      (outcomes F s id ≠ [] → 0 < timesWritten s id) ∧ (outcomes F s id).length ≤ 1 := by
  have h := journaled_of_reachable hs
  exact ⟨h.request id hid, h.answered id hid, h.oneOutcome id hid⟩

theorem journal_written_ahead_acknowledged :
    ∃ s, timesWritten s "c-1" = 1 ∧ ∃ r ∈ records .fraction s.requests, ofCommand "c-1" r := by
  have hrun : ((piSystem .fraction).execWhile (OwnLines .fraction) {} acknowledged).map
      (timesWritten · "c-1") = some 1 := by
    decide +kernel
  obtain ⟨s, hs, htimes⟩ := System.exists_reachable_of_execWhile hrun rfl
  exact ⟨s, htimes, (journal_written_ahead hs (by decide)).1 (by omega)⟩

end Codify.Harness.PiOwner

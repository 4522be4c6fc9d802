import Codify.Harness.PiOwner
import Codify.Framework.Fallible

/-! # Native Request Ids

    The ids an owner writes come from its own counter (handshake, `get_state`) or
    from the pump (`1000000 + sequence_no`). The counter is lifted by the pump's
    ids but walks on by itself, so it may reach an id that the pump has not used
    yet. The ids are distinct exactly when it does not.
-/

namespace Codify.Harness.PiOwner

open Codify.Framework List Option
open Codify.Framework.JsonText

/-! ### Decimal Text -/

theorem decimal_of_isDigit {c : Char} (h : c.isDigit) : decimal c = some (c.toNat - 48) := by
  have hrange : 48 ≤ c.toNat ∧ c.toNat < 48 + 10 := by
    simp only [Char.isDigit, Bool.and_eq_true, decide_eq_true_eq, UInt32.le_iff_toNat_le] at h
    have h₁ : 48 ≤ c.toNat := h.1
    have h₂ : c.toNat ≤ 57 := h.2
    omega
  unfold decimal decimalZeros
  rw [find?_cons_of_pos (by simpa using hrange)]
  rfl

theorem foldlM_decimal {cs : List Char} (h : ∀ c ∈ cs, c.isDigit) (n : Nat) :
    cs.foldlM (fun n c => (decimal c).map (10 * n + ·)) n = some (Nat.ofDigitChars 10 cs n) := by
  induction cs generalizing n with
  | nil => rfl
  | cons c cs ih =>
    rw [List.foldlM_cons, decimal_of_isDigit (h c mem_cons_self)]
    exact ih (fun d hd => h d (mem_cons_of_mem c hd)) _

theorem isDigit_of_mem_toString {n : Nat} {c : Char} (h : c ∈ (toString n).toList) :
    c.isDigit := by
  rw [toList_toString] at h
  exact Nat.isDigit_of_mem_toDigits (by decide) (by decide) h

variable (commandId : String) (n : Nat)

theorem intOfDigits_toString : intOfDigits (toString n) = some n := by
  unfold intOfDigits
  rw [foldlM_decimal fun c hc => isDigit_of_mem_toString hc, toList_toString,
    Nat.ofDigitChars_ten_toDigits]

theorem isdigit_toString : isdigit (toString n) := by
  unfold isdigit
  rw [Bool.and_eq_true, List.all_eq_true]
  constructor
  · have hne : (toString n).toList ≠ [] := by
      rw [toList_toString]
      exact ne_nil_of_length_pos Nat.length_toDigits_pos
    rw [bne_iff_ne]
    rintro heq
    rw [heq] at hne
    exact hne rfl
  · intro c hc
    rw [decimal_of_isDigit (isDigit_of_mem_toString hc)]
    rfl

/-! ### Frames of the Pump -/

/-- `steer` or `follow_up`. -/
def isCommand (frame : JsonObject) : Bool :=
  (frame.get "type").isStr "steer" || (frame.get "type").isStr "follow_up"

/-- A frame as the pump builds it. -/
structure PumpFrame (frame : JsonObject) : Prop where
  /-- A command carries its sequence number and asks for the id made from it. -/
  command : isCommand frame → ∃ n : Nat, frame.get "sequence_no" = .int n ∧
    frame.get "native_request_id" = .str (toString (1000000 + n))
  /-- A probe asks for no id. -/
  probe : (frame.get "type").isStr "get_state" → frame.get "native_request_id" = .null
  /-- The payload is a dict. -/
  payload : (messageOf frame).isSome

/-- The sequence number of a dispatched command. -/
def Label.sequenceNo : Label → Option Nat
  | .dispatch frame _ =>
    if isCommand frame.1 then (frame.1.get "sequence_no").asInt.map Int.toNat else none
  | _ => none

def Label.isStart : Label → Bool
  | .start _ _ => true
  | _ => false

/-- Every frame dispatched in these steps is one of the pump's. -/
def PumpFrames (labels : List Label) : Prop :=
  ∀ frame cut, .dispatch frame cut ∈ labels → PumpFrame frame.1

/-! ### What a Step Sends -/

section Steps

variable {F : FloatText} {s s' : State} {o o' : Owner} {l : Label}

/-- The step sends nothing. -/
structure Quiet (o o' : Owner) : Prop where
  next : o'.nextNativeId = o.nextNativeId
  sent : o'.sent = o.sent
  pending : o'.pending ⊆ o.pending

/-- The step numbers one request and sends it. -/
structure Sends (o o' : Owner) (source : IdSource) (nativeId : String) : Prop where
  next : o'.nextNativeId = source.advance o.nextNativeId
  sent : ∃ native, o'.sent = o.sent ++ [⟨source.id o.nextNativeId, nativeId, source, native⟩]
  pending : ∀ p ∈ o'.pending, p = (nativeId, o.sent.length) ∨ p ∈ o.pending

theorem quiet_refl (o : Owner) : Quiet o o := ⟨rfl, rfl, List.Subset.refl _⟩

theorem quiet_read (record : JsonObject) : Quiet o (o.read record) := by
  unfold Owner.read
  split
  · exact ⟨rfl, rfl, List.Subset.refl _⟩
  · split
    · exact ⟨rfl, rfl, filter_subset_self _⟩
    · exact quiet_refl o

theorem quiet_eof : Quiet o o.eof := by
  unfold Owner.eof
  split
  · exact ⟨rfl, rfl, nil_subset _⟩
  · exact ⟨rfl, rfl, nil_subset _⟩

theorem sends_send (source : IdSource) (nativeId : String) (command message : Json) :
    Sends o ((o.number source).send source (source.id o.nextNativeId) nativeId command message)
      source nativeId := by
  refine ⟨rfl, ⟨_, rfl⟩, ?_⟩
  intro p hp
  rcases mem_cons.mp hp with rfl | hp
  · exact .inl rfl
  · exact .inr (mem_of_mem_filter hp)

/-- What a step of the owner does to its numbering: nothing, one round trip of the handshake, or
    one dispatch that passed every check. -/
theorem stepOwner_cases (h : stepOwner F s o l = some s') (ho' : s'.owner = some o')
    (hs : s.owner = some o) :
    Quiet o o' ∨
      (∃ command message, l = .handshake command message ∧
        Sends o o' .fresh (toString (o.nextNativeId + 1))) ∨
      ∃ frame source nativeId, l = .dispatch frame none ∧
        prepare F s o frame.1 = .ok (source, nativeId) ∧
        ((messageOf frame.1).isSome → Sends o o' source nativeId) := by
  cases l with
  | start taskId attemptId => cases h
  | crash =>
    cases h
    cases ho'
  | dispatch frame cut =>
    simp only [stepOwner] at h
    split at h
    · cases h
    cases h
    by_cases hclose : (frame.1.get "type").isStr "close"
    · -- the close marker only sets its flag
      left
      rw [dispatch, if_pos hclose] at ho'
      unfold dispatchClose at ho'
      split at ho'
      · cases hs.symm.trans ho'
        exact quiet_refl _
      · split at ho'
        · cases hs.symm.trans ho'
          exact quiet_refl _
        · cases ho'
          exact ⟨rfl, rfl, List.Subset.refl _⟩
    · rw [dispatch, if_neg hclose] at ho'
      unfold dispatchCommand at ho'
      split at ho'
      · left
        cases hs.symm.trans ho'
        exact quiet_refl _
      · next source nativeId hprepare =>
        cases cut with
        | some n => cases ho'
        | none =>
          right
          right
          refine ⟨frame, source, nativeId, rfl, hprepare, ?_⟩
          intro hmessage
          obtain ⟨message, hmessage⟩ := isSome_iff_exists.mp hmessage
          simp only [State.send, hmessage] at ho'
          cases ho'
          have hsend := @sends_send o source nativeId (frame.1.get "type") message
          exact ⟨hsend.next, hsend.sent, hsend.pending⟩
  | resume cut =>
    left
    obtain ⟨fl, hfl, hresume⟩ := bind_eq_some_iff.mp h
    unfold State.resume at hresume
    split at hresume
    · cases hresume
      cases ho'
      exact ⟨rfl, rfl, List.Subset.refl _⟩
    · cases cut with
      | some n =>
        cases hresume
        cases ho'
      | none =>
        cases hresume
        cases ho'
        exact ⟨rfl, rfl, List.Subset.refl _⟩
    · cases hresume
  | drainFailed =>
    left
    obtain ⟨fl, hfl, rfl⟩ := map_eq_some_iff.mp h
    cases ho'
    exact ⟨rfl, rfl, List.Subset.refl _⟩
  | handshake command message =>
    right
    left
    cases h
    cases ho'
    exact ⟨command, message, rfl, sends_send .fresh _ _ message⟩
  | read record =>
    left
    cases h
    cases ho'
    exact quiet_read record.1
  | timeout i | fail | exit =>
    left
    cases h
    cases ho'
    exact ⟨rfl, rfl, List.Subset.refl _⟩
  | eof =>
    left
    cases h
    cases ho'
    exact quiet_eof

theorem type_of_acceptFrame {frame : JsonObject} (h : acceptFrame o frame = .ok ()) :
    isCommand frame ∨ (frame.get "type").isStr "get_state" := by
  obtain ⟨_, -, h⟩ := bind_eq_ok_iff.mp h
  unfold checkCommand at h
  split at h
  · cases h
  · split at h
    · cases h
    · cases h
    · next hmember =>
      unfold memberOf at hmember
      split at hmember
      · have hany := Except.ok.inj hmember
        simp only [any_cons, any_nil, Bool.or_false, Bool.or_eq_true] at hany
        rcases hany with hsteer | hfollow | hstate
        · exact .inl (by simp [isCommand, hsteer])
        · exact .inl (by simp [isCommand, hfollow])
        · exact .inr hstate
      · cases hmember

theorem PumpFrame.source {frame : Dict} (hframe : PumpFrame frame.1) {source : IdSource}
    {nativeId : String} (h : prepare F s o frame.1 = .ok (source, nativeId)) :
    nativeId = toString (source.id o.nextNativeId) ∧
      (source = .fresh ∨ ∃ n, source = .given (1000000 + n) ∧
        (Label.dispatch frame none).sequenceNo = some n) := by
  obtain ⟨_, haccept, h⟩ := bind_eq_ok_iff.mp h
  obtain ⟨_, -, hid⟩ := bind_eq_ok_iff.mp h
  rcases type_of_acceptFrame haccept with hcommand | hstate
  · obtain ⟨n, hseq, hnative⟩ := hframe.command hcommand
    simp only [chooseId, hnative, isdigit_toString, if_true, intOfDigits_toString] at hid
    cases hid
    refine ⟨rfl, .inr ⟨n, rfl, ?_⟩⟩
    simp [Label.sequenceNo, hcommand, hseq, Json.asInt]
  · simp only [chooseId, hframe.probe hstate] at hid
    cases hid
    exact ⟨rfl, .inl rfl⟩

end Steps

/-! ### Numbering -/

/-- The sources of the requests of an owner, in order. -/
def Owner.sources (o : Owner) : List IdSource := o.sent.map Request.source

def Owner.ids (o : Owner) : List Nat := o.sent.map Request.id

/-- How an owner stands that has been asked for the commands `seen`. -/
structure Numbered (o : Owner) (seen : List Nat) : Prop where
  next : o.nextNativeId = IdSource.counter 10 o.sources
  ids : o.ids = IdSource.ids 10 o.sources
  text : ∀ r ∈ o.sent, r.nativeId = toString r.id
  givens : (IdSource.givens o.sources).Sublist (seen.map (1000000 + ·))
  pending : ∀ p ∈ o.pending, ∃ r, o.sent[p.2]? = some r ∧ r.nativeId = p.1

section Numbering

variable {F : FloatText} {s s' t : State} {o o' : Owner} {l : Label} {seen : List Nat}

theorem numbered_fresh (taskId : Option Int) (attemptId : Option String) :
    Numbered { taskId, attemptId } [] :=
  ⟨rfl, rfl, nofun, List.Sublist.refl _, nofun⟩

theorem Numbered.quiet (h : Numbered o seen) (hq : Quiet o o') (more : List Nat) :
    Numbered o' (seen ++ more) := by
  have hsources : o'.sources = o.sources := by rw [Owner.sources, hq.sent]; rfl
  have hids : o'.ids = o.ids := by rw [Owner.ids, hq.sent]; rfl
  refine ⟨?_, ?_, ?_, ?_, ?_⟩
  · rw [hq.next, hsources, h.next]
  · rw [hids, hsources, h.ids]
  · rw [hq.sent]
    exact h.text
  · rw [hsources, map_append]
    exact h.givens.trans (sublist_append_left _ _)
  · rw [hq.sent]
    exact fun p hp => h.pending p (hq.pending hp)

theorem Numbered.sends (h : Numbered o seen) {source : IdSource} {nativeId : String}
    (hsend : Sends o o' source nativeId) (htext : nativeId = toString (source.id o.nextNativeId))
    {more : List Nat}
    (hmore : source = .fresh ∨ ∃ n, source = .given (1000000 + n) ∧ more = [n]) :
    Numbered o' (seen ++ more) := by
  obtain ⟨native, hsent⟩ := hsend.sent
  have hsources : o'.sources = o.sources ++ [source] := by
    rw [Owner.sources, hsent, map_append]
    rfl
  have hids : o'.ids = o.ids ++ [source.id o.nextNativeId] := by
    rw [Owner.ids, hsent, map_append]
    rfl
  refine ⟨?_, ?_, ?_, ?_, ?_⟩
  · rw [hsend.next, hsources, IdSource.counter_snoc, h.next]
  · rw [hids, hsources, IdSource.ids_snoc, h.ids, h.next]
  · intro r hr
    rw [hsent, mem_append, mem_singleton] at hr
    rcases hr with hr | rfl
    · exact h.text r hr
    · exact htext
  · rw [hsources, IdSource.givens_append, map_append]
    rcases hmore with rfl | ⟨n, rfl, rfl⟩
    · exact h.givens.append (nil_sublist _)
    · exact h.givens.append (List.Sublist.refl _)
  · intro p hp
    rw [hsent]
    rcases hsend.pending p hp with rfl | hp
    · refine ⟨⟨source.id o.nextNativeId, nativeId, source, native⟩, ?_, rfl⟩
      simp
    · obtain ⟨r, hr, hkey⟩ := h.pending p hp
      refine ⟨r, ?_, hkey⟩
      rw [getElem?_append_left (List.getElem?_eq_some_iff.mp hr).1]
      exact hr

theorem Numbered.step (h : Numbered o seen) (hs : s.owner = some o)
    (hnext : stepOwner F s o l = some s') (ho' : s'.owner = some o') (hframes : PumpFrames [l]) :
    Numbered o' (seen ++ l.sequenceNo.toList) := by
  rcases stepOwner_cases hnext ho' hs with hquiet | ⟨command, message, rfl, hsend⟩ |
    ⟨frame, source, nativeId, rfl, hprepare, hsend⟩
  · exact h.quiet hquiet _
  · exact h.sends hsend rfl (.inl rfl)
  · have hframe : PumpFrame frame.1 := hframes frame none mem_cons_self
    obtain ⟨htext, hsource⟩ := hframe.source hprepare
    refine h.sends (hsend hframe.payload) htext ?_
    rcases hsource with hfresh | ⟨n, hgiven, hseq⟩
    · exact .inl hfresh
    · exact .inr ⟨n, hgiven, by rw [hseq]; rfl⟩

theorem owner_of_next (h : next F s l = some s') (hstart : l.isStart = false) :
    ∃ o, s.owner = some o ∧ stepOwner F s o l = some s' := by
  unfold next at h
  split at h
  · next o ho => exact ⟨o, ho, h⟩
  · cases hstart
  · cases h

theorem owner_of_exec {ls : List Label} (h : (piSystem F).exec s ls = some t)
    (ht : t.owner = some o') (hstart : ∀ l ∈ ls, l.isStart = false) : ∃ o, s.owner = some o := by
  cases ls with
  | nil =>
    obtain rfl : s = t := by simpa [System.exec] using h
    exact ⟨o', ht⟩
  | cons l ls =>
    obtain ⟨s₁, hnext, -⟩ := bind_eq_some_iff.mp h
    obtain ⟨o, ho, -⟩ := owner_of_next hnext (hstart l mem_cons_self)
    exact ⟨o, ho⟩

theorem Numbered.exec {ls : List Label} (h : Numbered o seen) (hs : s.owner = some o)
    (hexec : (piSystem F).exec s ls = some t) (ht : t.owner = some o')
    (hstart : ∀ l ∈ ls, l.isStart = false) (hframes : PumpFrames ls) :
    Numbered o' (seen ++ ls.filterMap Label.sequenceNo) := by
  induction ls generalizing s o seen with
  | nil =>
    obtain rfl : s = t := by simpa [System.exec] using hexec
    cases hs.symm.trans ht
    simpa using h
  | cons l ls ih =>
    obtain ⟨s₁, hnext, hrest⟩ := bind_eq_some_iff.mp hexec
    have hstart' : ∀ l ∈ ls, l.isStart = false :=
      fun l' hl' => hstart l' (mem_cons_of_mem l hl')
    obtain ⟨o₁, ho₁⟩ := owner_of_exec hrest ht hstart'
    obtain ⟨o₀, ho₀, hstep⟩ := owner_of_next hnext (hstart l mem_cons_self)
    cases hs.symm.trans ho₀
    have hone : PumpFrames [l] := by
      intro frame cut hmem
      rw [mem_singleton] at hmem
      exact hframes frame cut (hmem ▸ mem_cons_self)
    have hnumbered := h.step hs hstep ho₁ hone
    have hlater := ih hnumbered ho₁ hrest hstart'
      fun frame cut hmem => hframes frame cut (mem_cons_of_mem l hmem)
    have hseen : seen ++ (l :: ls).filterMap Label.sequenceNo =
        seen ++ l.sequenceNo.toList ++ ls.filterMap Label.sequenceNo := by
      rw [filterMap_cons, append_assoc]
      cases l.sequenceNo with
      | none => rfl
      | some n => rfl
    rw [hseen]
    exact hlater

end Numbering

/-! ### Late Answers -/

def Answers (record : JsonObject) (r : Request) : Prop :=
  (record.get "type").isStr "response" ∧ record.get "id" = .int r.id

/-- Whenever it comes, an answer resolves no future but the one of the request it answers. -/
def AnswersResolveOwn (o : Owner) : Prop :=
  ∀ i r, o.sent[i]? = some r → ∀ record, Answers record r → ∀ j, resolves o record = some j → j = i

theorem Numbered.answersResolveOwn {o : Owner} {seen : List Nat} (h : Numbered o seen)
    (hnodup : o.ids.Nodup) : AnswersResolveOwn o := by
  intro i r hr record hanswers j hj
  obtain ⟨htype, hid⟩ := hanswers
  unfold resolves responseId at hj
  rw [if_pos htype, hid] at hj
  have hkey : o.pending.lookup (toString r.id) = some j := hj
  -- the pending future belongs to a request with the same id
  obtain ⟨r', hr', htext'⟩ := h.pending _ (OrderedDict.mem_of_lookup hkey)
  have hid' : r'.id = r.id := by
    apply toString_injective
    rw [← h.text r' (mem_of_getElem? hr')]
    exact htext'
  have hi : o.ids[i]? = some r.id := by rw [Owner.ids, getElem?_map, hr]; rfl
  have hj' : o.ids[j]? = some r.id := by
    rw [Owner.ids, getElem?_map, hr', ← hid']
    rfl
  have hlt := (List.getElem?_eq_some_iff.mp hj').1
  exact (getElem?_inj hlt hnodup).mp (hj'.trans hi.symm)

/-- The ids an owner writes are pairwise distinct, and so an answer resolves only its own
    request, exactly when no command comes after the local counter has walked onto its id. -/
theorem native_ids_distinct (F : FloatText) {s t : State} {o : Owner} {ls : List Label}
    {taskId : Option Int} {attemptId : Option String}
    (hs : s.owner = some { taskId, attemptId })
    (hexec : (piSystem F).exec s ls = some t) (ht : t.owner = some o)
    (hstart : ∀ l ∈ ls, l.isStart = false) (hframes : PumpFrames ls)
    (hdistinct : (ls.filterMap Label.sequenceNo).Nodup) :
    (o.ids.Nodup ∧ AnswersResolveOwn o) ↔ ¬ IdSource.Overtaken 10 o.sources := by
  have hnumbered := (numbered_fresh taskId attemptId).exec hs hexec ht hstart hframes
  have hgivens : (IdSource.givens o.sources).Nodup := by
    refine hnumbered.givens.nodup (List.Nodup.map ?_ hdistinct)
    intro m n h
    simpa using h
  have habove : ∀ n ∈ IdSource.givens o.sources, 10 < n := by
    intro n hn
    obtain ⟨k, -, rfl⟩ := List.mem_map.mp (hnumbered.givens.subset hn)
    omega
  have hiff := IdSource.ids_nodup_iff hgivens habove
  rw [← hnumbered.ids] at hiff
  constructor
  · intro h
    exact hiff.mp h.1
  · intro h
    have hnodup := hiff.mpr h
    exact ⟨hnodup, hnumbered.answersResolveOwn hnodup⟩

/-! ### A Probe between Two Commands -/

/-- The frame of a steer command as the pump builds it. -/
def steerFrame : JsonObject :=
  [("command_id", .str commandId), ("task_id", .int 7), ("attempt_id", .str "a-1"),
   ("control_gate", .str "accepting"), ("sequence_no", .int n), ("type", .str "steer"),
   ("payload", .obj [("text", .str "go on")]),
   ("native_request_id", .str (toString (1000000 + n)))]

def probeFrame : JsonObject :=
  [("task_id", .int 7), ("attempt_id", .str "a-1"), ("type", .str "get_state")]

theorem keysUnique_steerFrame : keysUnique (.obj (steerFrame commandId n)) := by
  rw [keysUnique_obj_iff]
  refine ⟨by simp [steerFrame], ?_⟩
  intro p hp
  simp only [steerFrame, mem_cons, not_mem_nil, or_false] at hp
  rcases hp with rfl | rfl | rfl | rfl | rfl | rfl | rfl | rfl <;> rfl

theorem pumpFrame_steerFrame : PumpFrame (steerFrame commandId n) where
  command _ := ⟨n, rfl, rfl⟩
  probe h := by
    have hsteer : (Json.str "steer").isStr "get_state" = true := h
    exact absurd hsteer (show ¬ (Json.str "steer").isStr "get_state" = true by decide)
  payload := rfl

theorem pumpFrame_probeFrame : PumpFrame probeFrame where
  command h := absurd h (by decide)
  probe _ := rfl
  payload := rfl

def steer : Label := .dispatch ⟨steerFrame commandId n, keysUnique_steerFrame commandId n⟩ none

def probe : Label := .dispatch ⟨probeFrame, rfl⟩ none

theorem pumpFrames_of_samples {ls : List Label}
    (h : ∀ l ∈ ls, (∃ commandId n, l = steer commandId n) ∨ l = probe ∨ l = .resume none ∨
      ∃ i, l = .timeout i) : PumpFrames ls := by
  intro frame cut hmem
  rcases h _ hmem with ⟨commandId, n, heq⟩ | heq | heq | ⟨i, heq⟩
  · obtain ⟨rfl, -⟩ := Label.dispatch.inj heq
    exact pumpFrame_steerFrame commandId n
  · obtain ⟨rfl, -⟩ := Label.dispatch.inj heq
    exact pumpFrame_probeFrame
  · cases heq
  · cases heq

/-- A directory whose owner has just started. -/
def freshOwner : State := { owner := some { taskId := some 7, attemptId := some "a-1" } }

def ownerAfter (ls : List Label) : Option Owner :=
  ((piSystem .fraction).exec freshOwner ls).bind State.owner

def probeFirst : List Label :=
  [probe, .timeout 0, .resume none, steer "c-1" 1, .timeout 1, .resume none, steer "c-2" 2]

def probeBetween : List Label :=
  [steer "c-1" 1, .timeout 0, .resume none, probe, .timeout 1, .resume none, steer "c-2" 2]

theorem exec_of_ownerAfter {ls : List Label} {o : Owner} (h : ownerAfter ls = some o) :
    ∃ t, (piSystem .fraction).exec freshOwner ls = some t ∧ t.owner = some o :=
  bind_eq_some_iff.mp h

/-- A probe before the commands keeps the ids apart. -/
theorem native_ids_distinct_probe_first :
    ∃ o, ownerAfter probeFirst = some o ∧ o.ids = [11, 1000001, 1000002] ∧
      o.ids.Nodup ∧ AnswersResolveOwn o := by
  have hrun : (ownerAfter probeFirst).map (fun o => (o.ids, o.sources)) =
      some ([11, 1000001, 1000002], [.fresh, .given 1000001, .given 1000002]) := by
    decide +kernel
  obtain ⟨o, ho, heq⟩ := map_eq_some_iff.mp hrun
  obtain ⟨hids, hsources⟩ := Prod.mk.inj heq
  obtain ⟨t, hexec, ht⟩ := exec_of_ownerAfter ho
  have hframes : PumpFrames probeFirst := pumpFrames_of_samples (by simp [probeFirst])
  refine ⟨o, ho, hids, ?_⟩
  refine (native_ids_distinct .fraction rfl hexec ht (by decide) hframes (by decide)).mpr ?_
  rw [hsources]
  exact (IdSource.ids_nodup_iff (by decide) (by decide)).mp (by decide)

/-- After a first command a probe takes the id of the second one; its answer then resolves the
    future of that command. -/
theorem probe_takes_next_command_id :
    ∃ o, ownerAfter probeBetween = some o ∧ PumpFrames probeBetween ∧
      (probeBetween.filterMap Label.sequenceNo).Nodup ∧
      ¬ o.ids.Nodup ∧ ¬ AnswersResolveOwn o := by
  have hrun : (ownerAfter probeBetween).map
      (fun o => (o.ids, resolves o [("type", .str "response"), ("id", .int 1000002)])) =
        some ([1000001, 1000002, 1000002], some 2) := by
    decide +kernel
  obtain ⟨o, ho, heq⟩ := map_eq_some_iff.mp hrun
  obtain ⟨hids, hresolves⟩ := Prod.mk.inj heq
  refine ⟨o, ho, pumpFrames_of_samples (by simp [probeBetween]), by decide, by rw [hids]; decide, ?_⟩
  intro hown
  -- the answer to the probe, the second request
  have hprobe : o.ids[1]? = some 1000002 := by rw [hids]; rfl
  obtain ⟨r, hr, hid⟩ := map_eq_some_iff.mp ((getElem?_map ..).symm.trans hprobe)
  have hanswers : Answers [("type", .str "response"), ("id", .int 1000002)] r := by
    refine ⟨rfl, ?_⟩
    rw [hid]
    rfl
  exact absurd (hown 1 r hr _ hanswers 2 hresolves) (by decide)

end Codify.Harness.PiOwner

import Codify.Framework.JsonEquality
import Codify.Harness.OpenCodeBridge

/-! # Isolation of the OpenCode Bridge

    What the bridge forwards are the task's own records, and the records of other
    sessions make no difference to an attempt.

    Three things in a stream break this. A record whose type is a list or a dict
    raises in the first set it is looked up in. A record of a foreign session that
    declares a child of the task registers that child. And the summarize probe is
    taken by the first idle record of any admitted session: when a child goes idle
    first, the end of its delegation is withheld from the translator.
-/

namespace Codify.Harness.OpenCodeBridge

open Codify.Framework Codify.Harness List Option

/-! ### Selecting Records of a Stream -/

open Classical in
/-- The records of a stream that satisfy `P` where they stand; `seen` came before it. -/
noncomputable def selectRecords (P : List JsonObject → JsonObject → Prop)
    (seen : List JsonObject) : List JsonObject → List JsonObject
  | [] => []
  | record :: rest =>
    if P (seen ++ [record]) record then record :: selectRecords P (seen ++ [record]) rest
    else selectRecords P (seen ++ [record]) rest

/-- The task's own records. -/
noncomputable def ownRecords (root : String) (seen stream : List JsonObject) : List JsonObject :=
  selectRecords (Own root) seen stream

/-- The stream with all records of other sessions deleted. -/
noncomputable def withoutForeign (root : String) (seen stream : List JsonObject) :
    List JsonObject :=
  selectRecords (fun seen record => ¬ Foreign root seen record) seen stream

section Selecting

variable {P : List JsonObject → JsonObject → Prop} {seen : List JsonObject} {record : JsonObject}

theorem selectRecords_pos (h : P (seen ++ [record]) record) (rest : List JsonObject) :
    selectRecords P seen (record :: rest) = record :: selectRecords P (seen ++ [record]) rest := by
  rw [selectRecords, if_pos h]

theorem selectRecords_neg (h : ¬ P (seen ++ [record]) record) (rest : List JsonObject) :
    selectRecords P seen (record :: rest) = selectRecords P (seen ++ [record]) rest := by
  rw [selectRecords, if_neg h]

theorem selectRecords_append (seen a b : List JsonObject) :
    selectRecords P seen (a ++ b) = selectRecords P seen a ++ selectRecords P (seen ++ a) b := by
  induction a generalizing seen with
  | nil =>
    rw [nil_append, append_nil]
    rfl
  | cons record a ih =>
    have ih := ih (seen ++ [record])
    rw [append_assoc, singleton_append] at ih
    by_cases h : P (seen ++ [record]) record
    · rw [cons_append, selectRecords_pos h, selectRecords_pos h, ih, cons_append]
    · rw [cons_append, selectRecords_neg h, selectRecords_neg h, ih]

end Selecting

/-! ### Conditions on a Stream -/

/-- Nothing in the record raises where the bridge looks it up in a set. -/
def Plain (record : JsonObject) : Prop :=
  (record.get "type").hashable ∧ (toolStatus record).hashable

/-- No record of another session is the first to declare a session of the task. -/
def Consistent (root : String) (seen stream : List JsonObject) : Prop :=
  ∀ before record after, stream = before ++ record :: after →
    ∀ parent child, Declares record parent child → Linked root (seen ++ before) parent →
      ¬ Linked root (seen ++ before) child → ¬ Foreign root (seen ++ before ++ [record]) record

/-- A record that takes an acknowledged summarize probe is one of the root. -/
def ProbeAtRoot (env : Surroundings) (root : String) (s : State) (record : JsonObject) : Prop :=
  ∀ active, updateActiveToolIds env.py record s.activeToolIds = some active →
    probes env { s with activeToolIds := active } record → env.summarizeAcknowledged →
      recordSessionId record = some root

/-- Every record of the drain loop does so, in the state before it. -/
def DrainAtRoot (env : Surroundings) (root : String) (s : State) : List JsonObject → Prop
  | [] => True
  | record :: rest =>
    (admits (s.register record).parents record → ProbeAtRoot env root (s.register record) record) ∧
      match drainRecord env s record with
      | (s', none) => DrainAtRoot env root s' rest
      | (_, some _) => True

def ProbesAtRoot (env : Surroundings) (root : String) (stream : List JsonObject) : Prop :=
  match subscribe (State.init root) stream with
  | (s, .connected rest) => env.promptAccepted → DrainAtRoot env root s rest
  | _ => True

section Conditions

variable {root : String} {seen : List JsonObject} {record : JsonObject} {rest : List JsonObject}

theorem Consistent.head (h : Consistent root seen (record :: rest)) {parent child : String}
    (hdeclares : Declares record parent child) (hparent : Linked root seen parent)
    (hchild : ¬ Linked root seen child) : ¬ Foreign root (seen ++ [record]) record := by
  have hhead := h [] record rest rfl parent child hdeclares
  rw [append_nil] at hhead
  exact hhead hparent hchild

theorem Consistent.tail (h : Consistent root seen (record :: rest)) :
    Consistent root (seen ++ [record]) rest := by
  intro before r after hrest parent child hdeclares
  rw [append_assoc, singleton_append]
  exact h (record :: before) r after (by rw [hrest]; rfl) parent child hdeclares

theorem Consistent.append {a b : List JsonObject} (h : Consistent root seen (a ++ b)) :
    Consistent root (seen ++ a) b := by
  intro before r after hb parent child hdeclares
  rw [append_assoc]
  exact h (a ++ before) r after (by rw [hb, append_assoc]) parent child hdeclares

/-- It is enough that a record that declares a session is a record of that session. -/
theorem consistent_of_self {stream : List JsonObject}
    (h : ∀ record ∈ stream, ∀ parent child, Declares record parent child →
      recordSessionId record = some child) : Consistent root seen stream := by
  intro before record after hstream parent child hdeclares hparent _ hforeign
  obtain ⟨session, hsession, hlinked⟩ := hforeign
  have hmem : record ∈ stream := by simp [hstream]
  rw [h record hmem parent child hdeclares] at hsession
  cases hsession
  exact hlinked (linked_concat.mpr (.inr ⟨parent, hparent, hdeclares⟩))

theorem foreign_unregistered {s : State} (hregistered : Registered root seen s.parents)
    (hconsistent : Consistent root seen (record :: rest))
    (hforeign : Foreign root (seen ++ [record]) record) :
    s.register record = s ∧ admits s.parents record = false := by
  have hnew : newSession s.parents record = none := by
    cases hsession : newSession s.parents record with
    | none => rfl
    | some child =>
      obtain ⟨hchild, parent, hparent, hdeclares⟩ := newSession_eq_some_iff.mp hsession
      exact absurd hforeign (hconsistent.head hdeclares ((hregistered parent).mp hparent)
        fun hlinked => hchild ((hregistered child).mpr hlinked))
  have hregister : s.register record = s := by
    simp [State.register, OpenCodeBridge.register, hnew]
  refine ⟨hregister, ?_⟩
  have hafter : Registered root (seen ++ [record]) (s.register record).parents :=
    registered_register hregistered
  have hown : ¬ Own root (seen ++ [record]) record := by
    obtain ⟨session, hsession, hlinked⟩ := hforeign
    unfold Own
    rw [hsession]
    exact hlinked
  have hadmits := (admits_iff hafter).not.mpr hown
  rw [hregister] at hadmits
  exact Bool.eq_false_iff.mpr hadmits

end Conditions

theorem drainAtRoot_of_idles {env : Surroundings} {root : String} {s : State}
    {stream : List JsonObject} (h : ∀ record ∈ stream, (record.get "type").isStr "session.idle" →
      recordSessionId record = some root) : DrainAtRoot env root s stream := by
  induction stream generalizing s with
  | nil => trivial
  | cons record stream ih =>
    have htail := fun r hr => h r (mem_cons_of_mem record hr)
    refine ⟨fun _ active _ hprobe _ => ?_, ?_⟩
    · simp only [probes, Bool.and_eq_true] at hprobe
      exact h record mem_cons_self hprobe.1.1.1
    · split
      · exact ih htail
      · trivial

/-! ### Steps -/

section Steps

variable {env : Surroundings} {root : String} {s s' : State} {record : JsonObject}
  {stop : Option Stop}

theorem updateActiveToolIds_plain (py : Python) (h : Plain record) (active : List String) :
    ∃ active', updateActiveToolIds py record active = some active' := by
  unfold updateActiveToolIds
  split
  · split
    · exact ⟨_, rfl⟩
    · rw [if_neg (fun hnot => hnot h.2)]
      split
      · exact ⟨_, rfl⟩
      · split <;> exact ⟨_, rfl⟩
  · exact ⟨_, rfl⟩

theorem deliver_spec (h : deliver env s record = (s', stop)) :
    s'.parents = s.parents ∧ s'.forwarded = s.forwarded ++ [record] ∧
      s'.legacySummarizeAttempted = s.legacySummarizeAttempted ∧
      ∀ why, stop = some why → why.early = true := by
  unfold deliver at h
  dsimp only at h
  split at h
  · obtain ⟨rfl, rfl⟩ := Prod.mk.inj h
    exact ⟨rfl, rfl, rfl, fun why hwhy => by rw [← some.inj hwhy]; rfl⟩
  · split at h
    · obtain ⟨rfl, rfl⟩ := Prod.mk.inj h
      exact ⟨rfl, rfl, rfl, fun why hwhy => by rw [← some.inj hwhy]; rfl⟩
    · obtain ⟨rfl, rfl⟩ := Prod.mk.inj h
      exact ⟨rfl, rfl, rfl, nofun⟩

theorem drainOwn_parents (h : drainOwn env s record = (s', stop)) : s'.parents = s.parents := by
  unfold drainOwn at h
  split at h
  · obtain ⟨rfl, rfl⟩ := Prod.mk.inj h
    rfl
  · dsimp only at h
    split at h
    · split at h
      · obtain ⟨rfl, rfl⟩ := Prod.mk.inj h
        rfl
      · exact (deliver_spec h).1
    · exact (deliver_spec h).1

theorem drainRecord_parents (hhash : (record.get "type").hashable)
    (h : drainRecord env s record = (s', stop)) : s'.parents = (s.register record).parents := by
  rw [drainRecord, if_neg (fun hnot => hnot hhash)] at h
  dsimp only at h
  split at h
  · exact drainOwn_parents h
  · obtain ⟨rfl, rfl⟩ := Prod.mk.inj h
    rfl

/-- An admitted record is forwarded, or it is an idle record that takes an acknowledged
    probe and is withheld. -/
theorem drainOwn_spec (hplain : Plain record) (hroot : ProbeAtRoot env root s record)
    (h : drainOwn env s record = (s', stop)) :
    (∀ why, stop = some why → why.early = true) ∧
      ((s'.forwarded = s.forwarded ++ [record] ∧
          (s.legacySummarizeAttempted → s'.legacySummarizeAttempted)) ∨
        (s'.forwarded = s.forwarded ∧ s.legacySummarizeAttempted = false ∧
          s'.legacySummarizeAttempted = true ∧ env.summarizeAcknowledged = true ∧
          (record.get "type").isStr "session.idle" ∧ recordSessionId record = some root)) := by
  obtain ⟨active, hactive⟩ := updateActiveToolIds_plain env.py hplain s.activeToolIds
  unfold drainOwn at h
  rw [hactive] at h
  dsimp only at h
  by_cases hprobe : probes env { s with activeToolIds := active } record
  · rw [if_pos hprobe] at h
    by_cases hack : env.summarizeAcknowledged
    · rw [if_pos hack] at h
      obtain ⟨rfl, rfl⟩ := Prod.mk.inj h
      have hidle : (record.get "type").isStr "session.idle" ∧ s.legacySummarizeAttempted = false := by
        simp only [probes, Bool.and_eq_true, Bool.not_eq_true'] at hprobe
        exact ⟨hprobe.1.1.1, hprobe.1.2⟩
      refine ⟨nofun, .inr ?_⟩
      exact ⟨rfl, hidle.2, rfl, hack, hidle.1, hroot active hactive hprobe hack⟩
    · rw [if_neg hack] at h
      obtain ⟨-, hforwarded, hattempted, hstop⟩ := deliver_spec h
      exact ⟨hstop, .inl ⟨hforwarded, fun _ => hattempted⟩⟩
  · rw [if_neg hprobe] at h
    obtain ⟨-, hforwarded, hattempted, hstop⟩ := deliver_spec h
    exact ⟨hstop, .inl ⟨hforwarded, fun hs => hattempted.trans hs⟩⟩

end Steps

/-! ### What Is Forwarded -/

section Forwarding

variable {env : Surroundings} {root : String}

def Withheld (env : Surroundings) (root : String) (withheld : List JsonObject) : Prop :=
  withheld.length ≤ 1 ∧ ∀ record ∈ withheld, (record.get "type").isStr "session.idle" ∧
    recordSessionId record = some root ∧ env.summarizeAcknowledged = true

/-- `forwarded` are the records `own`, one withheld at most. -/
def ForwardedOf (env : Surroundings) (root : String) (own forwarded : List JsonObject) : Prop :=
  ∃ a withheld b, own = a ++ withheld ++ b ∧ forwarded = a ++ b ∧ Withheld env root withheld

theorem ForwardedOf.self (own : List JsonObject) : ForwardedOf env root own own := by
  refine ⟨own, [], [], ?_, ?_, Nat.zero_le _, nofun⟩
  · rw [append_nil, append_nil]
  · rw [append_nil]

theorem ForwardedOf.prepend {own forwarded : List JsonObject}
    (h : ForwardedOf env root own forwarded) (start : List JsonObject) :
    ForwardedOf env root (start ++ own) (start ++ forwarded) := by
  obtain ⟨a, withheld, b, rfl, rfl, hwithheld⟩ := h
  exact ⟨start ++ a, withheld, b, by simp only [append_assoc],
    by simp only [append_assoc], hwithheld⟩

/-- A subscription forwards the root's own records. -/
theorem subscribe_forwarded {s s' : State} {seen stream : List JsonObject}
    {result : Subscription} (hregistered : Registered root seen s.parents)
    (hplain : ∀ record ∈ stream, Plain record) (h : subscribe s stream = (s', result)) :
    ∃ read rest, stream = read ++ rest ∧ Registered root (seen ++ read) s'.parents ∧
      s'.forwarded = s.forwarded ++ ownRecords root seen read ∧
      s'.legacySummarizeAttempted = s.legacySummarizeAttempted ∧
      ((result = .missing ∧ rest = []) ∨ result = .connected rest) := by
  induction stream generalizing s seen with
  | nil =>
    obtain ⟨rfl, rfl⟩ := Prod.mk.inj h
    refine ⟨[], [], rfl, ?_, ?_, rfl, .inl ⟨rfl, rfl⟩⟩
    · rwa [append_nil]
    · exact (append_nil _).symm
  | cons record stream ih =>
    have hhash := (hplain record mem_cons_self).1
    have hafter : Registered root (seen ++ [record]) (s.register record).parents :=
      registered_register hregistered
    have htail : ∀ r ∈ stream, Plain r := fun r hr => hplain r (mem_cons_of_mem record hr)
    rw [subscribe, if_neg (fun hnot => hnot hhash)] at h
    dsimp only at h
    by_cases hadmits : admits (s.register record).parents record
    · have hown := (admits_iff hafter).mp hadmits
      rw [if_pos hadmits] at h
      by_cases hconnected : (record.get "type").isStr "server.connected"
      · rw [if_pos hconnected] at h
        obtain ⟨rfl, rfl⟩ := Prod.mk.inj h
        refine ⟨[record], stream, rfl, hafter, ?_, rfl, .inr rfl⟩
        rw [ownRecords, selectRecords_pos hown]
        rfl
      · rw [if_neg hconnected] at h
        obtain ⟨read, rest, rfl, hreg, hforwarded, hattempted, hresult⟩ :=
          ih (s := (s.register record).forward record) hafter htail h
        refine ⟨record :: read, rest, rfl, ?_, ?_, hattempted, hresult⟩
        · rwa [append_assoc] at hreg
        · rw [hforwarded, ownRecords, ownRecords, selectRecords_pos hown]
          exact append_assoc s.forwarded [record] _
    · have hown := mt (admits_iff hafter).mpr hadmits
      rw [if_neg hadmits] at h
      obtain ⟨read, rest, rfl, hreg, hforwarded, hattempted, hresult⟩ := ih hafter htail h
      refine ⟨record :: read, rest, rfl, ?_, ?_, hattempted, hresult⟩
      · rwa [append_assoc] at hreg
      · rw [hforwarded, ownRecords, ownRecords, selectRecords_neg hown]
        rfl

theorem drainRecord_spec {s s' : State} {seen : List JsonObject} {record : JsonObject}
    {stop : Option Stop} (hregistered : Registered root seen s.parents) (hplain : Plain record)
    (hroot : admits (s.register record).parents record →
      ProbeAtRoot env root (s.register record) record)
    (h : drainRecord env s record = (s', stop)) :
    Registered root (seen ++ [record]) s'.parents ∧ (∀ why, stop = some why → why.early = true) ∧
      ((s'.forwarded = s.forwarded ++ ownRecords root seen [record] ∧
          (s.legacySummarizeAttempted → s'.legacySummarizeAttempted)) ∨
        (s'.forwarded = s.forwarded ∧ s.legacySummarizeAttempted = false ∧
          s'.legacySummarizeAttempted = true ∧ Withheld env root (ownRecords root seen [record]))) := by
  have hafter : Registered root (seen ++ [record]) (s.register record).parents :=
    registered_register hregistered
  have hparents := drainRecord_parents hplain.1 h
  refine ⟨by rw [hparents]; exact hafter, ?_⟩
  rw [drainRecord, if_neg (fun hnot => hnot hplain.1)] at h
  dsimp only at h
  by_cases hadmits : admits (s.register record).parents record
  · rw [if_pos hadmits] at h
    have hone : ownRecords root seen [record] = [record] :=
      selectRecords_pos ((admits_iff hafter).mp hadmits) []
    obtain ⟨hstop, hcases⟩ := drainOwn_spec hplain (hroot hadmits) h
    rw [hone]
    refine ⟨hstop, ?_⟩
    rcases hcases with hforwarded | ⟨hforwarded, hfalse, htrue, hack, hidle, hsession⟩
    · exact .inl hforwarded
    · refine .inr ⟨hforwarded, hfalse, htrue, Nat.le_refl 1, ?_⟩
      intro r hr
      rw [mem_singleton.mp hr]
      exact ⟨hidle, hsession, hack⟩
  · rw [if_neg hadmits] at h
    obtain ⟨rfl, rfl⟩ := Prod.mk.inj h
    have hnone : ownRecords root seen [record] = [] :=
      selectRecords_neg (mt (admits_iff hafter).mpr hadmits) []
    rw [hnone]
    exact ⟨nofun, .inl ⟨(append_nil _).symm, id⟩⟩

/-- The drain loop forwards the own records it reads, all but a withheld one. Once the probe
    is used up nothing is withheld. -/
theorem drain_forwarded {s s' : State} {seen stream unread : List JsonObject} {stop : Stop}
    (hregistered : Registered root seen s.parents) (hplain : ∀ record ∈ stream, Plain record)
    (hroot : DrainAtRoot env root s stream) (h : drain env s stream = (s', stop, unread)) :
    ∃ read forwarded, stream = read ++ unread ∧ s'.forwarded = s.forwarded ++ forwarded ∧
      ForwardedOf env root (ownRecords root seen read) forwarded ∧
      (s.legacySummarizeAttempted → forwarded = ownRecords root seen read) ∧
      (unread = [] ∨ stop.early = true) := by
  induction stream generalizing s seen with
  | nil =>
    simp only [drain, Prod.mk.injEq] at h
    obtain ⟨rfl, rfl, rfl⟩ := h
    exact ⟨[], [], rfl, (append_nil _).symm, .self [], fun _ => rfl, .inl rfl⟩
  | cons record stream ih =>
    have htail : ∀ r ∈ stream, Plain r := fun r hr => hplain r (mem_cons_of_mem record hr)
    obtain ⟨hprobe, hrest⟩ := hroot
    rcases hstep : drainRecord env s record with ⟨t, stop'⟩
    obtain ⟨hreg, hearly, hcases⟩ :=
      drainRecord_spec hregistered (hplain record mem_cons_self) hprobe hstep
    rw [drain, hstep] at h
    rw [hstep] at hrest
    cases stop' with
    | some why =>
      simp only [Prod.mk.injEq] at h
      obtain ⟨rfl, rfl, rfl⟩ := h
      rcases hcases with ⟨hforwarded, hused⟩ | ⟨hforwarded, hfalse, htrue, hwithheld⟩
      · exact ⟨[record], _, rfl, hforwarded, .self _, fun _ => rfl, .inr (hearly why rfl)⟩
      · refine ⟨[record], [], rfl, by rw [hforwarded, append_nil], ?_, ?_, .inr (hearly why rfl)⟩
        · exact ⟨[], ownRecords root seen [record], [], (append_nil _).symm, rfl, hwithheld⟩
        · intro hused
          rw [hfalse] at hused
          exact nomatch hused
    | none =>
      obtain ⟨read, forwarded, rfl, hout, hof, hexact, hunread⟩ := ih hreg htail hrest h
      have hown : ownRecords root seen (record :: read) =
          ownRecords root seen [record] ++ ownRecords root (seen ++ [record]) read :=
        selectRecords_append seen [record] read
      rcases hcases with ⟨hforwarded, hused⟩ | ⟨hforwarded, hfalse, htrue, hwithheld⟩
      · refine ⟨record :: read, ownRecords root seen [record] ++ forwarded, rfl, ?_, ?_, ?_,
          hunread⟩
        · rw [hout, hforwarded, append_assoc]
        · rw [hown]
          exact hof.prepend _
        · intro hs
          rw [hexact (hused hs), hown]
      · -- the probe is used up, so the rest is forwarded as it is
        rw [hexact htrue] at hout
        refine ⟨record :: read, ownRecords root (seen ++ [record]) read, rfl, ?_, ?_, ?_, hunread⟩
        · rw [hout, hforwarded]
        · rw [hown]
          exact ⟨[], ownRecords root seen [record], _, rfl, rfl, hwithheld⟩
        · intro hused
          rw [hfalse] at hused
          exact nomatch hused

end Forwarding

/-! ### Deleting Foreign Records -/

section Deletion

variable {env : Surroundings} {root : String}

/-- Records of foreign sessions do not change what a subscription reads. -/
theorem subscribe_withoutForeign {s : State} {seen stream : List JsonObject}
    (hregistered : Registered root seen s.parents) (hplain : ∀ record ∈ stream, Plain record)
    (hconsistent : Consistent root seen stream) :
    (∃ s', subscribe s stream = (s', .missing) ∧
        subscribe s (withoutForeign root seen stream) = (s', .missing)) ∨
      ∃ s' read rest, stream = read ++ rest ∧ Registered root (seen ++ read) s'.parents ∧
        subscribe s stream = (s', .connected rest) ∧
        subscribe s (withoutForeign root seen stream) =
          (s', .connected (withoutForeign root (seen ++ read) rest)) := by
  induction stream generalizing s seen with
  | nil => exact .inl ⟨s, rfl, rfl⟩
  | cons record stream ih =>
    have hhash := (hplain record mem_cons_self).1
    have htail : ∀ r ∈ stream, Plain r := fun r hr => hplain r (mem_cons_of_mem record hr)
    have hafter : Registered root (seen ++ [record]) (s.register record).parents :=
      registered_register hregistered
    have hstep : ∀ rest, subscribe s (record :: rest) =
        if admits (s.register record).parents record then
          if (record.get "type").isStr "server.connected" then
            ((s.register record).forward record, .connected rest)
          else subscribe ((s.register record).forward record) rest
        else subscribe (s.register record) rest := by
      intro rest
      rw [subscribe, if_neg (fun hnot => hnot hhash)]
    -- what the record leads to, if the loop goes on in `t`
    have hgo : ∀ t : State, t.parents = (s.register record).parents →
        ((∃ s', subscribe t stream = (s', .missing) ∧
            subscribe t (withoutForeign root (seen ++ [record]) stream) = (s', .missing)) ∨
          ∃ s' read rest, record :: stream = read ++ rest ∧
            Registered root (seen ++ read) s'.parents ∧
            subscribe t stream = (s', .connected rest) ∧
            subscribe t (withoutForeign root (seen ++ [record]) stream) =
              (s', .connected (withoutForeign root (seen ++ read) rest))) := by
      intro t ht
      rcases ih (s := t) (by rw [ht]; exact hafter) htail hconsistent.tail with
        hmissing | ⟨s', read, rest, rfl, hreg, hrun, hdeleted⟩
      · exact .inl hmissing
      · rw [append_assoc, singleton_append] at hreg hdeleted
        exact .inr ⟨s', record :: read, rest, rfl, hreg, hrun, hdeleted⟩
    by_cases hforeign : Foreign root (seen ++ [record]) record
    · obtain ⟨hsame, hnot⟩ := foreign_unregistered hregistered hconsistent hforeign
      have hskip : withoutForeign root seen (record :: stream) =
          withoutForeign root (seen ++ [record]) stream :=
        selectRecords_neg (fun hkeep => hkeep hforeign) stream
      rw [hskip, hstep, hsame, hnot, if_neg Bool.false_ne_true]
      exact hgo s (by rw [hsame])
    · have hkeep : withoutForeign root seen (record :: stream) =
          record :: withoutForeign root (seen ++ [record]) stream :=
        selectRecords_pos hforeign stream
      rw [hkeep, hstep, hstep]
      by_cases hadmits : admits (s.register record).parents record
      · rw [if_pos hadmits, if_pos hadmits]
        by_cases hconnected : (record.get "type").isStr "server.connected"
        · rw [if_pos hconnected, if_pos hconnected]
          exact .inr ⟨(s.register record).forward record, [record], stream, rfl, hafter, rfl, rfl⟩
        · rw [if_neg hconnected, if_neg hconnected]
          exact hgo _ rfl
      · rw [if_neg hadmits, if_neg hadmits]
        exact hgo _ rfl

/-- Records of foreign sessions do not change what a drain reads. -/
theorem drain_withoutForeign {s s' : State} {seen stream unread : List JsonObject} {stop : Stop}
    (hregistered : Registered root seen s.parents) (hplain : ∀ record ∈ stream, Plain record)
    (hconsistent : Consistent root seen stream) (hdrain : drain env s stream = (s', stop, unread)) :
    ∃ unread', drain env s (withoutForeign root seen stream) = (s', stop, unread') := by
  induction stream generalizing s seen with
  | nil => exact ⟨unread, hdrain⟩
  | cons record stream ih =>
    have hplain' := hplain record mem_cons_self
    have htail : ∀ r ∈ stream, Plain r := fun r hr => hplain r (mem_cons_of_mem record hr)
    rw [drain] at hdrain
    by_cases hforeign : Foreign root (seen ++ [record]) record
    · obtain ⟨hsame, hnot⟩ := foreign_unregistered hregistered hconsistent hforeign
      have hskip : withoutForeign root seen (record :: stream) =
          withoutForeign root (seen ++ [record]) stream :=
        selectRecords_neg (fun hkeep => hkeep hforeign) stream
      have hstep : drainRecord env s record = (s, none) := by
        rw [drainRecord, if_neg (fun hnot => hnot hplain'.1), hsame]
        exact if_neg (by rw [hnot]; exact Bool.false_ne_true)
      have hafter : Registered root (seen ++ [record]) s.parents := by
        have hafter : Registered root (seen ++ [record]) (s.register record).parents :=
          registered_register hregistered
        rwa [hsame] at hafter
      rw [hstep] at hdrain
      rw [hskip]
      exact ih hafter htail hconsistent.tail hdrain
    · have hkeep : withoutForeign root seen (record :: stream) =
          record :: withoutForeign root (seen ++ [record]) stream :=
        selectRecords_pos hforeign stream
      rw [hkeep, drain]
      rcases hstep : drainRecord env s record with ⟨t, stop'⟩
      rw [hstep] at hdrain
      cases stop' with
      | some why =>
        simp only [Prod.mk.injEq] at hdrain
        obtain ⟨rfl, rfl, rfl⟩ := hdrain
        exact ⟨_, rfl⟩
      | none =>
        have hafter : Registered root (seen ++ [record]) t.parents := by
          rw [drainRecord_parents hplain'.1 hstep]
          exact registered_register hregistered
        exact ih hafter htail hconsistent.tail hdrain

end Deletion

/-! ### The Attempt -/

section Attempt

variable (env : Surroundings) (root : String) (ending : Ending)

theorem finish_forwarded (s : State) (stop : Stop) :
    (finish env ending s stop).forwarded = s.forwarded ∧ (finish env ending s stop).stop = stop := by
  unfold finish
  split <;> exact ⟨rfl, rfl⟩

theorem runAttempt_forwarded {stream : List JsonObject} (hplain : ∀ record ∈ stream, Plain record)
    (hprobes : ProbesAtRoot env root stream) :
    ∃ read unread, stream = read ++ unread ∧
      ForwardedOf env root (ownRecords root [] read) (runAttempt env root ending stream).1.forwarded ∧
      (unread = [] ∨ (runAttempt env root ending stream).1.stop.early = true) := by
  rcases hsub : subscribe (State.init root) stream with ⟨s, result⟩
  obtain ⟨read, rest, rfl, hreg, hforwarded, hattempted, hresult⟩ :=
    subscribe_forwarded registered_root hplain hsub
  have hforwarded : s.forwarded = ownRecords root [] read := hforwarded
  unfold ProbesAtRoot at hprobes
  unfold runAttempt
  rw [hsub] at hprobes ⊢
  rcases hresult with ⟨rfl, rfl⟩ | rfl
  · refine ⟨read, [], rfl, ?_, .inl rfl⟩
    show ForwardedOf env root _ s.forwarded
    rw [hforwarded]
    exact .self _
  dsimp only
  by_cases hprompt : env.promptAccepted
  · rw [if_pos hprompt]
    rcases hdrain : drain env s rest with ⟨s', stop, unread⟩
    have htail : ∀ r ∈ rest, Plain r := fun r hr => hplain r (mem_append_right read hr)
    obtain ⟨read', forwarded, rfl, hout, hof, -, hunread⟩ :=
      drain_forwarded hreg htail (hprobes hprompt) hdrain
    obtain ⟨hfinish, hstop⟩ := finish_forwarded env ending s' stop
    refine ⟨read ++ read', unread, (append_assoc _ _ _).symm, ?_, ?_⟩
    · show ForwardedOf env root _ (finish env ending s' stop).forwarded
      rw [hfinish, hout, hforwarded, ownRecords, selectRecords_append]
      exact hof.prepend _
    · show unread = [] ∨ (finish env ending s' stop).stop.early = true
      rw [hstop]
      exact hunread
  · rw [if_neg hprompt]
    refine ⟨read, rest, rfl, ?_, .inr rfl⟩
    show ForwardedOf env root _ s.forwarded
    rw [hforwarded]
    exact .self _

theorem runAttempt_withoutForeign {stream : List JsonObject}
    (hplain : ∀ record ∈ stream, Plain record) (hconsistent : Consistent root [] stream) :
    (runAttempt env root ending (withoutForeign root [] stream)).1 =
      (runAttempt env root ending stream).1 := by
  unfold runAttempt
  rcases subscribe_withoutForeign (s := State.init root) registered_root hplain hconsistent with
    ⟨s, hrun, hdeleted⟩ | ⟨s, read, rest, rfl, hreg, hrun, hdeleted⟩
  · rw [hrun, hdeleted]
  · have htail : ∀ r ∈ rest, Plain r := fun r hr => hplain r (mem_append_right read hr)
    rw [hrun, hdeleted]
    dsimp only
    by_cases hprompt : env.promptAccepted
    · rw [if_pos hprompt, if_pos hprompt]
      rcases hdrain : drain env s rest with ⟨s', stop, unread⟩
      obtain ⟨unread', hdrain'⟩ := drain_withoutForeign hreg htail hconsistent.append hdrain
      rw [hdrain']
    · rw [if_neg hprompt, if_neg hprompt]

end Attempt

/-! ### Concrete Streams -/

/-- A marker file, an acknowledging server, and a translator that reads everything. -/
def probed : Surroundings where
  py := { fromIsoFormat := fun _ => none, str := fun _ => "", repr := fun _ => "" }
  summarizeRequested := true
  summarizeAcknowledged := true
  promptAccepted := true
  listening _ := true
  commandFailure _ := false
  commandFailureAtEnd _ := false
  running _ := false
  exitStatus _ _ := 0

/-- `server.connected`. -/
def connected : JsonObject := [("type", .str "server.connected"), ("properties", .obj [])]

/-- `session.idle` of a session. -/
def idleOf (session : String) : JsonObject :=
  [("type", .str "session.idle"), ("properties", .obj [("sessionID", .str session)])]

/-- `session.created` of a child of `parent`. -/
def createdOf (session parent : String) : JsonObject :=
  [("type", .str "session.created"),
    ("properties", .obj [("info", .obj [("id", .str session), ("parentID", .str parent)])])]

/-- `session.error` of a session. -/
def errorOf (session : String) : JsonObject :=
  [("type", .str "session.error"), ("properties", .obj [("sessionID", .str session)])]

/-- A child is created, another session fails, the root goes idle. -/
def attempt : List JsonObject :=
  [connected, createdOf "child" "root", errorOf "other", idleOf "root"]

theorem attempt_plain : ∀ record ∈ attempt, Plain record := by
  intro record hrecord
  simp only [attempt, mem_cons, not_mem_nil, or_false] at hrecord
  rcases hrecord with rfl | rfl | rfl | rfl <;> exact ⟨rfl, rfl⟩

theorem attempt_consistent : Consistent "root" [] attempt := by
  refine consistent_of_self fun record hrecord parent child hdeclares => ?_
  simp only [attempt, mem_cons, not_mem_nil, or_false] at hrecord
  rcases hrecord with rfl | rfl | rfl | rfl
  · exact nomatch hdeclares
  · have hidentity : recordSessionIdentity (createdOf "child" "root") = some ("child", some "root") := by
      decide +kernel
    have hsome := hidentity.symm.trans hdeclares
    obtain ⟨rfl, -⟩ := Prod.mk.inj (some.inj hsome)
    decide +kernel
  · exact nomatch hdeclares
  · exact nomatch hdeclares

theorem attempt_probesAtRoot : ProbesAtRoot probed "root" attempt := by
  have hsub : ∃ s, subscribe (State.init "root") attempt = (s, .connected attempt.tail) := ⟨_, rfl⟩
  obtain ⟨s, hsub⟩ := hsub
  unfold ProbesAtRoot
  rw [hsub]
  intro _
  refine drainAtRoot_of_idles fun record hrecord => ?_
  simp only [attempt, tail_cons, mem_cons, not_mem_nil, or_false] at hrecord
  rcases hrecord with rfl | rfl | rfl
  · exact nofun
  · exact nofun
  · exact fun _ => by decide +kernel

/-- A child goes idle before the root: its record takes the probe. -/
def childFirst : List JsonObject :=
  [connected, createdOf "child" "root", idleOf "child", idleOf "root"]

end Codify.Harness.OpenCodeBridge

import Codify.Framework.Runs
import Codify.Harness.PiEventsBalance

/-! # The Last Turn of a Pi Stream

    The terminal is decided at the end of the input from three line numbers that
    outlive the turn they were written in. A completed stream is therefore known
    to have settled once, but not to have settled last.

    * **Registers**: what the state holds at the end, told from the records alone:
      the three numbers (`register_eq_some_iff`), the failure (`failed_run`) and the
      active tools (`activeTools_run`).
    * **Result**: `completed_iff_whole`, the streams on which the terminal is the
      right one.
-/

namespace Codify.Harness.PiEvents

open Codify.Framework Codify.Harness List Option

variable {env : Env} {record : JsonObject} {rawLine : Nat} {line : Line} {lines : List Line}
  {s s' : State}

/-! ### Every Stream -/

/-- An event that does not belong to the end of a stream. -/
structure Event.Midstream (e : Event) : Prop where
  noTerminal : isHarnessTerminal e.type = false
  noTotal : e.type ≠ "usage.final"

variable {e : Event} {kind : JsonObject → Buffers → Bool} {n : Nat}

theorem Event.Plain.midstream (h : e.Plain) : e.Midstream := ⟨h.noTerminal, h.noTotal⟩

theorem midstream_of_blockTypes (h : e.type ∈ blockTypes) : e.Midstream := by
  have hne : ∀ t ∈ blockTypes, isHarnessTerminal t = false ∧ t ≠ "usage.final" := by decide
  exact ⟨(hne e.type h).1, (hne e.type h).2⟩

theorem midstream_of_rowTypes (h : e.type ∈ rowTypes) : e.Midstream := by
  have hne : ∀ t ∈ rowTypes, isHarnessTerminal t = false ∧ t ≠ "usage.final" := by decide
  exact ⟨(hne e.type h).1, (hne e.type h).2⟩

theorem midstream_append {log new : List Event} (h : ∀ e ∈ log, e.Midstream)
    (hnew : ∀ e ∈ new, e.Midstream) : ∀ e ∈ log ++ new, e.Midstream := by
  intro e he
  rcases mem_append.mp he with he | he
  · exact h e he
  · exact hnew e he

/-- What holds before the end of the input, whatever has been read. -/
structure Running (s : State) : Prop where
  shape : DelegationsOk s
  names : NamesPlain s.toolStarts
  unfinished : ∀ e ∈ s.events, e.Midstream
  undecided : s.terminal = none

theorem running_init : Running {} where
  shape := fun _ => delegationOk_nil
  names := namesPlain_nil
  unfinished := by simp
  undecided := rfl

/-- What a record leaves of the core and adds to the events. -/
structure Translated (env : Env) (record : JsonObject) (rawLine : Nat) (s s' : State) :
    Prop where
  core : s'.core = { coreAfter env record rawLine s with
    thinkingReasoningId := s'.thinkingReasoningId
    delegations := s'.delegations
    childUsage := s'.childUsage }
  events : ∃ new, s'.events = s.events ++ new ∧ ∀ e ∈ new, e.Midstream

theorem translated_of_leaves {t : State} {c : Core} (hleaves : Leaves s t c)
    (hcore : s'.core = { coreAfter env record rawLine s with
      thinkingReasoningId := s'.thinkingReasoningId
      delegations := s'.delegations
      childUsage := s'.childUsage })
    (hevents : ∃ new, s'.events = t.events ++ new ∧ ∀ e ∈ new, e.Midstream) :
    Translated env record rawLine s s' := by
  obtain ⟨new, hnew, hplain⟩ := hleaves.events
  obtain ⟨more, hmore, hfree⟩ := hevents
  refine ⟨hcore, new ++ more, by rw [hmore, hnew, append_assoc], ?_⟩
  exact midstream_append (fun e he => (hplain e he).midstream) hfree

/-- **Step**: a record keeps the invariant, and only the counters of the turn decide more than
    before. -/
theorem running_translate (h : Running s) (htranslate : translate env record rawLine s = some s') :
    Running s' ∧ Translated env record rawLine s s' := by
  suffices hstep :
      DelegationsOk s' ∧ NamesPlain s'.toolStarts ∧ Translated env record rawLine s s' by
    obtain ⟨hshape, hnames, htranslated⟩ := hstep
    obtain ⟨new, hevents, hfree⟩ := htranslated.events
    refine ⟨⟨hshape, hnames, ?_, ?_⟩, htranslated⟩
    · rw [hevents]
      exact midstream_append h.unfinished hfree
    · exact (congrArg Core.terminal htranslated.core).trans h.undecided
  cases translate_cases h.names htranslate with
  | quiet hleaves hnames =>
    have hdelegations : s'.delegations = s.delegations := congrArg Core.delegations hleaves.core
    have hblock : s'.thinkingReasoningId = s.thinkingReasoningId :=
      congrArg Core.thinkingReasoningId hleaves.core
    have husage : s'.childUsage = s.childUsage := congrArg Core.childUsage hleaves.core
    refine ⟨h.shape.congr hdelegations, hnames, ?_⟩
    refine translated_of_leaves hleaves ?_ ⟨[], by simp, by simp⟩
    rw [hleaves.core, hdelegations, hblock, husage]
    rfl
  | @block t _ hleaves hnames hstep =>
    have honly := onlyBlock_step hstep
    have htdelegations : t.delegations = s.delegations := congrArg Core.delegations hleaves.core
    have hdelegations : s'.delegations = t.delegations := congrArg Core.delegations honly.core
    have htools : s'.toolStarts = t.toolStarts := congrArg Core.toolStarts honly.core
    have husage : s'.childUsage = s.childUsage :=
      (congrArg Core.childUsage honly.core).trans (congrArg Core.childUsage hleaves.core)
    obtain ⟨new, hevents, htypes⟩ := honly.events
    refine ⟨h.shape.congr (hdelegations.trans htdelegations), htools ▸ hnames, ?_⟩
    refine translated_of_leaves hleaves ?_
      ⟨new, hevents, fun e he => midstream_of_blockTypes (htypes e he)⟩
    rw [honly.core, hleaves.core, hdelegations, htdelegations, husage]
    rfl
  | @delegation t _ hleaves hnames htype hid htool hsub =>
    have hdelegates := delegates_handleSubagentTool hsub
    have htdelegations : t.delegations = s.delegations := congrArg Core.delegations hleaves.core
    have htools : s'.toolStarts = t.toolStarts := congrArg Core.toolStarts hdelegates.core
    have hblock : s'.thinkingReasoningId = s.thinkingReasoningId :=
      (congrArg Core.thinkingReasoningId hdelegates.core).trans
        (congrArg Core.thinkingReasoningId hleaves.core)
    have hshape := delegationsOk_handleSubagentTool (h.shape.congr htdelegations) hsub
    obtain ⟨new, hevents, htypes⟩ := hdelegates.events
    refine ⟨hshape, htools ▸ hnames, ?_⟩
    refine translated_of_leaves hleaves ?_
      ⟨new, hevents, fun e he => midstream_of_rowTypes (htypes e he)⟩
    rw [hdelegates.core, hleaves.core, hblock]
    rfl

theorem Running.of_quiet (h : Running s) (hquiet : Quiet s s') : Running s' := by
  obtain ⟨new, hevents, hplain⟩ := hquiet.events
  have htools : s'.toolStarts = s.toolStarts := congrArg Core.toolStarts hquiet.core
  refine ⟨h.shape.congr (congrArg Core.delegations hquiet.core), htools ▸ h.names, ?_,
    (congrArg Core.terminal hquiet.core).trans h.undecided⟩
  rw [hevents]
  exact midstream_append h.unfinished fun e he => (hplain e he).midstream

/-- What a line that can be written to the archive does. -/
theorem stepLine_cases (h : stepLine env s line = some s') :
    (line.dict = none ∧ s' = reportLine line (beginLine line s)) ∨
    ∃ record, line.dict = some record ∧
      translate env record (s.lineNo + 1) (beginLine line s) = some s' := by
  unfold stepLine at h
  dsimp only at h
  split at h
  · cases h
  · split at h
    · next record hdict => exact .inr ⟨record, hdict, h⟩
    · next hdict => exact .inl ⟨hdict, (some.inj h).symm⟩

theorem running_beginLine (h : Running s) (line : Line) : Running (beginLine line s) :=
  ⟨h.shape, h.names, h.unfinished, h.undecided⟩

theorem running_stepLine (h : Running s) (hstep : stepLine env s line = some s') : Running s' := by
  rcases stepLine_cases hstep with ⟨-, rfl⟩ | ⟨record, -, hrecord⟩
  · exact (running_beginLine h line).of_quiet (quiet_reportLine line _)
  · exact (running_translate (running_beginLine h line) hrecord).1

theorem running_translateLines (h : translateLines env {} lines = some s) : Running s :=
  foldlM_keeps (fun _ _ _ hs hstep => running_stepLine hs hstep) h running_init

/-! ### Moments -/

abbrev Moment := State × Line

def Moment.number (m : Moment) : Nat := m.1.lineNo + 1

def Moment.is (kind : JsonObject → Buffers → Bool) (m : Moment) : Bool :=
  m.2.dict.any (kind · m.1.buffers)

/-- The lines of a stream, up to the first one on which a handler raises. -/
def history (env : Env) (lines : List Line) : List Moment := moments (stepLine env) {} lines

def linesOf (kind : JsonObject → Buffers → Bool) (ms : List Moment) : List Nat :=
  ms.filterMap fun m => if m.is kind then some m.number else none

variable {ms : List Moment}

theorem mem_linesOf :
    n ∈ linesOf kind ms ↔ ∃ m ∈ ms, m.is kind ∧ m.number = n := by
  simp [linesOf]

/-- The record is an `agent_settled`. -/
def settling (record : JsonObject) (_ : Buffers) : Bool := settles record

/-- The record belongs to a turn that has begun. -/
def startsTurn (record : JsonObject) (_ : Buffers) : Bool :=
  ["agent_start", "turn_start", "message_update", "tool_execution_start"].any
    (record.get "type").isStr

/-- The record is an `agent_end` without a retry and without an error. -/
def succeeds (record : JsonObject) (_ : Buffers) : Bool :=
  (record.get "type").isStr "agent_end" && isSuccessfulAgentEnd record

def startsCall (env : Env) (callId : String) (record : JsonObject) (_ : Buffers) : Bool :=
  (record.get "type").isStr "tool_execution_start" && toolCallIdOf env record == callId

def endsCall (env : Env) (callId : String) (record : JsonObject) (_ : Buffers) : Bool :=
  (record.get "type").isStr "tool_execution_end" && toolCallIdOf env record == callId

/-- The record reports a failure, an `agent_end` apart. -/
def reporting (record : JsonObject) (_ : Buffers) : Bool := reportsFailure record

/-- The record is an `agent_end` with an error. -/
def erring (record : JsonObject) (_ : Buffers) : Bool := endsWithError record

def aborting (record : JsonObject) (_ : Buffers) : Bool := abortsRun record

def retrying (record : JsonObject) (_ : Buffers) : Bool := startsRetry record

/-- The record is about a call of a generic tool. -/
def callsTool (env : Env) (callId : String) (record : JsonObject) (b : Buffers) : Bool :=
  genericCall env record b.pending == some callId

/-- The record ends a call of a generic tool. -/
def endsTool (env : Env) (callId : String) (record : JsonObject) (b : Buffers) : Bool :=
  callsTool env callId record b && (record.get "type").isStr "tool_execution_end"

/-- The failure of a record is recorded, unless a retry starts. -/
def failing (record : JsonObject) (b : Buffers) : Bool :=
  reportsFailure record || (endsWithError record && !b.aborted)

/-- What a line does to the counters, the failure and the tools. -/
structure Counted (env : Env) (line : Line) (s s' : State) : Prop where
  lineNo : s'.lineNo = s.lineNo + 1
  text : s'.assistantFinalLine =
    if Moment.is bringsText (s, line) then some (s.lineNo + 1) else s.assistantFinalLine
  agentEnd : s'.agentEndSuccessLine =
    if Moment.is endsAgent (s, line) then some (s.lineNo + 1) else s.agentEndSuccessLine
  settled : s'.agentSettledLine =
    if Moment.is settling (s, line) then some (s.lineNo + 1)
    else s.agentSettledLine
  failed : s'.terminalFailure.isSome =
    (!Moment.is retrying (s, line) && (s.terminalFailure.isSome || Moment.is failing (s, line)))
  aborted : s'.aborted = (s.aborted || Moment.is aborting (s, line))
  tools : s'.toolStarts = line.dict.elim s.toolStarts (toolsAfter env · s)

/-- Each line counts as its record says. -/
theorem counted_stepLine (h : Running s) (hstep : stepLine env s line = some s') :
    Counted env line s s' := by
  rcases stepLine_cases hstep with ⟨hdict, rfl⟩ | ⟨record, hdict, hrecord⟩
  · have hcore := (quiet_reportLine line (beginLine line s)).core
    have hkind : ∀ kind, Moment.is kind (s, line) = false := by simp [Moment.is, hdict]
    constructor
    · exact congrArg Core.lineNo hcore
    · rw [hkind]
      exact congrArg Core.assistantFinalLine hcore
    · rw [hkind]
      exact congrArg Core.agentEndSuccessLine hcore
    · rw [hkind]
      exact congrArg Core.agentSettledLine hcore
    · rw [hkind, hkind, Bool.or_false]
      exact congrArg Core.failed hcore
    · rw [hkind, Bool.or_false]
      exact congrArg Core.aborted hcore
    · rw [hdict]
      exact congrArg Core.toolStarts hcore
  · have hbegin := running_beginLine h line
    have hcore := (running_translate hbegin hrecord).2.core
    have hkind : ∀ kind : JsonObject → Buffers → Bool,
        Moment.is kind (s, line) = kind record s.buffers := by
      intro kind
      simp [Moment.is, hdict]
    have hterminal : (beginLine line s).terminal.isNone := by simp [hbegin.undecided]
    constructor
    · exact congrArg Core.lineNo hcore
    · rw [hkind]
      exact congrArg Core.assistantFinalLine hcore
    · have hend := congrArg Core.agentEndSuccessLine hcore
      simp only [coreAfter, hterminal, Bool.and_true] at hend
      rw [hkind]
      exact hend
    · rw [hkind]
      exact congrArg Core.agentSettledLine hcore
    · have hfailed := congrArg Core.failed hcore
      simp only [coreAfter, hterminal, Bool.and_true, Bool.or_assoc] at hfailed
      rw [hkind, hkind]
      exact hfailed
    · rw [hkind]
      exact congrArg Core.aborted hcore
    · rw [hdict]
      exact congrArg Core.toolStarts hcore

/-! ### Registers -/

theorem pairwise_linesOf (env : Env) (kind : JsonObject → Buffers → Bool) (lines : List Line) :
    (linesOf kind (history env lines)).Pairwise (· < ·) := by
  have hmoments : (history env lines).Pairwise fun m m' => m.1.lineNo < m'.1.lineNo :=
    pairwise_moments (fun _ _ _ hs hstep => running_stepLine hs hstep)
      (fun _ _ _ hs hstep => (counted_stepLine hs hstep).lineNo) running_init
  refine List.Pairwise.filterMap _ ?_ hmoments
  intro m m' hlt n hn n' hn'
  split_ifs at hn hn'
  cases hn
  cases hn'
  show m.1.lineNo + 1 < m'.1.lineNo + 1
  omega

theorem register_eq_some_iff {register : State → Option Nat}
    (hset : ∀ {line s s'}, Counted env line s s' → register s' =
      if Moment.is kind (s, line) then some (s.lineNo + 1) else register s)
    (hinit : register {} = none) (h : translateLines env {} lines = some s) :
    register s = some n ↔ IsGreatest {m | m ∈ linesOf kind (history env lines)} n := by
  have hlast : register s = ((linesOf kind (history env lines)).getLast?).or (register {}) := by
    refine register_run (fun _ _ _ hs hstep => running_stepLine hs hstep) ?_ running_init h
    intro t line t' ht hstep
    rw [hset (counted_stepLine ht hstep)]
    split <;> rfl
  rw [hinit, or_none] at hlast
  have hgreatest : ∀ {n}, (linesOf kind (history env lines)).getLast? = some n →
      IsGreatest {m | m ∈ linesOf kind (history env lines)} n :=
    fun hlast => isGreatest_getLast? (pairwise_linesOf env kind lines) hlast
  rw [hlast]
  constructor
  · exact hgreatest
  · intro hn
    cases hsome : (linesOf kind (history env lines)).getLast? with
    | none =>
      rw [getLast?_eq_none_iff.mp hsome] at hn
      cases hn.1
    | some m => rw [(hgreatest hsome).unique hn]

theorem counted_lineNo (s : State) (line : Line) (s' : State) (h : Running s)
    (hstep : stepLine env s line = some s') : s'.lineNo = s.lineNo + 1 :=
  (counted_stepLine h hstep).lineNo

theorem keeps_running (s : State) (line : Line) (s' : State) (h : Running s)
    (hstep : stepLine env s line = some s') : Running s' := running_stepLine h hstep

variable {callId : String}

/-- A run is aborted from the line on that aborts it. -/
theorem aborted_moment (env : Env) (lines : List Line) {m : Moment} (hm : m ∈ history env lines) :
    m.1.aborted ↔ ∃ n ∈ linesOf aborting (history env lines), n < m.number := by
  have hflag := flag_moment State.aborted keeps_running counted_lineNo
    (fun _ _ _ hs hstep => (counted_stepLine hs hstep).aborted) running_init m hm
  rw [hflag]
  constructor
  · rintro (hinit | ⟨m', hm', haborts, hlt⟩)
    · cases hinit
    · exact ⟨Moment.number m', mem_linesOf.mpr ⟨m', hm', haborts, rfl⟩, Nat.succ_lt_succ hlt⟩
  · rintro ⟨n, hn, hlt⟩
    obtain ⟨m', hm', haborts, rfl⟩ := mem_linesOf.mp hn
    exact .inr ⟨m', hm', haborts, Nat.lt_of_succ_lt_succ hlt⟩

/-- No line before this one aborts the run. -/
def Unaborted (ms : List Moment) (n : Nat) : Prop := ∀ b ∈ linesOf aborting ms, n ≤ b

/-- A line whose record reports a failure; an aborted run reports no more with an `agent_end`. -/
def Failing (ms : List Moment) (n : Nat) : Prop :=
  n ∈ linesOf reporting ms ∨ n ∈ linesOf erring ms ∧ Unaborted ms n

/-- A failure is reported, and no retry has started since. -/
def Outstanding (ms : List Moment) : Prop :=
  ∃ n, Failing ms n ∧ ∀ r ∈ linesOf retrying ms, r < n

theorem not_aborted_iff {m : Moment} (hm : m ∈ history env lines) :
    m.1.aborted = false ↔ Unaborted (history env lines) m.number := by
  rw [← Bool.not_eq_true, aborted_moment env lines hm]
  simp only [Unaborted, not_exists, not_and, not_lt]

theorem mem_failing :
    n ∈ linesOf failing (history env lines) ↔ Failing (history env lines) n := by
  unfold Failing
  constructor
  · intro h
    obtain ⟨m, hm, hkind, rfl⟩ := mem_linesOf.mp h
    obtain ⟨record, hrecord, hfails⟩ := (Option.any_eq_true _ _).mp hkind
    simp only [failing, Bool.or_eq_true, Bool.and_eq_true, Bool.not_eq_true'] at hfails
    rcases hfails with hreports | ⟨herror, haborted⟩
    · exact .inl (mem_linesOf.mpr ⟨m, hm, (Option.any_eq_true _ _).mpr ⟨record, hrecord, hreports⟩, rfl⟩)
    · exact .inr ⟨mem_linesOf.mpr ⟨m, hm, (Option.any_eq_true _ _).mpr ⟨record, hrecord, herror⟩, rfl⟩,
        (not_aborted_iff hm).mp haborted⟩
  · rintro (h | ⟨h, hunaborted⟩)
    · obtain ⟨m, hm, hkind, rfl⟩ := mem_linesOf.mp h
      obtain ⟨record, hrecord, hreports⟩ := (Option.any_eq_true _ _).mp hkind
      refine mem_linesOf.mpr ⟨m, hm, (Option.any_eq_true _ _).mpr ⟨record, hrecord, ?_⟩, rfl⟩
      exact Bool.or_eq_true_iff.mpr (.inl hreports)
    · obtain ⟨m, hm, hkind, rfl⟩ := mem_linesOf.mp h
      obtain ⟨record, hrecord, herror⟩ := (Option.any_eq_true _ _).mp hkind
      have haborted : m.1.buffers.aborted = false := (not_aborted_iff hm).mpr hunaborted
      have herror : endsWithError record = true := herror
      refine mem_linesOf.mpr ⟨m, hm, (Option.any_eq_true _ _).mpr ⟨record, hrecord, ?_⟩, rfl⟩
      simp [failing, herror, haborted]

/-- **Failure**: the slot is full at the end when a failure is outstanding. -/
theorem failed_run (h : translateLines env {} lines = some s) :
    s.terminalFailure.isSome ↔ Outstanding (history env lines) := by
  have hslot := slot_run (fun s => s.terminalFailure.isSome) (Moment.is retrying) keeps_running
    counted_lineNo (fun _ _ _ hs hstep => (counted_stepLine hs hstep).failed) running_init h
  rw [hslot]
  constructor
  · rintro (⟨hinit, -⟩ | ⟨m, hm, hfails, hlast⟩)
    · cases hinit
    · refine ⟨Moment.number m, mem_failing.mp (mem_linesOf.mpr ⟨m, hm, hfails, rfl⟩), ?_⟩
      intro r hr
      obtain ⟨m', hm', hretry, rfl⟩ := mem_linesOf.mp hr
      exact Nat.succ_lt_succ (hlast m' hm' hretry)
  · rintro ⟨n, hn, hlast⟩
    obtain ⟨m, hm, hfails, rfl⟩ := mem_linesOf.mp (mem_failing.mpr hn)
    refine .inr ⟨m, hm, hfails, ?_⟩
    intro m' hm' hretry
    exact Nat.lt_of_succ_lt_succ (hlast (Moment.number m') (mem_linesOf.mpr ⟨m', hm', hretry, rfl⟩))

/-- A flag that is only ever set holds at the end when a line of the kind sets it. -/
theorem flag_run (flag : State → Bool)
    (hflag : ∀ {line s s'}, Counted env line s s' →
      flag s' = (flag s || Moment.is kind (s, line)))
    (hinit : flag {} = false) (h : translateLines env {} lines = some s) :
    flag s ↔ linesOf kind (history env lines) ≠ [] := by
  have hslot := slot_run flag (fun _ => false) keeps_running counted_lineNo
    (fun _ _ _ hs hstep => by simpa using hflag (counted_stepLine hs hstep)) running_init h
  rw [hslot, hinit]
  constructor
  · rintro (⟨hno, -⟩ | ⟨m, hm, hsets, -⟩)
    · cases hno
    · exact ne_nil_of_mem (mem_linesOf.mpr ⟨m, hm, hsets, rfl⟩)
  · intro hne
    obtain ⟨n, hn⟩ := exists_mem_of_ne_nil _ hne
    obtain ⟨m, hm, hsets, -⟩ := mem_linesOf.mp hn
    exact .inr ⟨m, hm, hsets, fun _ _ hno => absurd hno Bool.false_ne_true⟩

theorem completed_toolsAfter (env : Env) (record : JsonObject) (s : State) (callId : String) :
    ((toolsAfter env record s).lookup callId).map (·.completed) =
      if callsTool env callId record s.buffers then
        some ((s.toolStarts.lookup callId).any (·.completed) ||
          (record.get "type").isStr "tool_execution_end")
      else (s.toolStarts.lookup callId).map (·.completed) := by
  have htype : ∀ pending, (fillFromPending env record pending).get "type" = record.get "type" := by
    intro pending
    unfold fillFromPending
    dsimp only
    split_ifs <;> simp [JsonObject.get_set_ne]
  have hfilled : (filledRecord env record s).get "type" = record.get "type" := by
    unfold filledRecord
    split
    · exact htype _
    · rfl
  have hpending : genericCall env record s.buffers.pending = genericCall env record s.pending := rfl
  unfold toolsAfter callsTool
  rw [hpending]
  cases hcall : genericCall env record s.pending with
  | none => simp
  | some c =>
    dsimp only
    rw [completed_genericTools, hfilled]
    by_cases hc : callId = c
    · simp [hc]
    · simp [hc, Ne.symm hc]

/-- What is known of a call, after a line. -/
theorem Counted.completed (h : Counted env line s s') (callId : String) :
    (s'.toolStarts.lookup callId).map (·.completed) =
      if Moment.is (callsTool env callId) (s, line) then
        some ((s.toolStarts.lookup callId).any (·.completed) ||
          Moment.is (endsTool env callId) (s, line))
      else (s.toolStarts.lookup callId).map (·.completed) := by
  rw [h.tools]
  cases hdict : line.dict with
  | none => simp [Moment.is, hdict]
  | some record =>
    have hcompleted := completed_toolsAfter env record s callId
    by_cases hcalls : callsTool env callId record s.buffers
    · simpa [Moment.is, hdict, endsTool, hcalls] using hcompleted
    · simpa [Moment.is, hdict, hcalls] using hcompleted

theorem Counted.known (h : Counted env line s s') (callId : String) :
    (s'.toolStarts.lookup callId).isSome =
      ((s.toolStarts.lookup callId).isSome || Moment.is (callsTool env callId) (s, line)) := by
  have hcompleted := congrArg Option.isSome (h.completed callId)
  rw [Option.isSome_map] at hcompleted
  rw [hcompleted]
  split
  · simp [*]
  · simp [*]

theorem Counted.ended (h : Counted env line s s') (callId : String) :
    (s'.toolStarts.lookup callId).any (·.completed) =
      ((s.toolStarts.lookup callId).any (·.completed) ||
        Moment.is (endsTool env callId) (s, line)) := by
  have hany : ∀ o : Option Lifecycle, o.any (·.completed) = (o.map (·.completed)).getD false := by
    intro o
    cases o <;> rfl
  have hends : Moment.is (callsTool env callId) (s, line) = false →
      Moment.is (endsTool env callId) (s, line) = false := by
    unfold Moment.is
    cases line.dict with
    | none => exact fun _ => rfl
    | some record =>
      intro hcalls
      have hcalls : callsTool env callId record s.buffers = false := hcalls
      simp [endsTool, hcalls]
  rw [hany, h.completed callId]
  split
  · rfl
  · next hcalls =>
    rw [hends (by simpa using hcalls), Bool.or_false, hany]

/-- No call of a generic tool is left without its end. -/
def ToolsEnded (env : Env) (ms : List Moment) : Prop :=
  ∀ callId, linesOf (callsTool env callId) ms ≠ [] → linesOf (endsTool env callId) ms ≠ []

/-- **Tools**: no tool is active at the end when every call that came up has ended. -/
theorem activeTools_run (h : translateLines env {} lines = some s) :
    activeTools s = [] ↔ ToolsEnded env (history env lines) := by
  have hunique := (running_translateLines h).names.unique
  have hactive : activeTools s = [] ↔
      ∀ callId, (s.toolStarts.lookup callId).isSome →
        (s.toolStarts.lookup callId).any (·.completed) := by
    simp only [activeTools, map_eq_nil_iff, filter_eq_nil_iff, Bool.not_eq_true', Bool.not_eq_false]
    constructor
    · intro hall callId hsome
      obtain ⟨l, hl⟩ := isSome_iff_exists.mp hsome
      rw [hl]
      exact hall (callId, l) (OrderedDict.mem_of_lookup hl)
    · intro hall p hp
      have hlookup := (OrderedDict.lookup_eq_some_iff hunique).mpr hp
      have hcompleted := hall p.1 (by rw [hlookup]; rfl)
      rwa [hlookup] at hcompleted
  rw [hactive]
  refine forall_congr' fun callId => ?_
  rw [flag_run (fun s => (s.toolStarts.lookup callId).isSome)
      (fun hcounted => hcounted.known callId) rfl h,
    flag_run (fun s => (s.toolStarts.lookup callId).any (·.completed))
      (fun hcounted => hcounted.ended callId) rfl h]

/-! ### What Completion Means -/

/-- The last turn of the stream has settled: a successful `agent_end` lies between the last text of
    the turn and the last `agent_settled`, nothing has begun since, no call is open and no failure
    is left. -/
structure SettledLast (env : Env) (lines : List Line) : Prop where
  turn : ∃ a ∈ linesOf bringsText (history env lines), ∃ e ∈ linesOf succeeds (history env lines),
    ∃ t, IsGreatest {n | n ∈ linesOf settling (history env lines)} t ∧ a < e ∧ e < t ∧
      (∀ n ∈ linesOf startsTurn (history env lines), n < t) ∧
      (∀ n ∈ linesOf bringsText (history env lines), n < t → n ≤ a) ∧
      (∀ n ∈ linesOf settling (history env lines), n < t → n < a)
  calls : ∀ callId ≠ "", ∀ n ∈ linesOf (startsCall env callId) (history env lines),
    ∃ m ∈ linesOf (endsCall env callId) (history env lines), n < m
  failure : ¬ Outstanding (history env lines)

/-- The stream is answered by one terminal, by `harness.completed` only if its last turn has
    settled. -/
def Answered (env : Env) (lines : List Line) : Prop :=
  ∃ s before e, main env lines = some s ∧ s.events = before ++ [e] ∧ isHarnessTerminal e.type ∧
    (∀ e' ∈ before, isHarnessTerminal e'.type = false) ∧
    (e.type = "harness.completed" → SettledLast env lines)

/-- What the registers do not tell of the last turn: nothing has begun after every
    `agent_settled`, a turn after another one has brought text, and every call has ended. -/
structure Whole (env : Env) (lines : List Line) : Prop where
  begun : ∀ n ∈ linesOf startsTurn (history env lines),
    ∃ t ∈ linesOf settling (history env lines), n < t
  text : ∀ t ∈ linesOf settling (history env lines),
    (∃ t' ∈ linesOf settling (history env lines), t < t') →
      ∃ a ∈ linesOf bringsText (history env lines), t < a
  calls : ∀ callId ≠ "", ∀ n ∈ linesOf (startsCall env callId) (history env lines),
    ∃ m ∈ linesOf (endsCall env callId) (history env lines), n < m

/-- The stream is taken for complete: no failure is left, every generic tool has ended, and the last
    text, the last `agent_end` that counts and the last `agent_settled` stand in this order. -/
structure TakenForComplete (env : Env) (lines : List Line) : Prop where
  failure : ¬ Outstanding (history env lines)
  tools : ToolsEnded env (history env lines)
  order : ∃ a e t, IsGreatest {n | n ∈ linesOf bringsText (history env lines)} a ∧
    IsGreatest {n | n ∈ linesOf succeeds (history env lines) ∧ Unaborted (history env lines) n} e ∧
    IsGreatest {n | n ∈ linesOf settling (history env lines)} t ∧ a < e ∧ e < t

/-- An `agent_end` counts when it succeeds and the run has not been aborted. -/
theorem mem_endsAgent : n ∈ linesOf endsAgent (history env lines) ↔
    n ∈ linesOf succeeds (history env lines) ∧ Unaborted (history env lines) n := by
  have hkinds : ∀ (record : JsonObject) (b : Buffers),
      endsAgent record b = (succeeds record b && !b.aborted) := by
    intro record b
    unfold endsAgent succeeds
    ac_rfl
  constructor
  · intro h
    obtain ⟨m, hm, hkind, rfl⟩ := mem_linesOf.mp h
    obtain ⟨record, hrecord, hends⟩ := (Option.any_eq_true _ _).mp hkind
    rw [hkinds, Bool.and_eq_true, Bool.not_eq_true'] at hends
    have hsucceeds : Moment.is succeeds m := (Option.any_eq_true _ _).mpr ⟨record, hrecord, hends.1⟩
    exact ⟨mem_linesOf.mpr ⟨m, hm, hsucceeds, rfl⟩, (not_aborted_iff hm).mp hends.2⟩
  · rintro ⟨h, hunaborted⟩
    obtain ⟨m, hm, hkind, rfl⟩ := mem_linesOf.mp h
    obtain ⟨record, hrecord, hsucceeds⟩ := (Option.any_eq_true _ _).mp hkind
    have haborted : m.1.buffers.aborted = false := (not_aborted_iff hm).mpr hunaborted
    refine mem_linesOf.mpr ⟨m, hm, (Option.any_eq_true _ _).mpr ⟨record, hrecord, ?_⟩, rfl⟩
    rw [hkinds, hsucceeds, haborted]
    rfl

/-- **Decision**: the translator takes a stream for complete by what its records say. -/
theorem complete_iff (h : translateLines env {} lines = some s) :
    s.complete ↔ TakenForComplete env lines := by
  have hfailed := failed_run h
  have htools := activeTools_run h
  have hfinal : ∀ {a}, s.assistantFinalLine = some a ↔ _ :=
    register_eq_some_iff (fun hcounted => hcounted.text) rfl h
  have hend : ∀ {e}, s.agentEndSuccessLine = some e ↔ _ :=
    register_eq_some_iff (fun hcounted => hcounted.agentEnd) rfl h
  have hsettled : ∀ {t}, s.agentSettledLine = some t ↔ _ :=
    register_eq_some_iff (fun hcounted => hcounted.settled) rfl h
  simp only [mem_endsAgent] at hend
  have hordered : s.ordered ↔ ∃ a e t, s.assistantFinalLine = some a ∧
      s.agentEndSuccessLine = some e ∧ s.agentSettledLine = some t ∧ a < e ∧ e < t := by
    unfold State.ordered
    cases s.assistantFinalLine <;> cases s.agentEndSuccessLine <;>
      cases s.agentSettledLine <;> simp
  simp only [hfinal, hend, hsettled] at hordered
  have hnone : s.terminalFailure.isNone ↔ ¬ Outstanding (history env lines) := by
    rw [← hfailed]
    cases s.terminalFailure <;> simp
  unfold State.complete
  rw [Bool.and_eq_true, Bool.and_eq_true, hnone, hordered, List.isEmpty_iff, htools]
  constructor
  · rintro ⟨⟨hfailure, hended⟩, horder⟩
    exact ⟨hfailure, hended, horder⟩
  · intro htaken
    exact ⟨⟨htaken.failure, htaken.tools⟩, htaken.order⟩

theorem settledLast_of_whole (h : TakenForComplete env lines) (hwhole : Whole env lines) :
    SettledLast env lines := by
  obtain ⟨a, e, t, hgreatA, hgreatE, hgreatT, hae, het⟩ := h.order
  refine ⟨⟨a, hgreatA.1, e, hgreatE.1.1, t, hgreatT, hae, het, ?_, fun n hn _ => hgreatA.2 hn, ?_⟩,
    hwhole.calls, h.failure⟩
  · intro n hn
    obtain ⟨t', ht', hlt⟩ := hwhole.begun n hn
    exact hlt.trans_le (hgreatT.2 ht')
  · intro n hn hlt
    obtain ⟨a', ha', hlt'⟩ := hwhole.text n hn ⟨t, hgreatT.1, hlt⟩
    exact hlt'.trans_le (hgreatA.2 ha')

theorem whole_of_settledLast (h : SettledLast env lines) : Whole env lines where
  begun := by
    obtain ⟨a, -, e, -, t, hgreatest, -, -, hbegun, -, -⟩ := h.turn
    exact fun n hn => ⟨t, hgreatest.1, hbegun n hn⟩
  text := by
    obtain ⟨a, ha, e, -, t, hgreatest, -, -, -, -, hlast⟩ := h.turn
    intro t₀ ht₀ ⟨t₁, ht₁, hlt⟩
    exact ⟨a, ha, hlast t₀ ht₀ (hlt.trans_le (hgreatest.2 ht₁))⟩
  calls := h.calls

/-! ### The Terminal -/

/-- Nothing raises: each line can be written to the archive and is read by its handler, and so is
    the end of the input. -/
structure Survived (env : Env) (lines : List Line) : Prop where
  records : ∀ m ∈ history env lines,
    m.2.surrogates = false ∧ ∀ record ∈ m.2.dict, readable env record m.1
  atEof : ∀ s ∈ translateLines env {} lines, readableAtEof s

theorem stepLine_isSome (h : Running s) (line : Line) :
    (stepLine env s line).isSome ↔
      line.surrogates = false ∧ ∀ record ∈ line.dict, readable env record s := by
  have hbegin : DelegationsOk (beginLine line s) := h.shape
  unfold stepLine
  dsimp only
  cases line.surrogates with
  | true => simp
  | false =>
    cases hdict : line.dict with
    | none => simp
    | some record =>
      have hsome := @translate_isSome env _ hbegin record (beginLine line s).lineNo
      have hsame : readable env record (beginLine line s) = readable env record s := rfl
      rw [hsame] at hsome
      simp [hsome]

theorem main_isSome (env : Env) (lines : List Line) :
    (main env lines).isSome ↔ Survived env lines := by
  have hmoments : ∀ m ∈ history env lines, Running m.1 :=
    moments_keep (fun _ _ _ hs hstep => running_stepLine hs hstep) running_init
  have hlines : (translateLines env {} lines).isSome ↔
      ∀ m ∈ history env lines,
        m.2.surrogates = false ∧ ∀ record ∈ m.2.dict, readable env record m.1 := by
    refine foldlM_isSome_iff.trans (forall₂_congr fun m hm => ?_)
    exact stepLine_isSome (hmoments m hm) m.2
  unfold main
  cases hrun : translateLines env {} lines with
  | none =>
    rw [hrun] at hlines
    constructor
    · intro h
      cases h
    · intro h
      cases hlines.mpr h.records
  | some s =>
    have heof := @emitTerminalAtEof_isSome env _ (running_translateLines hrun).shape
    rw [bind_some, heof]
    rw [hrun] at hlines
    constructor
    · intro h
      refine ⟨hlines.mp rfl, ?_⟩
      intro s' hs'
      cases hrun.symm.trans hs'
      exact h
    · intro h
      exact h.atEof s hrun

/-- One terminal is written, last, and its type tells whether the stream is taken for complete. -/
theorem terminal_emitTerminalAtEof (h : Running s) (heof : emitTerminalAtEof env s = some s') :
    ∃ before e, s'.events = before ++ [e] ∧ isHarnessTerminal e.type ∧
      (∀ e' ∈ before, isHarnessTerminal e'.type = false) ∧
      (e.type = "harness.completed" ↔ s.complete) := by
  obtain ⟨t, hdecide, hemit⟩ := bind_eq_some_iff.mp heof
  obtain ⟨u, reason, payload, hsettle, rfl⟩ := emitTerminal_cases hemit
  have hdecided := decided_decideTerminal hdecide
  have hdelegates := delegates_settleOpenDelegations hsettle
  have honly := onlyBlock_closeOpenThinking reason u.terminalLine u
  obtain ⟨new, hnew, htypes⟩ := hdelegates.events
  obtain ⟨new', hnew', htypes'⟩ := honly.events
  have husage : ∀ e ∈ finalUsage s t.terminalLine, isHarnessTerminal e.type = false := by
    intro e he
    unfold finalUsage at he
    split at he
    · cases he
    · obtain rfl := mem_singleton.mp he
      rfl
  have hbefore : ∀ e' ∈ (closeOpenThinking reason u.terminalLine u).events,
      isHarnessTerminal e'.type = false := by
    rw [hnew', hnew, hdecided.events]
    refine not_terminal_append (not_terminal_append (not_terminal_append
      (fun e he => (h.unfinished e he).noTerminal) husage) ?_) ?_
    · exact fun e he => (of_rowTypes (htypes e he)).2
    · exact fun e he => (of_blockTypes (htypes' e he)).2
  have hterminal : u.terminal = some (if s.complete then .completed else .failed) :=
    (congrArg Core.terminal hdelegates.core).trans hdecided.terminal
  refine ⟨_, _, rfl, ?_, hbefore, ?_⟩
  · unfold terminalType
    split <;> rfl
  · unfold terminalType
    rw [hterminal]
    by_cases hcomplete : s.complete <;> simp [hcomplete]

theorem whole_of_answered (h : Answered env lines) (htaken : TakenForComplete env lines) :
    Whole env lines := by
  obtain ⟨s', before, e, hmain, hevents, -, -, hsettled⟩ := h
  obtain ⟨t, ht, heof⟩ := bind_eq_some_iff.mp hmain
  obtain ⟨before', e', hevents', -, -, htype⟩ :=
    terminal_emitTerminalAtEof (running_translateLines ht) heof
  rw [hevents] at hevents'
  obtain ⟨-, hlast⟩ := append_inj' hevents' rfl
  obtain rfl := singleton_inj.mp hlast
  exact whole_of_settledLast (hsettled (htype.mpr ((complete_iff ht).mpr htaken)))

/-- A turn that settles, and a second one that is cut off when it starts. -/
def truncatedTurn : List Line :=
  [updateLine [("type", .str "text_end"), ("content", .str "done")],
   lineOf [("type", .str "agent_end")],
   lineOf [("type", .str "agent_settled")],
   lineOf [("type", .str "agent_start")]]

end Codify.Harness.PiEvents

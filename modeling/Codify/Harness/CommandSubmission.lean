import Codify.Framework.System
import Codify.Harness.Commands

/-! # Racing Submissions of One Command

    Any number of `create_command` calls carry one command: the same normalized
    id, Task, type and payload. Each call runs in a transaction of its own under
    READ COMMITTED, one statement a step: the existence read, the Task row lock,
    the attempt row lock, the flush, and after a unique-key violation the second
    read. Between the steps other transactions change the Task's status and the
    gate of its attempt.

    A call returns with its rejection or, once its row is flushed, with
    `created`; the row is there for others from the commit on.
-/

namespace Codify.Harness.CommandSubmission

open Codify Codify.Framework List
open Codify.Harness.Commands

/-! ### The Statements of create_command -/

def typeText : CommandType → String
  | .steer => "steer"
  | .followUp => "follow_up"

/-- What the calls have in common; the id is the normalized one. -/
structure Submission where
  taskId : Nat
  commandId : String
  commandType : CommandType
  payload : JsonObject

def Submission.request (sub : Submission) (rawId createdBy : String) : CreateRequest :=
  { taskId := sub.taskId
    commandId := rawId
    commandType := typeText sub.commandType
    payload := sub.payload
    createdBy }

/-! ### State -/

/-- Where a call stands. -/
inductive Phase where
  | idle
  /-- Before the existence read; the status of the Task when the session has it loaded. -/
  | started (loaded : Option TaskStatus)
  /-- The id was not found. -/
  | searched (loaded : Option TaskStatus)
  /-- The Task row is locked. -/
  | taskLocked
  /-- The attempt row is locked too, every check has passed. -/
  | eligible (attempt : TaskHarnessAttempt)
  /-- The row is flushed, the call has returned. -/
  | flushed (command : TaskHarnessCommand)
  /-- The id was there at the flush; the transaction is rolled back. -/
  | conflicted (digest : String)
  | finished

/-- A return of a call: its answer, and the commits of the row it came after. -/
structure Finish where
  call : Nat
  answer : CreateStop
  /-- Who had committed the row, and the sequence number in it. -/
  committed : List (Nat × Nat)

structure State where
  db : Db
  phase : Nat → Phase := fun _ => .idle
  /-- `created_by` of each call. -/
  createdBy : Nat → String := fun _ => ""
  /-- Who has locked the Task row. -/
  taskLock : Option Nat := none
  /-- Who has locked the attempt row. -/
  attemptLock : Option Nat := none
  /-- The commits of the row so far. -/
  committed : List (Nat × Nat) := []
  finishes : List Finish := []

def setAt {α : Type} (f : Nat → α) (c : Nat) (a : α) : Nat → α := fun d => if d = c then a else f d

@[simp] theorem setAt_self {α : Type} (f : Nat → α) (c : Nat) (a : α) : setAt f c a c = a := by
  simp [setAt]

theorem setAt_ne {α : Type} (f : Nat → α) {c d : Nat} (a : α) (h : d ≠ c) :
    setAt f c a d = f d := by
  simp [setAt, h]

namespace State

variable (s : State) (c : Nat)

/-- The end of a transaction gives its locks back. -/
def release : State :=
  { s with
    taskLock := if s.taskLock = some c then none else s.taskLock
    attemptLock := if s.attemptLock = some c then none else s.attemptLock }

def goto (p : Phase) : State := { s with phase := setAt s.phase c p }

/-- The call returns; what it has locked is given back unless it holds a flushed row. -/
def answer (a : CreateStop) : State := { s with finishes := s.finishes ++ [⟨c, a, s.committed⟩] }

/-- The call returns without a row and its transaction ends. -/
def stop (a : CreateStop) : State := ((s.answer c a).goto c .finished).release c

end State

/-! ### System -/

inductive Label where
  /-- A call starts; its session may have the Task loaded. -/
  | begin (call : Nat) (rawId createdBy : String) (preload : Bool)
  /-- `db.get(TaskHarnessCommand, command_id)`. -/
  | search (call : Nat)
  /-- `select(Task) … with_for_update()`. -/
  | lockTask (call : Nat)
  /-- `_load_current_attempt(…, for_update=True)`. -/
  | lockAttempt (call : Nat)
  /-- `db.flush()`. -/
  | flush (call : Nat) (now : DateTime)
  /-- The caller commits. -/
  | commit (call : Nat)
  /-- The transaction of a flushed row is lost. -/
  | abort (call : Nat)
  /-- The second read after the rollback. -/
  | reread (call : Nat)
  /-- Another transaction commits a status of the Task. -/
  | setStatus (status : TaskStatus)
  /-- Another transaction commits a gate of the attempt. -/
  | setGate (control : ControlState)
  /-- The attempt of the Task is created; there is at most one. -/
  | createAttempt (attempt : TaskHarnessAttempt)
  /-- A command with another id is created for the attempt. -/
  | otherCommand
  /-- The pump writes the status of the row. -/
  | pump (status : CommandStatus)

section Steps

variable (env : CommandEnv) (sub : Submission)

variable (s : State) (c : Nat) (loaded : Option TaskStatus)

/-- The session's object keeps its attributes when the locked row is read again. -/
def statusSeen (s : State) : Option TaskStatus :=
  (s.db.taskStatus sub.taskId).map fun current => loaded.getD current

def currentAttempt : Option TaskHarnessAttempt := loadCurrentAttempt sub.taskId s.db

def row? : Option TaskHarnessCommand := s.db.command? sub.commandId

def begin (rawId createdBy : String) (preload : Bool) : State :=
  match checkArguments (sub.request rawId createdBy) with
  | .error a => s.stop c a
  | .ok _ =>
    { s.goto c (.started (if preload then s.db.taskStatus sub.taskId else none)) with
      createdBy := setAt s.createdBy c createdBy }

def search : State :=
  match checkNewId env (sub.request sub.commandId (s.createdBy c)) sub.commandType sub.commandId
      s.db with
  | .error a => s.stop c a
  | .ok () => s.goto c (.searched loaded)

def lockTask : State :=
  match checkTask sub.commandId (statusSeen sub loaded s) with
  | .error a => s.stop c a
  | .ok () => { s.goto c .taskLocked with taskLock := some c }

def lockAttempt : State :=
  match checkAttempt env (sub.request sub.commandId (s.createdBy c)) sub.commandType sub.commandId
      (currentAttempt sub s) with
  | .error a => s.stop c a
  | .ok attempt => { s.goto c (.eligible attempt) with attemptLock := some c }

/-- The unique key decides: a committed row of the id fails the flush. -/
def flush (attempt : TaskHarnessAttempt) (now : DateTime) : State :=
  let command := newCommand env (sub.request sub.commandId (s.createdBy c)) sub.commandType
    sub.commandId attempt now
  match row? sub s with
  | some _ => (s.goto c (.conflicted command.payloadDigest)).release c
  | none => (s.answer c (.answered (created command))).goto c (.flushed command)

def commit (command : TaskHarnessCommand) : State :=
  ({ s with
      db := insertCommand command s.db
      committed := s.committed ++ [(c, command.sequenceNo)] }.goto c .finished).release c

def reread (digest : String) : State :=
  match row? sub s with
  | some raced =>
    if raced.payloadDigest = digest then
      s.stop c (.answered
        { commandId := sub.commandId, sequenceNo := raced.sequenceNo, outcome := "existing_same" })
    else
      s.stop c (reject sub.commandId "existing_conflict"
        "command_id already exists with a different payload")
  | none =>
    s.stop c (reject sub.commandId "existing_conflict"
      "command_id already exists with a different payload")

def updateCurrent (f : TaskHarnessAttempt → TaskHarnessAttempt) (s : State) : State :=
  match currentAttempt sub s with
  | some a => { s with db := s.db.updateAttempt a.attemptId f }
  | none => s

def next : Label → Option State
  | .begin c rawId createdBy preload =>
    match s.phase c with
    | .idle =>
      if normalizeCommandId rawId = some sub.commandId then
        some (begin sub s c rawId createdBy preload)
      else none
    | _ => none
  | .search c =>
    match s.phase c with
    | .started loaded => some (search env sub s c loaded)
    | _ => none
  | .lockTask c =>
    match s.phase c with
    | .searched loaded => if s.taskLock = none then some (lockTask sub s c loaded) else none
    | _ => none
  | .lockAttempt c =>
    match s.phase c with
    | .taskLocked => if s.attemptLock = none then some (lockAttempt env sub s c) else none
    | _ => none
  | .flush c now =>
    match s.phase c with
    | .eligible attempt => some (flush env sub s c attempt now)
    | _ => none
  | .commit c =>
    match s.phase c with
    | .flushed command => some (commit s c command)
    | _ => none
  | .abort c =>
    match s.phase c with
    | .flushed _ => some ((s.goto c .finished).release c)
    | _ => none
  | .reread c =>
    match s.phase c with
    | .conflicted digest => some (reread sub s c digest)
    | _ => none
  | .setStatus status =>
    if s.taskLock = none then
      some { s with db := { s.db with
        taskStatus := setAt s.db.taskStatus sub.taskId (some status) } }
    else none
  | .setGate control =>
    if s.attemptLock = none then
      some (updateCurrent sub (fun a => { a with controlState := control }) s)
    else none
  | .createAttempt attempt =>
    if attempt.taskId = sub.taskId ∧ currentAttempt sub s = none ∧
        s.db.attempt? attempt.attemptId = none then
      some { s with db := { s.db with attempts := s.db.attempts ++ [attempt] } }
    else none
  | .otherCommand =>
    if s.taskLock = none ∧ s.attemptLock = none then
      some (updateCurrent sub
        (fun a => { a with nextCommandSequence := a.nextCommandSequence + 1 }) s)
    else none
  | .pump status =>
    some { s with db := s.db.mapCommands fun c => { c with status } }

/-- The calls of one submission over one database, in which the id is new. -/
def submissionSystem : System State Label where
  init s := s = { db := s.db } ∧ row? sub s = none
  next := next env sub

end Steps

/-! ### The Attempt of a Task -/

def ident (a : TaskHarnessAttempt) : String × String × String :=
  (a.attemptId, a.eventSchema, a.harnessKey)

theorem argmax_map {α β : Type} {f : β → Nat} {h : α → Nat} {g : α → β} (hfg : ∀ a, f (g a) = h a)
    (l : List α) : (l.map g).argmax f = (l.argmax h).map g := by
  induction l using reverseRecOn with
  | nil => rfl
  | append_singleton l a ih =>
    rw [map_append, map_singleton, argmax_concat, argmax_concat, ih]
    cases l.argmax h with
    | none => rfl
    | some m =>
      show (if f (g m) < f (g a) then some (g a) else some (g m)) = _
      rw [hfg, hfg]
      show _ = Option.map g (if h m < h a then some a else some m)
      split <;> rfl

/-- A write that keeps the Task and the number of every attempt keeps the current one. -/
theorem loadCurrentAttempt_map {g : TaskHarnessAttempt → TaskHarnessAttempt}
    (htask : ∀ a, (g a).taskId = a.taskId) (hno : ∀ a, (g a).attemptNo = a.attemptNo)
    (taskId : Nat) (db : Db) :
    loadCurrentAttempt taskId { db with attempts := db.attempts.map g } =
      (loadCurrentAttempt taskId db).map g := by
  unfold loadCurrentAttempt
  rw [filter_map]
  have hfilter : (fun a => decide (a.taskId = taskId)) ∘ g = fun a => decide (a.taskId = taskId) := by
    funext a
    simp [htask]
  rw [hfilter]
  exact argmax_map hno _

theorem ident_updateAttempt {f : TaskHarnessAttempt → TaskHarnessAttempt}
    (htask : ∀ a, (f a).taskId = a.taskId) (hno : ∀ a, (f a).attemptNo = a.attemptNo)
    (hident : ∀ a, ident (f a) = ident a) (attemptId : String) (taskId : Nat) (db : Db) :
    (loadCurrentAttempt taskId (db.updateAttempt attemptId f)).map ident =
      (loadCurrentAttempt taskId db).map ident := by
  unfold Db.updateAttempt Table.update
  rw [loadCurrentAttempt_map]
  · rw [Option.map_map]
    congr 1
    funext a
    show ident (if _ then f a else a) = ident a
    split
    · exact hident a
    · rfl
  · intro a
    split
    · exact htask a
    · rfl
  · intro a
    split
    · exact hno a
    · rfl

/-! ### Invariant -/

section Invariant

variable (env : CommandEnv) (sub : Submission)

/-- The arguments pass, whoever sends them and however the id is spelled. -/
def ArgumentsOk : Prop :=
  ∀ rawId createdBy, normalizeCommandId rawId = some sub.commandId →
    checkArguments (sub.request rawId createdBy) = .ok (sub.commandId, sub.commandType)

variable (s : State) (i : String × String × String)

/-- The identity of the attempt the calls find. -/
def Current : Prop := (currentAttempt sub s).map ident = some i

/-- An attempt that takes this command while its gate is accepting. -/
def Supports : Prop :=
  i.2.1 = Commands.canonicalEventSchemaV2 ∧ env.bundleSupportsCommand sub.taskId i.2.2 sub.commandType

/-- The digest of the command for an attempt. -/
def digestFor (attemptId : String) : String :=
  env.canonicalDigest sub.taskId attemptId sub.commandType sub.payload

def RowOk (command : TaskHarnessCommand) : Prop :=
  command.commandId = sub.commandId ∧
    command.payloadDigest = digestFor env sub command.attemptId ∧
    ∃ i, Current sub s i ∧ Supports env sub i ∧ i.1 = command.attemptId

/-- The answer that names the committed row. -/
def existingSame (sequenceNo : Nat) : CreateStop :=
  .answered { commandId := sub.commandId, sequenceNo, outcome := "existing_same" }

/-- A return after another call's commit names the row. -/
def FinishOk (f : Finish) : Prop :=
  ∀ p ∈ f.committed, p.1 ≠ f.call → f.answer = existingSame sub p.2

/-- What a call in each phase holds and knows. -/
def CallOk (c : Nat) : Prop :=
  match s.phase c with
  | .idle => True
  | .started _ => ArgumentsOk sub
  | .searched _ => ArgumentsOk sub
  | .taskLocked => ArgumentsOk sub ∧ s.taskLock = some c
  | .eligible attempt =>
    ArgumentsOk sub ∧ s.taskLock = some c ∧ s.attemptLock = some c ∧
      Current sub s (ident attempt) ∧ Supports env sub (ident attempt)
  | .flushed command =>
    ArgumentsOk sub ∧ s.taskLock = some c ∧ s.attemptLock = some c ∧ s.committed = [] ∧
      RowOk env sub s command
  | .conflicted digest =>
    s.committed ≠ [] ∧ ∃ i, Current sub s i ∧ digest = digestFor env sub i.1
  | .finished => True

def rowsOf : List TaskHarnessCommand :=
  s.db.commands.filter fun c => decide (c.commandId = sub.commandId)

structure Inv (s : State) : Prop where
  /-- The commits are those of the rows there are: none, or one. -/
  rows : (rowsOf sub s = [] ∧ s.committed = []) ∨
    ∃ command by', rowsOf sub s = [command] ∧ s.committed = [(by', command.sequenceNo)] ∧
      RowOk env sub s command ∧ ArgumentsOk sub
  calls : ∀ c, CallOk env sub s c
  finishes : ∀ f ∈ s.finishes, FinishOk sub f

variable {env sub} {s s' : State} {c d : Nat}

theorem row?_eq_head? (s : State) : row? sub s = (rowsOf sub s).head? := by
  unfold row? Db.command? Table.row? rowsOf
  rw [head?_filter]

theorem Inv.row_of_committed (h : Inv env sub s) (hne : s.committed ≠ []) :
    ∃ command by', row? sub s = some command ∧ s.committed = [(by', command.sequenceNo)] ∧
      RowOk env sub s command ∧ ArgumentsOk sub := by
  rcases h.rows with ⟨-, hnil⟩ | ⟨command, by', hrows, hcommitted, hok, hargs⟩
  · exact absurd hnil hne
  · refine ⟨command, by', ?_, hcommitted, hok, hargs⟩
    rw [row?_eq_head?, hrows]
    rfl

variable {command : TaskHarnessCommand} {rawId createdBy : String} {loaded : Option TaskStatus}

theorem Inv.committed_of_row (h : Inv env sub s)
    (hrow : row? sub s = some command) :
    ∃ by', s.committed = [(by', command.sequenceNo)] ∧ RowOk env sub s command := by
  rcases h.rows with ⟨hnil, -⟩ | ⟨command', by', hrows, hcommitted, hok, -⟩
  · rw [row?_eq_head?, hnil] at hrow
    cases hrow
  · rw [row?_eq_head?, hrows] at hrow
    cases hrow
    exact ⟨by', hcommitted, hok⟩

theorem Inv.committed_of_no_row (h : Inv env sub s) (hrow : row? sub s = none) :
    s.committed = [] := by
  by_contra hne
  obtain ⟨command, by', hsome, -⟩ := h.row_of_committed hne
  rw [hrow] at hsome
  cases hsome

theorem RowOk.mono (h : RowOk env sub s command)
    (hkept : ∀ i, Current sub s i → Current sub s' i) : RowOk env sub s' command := by
  obtain ⟨hid, hdigest, i, hi, hsupports, heq⟩ := h
  exact ⟨hid, hdigest, i, hkept i hi, hsupports, heq⟩

/-! ### Other Transactions -/

/-- What a step keeps for a call it is not about. -/
structure Kept (sub : Submission) (s s' : State) (d : Nat) : Prop where
  phase : s'.phase d = s.phase d
  taskLock : s.taskLock = some d → s'.taskLock = some d
  attemptLock : s.attemptLock = some d → s'.attemptLock = some d
  committed : s'.committed = s.committed
  current : ∀ i, Current sub s i → Current sub s' i

theorem Kept.callOk (h : Kept sub s s' d) (hd : CallOk env sub s d) :
    CallOk env sub s' d := by
  unfold CallOk at hd ⊢
  rw [h.phase]
  cases hphase : s.phase d with
  | idle => trivial
  | started loaded => simpa only [hphase] using hd
  | searched loaded => simpa only [hphase] using hd
  | taskLocked =>
    simp only [hphase] at hd
    exact ⟨hd.1, h.taskLock hd.2⟩
  | eligible attempt =>
    simp only [hphase] at hd
    obtain ⟨hargs, ht, ha, hcurrent, hsupports⟩ := hd
    exact ⟨hargs, h.taskLock ht, h.attemptLock ha, h.current _ hcurrent, hsupports⟩
  | flushed command =>
    simp only [hphase] at hd
    obtain ⟨hargs, ht, ha, hnone, hrow⟩ := hd
    exact ⟨hargs, h.taskLock ht, h.attemptLock ha, h.committed.trans hnone, hrow.mono h.current⟩
  | conflicted digest =>
    simp only [hphase] at hd
    obtain ⟨hne, i, hi, hdigest⟩ := hd
    exact ⟨h.committed ▸ hne, i, h.current i hi, hdigest⟩
  | finished => trivial

theorem Inv.other (h : Inv env sub s) (hkept : ∀ d, Kept sub s s' d)
    (hrows : (rowsOf sub s').map (fun c => (c.commandId, c.attemptId, c.sequenceNo,
      c.payloadDigest)) = (rowsOf sub s).map fun c => (c.commandId, c.attemptId, c.sequenceNo,
      c.payloadDigest))
    (hfinishes : s'.finishes = s.finishes) : Inv env sub s' := by
  refine ⟨?_, fun d => (hkept d).callOk (h.calls d), hfinishes ▸ h.finishes⟩
  rw [(hkept 0).committed]
  rcases h.rows with ⟨hnil, hcommitted⟩ | ⟨command, by', hone, hcommitted, hok, hargs⟩
  · left
    rw [hnil] at hrows
    exact ⟨map_eq_nil_iff.mp hrows, hcommitted⟩
  · right
    rw [hone, map_singleton] at hrows
    obtain ⟨command', hcommand', heq⟩ := map_eq_singleton_iff.mp hrows
    simp only [Prod.mk.injEq] at heq
    obtain ⟨hid, hattempt, hseq, hdigest⟩ := heq
    refine ⟨command', by', hcommand', by rw [hcommitted, hseq], ?_, hargs⟩
    obtain ⟨hid', hdigest', i, hi, hsupports, heq'⟩ := hok.mono (hkept 0).current
    exact ⟨hid.trans hid', by rw [hdigest, hattempt]; exact hdigest', i, hi, hsupports,
      heq'.trans hattempt.symm⟩

/-! ### Steps of a Call -/

theorem Inv.own (h : Inv env sub s) (hdb : s'.db = s.db) (hcommitted : s'.committed = s.committed)
    (hphase : ∀ d, d ≠ c → s'.phase d = s.phase d)
    (htask : ∀ d, d ≠ c → s.taskLock = some d → s'.taskLock = some d)
    (hattempt : ∀ d, d ≠ c → s.attemptLock = some d → s'.attemptLock = some d)
    (hc : CallOk env sub s' c)
    (hfinishes : ∀ f ∈ s'.finishes, f ∈ s.finishes ∨ FinishOk sub f) : Inv env sub s' := by
  have hcurrent : ∀ i, Current sub s i → Current sub s' i := by
    intro i hi
    unfold Current currentAttempt at hi ⊢
    rw [hdb]
    exact hi
  refine ⟨?_, ?_, ?_⟩
  · have hrows : rowsOf sub s' = rowsOf sub s := by rw [rowsOf, hdb]; rfl
    rw [hrows, hcommitted]
    rcases h.rows with hnil | ⟨command, by', hone, hcomm, hok, hargs⟩
    · exact .inl hnil
    · exact .inr ⟨command, by', hone, hcomm, hok.mono hcurrent, hargs⟩
  · intro d
    by_cases hd : d = c
    · rw [hd]
      exact hc
    · have hkept : Kept sub s s' d :=
        ⟨hphase d hd, htask d hd, hattempt d hd, hcommitted, hcurrent⟩
      exact hkept.callOk (h.calls d)
  · intro f hf
    rcases hfinishes f hf with hf | hf
    · exact h.finishes f hf
    · exact hf

theorem keep_release {lock : Option Nat} (hd : d ≠ c) (h : lock = some d) :
    (if lock = some c then none else lock) = some d := by
  rw [h, if_neg]
  intro heq
  exact hd (Option.some.inj heq)

theorem Inv.stop (h : Inv env sub s) {a : CreateStop}
    (ha : FinishOk sub ⟨c, a, s.committed⟩) : Inv env sub (s.stop c a) := by
  refine h.own (c := c) rfl rfl ?_ ?_ ?_ ?_ ?_
  · intro d hd
    exact setAt_ne _ _ hd
  · intro d hd hlock
    exact keep_release hd hlock
  · intro d hd hlock
    exact keep_release hd hlock
  · simp [CallOk, State.stop, State.goto, State.release]
  · intro f hf
    rcases mem_append.mp hf with hf | hf
    · exact .inl hf
    · right
      rw [mem_singleton.mp hf]
      exact ha

theorem finishOk_of_none (hnone : s.committed = []) (a : CreateStop) :
    FinishOk sub ⟨c, a, s.committed⟩ := by
  intro p hp
  have hp' : p ∈ s.committed := hp
  rw [hnone] at hp'
  exact absurd hp' not_mem_nil

theorem finishOk_of_row {by' : Nat}
    (hcommitted : s.committed = [(by', command.sequenceNo)]) :
    FinishOk sub ⟨c, existingSame sub command.sequenceNo, s.committed⟩ := by
  intro p hp _
  have hp' : p ∈ s.committed := hp
  rw [hcommitted, mem_singleton] at hp'
  rw [hp']

theorem Inv.goto (h : Inv env sub s) {p : Phase} (hc : CallOk env sub (s.goto c p) c) :
    Inv env sub (s.goto c p) := by
  refine h.own (c := c) rfl rfl ?_ ?_ ?_ hc ?_
  · intro d hd
    exact setAt_ne _ _ hd
  · exact fun d _ hlock => hlock
  · exact fun d _ hlock => hlock
  · exact fun f hf => .inl hf

theorem argumentsOk_of_checkArguments {out : String × CommandType}
    (hraw : normalizeCommandId rawId = some sub.commandId)
    (h : checkArguments (sub.request rawId createdBy) = .ok out) : ArgumentsOk sub := by
  have hparse : CommandType.parse (typeText sub.commandType) = some sub.commandType := by
    cases sub.commandType <;> rfl
  -- only the payload can fail the checks of this submission
  have heq : ∀ rawId createdBy, normalizeCommandId rawId = some sub.commandId →
      checkArguments (sub.request rawId createdBy) = (do
        let text ← orStop (sub.payload.get "text").asString
          (reject sub.commandId "invalid_command_type" "payload.text must be a string")
        unlessRejected (isValidCommandText text) (reject sub.commandId "payload_too_large"
            "payload.text exceeds the 4000 UTF-16 code unit limit")
        return (sub.commandId, sub.commandType)) := by
    intro rawId createdBy hraw
    simp only [checkArguments, Submission.request, hraw, hparse, orStop, ok_bind]
  intro rawId' createdBy' hraw'
  rw [heq rawId createdBy hraw] at h
  rw [heq rawId' createdBy' hraw']
  obtain ⟨text, htext, h⟩ := bind_eq_ok_iff.mp h
  obtain ⟨_, hvalid, -⟩ := bind_eq_ok_iff.mp h
  rw [htext, ok_bind, hvalid]
  rfl

theorem Inv.begin (h : Inv env sub s) {preload : Bool}
    (hraw : normalizeCommandId rawId = some sub.commandId) :
    Inv env sub (begin sub s c rawId createdBy preload) := by
  unfold CommandSubmission.begin
  split
  · next a hcheck =>
    -- arguments that fail would have failed for the call that committed, too
    refine h.stop (finishOk_of_none ?_ a)
    by_contra hne
    obtain ⟨-, -, -, -, -, hargs⟩ := h.row_of_committed hne
    rw [hargs rawId createdBy hraw] at hcheck
    cases hcheck
  · next out hcheck =>
    refine h.own (c := c) rfl rfl ?_ ?_ ?_ ?_ ?_
    · intro d hd
      exact setAt_ne _ _ hd
    · exact fun d _ hlock => hlock
    · exact fun d _ hlock => hlock
    · simp only [CallOk, State.goto, setAt_self]
      exact argumentsOk_of_checkArguments hraw hcheck
    · exact fun f hf => .inl hf

theorem Inv.search (h : Inv env sub s)
    (hphase : s.phase c = .started loaded) : Inv env sub (search env sub s c loaded) := by
  unfold CommandSubmission.search checkNewId
  cases hrow : s.db.command? sub.commandId with
  | some existing =>
    obtain ⟨by', hcommitted, -, hdigest, -⟩ := h.committed_of_row hrow
    have hanswer : existingAnswer env (sub.request sub.commandId (s.createdBy c)) sub.commandType
        sub.commandId existing = existingSame sub existing.sequenceNo := by
      exact if_pos hdigest
    simp only [hanswer]
    exact h.stop (finishOk_of_row hcommitted)
  | none =>
    have hc := h.calls c
    simp only [CallOk, hphase] at hc
    refine h.goto ?_
    simp only [CallOk, State.goto, setAt_self]
    exact hc

/-- What the calls between their first read and their locks need: once the row is committed, the
    Task they see is RUNNING and the gate they find is accepting. -/
def StillEligible (sub : Submission) (s : State) : Label → Prop
  | .lockTask c => s.committed ≠ [] → ∀ loaded, s.phase c = .searched loaded →
      statusSeen sub loaded s = some .running
  | .lockAttempt _ => s.committed ≠ [] → ∀ a, currentAttempt sub s = some a →
      a.controlState = .accepting
  | _ => True

theorem Inv.lockTask (h : Inv env sub s)
    (hphase : s.phase c = .searched loaded) (hfree : s.taskLock = none)
    (helig : StillEligible sub s (.lockTask c)) : Inv env sub (lockTask sub s c loaded) := by
  unfold CommandSubmission.lockTask
  split
  · next a hcheck =>
    refine h.stop (finishOk_of_none ?_ a)
    by_contra hne
    rw [helig hne loaded hphase] at hcheck
    cases hcheck
  · have hc := h.calls c
    simp only [CallOk, hphase] at hc
    refine h.own (c := c) rfl rfl ?_ ?_ ?_ ?_ ?_
    · intro d hd
      exact setAt_ne _ _ hd
    · intro d _ hlock
      rw [hfree] at hlock
      cases hlock
    · exact fun d _ hlock => hlock
    · simp only [CallOk, State.goto, setAt_self]
      exact ⟨hc, trivial⟩
    · exact fun f hf => .inl hf

theorem checkAttempt_eq_ok_iff {request : CreateRequest} {ty : CommandType} {id : String}
    {attempt : Option TaskHarnessAttempt} {a : TaskHarnessAttempt} :
    checkAttempt env request ty id attempt = .ok a ↔
      attempt = some a ∧ a.eventSchema = Commands.canonicalEventSchemaV2 ∧
        env.bundleSupportsCommand request.taskId a.harnessKey ty ∧
        a.controlState = .accepting := by
  unfold checkAttempt
  constructor
  · intro h
    obtain ⟨a', ha', h⟩ := bind_eq_ok_iff.mp h
    obtain ⟨_, hschema, h⟩ := bind_eq_ok_iff.mp h
    obtain ⟨_, hbundle, h⟩ := bind_eq_ok_iff.mp h
    obtain ⟨_, hgate, h⟩ := bind_eq_ok_iff.mp h
    cases h
    rw [unlessRejected_eq_ok_iff] at hschema hbundle hgate
    exact ⟨orStop_eq_ok_iff.mp ha', eq_of_beq hschema, hbundle, eq_of_beq hgate⟩
  · rintro ⟨rfl, hschema, hbundle, hgate⟩
    simp [orStop, unlessRejected, hschema, hbundle, hgate]

theorem Inv.lockAttempt (h : Inv env sub s) (hphase : s.phase c = .taskLocked)
    (hfree : s.attemptLock = none) (helig : StillEligible sub s (.lockAttempt c)) :
    Inv env sub (lockAttempt env sub s c) := by
  unfold CommandSubmission.lockAttempt
  split
  · next a hcheck =>
    refine h.stop (finishOk_of_none ?_ a)
    by_contra hne
    -- the attempt of the committed row still takes commands
    obtain ⟨-, -, -, -, ⟨-, -, i, hi, hsupports, -⟩, -⟩ := h.row_of_committed hne
    obtain ⟨attempt, hattempt, rfl⟩ := Option.map_eq_some_iff.mp hi
    have hok : checkAttempt env (sub.request sub.commandId (s.createdBy c)) sub.commandType
        sub.commandId (currentAttempt sub s) = .ok attempt :=
      checkAttempt_eq_ok_iff.mpr ⟨hattempt, hsupports.1, hsupports.2, helig hne attempt hattempt⟩
    rw [hok] at hcheck
    cases hcheck
  · next attempt hcheck =>
    obtain ⟨hattempt, hschema, hbundle, -⟩ := checkAttempt_eq_ok_iff.mp hcheck
    have hc := h.calls c
    simp only [CallOk, hphase] at hc
    refine h.own (c := c) rfl rfl ?_ ?_ ?_ ?_ ?_
    · intro d hd
      exact setAt_ne _ _ hd
    · exact fun d _ hlock => hlock
    · intro d _ hlock
      rw [hfree] at hlock
      cases hlock
    · simp only [CallOk, State.goto, setAt_self]
      refine ⟨hc.1, hc.2, trivial, ?_, hschema, hbundle⟩
      show (currentAttempt sub s).map ident = _
      rw [hattempt]
      rfl
    · exact fun f hf => .inl hf

theorem Inv.flush (h : Inv env sub s) {attempt : TaskHarnessAttempt} {now : DateTime}
    (hphase : s.phase c = .eligible attempt) : Inv env sub (flush env sub s c attempt now) := by
  have hc := h.calls c
  simp only [CallOk, hphase] at hc
  obtain ⟨hargs, htask, hattempt, hcurrent, hsupports⟩ := hc
  unfold CommandSubmission.flush
  cases hrow : row? sub s with
  | some existing =>
    obtain ⟨by', hcommitted, -⟩ := h.committed_of_row hrow
    refine h.own (c := c) rfl rfl ?_ ?_ ?_ ?_ ?_
    · intro d hd
      exact setAt_ne _ _ hd
    · intro d hd hlock
      exact keep_release hd hlock
    · intro d hd hlock
      exact keep_release hd hlock
    · simp only [CallOk, State.goto, State.release, setAt_self]
      refine ⟨?_, ident attempt, hcurrent, rfl⟩
      rw [hcommitted]
      exact cons_ne_nil _ _
    · exact fun f hf => .inl hf
  | none =>
    have hnone := h.committed_of_no_row hrow
    refine h.own (c := c) rfl rfl ?_ ?_ ?_ ?_ ?_
    · intro d hd
      exact setAt_ne _ _ hd
    · exact fun d _ hlock => hlock
    · exact fun d _ hlock => hlock
    · simp only [CallOk, State.goto, State.answer, setAt_self]
      exact ⟨hargs, htask, hattempt, hnone, rfl, rfl, ident attempt, hcurrent, hsupports, rfl⟩
    · intro f hf
      rcases mem_append.mp hf with hf | hf
      · exact .inl hf
      · right
        rw [mem_singleton.mp hf]
        exact finishOk_of_none hnone _

theorem current_insertCommand (command : TaskHarnessCommand) (i : String × String × String) :
    Current sub { s with db := insertCommand command s.db } i ↔ Current sub s i := by
  unfold Current currentAttempt insertCommand
  have hident := ident_updateAttempt
    (f := fun a => { a with nextCommandSequence := command.sequenceNo + 1 })
    (fun _ => rfl) (fun _ => rfl) (fun _ => rfl) command.attemptId sub.taskId s.db
  exact Eq.congr_left hident

/-- The first commit stores the only row of the submission. -/
theorem Inv.commit (h : Inv env sub s)
    (hphase : s.phase c = .flushed command) : Inv env sub (CommandSubmission.commit s c command) := by
  have hc := h.calls c
  simp only [CallOk, hphase] at hc
  obtain ⟨hargs, htask, hattempt, hnone, hrow⟩ := hc
  have hcurrent : ∀ i, Current sub s i → Current sub (CommandSubmission.commit s c command) i := by
    intro i hi
    exact (current_insertCommand command i).mpr hi
  -- nothing is committed yet, so no row is there
  have hrows : rowsOf sub s = [] := by
    rcases h.rows with ⟨hnil, -⟩ | ⟨command', by', -, hcommitted, -⟩
    · exact hnil
    · rw [hnone] at hcommitted
      cases hcommitted
  refine ⟨?_, ?_, h.finishes⟩
  · right
    refine ⟨command, c, ?_, ?_, hrow.mono hcurrent, hargs⟩
    · show List.filter _ (s.db.commands ++ [command]) = _
      have hold : s.db.commands.filter (fun c => decide (c.commandId = sub.commandId)) = [] := hrows
      rw [filter_append, hold]
      simp [hrow.1]
    · show s.committed ++ [(c, command.sequenceNo)] = _
      rw [hnone]
      rfl
  · intro d
    by_cases hd : d = c
    · subst hd
      simp [CallOk, CommandSubmission.commit, State.goto, State.release]
    · -- nobody else holds the locks, so no other call is past its checks
      have hd' := h.calls d
      have hkeep : (CommandSubmission.commit s c command).phase d = s.phase d := setAt_ne _ _ hd
      unfold CallOk at hd' ⊢
      rw [hkeep]
      have hother : s.taskLock ≠ some d := by
        rw [htask]
        intro heq
        exact hd (Option.some.inj heq).symm
      cases hph : s.phase d with
      | idle => trivial
      | started loaded => simpa only [hph] using hd'
      | searched loaded => simpa only [hph] using hd'
      | taskLocked =>
        simp only [hph] at hd'
        exact absurd hd'.2 hother
      | eligible attempt | flushed command' =>
        simp only [hph] at hd'
        exact absurd hd'.2.1 hother
      | conflicted digest =>
        simp only [hph] at hd'
        exact absurd hnone hd'.1
      | finished => trivial

theorem Inv.abort (h : Inv env sub s) : Inv env sub ((s.goto c .finished).release c) := by
  refine h.own (c := c) rfl rfl ?_ ?_ ?_ ?_ ?_
  · intro d hd
    exact setAt_ne _ _ hd
  · intro d hd hlock
    exact keep_release hd hlock
  · intro d hd hlock
    exact keep_release hd hlock
  · simp [CallOk, State.goto, State.release]
  · exact fun f hf => .inl hf

theorem Inv.reread (h : Inv env sub s) {digest : String}
    (hphase : s.phase c = .conflicted digest) : Inv env sub (reread sub s c digest) := by
  have hc := h.calls c
  simp only [CallOk, hphase] at hc
  obtain ⟨hne, i, hi, hdigest⟩ := hc
  obtain ⟨command, by', hrow, hcommitted, ⟨-, hrowDigest, i', hi', -, hattempt⟩, -⟩ :=
    h.row_of_committed hne
  have hsame : command.payloadDigest = digest := by
    obtain rfl : i = i' := Option.some.inj (hi.symm.trans hi')
    rw [hrowDigest, hdigest, hattempt]
  unfold CommandSubmission.reread
  rw [hrow]
  simp only [if_pos hsame]
  exact h.stop (finishOk_of_row hcommitted)

/-! ### Steps of Other Transactions -/

theorem kept_of_current (hphase : s'.phase = s.phase)
    (htask : s'.taskLock = s.taskLock) (hattempt : s'.attemptLock = s.attemptLock)
    (hcommitted : s'.committed = s.committed)
    (hcurrent : ∀ i, Current sub s i → Current sub s' i) (d : Nat) :
    Kept sub s s' d :=
  ⟨congrFun hphase d, fun h => htask ▸ h, fun h => hattempt ▸ h, hcommitted, hcurrent⟩

theorem Inv.setStatus (h : Inv env sub s) (f : Nat → Option TaskStatus) :
    Inv env sub { s with db := { s.db with taskStatus := f } } :=
  h.other (kept_of_current rfl rfl rfl rfl fun _ hi => hi) rfl rfl

theorem Inv.updateCurrent (h : Inv env sub s) {f : TaskHarnessAttempt → TaskHarnessAttempt}
    (htask : ∀ a, (f a).taskId = a.taskId) (hno : ∀ a, (f a).attemptNo = a.attemptNo)
    (hident : ∀ a, ident (f a) = ident a) : Inv env sub (updateCurrent sub f s) := by
  unfold CommandSubmission.updateCurrent
  split
  · next a ha =>
    refine h.other (kept_of_current rfl rfl rfl rfl ?_) rfl rfl
    intro i hi
    unfold Current currentAttempt at hi ⊢
    rw [ident_updateAttempt htask hno hident]
    exact hi
  · exact h

theorem Inv.createAttempt (h : Inv env sub s) (attempt : TaskHarnessAttempt)
    (hnone : currentAttempt sub s = none) :
    Inv env sub { s with db := { s.db with attempts := s.db.attempts ++ [attempt] } } := by
  refine h.other (kept_of_current rfl rfl rfl rfl ?_) rfl rfl
  intro i hi
  unfold Current at hi
  rw [hnone] at hi
  cases hi

theorem Inv.pump (h : Inv env sub s) (status : CommandStatus) :
    Inv env sub { s with db := s.db.mapCommands fun c => { c with status } } := by
  refine h.other (kept_of_current rfl rfl rfl rfl fun _ hi => hi) ?_ rfl
  show ((s.db.commands.map _).filter _).map _ = _
  rw [filter_map, map_map]
  rfl

/-- The invariant survives a step whose locks find the attempt still eligible. -/
theorem Inv.step (h : Inv env sub s) {l : Label} (helig : StillEligible sub s l)
    (hnext : next env sub s l = some s') : Inv env sub s' := by
  cases l with
  | begin c rawId createdBy preload =>
    simp only [next] at hnext
    split at hnext
    · split at hnext
      · next hraw =>
        cases hnext
        exact h.begin hraw
      · cases hnext
    · cases hnext
  | search c =>
    simp only [next] at hnext
    split at hnext
    · next loaded hphase =>
      cases hnext
      exact h.search hphase
    · cases hnext
  | lockTask c =>
    simp only [next] at hnext
    split at hnext
    · next loaded hphase =>
      split at hnext
      · next hfree =>
        cases hnext
        exact h.lockTask hphase hfree helig
      · cases hnext
    · cases hnext
  | lockAttempt c =>
    simp only [next] at hnext
    split at hnext
    · next hphase =>
      split at hnext
      · next hfree =>
        cases hnext
        exact h.lockAttempt hphase hfree helig
      · cases hnext
    · cases hnext
  | flush c now =>
    simp only [next] at hnext
    split at hnext
    · next attempt hphase =>
      cases hnext
      exact h.flush hphase
    · cases hnext
  | commit c =>
    simp only [next] at hnext
    split at hnext
    · next command hphase =>
      cases hnext
      exact h.commit hphase
    · cases hnext
  | abort c =>
    simp only [next] at hnext
    split at hnext
    · cases hnext
      exact h.abort
    · cases hnext
  | reread c =>
    simp only [next] at hnext
    split at hnext
    · next digest hphase =>
      cases hnext
      exact h.reread hphase
    · cases hnext
  | setStatus status =>
    simp only [next] at hnext
    split at hnext
    · cases hnext
      exact h.setStatus _
    · cases hnext
  | setGate control | otherCommand =>
    simp only [next] at hnext
    split at hnext
    · cases hnext
      exact h.updateCurrent (fun _ => rfl) (fun _ => rfl) (fun _ => rfl)
    · cases hnext
  | createAttempt attempt =>
    simp only [next] at hnext
    split at hnext
    · next hnew =>
      cases hnext
      exact h.createAttempt attempt hnew.2.1
    · cases hnext
  | pump status =>
    cases hnext
    exact h.pump status

theorem inv_of_reachable
    (hs : (submissionSystem env sub).Reachable (StillEligible sub) s) : Inv env sub s := by
  refine hs.invariant (P := Inv env sub) ?_ ?_
  · rintro s ⟨hstart, hrow⟩
    have hphase : s.phase = fun _ => .idle := by rw [hstart]
    have hcommitted : s.committed = [] := by rw [hstart]
    have hfinishes : s.finishes = [] := by rw [hstart]
    refine ⟨.inl ⟨?_, hcommitted⟩, ?_, ?_⟩
    · rw [row?_eq_head?] at hrow
      exact head?_eq_none_iff.mp hrow
    · intro c
      simp [CallOk, hphase]
    · rw [hfinishes]
      exact nofun
  · intro s l s' h helig hnext
    exact h.step helig hnext

end Invariant

/-! ### Idempotent Submission -/

/-- However the calls of one submission interleave, at most one row is inserted, and a call that
    returns after another one's commit names that row, as long as every call that has missed the
    row finds the Task RUNNING and the gate accepting once the row is committed. -/
theorem submission_idempotent (env : CommandEnv) (sub : Submission) {s : State}
    (hs : (submissionSystem env sub).Reachable (StillEligible sub) s) :
    (rowsOf sub s).length ≤ 1 ∧ s.committed.length ≤ 1 ∧
      ∀ f ∈ s.finishes, ∀ p ∈ f.committed, p.1 ≠ f.call → f.answer = existingSame sub p.2 := by
  have h := inv_of_reachable hs
  refine ⟨?_, ?_, h.finishes⟩
  · rcases h.rows with ⟨hnil, -⟩ | ⟨command, by', hone, -⟩
    · rw [hnil]
      exact Nat.zero_le 1
    · rw [hone]
      exact Nat.le_refl 1
  · rcases h.rows with ⟨-, hnil⟩ | ⟨command, by', -, hone, -⟩
    · rw [hnil]
      exact Nat.zero_le 1
    · rw [hone]
      exact Nat.le_refl 1

/-! ### Two Calls -/

instance (sub : Submission) (s : State) (l : Label) : Decidable (StillEligible sub s l) :=
  match l with
  | .lockTask c =>
    decidable_of_iff (s.committed ≠ [] → (match s.phase c with
        | .searched loaded => statusSeen sub loaded s == some .running
        | _ => true) = true) <| by
      show _ ↔ (s.committed ≠ [] → ∀ loaded, s.phase c = .searched loaded → _)
      cases s.phase c <;> simp
  | .lockAttempt _ =>
    decidable_of_iff (s.committed ≠ [] → ((currentAttempt sub s).all
        fun a => a.controlState == .accepting) = true) <| by
      show _ ↔ (s.committed ≠ [] → ∀ a, currentAttempt sub s = some a → _)
      simp [Option.all_eq_true]
  | .begin _ _ _ _ | .search _ | .flush _ _ | .commit _ | .abort _ | .reread _ | .setStatus _
  | .setGate _ | .createAttempt _ | .otherCommand | .pump _ => isTrue trivial

def sampleSubmission : Submission :=
  { taskId := 1
    commandId := "00000000-0000-4000-8000-00000000000a"
    commandType := .steer
    payload := [("text", .str "go on")] }

def sampleEnv : CommandEnv :=
  { canonicalDigest := fun _ attemptId _ _ => "digest-" ++ attemptId
    bundleSupportsCommand := fun _ _ _ => true }

/-- A RUNNING Task with an attempt that accepts commands. -/
def sampleDb : Db :=
  { taskStatus := fun t => if t = 1 then some .running else none
    attempts :=
      [{ attemptId := "a-1"
         taskId := 1
         eventSchema := Commands.canonicalEventSchemaV2
         harnessKey := "pi"
         controlState := .accepting
         nextCommandSequence := 3 }] }

/-- Two calls miss the row; the first one creates it. -/
def bothMiss : List Label :=
  [.begin 0 "00000000-0000-4000-8000-00000000000a" "ann" true,
   .begin 1 "00000000-0000-4000-8000-00000000000A" "ann" true,
   .search 0, .search 1, .lockTask 0, .lockAttempt 0, .flush 0 5, .commit 0]

/-- The second call finds the row at its flush. -/
theorem submission_idempotent_two_calls :
    ∃ s, (submissionSystem sampleEnv sampleSubmission).Reachable (StillEligible sampleSubmission) s ∧
      s.finishes.map (fun f => (f.call, f.committed)) = [(0, []), (1, [(0, 3)])] ∧
      (rowsOf sampleSubmission s).length ≤ 1 ∧ s.committed.length ≤ 1 ∧
      ∀ f ∈ s.finishes, ∀ p ∈ f.committed, p.1 ≠ f.call →
        f.answer = existingSame sampleSubmission p.2 := by
  have hrun : ((submissionSystem sampleEnv sampleSubmission).execWhile
      (StillEligible sampleSubmission) { db := sampleDb }
      (bothMiss ++ [.lockTask 1, .lockAttempt 1, .flush 1 6, .reread 1])).map
        (fun s => s.finishes.map fun f => (f.call, f.committed)) =
          some [(0, []), (1, [(0, 3)])] := by
    decide +kernel
  obtain ⟨s, hs, hfinishes⟩ := System.exists_reachable_of_execWhile hrun ⟨rfl, rfl⟩
  exact ⟨s, hs, hfinishes, submission_idempotent sampleEnv sampleSubmission hs⟩

/-- The gate closes between the commit of the first call and the checks of the second one, which
    then rejects the command that is there. -/
theorem closed_gate_rejects_replay :
    ∃ s, (submissionSystem sampleEnv sampleSubmission).Reachable System.anyStep s ∧
      ∃ f ∈ s.finishes, f.call = 1 ∧ f.committed = [(0, 3)] ∧
        f.answer = reject sampleSubmission.commandId "control_gate_closed"
          "control gate is closing, not accepting" := by
  have hreach := System.reachable_of_exec (by exact ⟨rfl, rfl⟩)
    (show (submissionSystem sampleEnv sampleSubmission).exec { db := sampleDb }
      (bothMiss ++ [.setGate .closing, .lockTask 1, .lockAttempt 1]) = some _ from rfl)
  exact ⟨_, hreach, _, mem_cons_of_mem _ mem_cons_self, rfl, rfl, rfl⟩

end Codify.Harness.CommandSubmission

import Codify.Framework.IdAllocation
import Codify.Framework.JsonLines
import Codify.Framework.System

/-! # The Pi Owner

    `PiOwner` is the only process that reads and writes Pi's stdio. A control
    request is journaled before its native write, its outcome is journaled before
    the reply, and a request found in the journal without an outcome is never
    sent again.

    The journals are text files of one JSON document a line, written with
    `ensure_ascii`, so a character is a byte and a crash cuts the line being
    appended at any character. The memory of an owner is lost with it; the
    journals stay for the next one.

    Coroutines run until they wait, so a step is: a dispatch up to the wait for
    its native answer, the rest of it, a round trip of the handshake, one record
    read from Pi, a timeout.
-/

namespace Codify.Harness.PiOwner

open Codify.Framework
open Codify.Framework.JsonText

/-! ### Digits -/

/-- The zero of every run of ten decimal digits in Unicode. -/
def decimalZeros : List Nat :=
  [0x30, 0x660, 0x6f0, 0x7c0, 0x966, 0x9e6, 0xa66, 0xae6, 0xb66, 0xbe6, 0xc66, 0xce6, 0xd66, 0xde6,
   0xe50, 0xed0, 0xf20, 0x1040, 0x1090, 0x17e0, 0x1810, 0x1946, 0x19d0, 0x1a80, 0x1a90, 0x1b50,
   0x1bb0, 0x1c40, 0x1c50, 0xa620, 0xa8d0, 0xa900, 0xa9d0, 0xa9f0, 0xaa50, 0xabf0, 0xff10, 0x104a0,
   0x10d30, 0x11066, 0x110f0, 0x11136, 0x111d0, 0x112f0, 0x11450, 0x114d0, 0x11650, 0x116c0,
   0x11730, 0x118e0, 0x11950, 0x11c50, 0x11d50, 0x11da0, 0x16a60, 0x16ac0, 0x16b50, 0x1d7ce,
   0x1d7d8, 0x1d7e2, 0x1d7ec, 0x1d7f6, 0x1e140, 0x1e2f0, 0x1e950, 0x1fbf0]

/-- The digits that are no decimal digits (superscripts, circled digits and the like). -/
def otherDigits : List (Nat × Nat) :=
  [(0xb2, 0xb3), (0xb9, 0xb9), (0x1369, 0x1371), (0x19da, 0x19da), (0x2070, 0x2070),
   (0x2074, 0x2079), (0x2080, 0x2089), (0x2460, 0x2468), (0x2474, 0x247c), (0x2488, 0x2490),
   (0x24ea, 0x24ea), (0x24f5, 0x24fd), (0x24ff, 0x24ff), (0x2776, 0x277e), (0x2780, 0x2788),
   (0x278a, 0x2792), (0x10a40, 0x10a43), (0x10e60, 0x10e68), (0x11052, 0x1105a),
   (0x1f100, 0x1f10a)]

def decimal (c : Char) : Option Nat :=
  (decimalZeros.find? fun z => z ≤ c.toNat ∧ c.toNat < z + 10).map (c.toNat - ·)

/-- `s.isdigit()`. -/
def isdigit (s : String) : Bool :=
  s != "" && s.toList.all fun c =>
    (decimal c).isSome || otherDigits.any fun r => r.1 ≤ c.toNat && c.toNat ≤ r.2

/-- `int(s)` of a text of digits; only decimal digits have a value. -/
def intOfDigits (s : String) : Option Nat :=
  s.toList.foldlM (fun n c => (decimal c).map (10 * n + ·)) 0

/-! ### State -/

/-- A dict as `json.loads` builds it. -/
abbrev Dict := { d : JsonObject // keysUnique (.obj d) }

/-- A future of `pending`. -/
inductive Future where
  | waiting
  | resolved (record : JsonObject)
  /-- Timed out or failed. -/
  | failed
  deriving Repr

/-- A request written to Pi's stdin. -/
structure Request where
  /-- `native["id"]`. -/
  id : Nat
  /-- The key under which its future is pending. -/
  nativeId : String
  source : IdSource
  /-- The record that was written. -/
  native : JsonObject
  deriving Repr

/-- The dispatch that holds `dispatch_lock` and waits for its native answer. -/
structure Inflight where
  frame : Dict
  nativeId : String
  /-- Its place in `sent`. -/
  request : Nat

/-- The memory of one owner. -/
structure Owner where
  taskId : Option Int
  attemptId : Option String
  nextNativeId : Nat := 10
  closed : Bool := false
  /-- `self.process` has exited. -/
  exited : Bool := false
  settled : Bool := false
  closeRequested : Bool := false
  failure : Bool := false
  /-- `pending`, with the place of each future in `futures`. -/
  pending : List (String × Nat) := []
  /-- The requests written so far. -/
  sent : List Request := []
  /-- The future of each of them. -/
  futures : List Future := []
  inflight : Option Inflight := none

/-- The runtime directory, the owner that uses it and what has happened so far. -/
structure State where
  /-- `pi-control-requests.jsonl`. -/
  requests : List Char := []
  /-- `pi-control-responses.jsonl`. -/
  responses : List Char := []
  owner : Option Owner := none
  /-- The command ids of the dispatches written to Pi, over all owners. -/
  written : List Json := []
  /-- The outcomes whose append has completed. -/
  recorded : List JsonObject := []

/-- What `dispatch` gives its caller. -/
inductive Answer where
  | returned (outcome : JsonObject)
  | raised

/-! ### Admission -/

def reject (code : String) : Answer :=
  .returned [("status", .str "reject"), ("rejection_code", .str code)]

/-- The Task and the attempt of the frame are those of the owner. -/
def checkScope (o : Owner) (frame : JsonObject) : Except Answer Unit :=
  if o.taskId.any fun t => !(frame.get "task_id").pyEq (.int t) then
    .error (reject "invalid_command_type")
  else if o.attemptId.any fun a => !(frame.get "attempt_id").isStr a then
    .error (reject "control_gate_closed")
  else .ok ()

/-- `value in texts` for a set of strings; an unhashable value raises. -/
def memberOf (value : Json) (texts : List String) : Except Answer Bool :=
  if value.hashable then .ok (texts.any value.isStr) else .error .raised

/-- The owner is open and the frame is a command that its gate lets through. -/
def checkCommand (o : Owner) (frame : JsonObject) : Except Answer Unit :=
  if o.closed || o.exited then .error (reject "control_gate_closed")
  else
    match memberOf (frame.get "type") ["steer", "follow_up", "get_state"] with
    | .error a => .error a
    | .ok false => .error (reject "invalid_command_type")
    | .ok true =>
      if (frame.get "type").isStr "get_state" then .ok ()
      else
        match memberOf (frame.get "control_gate") ["accepting", "closing"] with
        | .error a => .error a
        | .ok false => .error (reject "control_gate_closed")
        | .ok true => .ok ()

def acceptFrame (o : Owner) (frame : JsonObject) : Except Answer Unit := do
  checkScope o frame
  checkCommand o frame

/-! ### Journals -/

section Journals

variable (F : FloatText)

/-- The line `_append_fsync` writes. -/
def journalLine (item : JsonObject) : List Char := dumps F true (sortKeys (.obj item)) ++ ['\n']

/-- The first of the lines that is a record of the command. A line that is no JSON is skipped;
    one that is no dict raises. -/
def findRecord (commandId : Json) : List (List Char) → Except Answer (Option JsonObject)
  | [] => .ok none
  | line :: rest =>
    match loads F line with
    | none => findRecord commandId rest
    | some (.obj record) =>
      if (JsonObject.get record "command_id").pyEq commandId then .ok (some record)
      else findRecord commandId rest
    | some _ => .error .raised

/-- `_journal_outcome`. -/
def journalOutcome (responses : List Char) (commandId : Json) :
    Except Answer (Option JsonObject) :=
  if commandId.truthy then findRecord F commandId (splitlines responses).reverse else .ok none

/-- `_journal_request_exists`. -/
def journalRequestExists (requests : List Char) (commandId : Json) : Except Answer Bool :=
  if commandId.truthy then
    (findRecord F commandId (splitlines requests)).map Option.isSome
  else .ok false

variable (s : State) (o : Owner) (record : JsonObject) (frame : JsonObject)

/-- `_safe_journal`. -/
def safeJournal (nativeId : String) : JsonObject :=
  [("command_id", frame.get "command_id"), ("native_request_id", .str nativeId),
   ("sequence_no", frame.get "sequence_no"), ("type", frame.get "type"),
   ("payload_digest", frame.get "payload_digest")]

/-- A recorded outcome is returned, an unfinished request is not repeated. -/
def checkJournals (commandId : Json) : Except Answer Unit :=
  match journalOutcome F s.responses commandId with
  | .error a => .error a
  | .ok (some outcome) => .error (.returned outcome)
  | .ok none =>
    match journalRequestExists F s.requests commandId with
    | .error a => .error a
    | .ok true =>
      .error (.returned [("status", .str "unknown"), ("command_id", commandId),
        ("rejection_code", .str "delivery_outcome_unknown")])
    | .ok false => .ok ()

/-! ### Native Requests -/

/-- The native id of a dispatch: the caller's, or the next local one. -/
def chooseId : Except Answer (IdSource × String) :=
  match frame.get "native_request_id" with
  | .str requested =>
    if isdigit requested then
      match intOfDigits requested with
      | some n => .ok (.given n, requested)
      | none => .error .raised
    else .ok (.fresh, toString (o.nextNativeId + 1))
  | _ => .ok (.fresh, toString (o.nextNativeId + 1))

/-- `(frame.get("payload") or {}).get("text")`. -/
def messageOf : Option Json :=
  if (frame.get "payload").truthy then
    (frame.get "payload").asObject.map (·.get "text")
  else some .null

def nativeRecord (id : Nat) (command message : Json) : JsonObject :=
  [("id", .int id), ("type", command)] ++
    if message.isNull then [] else [("message", message)]

/-- The id is taken from the counter or lifts it. -/
def Owner.number (source : IdSource) : Owner :=
  { o with nextNativeId := source.advance o.nextNativeId }

/-- `_native_roundtrip` up to its write; `source` has been numbered before. -/
def Owner.send (source : IdSource) (id : Nat) (nativeId : String) (command message : Json) :
    Owner :=
  { o with
    pending := (nativeId, o.sent.length) :: o.pending.filter (·.1 ≠ nativeId)
    sent := o.sent ++ [⟨id, nativeId, source, nativeRecord id command message⟩]
    futures := o.futures ++ [.waiting] }

/-- The dispatch passes every check: where its id comes from and its text. -/
def prepare : Except Answer (IdSource × String) := do
  acceptFrame o frame
  checkJournals F s (frame.get "command_id")
  chooseId o frame

/-- A dispatch up to the wait for its answer. `cut` is where a crash cuts the line of the request
    journal; at its full length the crash comes after the append. -/
def State.send (s : State) (o : Owner) (frame : Dict) (cut : Option Nat) (source : IdSource)
    (nativeId : String) : State :=
  let line := journalLine F (safeJournal frame.1 nativeId)
  match cut with
  | some n => { s with requests := s.requests ++ line.take n, owner := none }
  | none =>
    let s := { s with requests := s.requests ++ line }
    let o' := o.number source
    match messageOf frame.1 with
    | none => { s with owner := some o' }
    | some message =>
      let o' := o'.send source (source.id o.nextNativeId) nativeId (frame.1.get "type") message
      { s with
        owner := some { o' with inflight := some ⟨frame, nativeId, o.sent.length⟩ }
        written := s.written ++ [frame.1.get "command_id"] }

/-- `dispatch` of a frame that is no close marker: what it answers, or `none` when it waits for
    Pi, and the state. -/
def dispatchCommand (frame : Dict) (cut : Option Nat) : Option Answer × State :=
  match prepare F s o frame.1 with
  | .error a => (some a, s)
  | .ok (source, nativeId) => (none, s.send F o frame cut source nativeId)

/-- `dispatch` of the close marker; it never waits for the lock and never reaches Pi. -/
def dispatchClose (frame : Dict) : Option Answer × State :=
  match checkScope o frame.1 with
  | .error a => (some a, s)
  | .ok () =>
    if !o.settled || !(frame.1.get "control_gate").isStr "closing" then
      (some (reject "control_gate_closed"), s)
    else
      (some (.returned [("status", .str "ack"), ("closed", .bool true)]),
        { s with owner := some { o with closeRequested := true } })

/-- `dispatch`. -/
def dispatch (frame : Dict) (cut : Option Nat) : Option Answer × State :=
  if (frame.1.get "type").isStr "close" then dispatchClose s o frame
  else dispatchCommand F s o frame cut

/-! ### Answers -/

/-- The outcome of a dispatch that Pi has answered. -/
def outcomeOf (nativeId : String) (response : JsonObject) : JsonObject :=
  let success := (response.get "success").truthy
  [("status", .str (if success then "ack" else "reject")), ("command_id", frame.get "command_id"),
   ("native_sent", .bool true), ("native_request_id", .str nativeId)] ++
    if success then [] else [("rejection_code", .str "native_rejected")]

/-- The end of a dispatch: a failed future is answered as unknown, an outcome is journaled
    first. -/
def State.resume (fl : Inflight) (cut : Option Nat) : Option State :=
  match o.futures[fl.request]? with
  | some .failed => some { s with owner := some { o with inflight := none } }
  | some (.resolved record) =>
    let outcome := outcomeOf fl.frame.1 fl.nativeId record
    let line := journalLine F outcome
    match cut with
    | some n =>
      some { s with
        responses := s.responses ++ line.take n
        owner := none
        recorded := s.recorded ++ if line.length ≤ n then [outcome] else [] }
    | none =>
      some { s with
        responses := s.responses ++ line
        owner := some { o with inflight := none }
        recorded := s.recorded ++ [outcome] }
  | _ => none

/-- `str(record.get("id", ""))`, when it is a text that can be pending: no value but an integer
    or a string is written as digits only. -/
def responseId : Option String :=
  match record.get "id" with
  | .int n => some (toString n)
  | .str s => some s
  | _ => none

def resolves : Option Nat :=
  if (record.get "type").isStr "response" then
    (responseId record).bind fun id => o.pending.lookup id
  else none

/-- A future that is not done yet takes a result. -/
def settle (futures : List Future) (i : Nat) (result : Future) : List Future :=
  match futures[i]? with
  | some .waiting => futures.set i result
  | _ => futures

/-- `_read_loop` on one dict. -/
def Owner.read : Owner :=
  if (record.get "type").isStr "agent_settled" then { o with settled := true }
  else
    match resolves o record with
    | some i =>
      { o with
        pending := o.pending.filter (some ·.1 ≠ responseId record)
        futures := settle o.futures i (.resolved record) }
    | none => o

/-- `_fail`. -/
def Owner.fail : Owner :=
  { o with
    failure := true
    futures := o.pending.foldl (fun futures p => settle futures p.2 .failed) o.futures }

/-- `_read_loop` at the end of Pi's stdout. -/
def Owner.eof : Owner :=
  let o := if !o.settled && !o.failure then o.fail else o
  { o with closed := true, pending := [] }

/-! ### System -/

/-- The steps. -/
inductive Label where
  /-- A new owner takes over the runtime directory. -/
  | start (taskId : Option Int) (attemptId : Option String)
  /-- The owner is gone. -/
  | crash
  /-- `dispatch(frame)`; a crash may cut the journal line. -/
  | dispatch (frame : Dict) (cut : Option Nat)
  /-- The rest of the dispatch in flight; a crash may cut the journal line. -/
  | resume (cut : Option Nat)
  /-- `stdin.drain()` raises in the dispatch in flight. -/
  | drainFailed
  /-- A round trip of the handshake. -/
  | handshake (command : String) (message : Json)
  /-- One dict read from Pi's stdout. -/
  | read (record : Dict)
  /-- A request is not answered in time. -/
  | timeout (request : Nat)
  /-- The translator exits or a pipe breaks. -/
  | fail
  | eof
  /-- Pi exits. -/
  | exit

def stepOwner : Label → Option State
  | .start _ _ => none
  | .crash => some { s with owner := none }
  | .dispatch frame cut =>
    -- the lock is held by the dispatch in flight
    if o.inflight.isSome ∧ (frame.1.get "type").isStr "close" = false then none
    else some (dispatch F s o frame cut).2
  | .resume cut => o.inflight.bind fun fl => s.resume F o fl cut
  | .drainFailed => o.inflight.map fun _ => { s with owner := some { o with inflight := none } }
  | .handshake command message =>
    let id := o.nextNativeId + 1
    some { s with owner := some ((o.number .fresh).send .fresh id (toString id) (.str command) message) }
  | .read record => some { s with owner := some (o.read record.1) }
  | .timeout i => some { s with owner := some { o with futures := settle o.futures i .failed } }
  | .fail => some { s with owner := some o.fail }
  | .eof => some { s with owner := some o.eof }
  | .exit => some { s with owner := some { o with exited := true } }

def next (l : Label) : Option State :=
  match s.owner, l with
  | some o, l => stepOwner F s o l
  | none, .start taskId attemptId => some { s with owner := some { taskId, attemptId } }
  | none, _ => none

def piSystem : System State Label where
  init s := s = {}
  next := next F

end Journals

end Codify.Harness.PiOwner

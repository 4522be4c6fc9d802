import Codify.Framework.Json
import Codify.Worker.GitDelivery

/-! # The Delivery Snapshot

    The writer of the delivery snapshot (deploy/worker-entrypoint/git-delivery.py):
    `collect` reads the local repository, `record_push` rewrites the push facts.

    What git knows is a `Repository`; its `-z` output is the fields of the entries,
    each behind a NUL (`zText`), and the parsers of the source read that text. Texts
    are given as Python decodes them.
-/

namespace Codify.Worker.DeliverySnapshot

open Codify.Framework Codify.Worker.GitDelivery

/-! ### What Git Prints -/

/-- A text without NUL, as git prints subjects and paths. -/
structure Field where
  text : String
  noNul : '\x00' ∉ text.toList

/-- A commit of `git log --format=%H%x00%s`. -/
structure LogEntry where
  sha : Sha
  subject : Field

/-- A line of `git diff --numstat`; no counts for a binary file. -/
structure NumstatEntry where
  counts : Option (Nat × Nat)
  path : Field

/-- A line of `git diff --name-status --no-renames`. -/
structure ChangeEntry where
  status : Char
  status_ne : status ≠ '\x00'
  path : Field

def zText (fields : List (List Char)) : List Char := fields.flatMap (· ++ ['\x00'])

def LogEntry.fields (entry : LogEntry) : List (List Char) :=
  [entry.sha.value.toList, entry.subject.text.toList]

def countFields : Option (Nat × Nat) → List Char
  | some (added, deleted) => Nat.toDigits 10 added ++ '\t' :: (Nat.toDigits 10 deleted ++ ['\t'])
  | none => ['-', '\t', '-', '\t']

def NumstatEntry.field (entry : NumstatEntry) : List Char :=
  countFields entry.counts ++ entry.path.text.toList

def ChangeEntry.fields (entry : ChangeEntry) : List (List Char) :=
  [[entry.status], entry.path.text.toList]

/-- The local repository. `history` has the commits that a log can list and an ancestry can
    prove; `none` is a command that fails. -/
structure Repository where
  history : List Sha
  /-- `HEAD` as a commit. -/
  head : Option Sha
  /-- The branch, `none` when the head is detached. -/
  headBranch : Option String
  revisionExists : Sha → Bool
  ancestor : Sha → Sha → Ancestry
  ancestor_mem : ∀ a d, ancestor a d = .ancestor → a ∈ history
  log : Option Sha → Sha → Option (List LogEntry)
  log_mem : ∀ start last entries, log start last = some entries →
    ∀ entry ∈ entries, entry.sha ∈ history
  log_nodup : ∀ start last entries, log start last = some entries →
    (entries.map (·.sha)).Nodup
  numstat : Sha → Sha → Option (List NumstatEntry)
  nameStatus : Sha → Sha → Option (List ChangeEntry)
  diffTree : Sha → Sha → Option (List ChangeEntry)
  /-- `%s` and `%B` of one commit. -/
  commitSubject : Sha → Option String
  commitMessage : Sha → Option String

/-! ### Reading What Git Prints -/

/-- A commit of the snapshot. -/
structure CommitEntry where
  sha : Sha
  subject : String

/-- The loop of `_list_commits` over two tokens at a time. -/
def pairCommits : List (List Char) → Option (List CommitEntry)
  | sha :: subject :: rest =>
    if h : validFullSha (String.ofList sha) = true then
      (pairCommits rest).map (⟨⟨String.ofList sha, h⟩, String.ofList subject⟩ :: ·)
    else none
  | _ => some []

/-- The tokens of a log: its fields that are not empty. -/
def logTokens (raw : List Char) : List (List Char) := (raw.splitOn '\x00').filter (· ≠ [])

variable (repo : Repository)

/-- `_list_commits`. -/
def listCommits (start : Option Sha) (last : Sha) : Option (List CommitEntry) :=
  (repo.log start last).bind fun entries =>
    let tokens := logTokens (zText (entries.flatMap LogEntry.fields))
    if tokens.length % 2 ≠ 0 then none else pairCommits tokens

/-- Digits, with single underscores between them. -/
def natOfBytes (field : List Char) : Option Nat :=
  let groups := field.splitOn '_'
  if groups.all (fun group => !group.isEmpty && group.all Char.isDigit) then
    some (Nat.ofDigitChars 10 groups.flatten 0)
  else none

/-- What `bytes.strip` removes. -/
def isByteSpace (c : Char) : Bool := (9 ≤ c.toNat && c.toNat ≤ 13) || c.toNat == 32

/-- `int(field)`; `none` for a ValueError. -/
def intOfBytes (field : List Char) : Option Int :=
  match ((field.dropWhile isByteSpace).reverse.dropWhile isByteSpace).reverse with
  | '-' :: rest => (natOfBytes rest).map fun n => -n
  | '+' :: rest => (natOfBytes rest).map Int.ofNat
  | rest => (natOfBytes rest).map Int.ofNat

/-- The loop of `_parse_numstat`: additions and deletions so far. -/
def sumNumstat (additions deletions : Int) : List (List Char) → Option (Int × Int)
  | [] => some (additions, deletions)
  | record :: rest =>
    if record = [] then sumNumstat additions deletions rest
    else
      match record.splitOn '\t' with
      | added :: deleted :: _ :: _ =>
        if added = ['-'] ∨ deleted = ['-'] then sumNumstat additions deletions rest
        else
          match intOfBytes added, intOfBytes deleted with
          | some n, some m => sumNumstat (additions + n) (deletions + m) rest
          | _, _ => none
      | _ => none

/-- `_parse_numstat`. -/
def parseNumstat (raw : List Char) : Option (Int × Int) := sumNumstat 0 0 (raw.splitOn '\x00')

/-- `status == b"A"`, and so on: one letter that is wanted. -/
def statusIs (wanted : Char → Bool) : List Char → Bool
  | [c] => wanted c
  | _ => false

/-- The names of one status, in the loop of `_parse_name_status`. -/
def namesOf (wanted : Char → Bool) : List (List Char) → List String
  | status :: name :: rest =>
    if name ≠ [] ∧ statusIs wanted status = true then
      String.ofList name :: namesOf wanted rest
    else namesOf wanted rest
  | _ => []

/-- The `diff` of a snapshot; additions and deletions are both there or both null. -/
structure Diff where
  counts : Option (Int × Int)
  newFiles : List String
  modifiedFiles : List String
  deletedFiles : List String

/-- `_parse_name_status`, with the line counts. -/
def parseNameStatus (counts : Option (Int × Int)) (entries : List ChangeEntry) : Diff :=
  let fields := (zText (entries.flatMap ChangeEntry.fields)).splitOn '\x00'
  { counts
    newFiles := namesOf (· == 'A') fields
    modifiedFiles := namesOf (fun c => c == 'M' || c == 'T') fields
    deletedFiles := namesOf (· == 'D') fields }

/-- `_collect_diff`. -/
def collectDiff (start last : Sha) : Option Diff :=
  match repo.nameStatus start last with
  | none => (repo.diffTree start last).map (parseNameStatus none)
  | some entries =>
    let counts := (repo.numstat start last).bind fun lines =>
      parseNumstat (zText (lines.map NumstatEntry.field))
    some (parseNameStatus counts entries)

/-! ### Collecting -/

/-- The run that the backend has assigned to the worker. -/
structure Assignment where
  taskId : Nat
  attemptNo : Nat
  /-- `uuid4().hex[:12]`. -/
  suffix : List Char
  suffix_length : suffix.length = 12
  suffix_hex : ∀ c ∈ suffix, c ∈ "0123456789abcdef".toList
  branch : String
  branch_text : blank branch = false
  /-- The column is a `String(255)`. -/
  branch_length : branch.length ≤ 255

/-- `new_attempt_id`. -/
def Assignment.attemptId (run : Assignment) : String :=
  "task-" ++ toString run.taskId ++ "-attempt-" ++ toString run.attemptNo ++ "-" ++
    String.ofList run.suffix

/-- The file that `recover_start` pins. -/
structure StartFile where
  run : Assignment
  startSha : Option Sha
  startRemoteSha : Option Sha
  baseSha : Option Sha

/-- A `git_delivery` object. -/
structure Delivery where
  attemptId : String
  branch : String
  startSha : Option Sha
  startRemoteSha : Option Sha
  headSha : Option Sha
  commits : Option (List CommitEntry) := none
  recoveredCommits : Option (List CommitEntry) := none
  diff : Option Diff := none
  push : PushFacts := {}

/-- `{"code": .., "message": ..}`. -/
structure DeliveryError where
  code : String
  message : String

def branchChangedError (branch : String) (headBranch : Option String) : DeliveryError :=
  { code := "branch_changed"
    message := "Workspace is not on the task branch '" ++ branch ++ "' (observed '" ++
      headBranch.getD "none" ++ "'); refusing to publish" }

def historyUnverifiable (message : String) : DeliveryError :=
  { code := "history_unverifiable", message }

variable (start : StartFile)

/-- The first checks of `_collect_git_delivery`: the start and the head of the task. -/
def attributedRange : Except DeliveryError (Sha × Sha) :=
  match repo.head, repo.headBranch with
  | some headSha, some headBranch =>
    if headBranch ≠ start.run.branch then
      .error (branchChangedError start.run.branch (some headBranch))
    else
      match start.startSha with
      | none =>
        .error (historyUnverifiable
          "Task start commit was not pinned before execution; delivery cannot be attributed")
      | some startSha =>
        if !repo.revisionExists startSha then
          .error (historyUnverifiable
            ("Pinned start commit " ++ startSha.value ++ " is missing from the local repository"))
        else
          match repo.ancestor startSha headSha with
          | .unverifiable =>
            .error (historyUnverifiable
              ("Ancestry between the pinned start " ++ startSha.value ++ " and head " ++
                headSha.value ++ " cannot be proven in the available history"))
          | .notAncestor =>
            .error
              { code := "history_rewritten"
                message := "The task branch history no longer contains the pinned start commit " ++
                  startSha.value ++ "; refusing to publish an unattributable range" }
          | .ancestor => .ok (startSha, headSha)
  | _, headBranch => .error (branchChangedError start.run.branch headBranch)

variable (receipt : Option JsonObject) (startSha : Sha)

/-- `_recovered_range_base`: `none` when the range cannot be proven, `some none` when there is
    no range. -/
def recoveredRangeBase (startRemoteSha baseSha : Option Sha) : Option (Option Sha) :=
  let relate (base : Sha) : Option (Option Sha) :=
    match repo.ancestor base startSha with
    | .ancestor => some (some base)
    | .notAncestor => some none
    | .unverifiable => none
  match startRemoteSha, baseSha with
  | some startRemoteSha, _ => if startRemoteSha = startSha then some none else relate startRemoteSha
  | none, some baseSha => if baseSha = startSha then some none else relate baseSha
  | none, none => some none

/-- `_load_pending_receipt` of the frozen file, when there is one. -/
def loadPendingReceipt (branch : String) : Option Sha :=
  receipt.bind fun receipt =>
    match receipt.get "schema", receipt.get "state", receipt.get "branch", receipt.get "head_sha" with
    | .str schema, .str state, .str receiptBranch, .str headSha =>
      if schema = "codify.git-delivery.pending/v1" ∧ state = "pending" ∧ receiptBranch = branch then
        if h : validFullSha headSha = true then some ⟨headSha, h⟩ else none
      else none
    | _, _, _, _ => none

/-- A verified receipt behind the recovered commits. -/
def adoptPending (commits recovered : List CommitEntry) : Option Sha → List CommitEntry
  | none => recovered
  | some pending =>
    if pending ∉ (recovered ++ commits).map (·.sha) ∧ repo.ancestor pending startSha = .ancestor then
      recovered ++ [⟨pending, (repo.commitSubject pending).getD ""⟩]
    else recovered

/-- The commits inherited from the workspace; the error is a soft one. -/
def collectRecovered (commits : List CommitEntry) : Except DeliveryError (List CommitEntry) :=
  match recoveredRangeBase repo startSha start.startRemoteSha start.baseSha with
  | none =>
    .error (historyUnverifiable
      ("Inherited pending commits cannot be proven within the available history; recovered " ++
        "delivery is uncollectable"))
  | some base =>
    match (match base with
      | some base => listCommits repo (some base) startSha
      | none => some []) with
    | none =>
      .error (historyUnverifiable
        ("Recovered commit range " ++ (base.map (·.value)).getD "None" ++ ".." ++ startSha.value ++
          " could not be collected"))
    | some recovered =>
      .ok (adoptPending repo startSha commits recovered (loadPendingReceipt receipt start.run.branch))

/-- `_collect_git_delivery`. -/
def collectGitDelivery : Delivery × Option DeliveryError :=
  let delivery : Delivery :=
    { attemptId := start.run.attemptId, branch := start.run.branch, startSha := start.startSha,
      startRemoteSha := start.startRemoteSha, headSha := repo.head }
  match attributedRange repo start with
  | .error error => (delivery, some error)
  | .ok (startSha, headSha) =>
    match listCommits repo (some startSha) headSha with
    | none =>
      (delivery, some (historyUnverifiable
        ("Commit list for " ++ startSha.value ++ ".." ++ headSha.value ++
          " could not be collected")))
    | some commits =>
      let delivery :=
        { delivery with commits := some commits, diff := collectDiff repo startSha headSha }
      match collectRecovered repo start receipt startSha commits with
      | .error error => (delivery, some error)
      | .ok recovered => ({ delivery with recoveredCommits := some recovered }, none)

/-! ### The Snapshot File -/

def shaJson (sha : Option Sha) : Json := (sha.map fun sha => Json.str sha.value).getD .null

def CommitEntry.json (commit : CommitEntry) : Json :=
  .obj [("sha", .str commit.sha.value), ("subject", .str commit.subject)]

def commitsJson (commits : Option (List CommitEntry)) : Json :=
  (commits.map fun commits => Json.arr (commits.map CommitEntry.json)).getD .null

def namesJson (names : List String) : Json := .arr (names.map Json.str)

def countsJson (counts : Option (Int × Int)) : JsonObject :=
  match counts with
  | some (additions, deletions) =>
    [("additions", .int additions), ("deletions", .int deletions),
      ("total", .int (additions + deletions))]
  | none => [("additions", .null), ("deletions", .null), ("total", .null)]

def Diff.json (diff : Diff) : Json :=
  .obj (countsJson diff.counts ++
    [("new_files", namesJson diff.newFiles), ("modified_files", namesJson diff.modifiedFiles),
      ("deleted_files", namesJson diff.deletedFiles)])

def statusText : PushStatus → String
  | .notNeeded => "not_needed"
  | .notAttempted => "not_attempted"
  | .pushed => "pushed"
  | .alreadyPresent => "already_present"
  | .failed => "failed"

def errorJson : Option (String × String) → Json
  | some (code, message) => .obj [("code", .str code), ("message", .str message)]
  | none => .null

def pushJson (push : PushFacts) : JsonObject :=
  [("status", .str (statusText push.status)), ("remote_sha", shaJson push.remoteSha),
    ("error", errorJson push.error)]

/-- The `git_delivery` object of the file. -/
def Delivery.json (delivery : Delivery) : JsonObject :=
  [("schema", .str "codify.git-delivery.v1"), ("attempt_id", .str delivery.attemptId),
    ("branch", .str delivery.branch), ("start_sha", shaJson delivery.startSha),
    ("start_remote_sha", shaJson delivery.startRemoteSha), ("head_sha", shaJson delivery.headSha),
    ("commits", commitsJson delivery.commits),
    ("recovered_commits", commitsJson delivery.recoveredCommits),
    ("diff", (delivery.diff.map Diff.json).getD .null), ("push", .obj (pushJson delivery.push))]

def nonemptyList : Json → Bool
  | .arr items => !items.isEmpty
  | _ => false

def asSha : Json → Option Sha
  | .str value => if h : validFullSha value = true then some ⟨value, h⟩ else none
  | _ => none

/-- `push.get("status") in ("pushed", "already_present")`. -/
def confirmedStatus (push : Json) : Bool :=
  match push with
  | .obj push =>
    match JsonObject.get push "status" with
    | .str status => status == "pushed" || status == "already_present"
    | _ => false
  | _ => false

/-- `_projections`. -/
def projections (gitDelivery : JsonObject) : JsonObject :=
  let content := nonemptyList (gitDelivery.get "commits") ||
    nonemptyList (gitDelivery.get "recovered_commits")
  let confirmed := confirmedStatus (gitDelivery.get "push")
  let commitSha := if confirmed && content then asSha (gitDelivery.get "head_sha") else none
  [("commit_sha", shaJson commitSha),
    ("commit_message",
      ((commitSha.bind repo.commitMessage).map Json.str).getD .null),
    ("diff",
      match gitDelivery.get "diff" with
      | .obj diff =>
        .obj [("additions", JsonObject.get diff "additions"),
          ("deletions", JsonObject.get diff "deletions"), ("total", JsonObject.get diff "total")]
      | _ => .null)]

/-- The top-level `error` of a snapshot. -/
def errorField : Option DeliveryError → JsonObject
  | some error => [("error", .obj [("code", .str error.code), ("message", .str error.message)])]
  | none => []

/-- A snapshot file: the projections, the repository path and the delivery. -/
def snapshotOf (workDir : String) (delivery : Delivery) (error : Option DeliveryError) :
    JsonObject :=
  projections repo delivery.json ++
    ([("_work_dir", .str workDir), ("git_delivery", .obj delivery.json)] ++ errorField error)

/-- `cmd_collect`. -/
def cmdCollect (workDir : String) (start : StartFile) (receipt : Option JsonObject) : JsonObject :=
  let (delivery, error) := collectGitDelivery repo start receipt
  snapshotOf repo workDir delivery error

/-- `_DELIVERY_KEYS`. -/
def deliveryKeys : List String :=
  ["schema", "attempt_id", "branch", "start_sha", "start_remote_sha", "head_sha", "commits",
    "recovered_commits", "diff", "push"]

/-- `_strip_private`. -/
def stripPrivate (gitDelivery : JsonObject) : JsonObject :=
  deliveryKeys.filterMap fun key => (gitDelivery.lookup key).map fun value => (key, value)

/-- The `error` that `cmd_record_push` writes; `none` for a ValueError. -/
def pushErrorJson (errorCode errorMessage : String) : Option Json :=
  if errorCode = "" then some .null
  else if errorCode ∉ errorCodes then none
  else if errorMessage = "" then none
  else some (errorJson (some (errorCode, String.ofList (errorMessage.toList.take 2000))))

/-- `cmd_record_push` on a snapshot; `none` when it fails. -/
def cmdRecordPush (snapshot : JsonObject) (status : PushStatus) (remoteSha : Option Sha)
    (errorCode errorMessage : String) : Option JsonObject :=
  match snapshot.get "git_delivery", snapshot.get "_work_dir" with
  | .obj gitDelivery, .str _ =>
    match (gitDelivery.lookup "push").getD (.obj []) with
    | .obj push =>
      (pushErrorJson errorCode errorMessage).map fun error =>
        let push := ((JsonObject.set push "status" (.str (statusText status))).set "remote_sha"
          (shaJson remoteSha)).set "error" error
        let gitDelivery := JsonObject.set gitDelivery "push" (.obj push)
        (snapshot.update (projections repo gitDelivery)).set "git_delivery"
          (.obj (stripPrivate gitDelivery))
    | _ => none
  | _, _ => none

end Codify.Worker.DeliverySnapshot

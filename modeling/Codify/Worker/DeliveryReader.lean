import Codify.Worker.DeliverySnapshot

/-! # Reading a Delivery

    The reader of a `git_delivery` object (app/core/worker_git_delivery.py): the
    checks of `normalize_git_delivery`, the only legal `Task.commit_sha`, and why a
    delivery cannot accompany `run.completed`.

    `repr`, the sanitizer and the decimal digits of `\d` are given (`Library`).
-/

namespace Codify.Worker.DeliveryReader

open Codify.Framework Codify.Worker.GitDelivery Codify.Worker.DeliverySnapshot

/-- What the validator takes from elsewhere. -/
structure Library where
  repr : Json → String
  /-- `sanitize_sensitive_data`. -/
  sanitize : String → String
  /-- `\d`. -/
  isDecimal : Char → Bool
  isDecimal_digit : ∀ c, c.isDigit = true → isDecimal c = true
  isDecimal_dash : isDecimal '-' = false

/-- Why a value is not read. -/
inductive ReadError where
  /-- It violates the contract, for a reason that is returned. -/
  | rejected (reason : String)
  /-- A list or a dict is looked up in a set, and `TypeError` is raised. -/
  | typeError
  deriving DecidableEq

def require (holds : Bool) (message : String) : Except ReadError Unit :=
  if holds then .ok () else .error (.rejected message)

/-- A value that is not in a set of strings. -/
def notIn (value : Json) (message : String) : ReadError :=
  if value.hashable then .rejected message else .typeError

section Reader

variable (L : Library)

/-! ### Texts and Ids -/

def afterPrefix : List Char → List Char → Option (List Char)
  | [], text => some text
  | _ :: _, [] => none
  | p :: before, c :: text => if p = c then afterPrefix before text else none

variable (taskId : Nat)

/-- `^task-N-attempt-\d+-[0-9a-f]\x7b12\x7d$`; the end is also before a last line feed. -/
def attemptMatches (text : List Char) : Bool :=
  match afterPrefix ("task-" ++ toString taskId ++ "-attempt-").toList text with
  | none => false
  | some rest =>
    let digits := rest.takeWhile L.isDecimal
    match rest.dropWhile L.isDecimal with
    | '-' :: suffix =>
      !digits.isEmpty && (suffix.take 12).all "0123456789abcdef".toList.contains &&
        (suffix.length == 12 || (suffix.length == 13 && suffix.getLast? == some '\n'))
    | _ => false

def attemptOf (value : Json) : Except ReadError String :=
  let error : ReadError := .rejected ("git_delivery attempt_id " ++ L.repr value ++
    " does not belong to task " ++ toString taskId)
  match value with
  | .str attemptId =>
    if attemptMatches L taskId attemptId.toList then .ok attemptId else .error error
  | _ => .error error

/-- `_MAX_BRANCH_CHARS` is 500. -/
def branchOf : Json → Except ReadError String
  | .str branch =>
    if blank branch then .error (.rejected "git_delivery branch is missing")
    else if 500 < branch.length then
      .error (.rejected "git_delivery branch exceeds the char limit")
    else .ok branch
  | _ => .error (.rejected "git_delivery branch is missing")

def shaOf (message : String) : Json → Except ReadError (Option Sha)
  | .null => .ok none
  | value =>
    match asSha value with
    | some sha => .ok (some sha)
    | none => .error (.rejected message)

/-! ### Commits and Files -/

/-- `_clean_text`. -/
def cleanText (text : String) : String := String.ofList ((L.sanitize text).toList.take 8000)

def normalizeCommit : Json → Except String CommitEntry
  | .obj entry =>
    match asSha (JsonObject.get entry "sha") with
    | none => .error "commit sha must be a full 40-hex object id"
    | some sha =>
      match JsonObject.get entry "subject" with
      | .str subject => .ok ⟨sha, cleanText L subject⟩
      | _ => .error "commit subject must be a string"
  | _ => .error "commit entries must be objects"

/-- `_normalize_commit_list`. -/
def normalizeCommitList : Json → Except ReadError (Option (List CommitEntry))
  | .null => .ok none
  | .arr items =>
    if 2000 < items.length then
      .error (.rejected "git_delivery commits exceeds the 2000 entry limit")
    else
      match items.mapM (normalizeCommit L) with
      | .ok commits => .ok (some commits)
      | .error error => .error (.rejected ("git_delivery " ++ error))
  | _ => .error (.rejected "git_delivery commits must be an array or null")

def normalizeFile (label : String) : Json → Except ReadError String
  | .str name =>
    if 4096 < name.length then
      .error (.rejected ("git_delivery " ++ label ++ " entry exceeds the 4096 char limit"))
    else .ok name
  | _ => .error (.rejected ("git_delivery " ++ label ++ " entries must be strings"))

/-- `_normalize_file_list`; null is read as the empty list. -/
def normalizeFileList (label : String) : Json → Except ReadError (List String)
  | .null => .ok []
  | .arr items =>
    if 50000 < items.length then
      .error (.rejected ("git_delivery " ++ label ++ " exceeds the 50000 entry limit"))
    else items.mapM (normalizeFile label)
  | _ => .error (.rejected ("git_delivery " ++ label ++ " must be an array or null"))

def lineCount (key : String) (diff : JsonObject) : Except ReadError (Option Int) :=
  let message := "git_delivery diff." ++ key ++ " must be a non-negative integer or null"
  match diff.get key with
  | .null => .ok none
  | .int n => if n < 0 then .error (.rejected message) else .ok (some n)
  | _ => .error (.rejected message)

structure NormalizedDiff where
  additions : Option Int
  deletions : Option Int
  total : Option Int
  newFiles : List String
  modifiedFiles : List String
  deletedFiles : List String

def consistentCounts (additions deletions total : Option Int) : Except ReadError Unit :=
  match additions, deletions with
  | some additions, some deletions =>
    require (total = some (additions + deletions))
      "git_delivery diff.total does not equal additions + deletions"
  | none, none => require total.isNone "git_delivery diff.total requires collected line counts"
  | _, _ =>
    .error (.rejected "git_delivery diff additions/deletions must both be collected or both null")

def normalizeDiff : Json → Except ReadError (Option NormalizedDiff)
  | .null => .ok none
  | .obj diff => do
    let additions ← lineCount "additions" diff
    let deletions ← lineCount "deletions" diff
    let total ← lineCount "total" diff
    consistentCounts additions deletions total
    let newFiles ← normalizeFileList "diff.new_files" (JsonObject.get diff "new_files")
    let modifiedFiles ← normalizeFileList "diff.modified_files" (JsonObject.get diff "modified_files")
    let deletedFiles ← normalizeFileList "diff.deleted_files" (JsonObject.get diff "deleted_files")
    return some { additions, deletions, total, newFiles, modifiedFiles, deletedFiles }
  | _ => .error (.rejected "git_delivery diff must be an object or null")

/-! ### The Push -/

/-- `PUSH_STATUSES`. -/
def statusOf (value : Json) : Except ReadError PushStatus :=
  let message := "git_delivery push.status is invalid: " ++ L.repr value
  match value with
  | .str "not_needed" => .ok .notNeeded
  | .str "not_attempted" => .ok .notAttempted
  | .str "pushed" => .ok .pushed
  | .str "already_present" => .ok .alreadyPresent
  | .str "failed" => .ok .failed
  | value => .error (notIn value message)

def normalizeError : Json → Except ReadError (Option (String × String))
  | .null => .ok none
  | .obj error =>
    match JsonObject.get error "code" with
    | .str code =>
      if code ∈ errorCodes then
        match JsonObject.get error "message" with
        | .str message => .ok (some (code, String.ofList ((L.sanitize message).toList.take 2000)))
        | _ => .error (.rejected "git_delivery push.error.message must be a string")
      else .error (.rejected ("git_delivery push.error.code is invalid: " ++ L.repr (.str code)))
    | value => .error (notIn value ("git_delivery push.error.code is invalid: " ++ L.repr value))
  | _ => .error (.rejected "git_delivery push.error must be an object or null")

/-- A confirmed status carries no failure, and a failure is not reported without one. -/
def consistentPush (push : PushFacts) : Except ReadError Unit := do
  require (!(push.status.confirmed && push.error.isSome))
    "git_delivery push.error is not allowed on a confirmed status"
  require (!(push.status = .failed && push.error.isNone))
    "git_delivery push.error is required on status failed"
  require (!((push.status = .notNeeded || push.status = .notAttempted) && push.error.isSome))
    "git_delivery push.error requires status failed"
  require (!(push.status = .notNeeded && push.remoteSha.isSome))
    "git_delivery push.remote_sha must be null on not_needed"
  require (!(push.status.confirmed && push.remoteSha.isNone))
    ("git_delivery " ++ statusText push.status ++ " requires the confirmed remote_sha")

def normalizePush : Json → Except ReadError (Option PushFacts)
  | .null => .ok none
  | .obj push => do
    let status ← statusOf L (JsonObject.get push "status")
    let remoteSha ← shaOf "git_delivery push.remote_sha must be null or a full 40-hex sha"
      (JsonObject.get push "remote_sha")
    let error ← normalizeError L (JsonObject.get push "error")
    let push : PushFacts := { status, remoteSha, error }
    consistentPush push
    return some push
  | _ => .error (.rejected "git_delivery push must be an object or null")

/-! ### The Object -/

/-- The normalized object. -/
structure Normalized where
  attemptId : String
  branch : String
  startSha : Option Sha
  startRemoteSha : Option Sha
  headSha : Option Sha
  commits : Option (List CommitEntry)
  recoveredCommits : Option (List CommitEntry)
  diff : Option NormalizedDiff
  push : Option PushFacts

/-- `bool(commits)`. -/
def hasCommits (commits : Option (List CommitEntry)) : Bool := commits.any (!·.isEmpty)

variable (value : Normalized)

def Normalized.content : Bool := hasCommits value.commits || hasCommits value.recoveredCommits

/-- The push status is pushed or already_present. -/
def Normalized.confirmed (value : Normalized) : Bool := value.push.any (·.status.confirmed)

def consistent : Except ReadError Unit := do
  require (!(value.content && value.headSha.isNone))
    "git_delivery content without a full head sha cannot be attributed"
  require (!(value.confirmed && !value.content))
    "git_delivery confirms a delivery without any listed commits or recovered commits"
  require (!(value.push.any fun push => push.status = .pushed && push.remoteSha ≠ value.headSha))
    "git_delivery pushed remote_sha must equal head_sha"

/-- The message of a field that must be null or a full SHA. -/
def shaMessage (key : String) : String :=
  "git_delivery " ++ key ++ " must be null or a full 40-hex sha"

/-- The schema is the one of the contract. -/
def schemaOf (value : Json) : Except ReadError Unit :=
  let message := "unexpected git_delivery schema: " ++ L.repr value
  match value with
  | .str schema => require (schema = "codify.git-delivery.v1") message
  | _ => .error (.rejected message)

/-- `normalize_git_delivery`. -/
def normalizeGitDelivery : Json → Except ReadError Normalized
  | .obj value => do
    schemaOf L (JsonObject.get value "schema")
    let attemptId ← attemptOf L taskId (JsonObject.get value "attempt_id")
    let branch ← branchOf (JsonObject.get value "branch")
    let startSha ← shaOf (shaMessage "start_sha") (JsonObject.get value "start_sha")
    let startRemoteSha ← shaOf (shaMessage "start_remote_sha") (JsonObject.get value "start_remote_sha")
    let headSha ← shaOf (shaMessage "head_sha") (JsonObject.get value "head_sha")
    let commits ← normalizeCommitList L (JsonObject.get value "commits")
    let recoveredCommits ← normalizeCommitList L (JsonObject.get value "recovered_commits")
    let diff ← normalizeDiff (JsonObject.get value "diff")
    let push ← normalizePush L (JsonObject.get value "push")
    let normalized : Normalized :=
      { attemptId, branch, startSha, startRemoteSha, headSha, commits, recoveredCommits, diff, push }
    consistent normalized
    return normalized
  | _ => .error (.rejected "git_delivery must be an object")

/-- `project_delivery_commit_sha`. -/
def projectDeliveryCommitSha : Option Sha :=
  if value.confirmed && value.content then value.headSha else none

/-- `completed_delivery_error`. -/
def completedDeliveryError : Option String :=
  if value.commits.isNone || value.recoveredCommits.isNone then
    some "run.completed git_delivery requires collected commit lists"
  else if value.content && !value.confirmed then
    some "run.completed git_delivery content requires a remote-confirmed push status"
  else if !value.content && !value.push.any (·.status = .notNeeded) then
    some "run.completed git_delivery without content requires status not_needed"
  else none

end Reader

end Codify.Worker.DeliveryReader

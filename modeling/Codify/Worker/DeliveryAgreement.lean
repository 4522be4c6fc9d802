import Codify.Framework.Fallible
import Codify.Framework.JsonRoundTrip
import Codify.Worker.DeliveryReader
import Mathlib.Algebra.GroupWithZero.Nat
import Mathlib.Data.List.Perm.Subperm

/-! # The Reader Accepts What the Writer Writes

    * **Writer**: within the bounds on commits, files and names, a collected
      delivery is within the bounds of the reader (`legal_collect`).
    * **Reader**: a legal delivery is normalized to itself but for the texts
      (`normalize_json`), and its commit is the projected one (`commitSha_snapshot`).
-/

namespace Codify.Worker.DeliveryAgreement

open Codify.Framework Codify.Worker.GitDelivery Codify.Worker.DeliverySnapshot List Option
open Codify.Worker.DeliveryReader

/-! ### Separated Fields -/

theorem splitOn_terminated {α : Type} [BEq α] [LawfulBEq α] {sep : α} {fields : List (List α)}
    (h : ∀ field ∈ fields, sep ∉ field) :
    (fields.flatMap (· ++ [sep])).splitOn sep = fields ++ [[]] := by
  induction fields with
  | nil => rfl
  | cons field rest ih =>
    rw [flatMap_cons, append_assoc, singleton_append,
      splitOn_append_cons_self_of_not_mem (h field mem_cons_self),
      ih fun other hother => h other (mem_cons_of_mem _ hother)]
    rfl

theorem noNul_sha (sha : Sha) : '\x00' ∉ sha.value.toList := by
  intro hmem
  have hfull := sha.full
  unfold validFullSha at hfull
  rw [Bool.and_eq_true, List.all_eq_true] at hfull
  exact absurd (hfull.2 _ hmem) (by decide)

theorem sha_ne_empty (sha : Sha) : sha.value ≠ "" := by
  intro hempty
  have hfull := sha.full
  unfold validFullSha at hfull
  rw [Bool.and_eq_true, beq_iff_eq, hempty] at hfull
  cases hfull.1

theorem sha_ne_nil (sha : Sha) : sha.value.toList ≠ [] := by
  simpa using sha_ne_empty sha

theorem logTokens_zText (entries : List LogEntry) :
    logTokens (zText (entries.flatMap LogEntry.fields)) =
      (entries.flatMap LogEntry.fields).filter (· ≠ []) := by
  unfold logTokens zText
  rw [splitOn_terminated]
  · simp
  · intro field hfield
    obtain ⟨entry, -, hmem⟩ := mem_flatMap.mp hfield
    rcases mem_cons.mp hmem with rfl | hmem
    · exact noNul_sha entry.sha
    · rw [mem_singleton.mp hmem]
      exact entry.subject.noNul

/-! ### Commits -/

def Bare (entry : LogEntry) : Prop := entry.subject.text = ""

theorem length_pairCommits {tokens : List (List Char)} {commits : List CommitEntry}
    (h : pairCommits tokens = some commits) : 2 * commits.length ≤ tokens.length := by
  induction tokens using pairCommits.induct generalizing commits with
  | case1 sha subject rest hfull ih =>
    unfold pairCommits at h
    rw [dif_pos hfull] at h
    obtain ⟨tail, htail, rfl⟩ := map_eq_some_iff.mp h
    have hlength := ih htail
    simp only [length_cons]
    omega
  | case2 sha subject rest hfull =>
    unfold pairCommits at h
    rw [dif_neg hfull] at h
    cases h
  | case3 tokens hshort =>
    rw [pairCommits.eq_2 tokens hshort] at h
    cases h
    simp

/-- Each commit has its SHA and its subject among the tokens, unless it is bare. -/
theorem length_fields (entries : List LogEntry) :
    ((entries.flatMap LogEntry.fields).filter (· ≠ [])).length ≤ 2 * entries.length ∧
      ((∃ entry ∈ entries, Bare entry) →
        ((entries.flatMap LogEntry.fields).filter (· ≠ [])).length < 2 * entries.length) := by
  induction entries with
  | nil => exact ⟨le_rfl, fun ⟨_, hmem, _⟩ => nomatch hmem⟩
  | cons entry rest ih =>
    obtain ⟨hle, hlt⟩ := ih
    have hfields : ((entry :: rest).flatMap LogEntry.fields).filter (· ≠ []) =
        entry.fields.filter (· ≠ []) ++ (rest.flatMap LogEntry.fields).filter (· ≠ []) := by
      rw [flatMap_cons, filter_append]
    by_cases hbare : Bare entry
    · have hone : entry.fields.filter (· ≠ []) = [entry.sha.value.toList] := by
        have hnil : entry.subject.text.toList = [] := by rw [hbare]; rfl
        simp [LogEntry.fields, sha_ne_empty, hnil]
      rw [hfields, hone, length_append, length_singleton, length_cons]
      exact ⟨by omega, fun _ => by omega⟩
    · have htwo : entry.fields.filter (· ≠ []) = entry.fields := by
        have hsubject : entry.subject.text.toList ≠ [] := by simpa [Bare] using hbare
        simp [LogEntry.fields, sha_ne_empty, hsubject]
      rw [hfields, htwo, length_append, length_cons]
      have hlength : entry.fields.length = 2 := rfl
      refine ⟨by omega, ?_⟩
      rintro ⟨other, hother, hbare'⟩
      rcases mem_cons.mp hother with rfl | hother
      · exact absurd hbare' hbare
      · have hrest := hlt ⟨other, hother, hbare'⟩
        omega

theorem length_flatMap_fields (entries : List LogEntry) :
    (entries.flatMap LogEntry.fields).length = 2 * entries.length := by
  rw [length_flatMap]
  simp [LogEntry.fields, Nat.mul_comm]

variable {entries : List LogEntry} {startSha : Sha} {diff : Diff}

theorem tokens_of_not_bare (h : ∀ entry ∈ entries, ¬ Bare entry) :
    (entries.flatMap LogEntry.fields).filter (· ≠ []) = entries.flatMap LogEntry.fields := by
  rw [filter_eq_self]
  intro field hfield
  obtain ⟨entry, hentry, hmem⟩ := mem_flatMap.mp hfield
  rw [decide_eq_true_eq]
  rcases mem_cons.mp hmem with rfl | hmem
  · exact sha_ne_nil entry.sha
  · rw [mem_singleton.mp hmem]
    have hne := h entry hentry
    simpa [Bare] using hne

theorem pairCommits_fields (entries : List LogEntry) :
    pairCommits (entries.flatMap LogEntry.fields) =
      some (entries.map fun entry => ⟨entry.sha, entry.subject.text⟩) := by
  induction entries with
  | nil => rfl
  | cons entry rest ih =>
    have hfields : (entry :: rest).flatMap LogEntry.fields =
        entry.sha.value.toList :: entry.subject.text.toList :: rest.flatMap LogEntry.fields := rfl
    have hfull : validFullSha (String.ofList entry.sha.value.toList) = true := by
      rw [String.ofList_toList]
      exact entry.sha.full
    rw [hfields, pairCommits, dif_pos hfull, ih]
    simp [String.ofList_toList]

/-- **A log that is read**: commit for commit, or with less commits than were printed. -/
theorem listCommits_spec {repo : Repository} {start : Option Sha} {last : Sha}
    {commits : List CommitEntry} (h : listCommits repo start last = some commits) :
    ∃ entries, repo.log start last = some entries ∧
      (commits.map (·.sha) = entries.map (·.sha) ∨ commits.length < entries.length) := by
  obtain ⟨entries, hlog, htokens⟩ := bind_eq_some_iff.mp h
  rw [logTokens_zText] at htokens
  obtain ⟨-, hpairs⟩ := ite_none_left_eq_some.mp htokens
  refine ⟨entries, hlog, ?_⟩
  by_cases hbare : ∃ entry ∈ entries, Bare entry
  · right
    have hshort := (length_fields entries).2 hbare
    have hlength := length_pairCommits hpairs
    omega
  · left
    have hall : ∀ entry ∈ entries, ¬ Bare entry :=
      fun entry hentry hbare' => hbare ⟨entry, hentry, hbare'⟩
    rw [tokens_of_not_bare hall, pairCommits_fields] at hpairs
    cases hpairs
    simp

/-! ### Bounds -/

/-- At most 2000 commits, 50000 changed files, and names of at most 4096 characters. -/
structure Bounded (repo : Repository) : Prop where
  commits : repo.history.length ≤ 2000
  files : ∀ start last entries,
    repo.nameStatus start last = some entries ∨ repo.diffTree start last = some entries →
      entries.length ≤ 50000
  names : ∀ start last entries,
    repo.nameStatus start last = some entries ∨ repo.diffTree start last = some entries →
      ∀ entry ∈ entries, entry.path.text.length ≤ 4096

variable {repo : Repository} {start : Option Sha} {last : Sha} {commits recovered : List CommitEntry}

theorem length_le_history {shas : List Sha} (hnodup : shas.Nodup) (hmem : ∀ sha ∈ shas, sha ∈ repo.history) :
    shas.length ≤ repo.history.length :=
  (hnodup.subperm hmem).length_le

theorem mem_history (hlog : repo.log start last = some entries) :
    ∀ sha ∈ entries.map (·.sha), sha ∈ repo.history := by
  intro sha hsha
  obtain ⟨entry, hentry, rfl⟩ := List.mem_map.mp hsha
  exact repo.log_mem start last entries hlog entry hentry

theorem length_log (hlog : repo.log start last = some entries) :
    entries.length ≤ repo.history.length := by
  have hle := length_le_history (repo.log_nodup start last entries hlog) (mem_history hlog)
  rwa [length_map] at hle

/-- Commits of the history, or less than it has. -/
def Listed (repo : Repository) (commits : List CommitEntry) : Prop :=
  ((commits.map (·.sha)).Nodup ∧ ∀ sha ∈ commits.map (·.sha), sha ∈ repo.history) ∨
    commits.length < repo.history.length

theorem listed_listCommits (h : listCommits repo start last = some commits) : Listed repo commits := by
  obtain ⟨entries, hlog, hshas | hless⟩ := listCommits_spec h
  · left
    rw [hshas]
    exact ⟨repo.log_nodup start last entries hlog, mem_history hlog⟩
  · exact Or.inr (Nat.lt_of_lt_of_le hless (length_log hlog))

theorem Listed.length_le (h : Listed repo commits) : commits.length ≤ repo.history.length := by
  rcases h with ⟨hnodup, hmem⟩ | hless
  · have hle := length_le_history hnodup hmem
    rwa [length_map] at hle
  · exact Nat.le_of_lt hless

theorem length_adoptPending (h : Listed repo recovered) (pending : Option Sha) :
    (adoptPending repo startSha commits recovered pending).length ≤ repo.history.length := by
  cases pending with
  | none => exact h.length_le
  | some pending =>
    dsimp only [adoptPending]
    by_cases hadopt : pending ∉ (recovered ++ commits).map (·.sha) ∧
        repo.ancestor pending startSha = .ancestor
    · rw [if_pos hadopt, length_append, length_singleton]
      rcases h with ⟨hnodup, hmem⟩ | hless
      · obtain ⟨hnew, hancestor⟩ := hadopt
        have hfresh : pending ∉ recovered.map (·.sha) := by
          intro hold
          rw [map_append] at hnew
          exact hnew (mem_append_left _ hold)
        have hle : (pending :: recovered.map (·.sha)).length ≤ repo.history.length := by
          apply length_le_history (nodup_cons.mpr ⟨hfresh, hnodup⟩)
          intro sha hsha
          rcases mem_cons.mp hsha with rfl | hsha
          · exact repo.ancestor_mem _ _ hancestor
          · exact hmem sha hsha
        rwa [length_cons, length_map] at hle
      · exact hless
    · rw [if_neg hadopt]
      exact h.length_le

/-! ### Line Counts and Names -/

theorem dropWhile_of_none {α : Type} {p : α → Bool} {l : List α} (h : ∀ a ∈ l, p a = false) :
    l.dropWhile p = l := by
  cases l with
  | nil => rfl
  | cons a rest => rw [dropWhile_cons_of_neg (by simp [h a mem_cons_self])]

theorem natOfBytes_toDigits (n : Nat) : natOfBytes (Nat.toDigits 10 n) = some n := by
  have hdigits : (Nat.toDigits 10 n).all Char.isDigit = true :=
    List.all_eq_true.mpr fun c hc => Nat.isDigit_of_mem_toDigits (by decide) (by decide) hc
  unfold natOfBytes
  rw [splitOn_eq_singleton Nat.underscore_not_in_toDigits]
  simp [hdigits, Nat.toDigits_ne_nil, Nat.ofDigitChars_toDigits]

theorem intOfBytes_toDigits (n : Nat) : intOfBytes (Nat.toDigits 10 n) = some (n : Int) := by
  have hdigit : ∀ c ∈ Nat.toDigits 10 n, c.isDigit = true :=
    fun c hc => Nat.isDigit_of_mem_toDigits (by decide) (by decide) hc
  have hrange : ∀ c ∈ Nat.toDigits 10 n, isByteSpace c = false ∧ c ≠ '-' ∧ c ≠ '+' := by
    intro c hc
    have hc := hdigit c hc
    refine ⟨?_, JsonText.ne_of_isDigit hc rfl, JsonText.ne_of_isDigit hc rfl⟩
    unfold Char.isDigit at hc
    rw [Bool.and_eq_true, decide_eq_true_eq, decide_eq_true_eq] at hc
    have hlow : 48 ≤ c.toNat := UInt32.le_iff_toNat_le.mp hc.1
    unfold isByteSpace
    rw [Bool.or_eq_false_iff, Bool.and_eq_false_iff]
    exact ⟨Or.inr (decide_eq_false (by omega)), beq_eq_false_iff_ne.mpr (by omega)⟩
  have hstrip : (((Nat.toDigits 10 n).dropWhile isByteSpace).reverse.dropWhile isByteSpace).reverse =
      Nat.toDigits 10 n := by
    rw [dropWhile_of_none fun c hc => (hrange c hc).1,
      dropWhile_of_none fun c hc => (hrange c (mem_reverse.mp hc)).1, reverse_reverse]
  unfold intOfBytes
  rw [hstrip]
  split
  · next rest heq =>
    exact absurd rfl (hrange '-' (heq ▸ mem_cons_self)).2.1
  · next rest heq =>
    exact absurd rfl (hrange '+' (heq ▸ mem_cons_self)).2.2
  · rw [natOfBytes_toDigits]
    rfl

theorem not_mem_toDigits {c : Char} (hc : c.isDigit = false) (n : Nat) : c ∉ Nat.toDigits 10 n := by
  intro hmem
  rw [Nat.isDigit_of_mem_toDigits (by decide) (by decide) hmem] at hc
  cases hc

theorem splitOn_numstat (line : NumstatEntry) : ∃ column rest,
    line.field.splitOn '\t' = match line.counts with
      | some (added, deleted) => Nat.toDigits 10 added :: Nat.toDigits 10 deleted :: column :: rest
      | none => ['-'] :: ['-'] :: column :: rest := by
  obtain ⟨column, rest, hpath⟩ : ∃ column rest, line.path.text.toList.splitOn '\t' = column :: rest :=
    exists_cons_of_ne_nil (splitOn_ne_nil _ _)
  refine ⟨column, rest, ?_⟩
  unfold NumstatEntry.field
  cases line.counts with
  | none =>
    show (['-'] ++ '\t' :: (['-'] ++ '\t' :: line.path.text.toList)).splitOn '\t' = _
    rw [splitOn_append_cons_self_of_not_mem (by decide),
      splitOn_append_cons_self_of_not_mem (by decide), hpath]
  | some counts =>
    obtain ⟨added, deleted⟩ := counts
    have htab : ∀ n, '\t' ∉ Nat.toDigits 10 n := not_mem_toDigits rfl
    have hline : countFields (some (added, deleted)) ++ line.path.text.toList =
        Nat.toDigits 10 added ++ '\t' :: (Nat.toDigits 10 deleted ++ '\t' :: line.path.text.toList) := by
      simp [countFields]
    rw [hline, splitOn_append_cons_self_of_not_mem (htab added),
      splitOn_append_cons_self_of_not_mem (htab deleted), hpath]

theorem field_ne_nil (line : NumstatEntry) : line.field ≠ [] := by
  unfold NumstatEntry.field countFields
  cases line.counts with
  | none => simp
  | some counts => simp

/-- The lines that a diff adds; a binary file has no line counts. -/
def linesAdded (lines : List NumstatEntry) : Nat :=
  (lines.map fun line => (line.counts.map Prod.fst).getD 0).sum

def linesDeleted (lines : List NumstatEntry) : Nat :=
  (lines.map fun line => (line.counts.map Prod.snd).getD 0).sum

theorem sumNumstat_lines (lines : List NumstatEntry) (additions deletions : Int) :
    sumNumstat additions deletions (lines.map NumstatEntry.field ++ [[]]) =
      some (additions + linesAdded lines, deletions + linesDeleted lines) := by
  induction lines generalizing additions deletions with
  | nil => simp [sumNumstat, linesAdded, linesDeleted]
  | cons line rest ih =>
    obtain ⟨column, columns, hsplit⟩ := splitOn_numstat line
    rw [map_cons, cons_append, sumNumstat, if_neg (field_ne_nil line), hsplit]
    unfold linesAdded linesDeleted at ih ⊢
    rw [map_cons, map_cons, sum_cons, sum_cons]
    cases line.counts with
    | none =>
      show (if ['-'] = ['-'] ∨ ['-'] = ['-'] then _ else _) = _
      rw [if_pos (Or.inl rfl), ih]
      simp
    | some counts =>
      obtain ⟨added, deleted⟩ := counts
      have hdash : ∀ n, Nat.toDigits 10 n ≠ ['-'] :=
        fun n heq => not_mem_toDigits rfl n (heq ▸ mem_cons_self)
      dsimp only
      rw [if_neg (not_or.mpr ⟨hdash added, hdash deleted⟩), intOfBytes_toDigits, intOfBytes_toDigits]
      dsimp only
      rw [ih]
      simp only [map_some, getD_some, Int.natCast_add, Int.add_assoc]

theorem parseNumstat_lines (lines : List NumstatEntry) :
    parseNumstat (zText (lines.map NumstatEntry.field)) =
      some ((linesAdded lines : Int), (linesDeleted lines : Int)) := by
  unfold parseNumstat zText
  rw [splitOn_terminated]
  · rw [sumNumstat_lines, Int.zero_add, Int.zero_add]
  · intro field hfield
    obtain ⟨line, -, rfl⟩ := List.mem_map.mp hfield
    unfold NumstatEntry.field
    rw [mem_append]
    rintro (hmem | hmem)
    · unfold countFields at hmem
      cases hcounts : line.counts with
      | none =>
        rw [hcounts] at hmem
        revert hmem
        decide
      | some counts =>
        rw [hcounts] at hmem
        rcases mem_append.mp hmem with hmem | hmem
        · exact not_mem_toDigits rfl _ hmem
        · rcases mem_cons.mp hmem with heq | hmem
          · revert heq
            decide
          · rcases mem_append.mp hmem with hmem | hmem
            · exact not_mem_toDigits rfl _ hmem
            · revert hmem
              decide
    · exact line.path.noNul hmem

theorem length_namesOf (wanted : Char → Bool) :
    ∀ fields, 2 * (namesOf wanted fields).length ≤ fields.length
  | [] => le_rfl
  | [_] => Nat.zero_le _
  | status :: name :: rest => by
    have ih := length_namesOf wanted rest
    simp only [namesOf, length_cons]
    split
    · rw [length_cons]
      omega
    · omega

theorem mem_namesOf {wanted : Char → Bool} {name : String} :
    ∀ {fields}, name ∈ namesOf wanted fields → name.toList ∈ fields
  | [], h => nomatch h
  | [_], h => nomatch h
  | status :: path :: rest, h => by
    have hrest : name ∈ namesOf wanted rest → name.toList ∈ status :: path :: rest :=
      fun hmem => mem_cons_of_mem _ (mem_cons_of_mem _ (mem_namesOf hmem))
    rw [namesOf] at h
    split at h
    · rcases mem_cons.mp h with rfl | h
      · rw [String.toList_ofList]
        exact mem_cons_of_mem _ mem_cons_self
      · exact hrest h
    · exact hrest h

theorem splitOn_changes (entries : List ChangeEntry) :
    (zText (entries.flatMap ChangeEntry.fields)).splitOn '\x00' =
      entries.flatMap ChangeEntry.fields ++ [[]] := by
  unfold zText
  apply splitOn_terminated
  intro field hfield
  obtain ⟨entry, -, hmem⟩ := mem_flatMap.mp hfield
  rcases mem_cons.mp hmem with rfl | hmem
  · simpa using entry.status_ne.symm
  · rw [mem_singleton.mp hmem]
    exact entry.path.noNul

/-- A list of names that the reader takes. -/
def LegalNames (names : List String) : Prop :=
  names.length ≤ 50000 ∧ ∀ name ∈ names, name.length ≤ 4096

theorem legalNames_namesOf {entries : List ChangeEntry} (hfiles : entries.length ≤ 50000)
    (hnames : ∀ entry ∈ entries, entry.path.text.length ≤ 4096) (wanted : Char → Bool) :
    LegalNames (namesOf wanted ((zText (entries.flatMap ChangeEntry.fields)).splitOn '\x00')) := by
  rw [splitOn_changes]
  constructor
  · have hlength := length_namesOf wanted (entries.flatMap ChangeEntry.fields ++ [[]])
    have hfields : (entries.flatMap ChangeEntry.fields).length = 2 * entries.length := by
      rw [length_flatMap]
      simp [ChangeEntry.fields, Nat.mul_comm]
    rw [length_append, hfields, length_singleton] at hlength
    omega
  · intro name hname
    rw [← String.length_toList]
    rcases mem_append.mp (mem_namesOf hname) with hmem | hmem
    · obtain ⟨entry, hentry, hmem⟩ := mem_flatMap.mp hmem
      rcases mem_cons.mp hmem with heq | hmem
      · rw [heq, length_singleton]
        decide
      · rw [mem_singleton.mp hmem, String.length_toList]
        exact hnames entry hentry
    · rw [mem_singleton.mp hmem]
      decide

/-! ### Legal Deliveries -/

/-- A diff that the reader takes. -/
structure LegalDiff (diff : Diff) : Prop where
  counts : ∀ additions deletions, diff.counts = some (additions, deletions) →
    0 ≤ additions ∧ 0 ≤ deletions
  newFiles : LegalNames diff.newFiles
  modifiedFiles : LegalNames diff.modifiedFiles
  deletedFiles : LegalNames diff.deletedFiles

/-- Commits to deliver, of the task or inherited. -/
def content (delivery : Delivery) : Bool :=
  hasCommits delivery.commits || hasCommits delivery.recoveredCommits

/-- The facts of a delivery that the push does not touch. -/
structure LegalFacts (run : Assignment) (delivery : Delivery) : Prop where
  attemptId : delivery.attemptId = run.attemptId
  branch : delivery.branch = run.branch
  commits : ∀ commits, delivery.commits = some commits → commits.length ≤ 2000
  recovered : ∀ commits, delivery.recoveredCommits = some commits → commits.length ≤ 2000
  head : content delivery = true → delivery.headSha.isSome = true
  diff : ∀ diff, delivery.diff = some diff → LegalDiff diff

/-- Push facts that the reader takes for a head, with content or without. -/
structure LegalPush (headSha : Option Sha) (content : Bool) (push : PushFacts) : Prop where
  confirmed : push.status.confirmed = true →
    content = true ∧ push.error = none ∧ push.remoteSha.isSome = true
  failed : push.status = .failed → push.error.isSome = true
  open_ : push.status = .notNeeded ∨ push.status = .notAttempted → push.error = none
  notNeeded : push.status = .notNeeded → push.remoteSha = none
  pushed : push.status = .pushed → push.remoteSha = headSha
  code : ∀ code message, push.error = some (code, message) → code ∈ errorCodes

theorem legalDiff_parse {entries : List ChangeEntry} {counts : Option (Int × Int)}
    (hfiles : entries.length ≤ 50000) (hnames : ∀ entry ∈ entries, entry.path.text.length ≤ 4096)
    (hcounts : ∀ additions deletions, counts = some (additions, deletions) →
      0 ≤ additions ∧ 0 ≤ deletions) : LegalDiff (parseNameStatus counts entries) :=
  ⟨hcounts, legalNames_namesOf hfiles hnames _, legalNames_namesOf hfiles hnames _,
    legalNames_namesOf hfiles hnames _⟩

theorem legalDiff_collect (hbounded : Bounded repo) {startSha headSha : Sha}
    (h : collectDiff repo startSha headSha = some diff) : LegalDiff diff := by
  unfold collectDiff at h
  cases hstatus : repo.nameStatus startSha headSha with
  | none =>
    rw [hstatus] at h
    obtain ⟨entries, htree, rfl⟩ := map_eq_some_iff.mp h
    exact legalDiff_parse (hbounded.files _ _ _ (Or.inr htree)) (hbounded.names _ _ _ (Or.inr htree))
      fun _ _ hcounts => nomatch hcounts
  | some entries =>
    rw [hstatus] at h
    cases h
    apply legalDiff_parse (hbounded.files _ _ _ (Or.inl hstatus))
      (hbounded.names _ _ _ (Or.inl hstatus))
    intro additions deletions hcounts
    obtain ⟨lines, -, hparse⟩ := bind_eq_some_iff.mp hcounts
    rw [parseNumstat_lines] at hparse
    cases hparse
    exact ⟨Int.natCast_nonneg _, Int.natCast_nonneg _⟩

theorem length_recovered {start : StartFile} {receipt : Option JsonObject}
    (h : collectRecovered repo start receipt startSha commits = .ok recovered) :
    recovered.length ≤ repo.history.length := by
  unfold collectRecovered at h
  split at h
  · cases h
  next base hbase =>
  split at h
  · cases h
  next inherited hlist =>
  cases h
  apply length_adoptPending
  cases base with
  | none =>
    cases hlist
    exact Or.inl ⟨nodup_nil, fun sha hsha => nomatch hsha⟩
  | some base => exact listed_listCommits hlist

theorem headSha_of_range {start : StartFile} {startSha headSha : Sha}
    (h : attributedRange repo start = .ok (startSha, headSha)) : repo.head = some headSha := by
  unfold attributedRange at h
  split at h
  · next head branch hhead hbranch =>
    split at h
    · cases h
    · split at h
      · cases h
      · split at h
        · cases h
        · split at h
          · cases h
          · cases h
          · cases h
            exact hhead
  · cases h

/-- **The writer**: what it collects is legal, with the push not attempted. -/
theorem legal_collect (hbounded : Bounded repo) (start : StartFile) (receipt : Option JsonObject) :
    LegalFacts start.run (collectGitDelivery repo start receipt).1 ∧
      (collectGitDelivery repo start receipt).1.push = {} := by
  have hnone : ∀ headSha : Option Sha, LegalFacts start.run
      { attemptId := start.run.attemptId, branch := start.run.branch, startSha := start.startSha,
        startRemoteSha := start.startRemoteSha, headSha := headSha } := fun headSha =>
    { attemptId := rfl
      branch := rfl
      commits := fun _ h => nomatch h
      recovered := fun _ h => nomatch h
      head := fun h => nomatch h
      diff := fun _ h => nomatch h }
  unfold collectGitDelivery
  dsimp only
  split
  · exact ⟨hnone _, rfl⟩
  next startSha headSha hrange =>
  split
  · exact ⟨hnone _, rfl⟩
  next commits hcommits =>
  have hlength : ∀ commits', some commits = some commits' → commits'.length ≤ 2000 := by
    rintro _ ⟨⟩
    exact (listed_listCommits hcommits).length_le.trans hbounded.commits
  have hhead : repo.head.isSome = true := by
    rw [headSha_of_range hrange]
    rfl
  split
  · exact ⟨{ attemptId := rfl
             branch := rfl
             commits := hlength
             recovered := fun _ h => nomatch h
             head := fun _ => hhead
             diff := fun _ h => legalDiff_collect hbounded h }, rfl⟩
  · next recovered hrecovered =>
    refine ⟨{ attemptId := rfl
              branch := rfl
              commits := hlength
              recovered := ?_
              head := fun _ => hhead
              diff := fun _ h => legalDiff_collect hbounded h }, rfl⟩
    rintro _ ⟨⟩
    exact (length_recovered hrecovered).trans hbounded.commits

/-! ### Reading Back -/

variable (L : Library)

theorem asSha_value (sha : Sha) : asSha (.str sha.value) = some sha := by
  dsimp only [asSha]
  rw [dif_pos sha.full]

@[simp] theorem shaOf_shaJson (message : String) (sha : Option Sha) :
    shaOf message (shaJson sha) = .ok sha := by
  cases sha with
  | none => rfl
  | some sha =>
    simp [shaOf, shaJson, asSha_value]

theorem afterPrefix_append (before text : List Char) :
    afterPrefix before (before ++ text) = some text := by
  induction before with
  | nil => rfl
  | cons c rest ih =>
    rw [cons_append, afterPrefix, if_pos rfl]
    exact ih

theorem attemptMatches_attemptId (run : Assignment) :
    attemptMatches L run.taskId run.attemptId.toList = true := by
  have htext : run.attemptId.toList =
      ("task-" ++ toString run.taskId ++ "-attempt-").toList ++
        (Nat.toDigits 10 run.attemptNo ++ '-' :: run.suffix) := by
    simp [Assignment.attemptId, Nat.toList_repr]
  have hdigits : ∀ c ∈ Nat.toDigits 10 run.attemptNo, L.isDecimal c = true :=
    fun c hc => L.isDecimal_digit c (Nat.isDigit_of_mem_toDigits (by decide) (by decide) hc)
  have htake : (Nat.toDigits 10 run.attemptNo ++ '-' :: run.suffix).takeWhile L.isDecimal =
      Nat.toDigits 10 run.attemptNo := by
    rw [takeWhile_append_of_pos hdigits, takeWhile_cons_of_neg (by simp [L.isDecimal_dash]),
      append_nil]
  have hdrop : (Nat.toDigits 10 run.attemptNo ++ '-' :: run.suffix).dropWhile L.isDecimal =
      '-' :: run.suffix := by
    rw [dropWhile_append_of_pos hdigits, dropWhile_cons_of_neg (by simp [L.isDecimal_dash])]
  have hhex : run.suffix.all "0123456789abcdef".toList.contains = true := by
    rw [List.all_eq_true]
    exact fun c hc => contains_iff_mem.mpr (run.suffix_hex c hc)
  unfold attemptMatches
  rw [htext, afterPrefix_append]
  dsimp only
  rw [htake, hdrop]
  show (!(Nat.toDigits 10 run.attemptNo).isEmpty && (run.suffix.take 12).all _ && _) = true
  rw [← run.suffix_length, take_length, hhex]
  simp [Nat.toDigits_ne_nil]

theorem attemptOf_run (run : Assignment) :
    attemptOf L run.taskId (.str run.attemptId) = .ok run.attemptId := by
  unfold attemptOf
  dsimp only
  rw [if_pos (attemptMatches_attemptId L run)]

theorem branchOf_run (run : Assignment) : branchOf (.str run.branch) = .ok run.branch := by
  have hlength := run.branch_length
  dsimp only [branchOf]
  rw [if_neg (by simp [run.branch_text]), if_neg (by omega)]

def readCommit (commit : CommitEntry) : CommitEntry := ⟨commit.sha, cleanText L commit.subject⟩

theorem normalizeCommit_json (commit : CommitEntry) :
    normalizeCommit L commit.json = .ok (readCommit L commit) := by
  have hsha : JsonObject.get [("sha", .str commit.sha.value), ("subject", .str commit.subject)] "sha" =
      .str commit.sha.value := rfl
  have hsubject :
      JsonObject.get [("sha", .str commit.sha.value), ("subject", .str commit.subject)] "subject" =
        .str commit.subject := rfl
  unfold CommitEntry.json normalizeCommit
  dsimp only
  rw [hsha, asSha_value, hsubject]
  rfl

theorem mapM_ok {α β ε : Type} {read : Json → Except ε β} {write : α → Json} {f : α → β}
    {items : List α} (h : ∀ item ∈ items, read (write item) = .ok (f item)) :
    (items.map write).mapM read = .ok (items.map f) := by
  induction items with
  | nil => rfl
  | cons item rest ih =>
    rw [map_cons, mapM_cons, h item mem_cons_self,
      ih fun other hother => h other (mem_cons_of_mem _ hother)]
    rfl

theorem normalizeCommitList_json {commits : Option (List CommitEntry)}
    (h : ∀ list, commits = some list → list.length ≤ 2000) :
    normalizeCommitList L (commitsJson commits) = .ok (commits.map (·.map (readCommit L))) := by
  cases commits with
  | none => rfl
  | some list =>
    have hlength := h list rfl
    show normalizeCommitList L (.arr (list.map CommitEntry.json)) = _
    dsimp only [normalizeCommitList]
    rw [length_map, if_neg (Nat.not_lt.mpr hlength),
      mapM_ok fun commit _ => normalizeCommit_json L commit]
    rfl

theorem normalizeFileList_json (label : String) {names : List String} (h : LegalNames names) :
    normalizeFileList label (namesJson names) = .ok names := by
  have hname : ∀ name ∈ names, normalizeFile label (.str name) = .ok (id name) := by
    intro name hname
    dsimp only [normalizeFile]
    rw [if_neg (Nat.not_lt.mpr (h.2 name hname))]
    rfl
  dsimp only [namesJson, normalizeFileList]
  rw [length_map, if_neg (Nat.not_lt.mpr h.1), mapM_ok hname, List.map_id]

def readDiff (diff : Diff) : NormalizedDiff :=
  { additions := diff.counts.map (·.1), deletions := diff.counts.map (·.2),
    total := diff.counts.map fun counts => counts.1 + counts.2, newFiles := diff.newFiles,
    modifiedFiles := diff.modifiedFiles, deletedFiles := diff.deletedFiles }

theorem normalizeDiff_json (h : LegalDiff diff) :
    normalizeDiff diff.json = .ok (some (readDiff diff)) := by
  have hnew := normalizeFileList_json "diff.new_files" h.newFiles
  have hmodified := normalizeFileList_json "diff.modified_files" h.modifiedFiles
  have hdeleted := normalizeFileList_json "diff.deleted_files" h.deletedFiles
  obtain ⟨counts, newFiles, modifiedFiles, deletedFiles⟩ := diff
  cases counts with
  | none =>
    show (normalizeFileList _ (namesJson newFiles) >>= fun newFiles =>
      normalizeFileList _ (namesJson modifiedFiles) >>= fun modifiedFiles =>
      normalizeFileList _ (namesJson deletedFiles) >>= fun deletedFiles => _) = _
    rw [hnew, ok_bind, hmodified, ok_bind, hdeleted, ok_bind]
    rfl
  | some counts =>
    obtain ⟨additions, deletions⟩ := counts
    obtain ⟨hadditions, hdeletions⟩ := h.counts additions deletions rfl
    have hcount : ∀ {key : String} {fields : JsonObject} {n : Int}, fields.get key = .int n → 0 ≤ n →
        lineCount key fields = .ok (some n) := by
      intro key fields n hget hn
      unfold lineCount
      rw [hget]
      exact if_neg (Int.not_lt.mpr hn)
    have htotal : 0 ≤ additions + deletions := by omega
    unfold Diff.json normalizeDiff
    dsimp only
    rw [hcount (n := additions) rfl hadditions, ok_bind, hcount (n := deletions) rfl hdeletions, ok_bind,
      hcount (n := additions + deletions) rfl htotal, ok_bind]
    have hconsistent : consistentCounts (some additions) (some deletions) (some (additions + deletions)) =
        .ok () := by
      unfold consistentCounts require
      exact if_pos (decide_eq_true rfl)
    rw [hconsistent, ok_bind]
    show (normalizeFileList _ (namesJson newFiles) >>= fun newFiles =>
      normalizeFileList _ (namesJson modifiedFiles) >>= fun modifiedFiles =>
      normalizeFileList _ (namesJson deletedFiles) >>= fun deletedFiles => _) = _
    rw [hnew, ok_bind, hmodified, ok_bind, hdeleted, ok_bind]
    rfl

/-- The push facts as the reader has them: the message is cleaned. -/
def readPush (push : PushFacts) : PushFacts :=
  { push with
    error := push.error.map fun error =>
      (error.1, String.ofList ((L.sanitize error.2).toList.take 2000)) }

theorem statusOf_text (status : PushStatus) : statusOf L (.str (statusText status)) = .ok status := by
  cases status with
  | notNeeded => rfl
  | notAttempted => rfl
  | pushed => rfl
  | alreadyPresent => rfl
  | failed => rfl

theorem require_ok {holds : Bool} {message : String} (h : holds = true) :
    require holds message = .ok () := if_pos h

variable {headSha : Option Sha} {hasContent : Bool} {push : PushFacts}

theorem normalizeError_json (hpush : LegalPush headSha hasContent push) :
    normalizeError L (errorJson push.error) = .ok (readPush L push).error := by
  unfold readPush
  cases herror : push.error with
  | none => rfl
  | some error =>
    obtain ⟨code, message⟩ := error
    have hcode := hpush.code code message herror
    show (if code ∈ errorCodes then Except.ok _ else _) = _
    rw [if_pos hcode]
    rfl

theorem consistentPush_read (hpush : LegalPush headSha hasContent push) :
    consistentPush (readPush L push) = .ok () := by
  obtain ⟨hconfirmed, hfailed, hopen, hnotNeeded, -, -⟩ := hpush
  obtain ⟨status, remoteSha, error⟩ := push
  unfold consistentPush readPush
  cases status with
  | notNeeded =>
    obtain rfl : error = none := hopen (Or.inl rfl)
    obtain rfl : remoteSha = none := hnotNeeded rfl
    rfl
  | notAttempted =>
    obtain rfl : error = none := hopen (Or.inr rfl)
    rfl
  | pushed | alreadyPresent =>
    obtain ⟨-, rfl, hremote⟩ := hconfirmed rfl
    obtain ⟨sha, rfl⟩ := isSome_iff_exists.mp hremote
    rfl
  | failed =>
    obtain ⟨text, rfl⟩ := isSome_iff_exists.mp (hfailed rfl)
    rfl

theorem normalizePush_json (hpush : LegalPush headSha hasContent push) :
    normalizePush L (.obj (pushJson push)) = .ok (some (readPush L push)) := by
  show (statusOf L (.str (statusText push.status)) >>= fun status =>
    shaOf _ (shaJson push.remoteSha) >>= fun remoteSha =>
    normalizeError L (errorJson push.error) >>= fun error =>
    consistentPush (PushFacts.mk status remoteSha error) >>= fun _ =>
    Except.ok (some (PushFacts.mk status remoteSha error))) = _
  rw [statusOf_text, ok_bind, shaOf_shaJson, ok_bind, normalizeError_json L hpush, ok_bind]
  have hconsistent := consistentPush_read L hpush
  unfold readPush at hconsistent ⊢
  rw [hconsistent]
  rfl

def readDelivery (delivery : Delivery) : Normalized :=
  { attemptId := delivery.attemptId, branch := delivery.branch, startSha := delivery.startSha,
    startRemoteSha := delivery.startRemoteSha, headSha := delivery.headSha,
    commits := delivery.commits.map (·.map (readCommit L)),
    recoveredCommits := delivery.recoveredCommits.map (·.map (readCommit L)),
    diff := delivery.diff.map readDiff, push := some (readPush L delivery.push) }

theorem hasCommits_read (commits : Option (List CommitEntry)) :
    hasCommits (commits.map (·.map (readCommit L))) = hasCommits commits := by
  cases commits with
  | none => rfl
  | some list => cases list <;> rfl

theorem content_read (delivery : Delivery) : (readDelivery L delivery).content = content delivery := by
  unfold Normalized.content content readDelivery
  dsimp only
  rw [hasCommits_read, hasCommits_read]

theorem confirmed_read (delivery : Delivery) :
    (readDelivery L delivery).confirmed = delivery.push.status.confirmed := rfl

/-- A legal delivery: the facts and the push. -/
def Legal (run : Assignment) (delivery : Delivery) : Prop :=
  LegalFacts run delivery ∧ LegalPush delivery.headSha (content delivery) delivery.push

variable {run : Assignment} {delivery : Delivery}

theorem consistent_read (h : Legal run delivery) : consistent (readDelivery L delivery) = .ok () := by
  obtain ⟨hfacts, hpush⟩ := h
  unfold consistent
  rw [content_read, confirmed_read]
  have hhead : (!(content delivery && (readDelivery L delivery).headSha.isNone)) = true := by
    cases hcontent : content delivery with
    | false => rfl
    | true =>
      obtain ⟨sha, hsha⟩ := isSome_iff_exists.mp (hfacts.head hcontent)
      show (!(true && delivery.headSha.isNone)) = true
      rw [hsha]
      rfl
  have hcontent : (!(delivery.push.status.confirmed && !content delivery)) = true := by
    cases hconfirmed : delivery.push.status.confirmed with
    | false => rfl
    | true => simp [(hpush.confirmed hconfirmed).1]
  have hpushed : (!((readDelivery L delivery).push.any fun push =>
      push.status = .pushed && push.remoteSha ≠ (readDelivery L delivery).headSha)) = true := by
    show (!(decide (delivery.push.status = .pushed) &&
      decide (delivery.push.remoteSha ≠ delivery.headSha))) = true
    by_cases hstatus : delivery.push.status = .pushed
    · simp [hpush.pushed hstatus]
    · simp [hstatus]
  rw [require_ok hhead, ok_bind, require_ok hcontent, ok_bind, require_ok hpushed]

/-- **The reader**: a legal delivery is accepted, and changed in its texts only. -/
theorem normalize_json (h : Legal run delivery) :
    normalizeGitDelivery L run.taskId (.obj delivery.json) = .ok (readDelivery L delivery) := by
  obtain ⟨hfacts, hpush⟩ := h
  have hdiff : normalizeDiff ((delivery.diff.map Diff.json).getD .null) =
      .ok (delivery.diff.map readDiff) := by
    cases hsome : delivery.diff with
    | none => rfl
    | some diff => exact normalizeDiff_json (hfacts.diff diff hsome)
  show (attemptOf L run.taskId (.str delivery.attemptId) >>= fun attemptId =>
    branchOf (.str delivery.branch) >>= fun branch =>
    shaOf _ (shaJson delivery.startSha) >>= fun startSha =>
    shaOf _ (shaJson delivery.startRemoteSha) >>= fun startRemoteSha =>
    shaOf _ (shaJson delivery.headSha) >>= fun headSha =>
    normalizeCommitList L (commitsJson delivery.commits) >>= fun commits =>
    normalizeCommitList L (commitsJson delivery.recoveredCommits) >>= fun recoveredCommits =>
    normalizeDiff ((delivery.diff.map Diff.json).getD .null) >>= fun diff =>
    normalizePush L (.obj (pushJson delivery.push)) >>= fun push => _) = _
  rw [hfacts.attemptId, hfacts.branch, attemptOf_run, ok_bind, branchOf_run, ok_bind, shaOf_shaJson,
    ok_bind, shaOf_shaJson, ok_bind, shaOf_shaJson, ok_bind, normalizeCommitList_json L hfacts.commits,
    ok_bind, normalizeCommitList_json L hfacts.recovered, ok_bind, hdiff, ok_bind,
    normalizePush_json L hpush, ok_bind]
  have hconsistent := consistent_read L ⟨hfacts, hpush⟩
  unfold readDelivery at hconsistent ⊢
  rw [hfacts.attemptId, hfacts.branch] at hconsistent ⊢
  dsimp only
  rw [hconsistent]
  rfl

/-! ### The Projections -/

/-- The head of a delivery that the remote is confirmed to contain. -/
def deliveredSha (delivery : Delivery) : Option Sha :=
  if delivery.push.status.confirmed && content delivery then delivery.headSha else none

theorem nonemptyList_json (commits : Option (List CommitEntry)) :
    nonemptyList (commitsJson commits) = hasCommits commits := by
  cases commits with
  | none => rfl
  | some list => cases list <;> rfl

theorem confirmedStatus_json (push : PushFacts) :
    confirmedStatus (.obj (pushJson push)) = push.status.confirmed := by
  obtain ⟨status, remoteSha, error⟩ := push
  cases status <;> rfl

theorem asSha_shaJson (sha : Option Sha) : asSha (shaJson sha) = sha := by
  cases sha with
  | none => rfl
  | some sha => exact asSha_value sha

theorem commitSha_projections (repo : Repository) (delivery : Delivery) :
    JsonObject.get (projections repo delivery.json) "commit_sha" = shaJson (deliveredSha delivery) := by
  show shaJson (if confirmedStatus (.obj (pushJson delivery.push)) &&
      (nonemptyList (commitsJson delivery.commits) ||
        nonemptyList (commitsJson delivery.recoveredCommits)) then
    asSha (shaJson delivery.headSha) else none) = _
  rw [confirmedStatus_json, nonemptyList_json, nonemptyList_json, asSha_shaJson]
  rfl

theorem commitSha_snapshot (repo : Repository) (workDir : String) (delivery : Delivery)
    (error : Option DeliveryError) :
    JsonObject.get (snapshotOf repo workDir delivery error) "commit_sha" =
      shaJson (projectDeliveryCommitSha (readDelivery L delivery)) := by
  have hproject : projectDeliveryCommitSha (readDelivery L delivery) = deliveredSha delivery := by
    unfold projectDeliveryCommitSha deliveredSha
    rw [content_read, confirmed_read]
    rfl
  rw [hproject, ← commitSha_projections repo]
  rfl

theorem gitDelivery_snapshot (repo : Repository) (workDir : String) (delivery : Delivery)
    (error : Option DeliveryError) :
    JsonObject.get (snapshotOf repo workDir delivery error) "git_delivery" = .obj delivery.json := rfl

/-- **`record_push`** rewrites the push facts and what depends on them. -/
theorem cmdRecordPush_snapshot (repo : Repository) (workDir : String) (delivery : Delivery)
    (error : Option DeliveryError) (status : PushStatus) (remoteSha : Option Sha)
    (code message : String) :
    cmdRecordPush repo (snapshotOf repo workDir delivery error) status remoteSha code message =
      (recordPush status remoteSha code message).map fun push =>
        snapshotOf repo workDir { delivery with push } error := by
  have hworkDir :
      JsonObject.get (snapshotOf repo workDir delivery error) "_work_dir" = .str workDir := rfl
  have hpush : delivery.json.lookup "push" = some (.obj (pushJson delivery.push)) := rfl
  have hwrite : ∀ text, pushErrorJson code message = some (errorJson text) →
      cmdRecordPush repo (snapshotOf repo workDir delivery error) status remoteSha code message =
        some (snapshotOf repo workDir { delivery with push := ⟨status, remoteSha, text⟩ } error) := by
    intro text htext
    unfold cmdRecordPush
    rw [gitDelivery_snapshot, hworkDir]
    dsimp only
    rw [hpush, htext]
    cases error <;> rfl
  unfold recordPush
  by_cases hempty : code = ""
  · rw [if_pos hempty]
    exact hwrite none (if_pos hempty)
  · rw [if_neg hempty]
    by_cases hcode : code ∉ errorCodes
    · have hrefused : pushErrorJson code message = none := by
        unfold pushErrorJson
        rw [if_neg hempty, if_pos hcode]
      unfold cmdRecordPush
      rw [gitDelivery_snapshot, hworkDir, if_pos hcode]
      dsimp only
      rw [hpush, hrefused]
      rfl
    · rw [if_neg hcode]
      by_cases hmessage : message = ""
      · have hrefused : pushErrorJson code message = none := by
          unfold pushErrorJson
          rw [if_neg hempty, if_neg hcode, if_pos hmessage]
        unfold cmdRecordPush
        rw [gitDelivery_snapshot, hworkDir, if_pos hmessage]
        dsimp only
        rw [hpush, hrefused]
        rfl
      · rw [if_neg hmessage]
        apply hwrite
        unfold pushErrorJson
        rw [if_neg hempty, if_neg hcode, if_neg hmessage]

end Codify.Worker.DeliveryAgreement

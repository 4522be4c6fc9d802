import Codify.Worker.DeliveryAgreement

/-! # Reading the Commit List

    `_list_commits` (deploy/worker-entrypoint/git-delivery.py) on what git prints. The
    process is run in text mode, so the line ends of its output are translated before
    the fields are cut; and empty fields are dropped before they are paired.

    * **Line ends**: `universalNewlines` keeps the fields apart (`universalNewlines_zText`).
    * **Result**: `commit_list_iff`, the list is read back exactly when every subject has
      a character and none has a carriage return.
-/

namespace Codify.Worker.CommitList

open Codify.Worker.GitDelivery Codify.Worker.DeliverySnapshot Codify.Worker.DeliveryAgreement List

/-! ### The Reader -/

/-- What text mode makes of line ends: `\r\n` and `\r` become `\n`. -/
def universalNewlines : List Char → List Char
  | [] => []
  | '\r' :: '\n' :: rest => '\n' :: universalNewlines rest
  | '\r' :: rest => '\n' :: universalNewlines rest
  | c :: rest => c :: universalNewlines rest

/-- `_list_commits` on the output of a `git log` that has succeeded. -/
def readCommits (printed : List Char) : Option (List CommitEntry) :=
  let tokens := logTokens (universalNewlines printed)
  if tokens.length % 2 ≠ 0 then none else pairCommits tokens

variable (entry : LogEntry) (entries : List LogEntry)

/-- `git log -z --format=%H%x00%s`. -/
def printCommits : List Char := zText (entries.flatMap LogEntry.fields)

def commitsOf : List CommitEntry := entries.map fun entry => ⟨entry.sha, entry.subject.text⟩

/-! ### Line Ends -/

variable {text rest : List Char} {c : Char}

theorem universalNewlines_cons (h : c ≠ '\r') :
    universalNewlines (c :: rest) = c :: universalNewlines rest := by
  rw [universalNewlines]
  · rintro tail rfl -
    exact h rfl
  · rintro rfl
    exact h rfl

theorem not_mem_universalNewlines (text : List Char) : '\r' ∉ universalNewlines text := by
  fun_induction universalNewlines text with
  | case1 => exact not_mem_nil
  | case2 rest ih => simpa using ih
  | case3 rest _ ih => simpa using ih
  | case4 c rest _ hne ih =>
    have hc : '\r' ≠ c := fun h => hne h.symm
    simp [hc, ih]

theorem universalNewlines_of_not_mem (h : '\r' ∉ text) : universalNewlines text = text := by
  induction text with
  | nil => rfl
  | cons c rest ih =>
    obtain ⟨hc, hrest⟩ := not_or.mp (mt mem_cons.mpr h)
    rw [universalNewlines_cons (Ne.symm hc), ih hrest]

theorem universalNewlines_eq_self_iff : universalNewlines text = text ↔ '\r' ∉ text := by
  constructor
  · intro h
    rw [← h]
    exact not_mem_universalNewlines text
  · exact universalNewlines_of_not_mem

theorem universalNewlines_append (text rest : List Char) :
    universalNewlines (text ++ '\x00' :: rest) =
      universalNewlines text ++ '\x00' :: universalNewlines rest := by
  fun_induction universalNewlines text with
  | case1 => exact universalNewlines_cons (by decide)
  | case2 more ih =>
    show '\n' :: universalNewlines (more ++ '\x00' :: rest) = _
    rw [ih]
    rfl
  | case3 more hother ih =>
    have hhead : ∀ tail, more ++ '\x00' :: rest ≠ '\n' :: tail := by
      intro tail heq
      cases more with
      | nil => cases heq
      | cons d more => exact hother more (by rw [(List.cons.inj heq).1])
    rw [cons_append, universalNewlines.eq_3 _ hhead, ih]
    rfl
  | case4 c more _ hne ih =>
    rw [cons_append, universalNewlines_cons hne, ih]
    rfl

theorem universalNewlines_zText (fields : List (List Char)) :
    universalNewlines (zText fields) = zText (fields.map universalNewlines) := by
  induction fields with
  | nil => rfl
  | cons field fields ih =>
    show universalNewlines (field ++ ['\x00'] ++ zText fields) = _
    rw [append_assoc, singleton_append, universalNewlines_append, ih]
    simp [zText]

theorem mem_universalNewlines (h : c ∈ universalNewlines text) : c = '\n' ∨ c ∈ text := by
  fun_induction universalNewlines text with
  | case1 => exact .inr h
  | case2 rest ih =>
    rcases mem_cons.mp h with rfl | h
    · exact .inl rfl
    · exact (ih h).imp id fun hmem => mem_cons_of_mem _ (mem_cons_of_mem _ hmem)
  | case3 rest _ ih =>
    rcases mem_cons.mp h with rfl | h
    · exact .inl rfl
    · exact (ih h).imp id (mem_cons_of_mem _)
  | case4 d rest _ _ ih =>
    rcases mem_cons.mp h with rfl | h
    · exact .inr mem_cons_self
    · exact (ih h).imp id (mem_cons_of_mem _)

theorem universalNewlines_eq_nil (h : universalNewlines text = []) : text = [] := by
  unfold universalNewlines at h
  split at h <;> first | rfl | cases h

/-! ### Entries -/

def translate : LogEntry where
  sha := entry.sha
  subject :=
    { text := String.ofList (universalNewlines entry.subject.text.toList)
      noNul := by
        rw [String.toList_ofList]
        intro hmem
        rcases mem_universalNewlines hmem with h | h
        · exact absurd h (by decide)
        · exact entry.subject.noNul h }

theorem not_mem_sha (sha : Sha) : '\r' ∉ sha.value.toList := by
  intro hmem
  have hfull := sha.full
  unfold validFullSha at hfull
  rw [Bool.and_eq_true, all_eq_true] at hfull
  exact absurd (hfull.2 _ hmem) (by decide)

theorem fields_translate : (translate entry).fields = entry.fields.map universalNewlines := by
  show [entry.sha.value.toList, (String.ofList _).toList] = [_, _]
  rw [String.toList_ofList, universalNewlines_of_not_mem (not_mem_sha entry.sha)]

theorem readCommits_printCommits :
    readCommits (printCommits entries) =
      (let tokens := ((entries.map translate).flatMap LogEntry.fields).filter (· ≠ [])
       if tokens.length % 2 ≠ 0 then none else pairCommits tokens) := by
  have hfields : (entries.flatMap LogEntry.fields).map universalNewlines =
      (entries.map translate).flatMap LogEntry.fields := by
    rw [map_flatMap, flatMap_map]
    exact flatMap_congr fun entry _ => (fields_translate entry).symm
  unfold readCommits printCommits
  rw [universalNewlines_zText, hfields, logTokens_zText]

theorem bare_translate {entry : LogEntry} : Bare (translate entry) ↔ Bare entry := by
  unfold Bare translate
  rw [← String.toList_eq_nil_iff, ← String.toList_eq_nil_iff, String.toList_ofList]
  constructor
  · exact universalNewlines_eq_nil
  · intro h
    rw [h]
    rfl

theorem subject_translate {entry : LogEntry} :
    (translate entry).subject.text = entry.subject.text ↔ '\r' ∉ entry.subject.text.toList := by
  rw [← universalNewlines_eq_self_iff, ← String.toList_inj]
  show (String.ofList _).toList = _ ↔ _
  rw [String.toList_ofList]

/-- A subject that comes back as it was printed. -/
def Plain : Prop := entry.subject.text ≠ "" ∧ '\r' ∉ entry.subject.text.toList

theorem readCommits_of_not_bare {entries : List LogEntry} (h : ∀ entry ∈ entries, ¬ Bare entry) :
    readCommits (printCommits entries) = some (commitsOf (entries.map translate)) := by
  have hnot : ∀ entry ∈ entries.map translate, ¬ Bare entry := by
    intro entry hentry
    obtain ⟨old, hold, rfl⟩ := mem_map.mp hentry
    exact mt bare_translate.mp (h old hold)
  have heven : ¬ ((entries.map translate).flatMap LogEntry.fields).length % 2 ≠ 0 := by
    rw [length_flatMap_fields]
    omega
  rw [readCommits_printCommits]
  dsimp only
  rw [tokens_of_not_bare hnot, if_neg heven, pairCommits_fields]
  rfl

/-- With a bare commit the list that is read is shorter than the one that was printed. -/
theorem readCommits_of_bare {entries : List LogEntry} {commits : List CommitEntry}
    (h : ∃ entry ∈ entries, Bare entry) (hread : readCommits (printCommits entries) = some commits) :
    commits.length < entries.length := by
  have hbare : ∃ entry ∈ entries.map translate, Bare entry := by
    obtain ⟨entry, hentry, hbare⟩ := h
    exact ⟨translate entry, mem_map_of_mem hentry, bare_translate.mpr hbare⟩
  have hshort := (length_fields (entries.map translate)).2 hbare
  rw [readCommits_printCommits] at hread
  have hlength := length_pairCommits (Option.ite_none_left_eq_some.mp hread).2
  rw [length_map] at hshort
  omega

/-- **The commit list is read back exactly when all subjects are plain.** -/
theorem commit_list_iff (entries : List LogEntry) :
    readCommits (printCommits entries) = some (commitsOf entries) ↔
      ∀ entry ∈ entries, Plain entry := by
  by_cases hbare : ∃ entry ∈ entries, Bare entry
  · refine iff_of_false ?_ ?_
    · intro hread
      have hlength := readCommits_of_bare hbare hread
      unfold commitsOf at hlength
      rw [length_map] at hlength
      omega
    · intro hplain
      obtain ⟨entry, hentry, hempty⟩ := hbare
      exact (hplain entry hentry).1 hempty
  · have hnot : ∀ entry ∈ entries, ¬ Bare entry := fun entry hentry h => hbare ⟨entry, hentry, h⟩
    rw [readCommits_of_not_bare hnot, Option.some.injEq]
    unfold commitsOf
    rw [map_map, map_inj_left]
    apply forall₂_congr
    intro entry hentry
    unfold Plain
    rw [and_iff_right (show entry.subject.text ≠ "" from hnot entry hentry), ← subject_translate]
    constructor
    · exact congrArg CommitEntry.subject
    · intro hsubject
      show CommitEntry.mk entry.sha (translate entry).subject.text = _
      rw [hsubject]

/-- Two commits without a subject become one, with the second SHA as its subject. -/
theorem bare_commits_paired : ∃ entries : List LogEntry,
    entries.map (·.subject.text) = ["", ""] ∧
      (readCommits (printCommits entries)).map (·.map fun c => (c.sha.value, c.subject)) =
        some [(sampleTip.value, sampleHead.value)] ∧
      readCommits (printCommits entries) ≠ some (commitsOf entries) := by
  refine ⟨[⟨sampleTip, ⟨"", by decide⟩⟩, ⟨sampleHead, ⟨"", by decide⟩⟩], rfl, by decide +kernel, ?_⟩
  intro h
  have hlength := congrArg (Option.map List.length) h
  exact absurd hlength (by decide +kernel)

end Codify.Worker.CommitList

import Codify.Framework.JsonEdit

/-! # Redaction of Native Lines

    `sanitize` (deploy/worker-entrypoint/harness/adapters/sanitize.py) takes tokens,
    credentials, paths and ids out of a native line before it is parsed. Its rules
    are regular expressions over the text of the line.

    * **Rules**: the private URLs and then `TOKEN_PATTERNS`, in their order
      (`passes`).
    * **Guard**: what a rule replaces lies inside a string value (`Framed`).
    * **Result**: `sanitize_keeps_framing`, and a line that is no document any more.
-/

namespace Codify.Harness.Sanitize

open Codify.Framework Codify.Framework.Regex Codify.Framework.JsonText List

/-! ### The Library -/

/-- What `urlsplit` reports. -/
structure SplitUrl where
  username : Option (List Char)
  password : Option (List Char)
  hostname : Option (List Char)

/-- What `sanitize` uses of the Python library. -/
structure Library where
  /-- `\w`. -/
  word : Char → Bool
  /-- `\d`. -/
  digit : Char → Bool
  /-- `hashlib.sha256(value).hexdigest()[:12]`. -/
  digest : List Char → List (Fin 16)
  /-- `urlsplit(url)`; `none` for a `ValueError`. -/
  urlsplit : List Char → Option SplitUrl

/-! ### Classes -/

variable (c : Char)

/-- `[A-Za-z0-9]`. -/
def alphanumeric : Bool := c.isAlphanum

def tokenChar : Bool := c.isAlphanum || c == '_' || c == '-'

/-- The letters that `(?i)` adds to `[A-Z]` and `[a-z]`. -/
def foldedLetter : Bool :=
  c.toNat == 0x130 || c.toNat == 0x131 || c.toNat == 0x17f || c.toNat == 0x212a

/-- A character that equals a small letter, or another character, under `(?i)`. -/
def sameLetter (c d : Char) : Bool :=
  d == c || d == c.toUpper || (c == 'i' && (d.toNat == 0x130 || d.toNat == 0x131)) ||
    (c == 's' && d.toNat == 0x17f) || (c == 'k' && d.toNat == 0x212a)

/-- `[0-9a-fA-F]`. -/
def hexChar : Bool := (hexValue c).isSome

/-- `[^...]` with white space. -/
def noneOf (excluded : String) (c : Char) : Bool := !isSpace c && !excluded.toList.contains c

def anyCase (text : String) : Pattern := literal sameLetter text

def exact (text : String) : Pattern := literal (fun c d => d == c) text

/-- `\s*[:=]\s*`. -/
def assignment : List Pattern :=
  [atLeast isSpace 0, .one fun c => c == ':' || c == '=', atLeast isSpace 0]

/-! ### Placeholders -/

variable (lib : Library)

/-- `_stable_placeholder`. -/
def stablePlaceholder (kind : String) (value : List Char) : List Char :=
  let start := ("<" ++ kind ++ ":").toList
  if start.isPrefixOf value then value
  else start ++ (lib.digest value).map (fun d : Fin 16 => hexDigit d.val) ++ [('>' : Char)]

/-! ### Rules -/

/-- A pattern and what comes in its place. -/
structure Rule where
  pattern : Pattern
  replace : Match → List Char

def Rule.fixed (pattern : Pattern) (replacement : String) : Rule :=
  ⟨pattern, fun _ => replacement.toList⟩

def Rule.redacting (pattern : Pattern) : Rule := ⟨pattern, fun m => m.group ++ "<REDACTED>".toList⟩

/-- `PRIVATE_HOST`. -/
def privateHost : Pattern :=
  let octet : List Pattern := [.one (· == '.'), .many lib.digit 1 (some 3) true]
  anyOf [anyCase "localhost", sequence (exact "127" :: (octet ++ octet ++ octet)),
    sequence (exact "10" :: (octet ++ octet ++ octet)),
    sequence (exact "192.168" :: (octet ++ octet)),
    sequence (exact "172." :: anyOf [sequence [.one (· == '1'), .one fun c => '6' ≤ c && c ≤ '9'],
      sequence [.one (· == '2'), .one lib.digit],
      sequence [.one (· == '3'), .one fun c => c == '0' || c == '1']] :: (octet ++ octet)),
    sequence [atLeast (noneOf "./") 1, .one (· == '.'),
      anyOf [anyCase "local", anyCase "internal", anyCase "corp"]]]

/-- `URL_PATTERN`. -/
def urlPattern : Pattern :=
  sequence [exact "http", .optional (.one (· == 's')), exact "://", atLeast (noneOf "\"'<>") 1]

/-- The condition of `_sanitize_url`. -/
def isPrivateUrl (raw : List Char) : Bool :=
  match lib.urlsplit raw with
  | none => true
  | some parsed =>
    let given : Option (List Char) → Bool := fun text => text.any (!·.isEmpty)
    given parsed.username || given parsed.password ||
      (privateHost lib).fullmatch (parsed.hostname.getD [])

/-- `_sanitize_url`. -/
def sanitizeUrl (m : Match) : List Char :=
  if isPrivateUrl lib m.text then "<PRIVATE_URL>".toList else m.text

/-- `codify-harness-(?:probe|workspace)`. -/
def probeName : List Pattern := [exact "codify-harness-", anyOf [exact "probe", exact "workspace"]]

def probeDir : Pattern :=
  anyOf
    [sequence ([.optional (exact "/private"), exact "/var/folders/",
        .many (noneOf "\"'") 0 none false, .one (· == '/')] ++ probeName ++
        [.one (· == '.'), atLeast alphanumeric 1]),
     sequence ([.one (· == '/'), .optional (exact "private/"), exact "tmp/"] ++ probeName ++
        [.one (· == '.'), atLeast alphanumeric 1])]

/-- A UUID of the variant that its fourth part names. -/
def uuidPattern : Pattern :=
  sequence [.notBehind alphanumeric, exactly hexChar 8, .one (· == '-'), exactly hexChar 4,
    .one (· == '-'), exactly hexChar 4, .one (· == '-'), .one fun c => "89abAB".toList.contains c,
    exactly hexChar 3, .one (· == '-'), exactly hexChar 12, .notAhead alphanumeric]

def secretName : Pattern :=
  anyOf [anyCase "api_key", anyCase "auth_token", anyCase "access_token", anyCase "password",
    anyCase "secret"]

def nameChar : Bool := c.isAlphanum || c == '_' || foldedLetter c

/-- `TOKEN_PATTERNS`. -/
def tokenPatterns : List Rule :=
  let boundary : Pattern := .boundary lib.word
  [.fixed (sequence [boundary, exact "glpat-", atLeast tokenChar 8, boundary]) "<GITLAB_TOKEN>",
   .fixed (sequence [boundary, exact "sk-ant-", atLeast tokenChar 8, boundary])
     "<ANTHROPIC_API_KEY>",
   .fixed (sequence [boundary, exact "sk-", .optional (exact "proj-"), atLeast tokenChar 16,
     boundary]) "<OPENAI_API_KEY>",
   .fixed (sequence [boundary, anyCase "bearer", atLeast isSpace 1,
     atLeast (fun c => c.isAlphanum || foldedLetter c || "._~+/-".toList.contains c) 8])
     "Bearer <REDACTED>",
   .redacting (sequence [boundary,
     .group (sequence ([.optional (anyCase "set-"), anyCase "cookie"] ++ assignment)),
     atLeast (noneOf ";\"'") 1]),
   .redacting (sequence [boundary,
     .group (sequence ([atLeast nameChar 0, secretName] ++ assignment ++
       [.optional (.one fun c => c == '"' || c == '\'')])),
     atLeast (noneOf ",;\"'") 6]),
   .fixed (sequence [exact "/Users/", atLeast (noneOf "/\"'") 1]) "/Users/<USER>",
   .fixed (sequence [exact "/home/", atLeast (noneOf "/\"'") 1]) "/home/<USER>",
   .fixed probeDir "<PROBE_DIR>",
   .fixed (sequence ([exact "-private-tmp-"] ++ probeName ++ [.one (· == '-'),
     atLeast alphanumeric 1])) "<PROBE_PROJECT_KEY>",
   ⟨sequence [boundary, anyOf [exact "call", exact "toolu"], .one (· == '_'), atLeast tokenChar 8,
     boundary], fun m => stablePlaceholder lib "TOOL_ID" m.text⟩,
   ⟨uuidPattern, fun m => stablePlaceholder lib "UUID" (m.text.map Char.toLower)⟩]

/-- The rules in the order in which `sanitize` applies them. -/
def passes : List Rule := ⟨urlPattern, sanitizeUrl lib⟩ :: tokenPatterns lib

variable (text : List Char)

def Rule.apply (rule : Rule) : List Char := sub rule.pattern rule.replace text

/-- `sanitize`. -/
def sanitize : List Char := (passes lib).foldl Rule.apply text

/-! ### What Is Inserted -/

theorem inserted_self : inserted (text, text) = [] := by
  have hall : commonPrefix text text = text := by
    induction text with
    | nil => rfl
    | cons c rest ih => simp [commonPrefix, ih]
  rw [inserted, hall]
  exact drop_length

theorem inserted_of_plain {old new : List Char} (h : new.all isPlain) :
    (inserted (old, new)).all isPlain := by
  rw [all_eq_true] at h ⊢
  intro c hc
  exact h c (mem_of_mem_drop hc)

theorem inserted_of_kept (kept old : List Char) {new : List Char} (h : new.all isPlain) :
    (inserted (kept ++ old, kept ++ new)).all isPlain := by
  have hcommon : ∀ kept : List Char,
      commonPrefix (kept ++ old) (kept ++ new) = kept ++ commonPrefix old new := by
    intro kept
    induction kept with
    | nil => rfl
    | cons c rest ih => simp [commonPrefix, ih]
  have hdrop : inserted (kept ++ old, kept ++ new) = new.drop (commonPrefix old new).length := by
    show (kept ++ new).drop (commonPrefix (kept ++ old) (kept ++ new)).length = _
    rw [hcommon, length_append, drop_append, drop_of_length_le (by omega),
      nil_append, Nat.add_sub_cancel_left]
  rw [hdrop]
  rw [all_eq_true] at h ⊢
  intro c hc
  exact h c (mem_of_mem_drop hc)

variable {body : Pattern} {least : Nat} {word p : Char → Bool}

theorem captured_start
    {before : Option Char} {text : List Char} {m : Match}
    (h : (sequence [.boundary word, .group body, atLeast p least]).matchAt before text = some m) :
    ∃ stop, m.captured = some (0, stop) := by
  unfold Pattern.matchAt at h
  obtain ⟨c, hc, rfl⟩ := Option.map_eq_some_iff.mp h
  obtain ⟨hhead, -⟩ := Option.filter_eq_some_iff.mp hc
  have hmem := mem_of_mem_head? hhead
  simp only [Regex.sequence, foldr_cons, foldr_nil, atLeast, Pattern.ends,
    mem_flatMap, mem_map, mem_singleton] at hmem
  obtain ⟨start, hstart, behind, ⟨d, -, rfl⟩, last, ⟨n, -, rfl⟩, rfl⟩ := hmem
  split at hstart
  · obtain rfl := mem_singleton.mp hstart
    exact ⟨d.taken, rfl⟩
  · cases hstart

/-- What a rule inserts into a string are plain characters. -/
def Rule.Plain (rule : Rule) : Prop :=
  ∀ before text m, rule.pattern.matchAt before text = some m →
    (inserted (m.text, rule.replace m)).all isPlain

theorem plain_fixed {pattern : Pattern} {replacement : String}
    (h : replacement.toList.all isPlain) : (Rule.fixed pattern replacement).Plain :=
  fun _ _ _ _ => inserted_of_plain h

theorem plain_redacting :
    (Rule.redacting (sequence [.boundary word, .group body, atLeast p least])).Plain := by
  intro before text m hmatch
  obtain ⟨stop, hcaptured⟩ := captured_start hmatch
  have hgroup : m.group = m.text.take stop := by
    rw [Match.group, hcaptured]
    exact drop_zero
  show (inserted (m.text, m.group ++ _)).all isPlain
  rw [hgroup]
  have hredacted : "<REDACTED>".toList.all isPlain := by decide
  have hplain := inserted_of_kept (m.text.take stop) (m.text.drop stop) hredacted
  rwa [take_append_drop] at hplain

theorem isPlain_hexDigit (d : Fin 16) : isPlain (hexDigit d) := by
  revert d
  decide

theorem stablePlaceholder_cases (kind : String) (value : List Char) (h : kind.toList.all isPlain) :
    stablePlaceholder lib kind value = value ∧ ("<" ++ kind ++ ":").toList.isPrefixOf value ∨
      (stablePlaceholder lib kind value).all isPlain := by
  unfold stablePlaceholder
  dsimp only
  split
  · next hstart => exact .inl ⟨rfl, hstart⟩
  · refine .inr ?_
    have hdigits : ((lib.digest value).map (fun d : Fin 16 => hexDigit d.val)).all isPlain := by
      rw [all_map, all_eq_true]
      intro d _
      exact isPlain_hexDigit d
    rw [String.toList_append, String.toList_append, all_append, all_append,
      all_append, all_append, h, hdigits]
    decide

theorem toLower_ne : c.toLower ≠ 'U' := by
  intro h
  by_cases hupper : 'A'.val ≤ c.val ∧ c.val ≤ 'Z'.val
  · have hlow : 65 ≤ c.val.toNat := UInt32.le_iff_toNat_le.mp hupper.1
    have hhigh : c.val.toNat ≤ 90 := UInt32.le_iff_toNat_le.mp hupper.2
    have hshift : ('a'.val - 'A'.val).toNat = 32 := by decide
    have hletter : 'U'.val.toNat = 85 := by decide
    have hval : (c.val + ('a'.val - 'A'.val)).toNat = 'U'.val.toNat :=
      congrArg (fun d : Char => d.val.toNat) ((dif_pos hupper).symm.trans h)
    rw [UInt32.toNat_add, hshift, hletter] at hval
    omega
  · have hsame : c.toLower = c := dif_neg hupper
    rw [hsame] at h
    subst h
    exact hupper (by decide)

theorem plain_passes : ∀ rule ∈ passes lib, rule.Plain := by
  unfold passes tokenPatterns
  simp only [forall_mem_cons]
  refine ⟨?_, plain_fixed (by decide), plain_fixed (by decide), plain_fixed (by decide),
    plain_fixed (by decide), plain_redacting, plain_redacting, plain_fixed (by decide),
    plain_fixed (by decide), plain_fixed (by decide), plain_fixed (by decide), ?_, ?_, by simp⟩
  · intro before text m _
    show (inserted (m.text, sanitizeUrl lib m)).all isPlain
    unfold sanitizeUrl
    split
    · exact inserted_of_plain (by decide)
    · rw [inserted_self]
      rfl
  · intro before text m _
    show (inserted (m.text, stablePlaceholder lib "TOOL_ID" m.text)).all isPlain
    rcases stablePlaceholder_cases lib "TOOL_ID" m.text (by decide) with ⟨hself, -⟩ | hplain
    · rw [hself, inserted_self]
      rfl
    · exact inserted_of_plain hplain
  · intro before text m _
    show (inserted (m.text, stablePlaceholder lib "UUID" (m.text.map Char.toLower))).all isPlain
    rcases stablePlaceholder_cases lib "UUID" (m.text.map Char.toLower) (by decide) with
      ⟨-, hstart⟩ | hplain
    · obtain ⟨rest, hrest⟩ := isPrefixOf_iff_prefix.mp hstart
      have hmem : 'U' ∈ m.text.map Char.toLower := by
        rw [← hrest]
        exact mem_append_left _ (by decide)
      obtain ⟨c, -, hc⟩ := mem_map.mp hmem
      exact absurd hc (toLower_ne c)
    · exact inserted_of_plain hplain

/-! ### Framing -/

variable {F : FloatText} {lib : Library} {text : List Char}

/-- The stretches that a rule keeps and replaces. -/
def Rule.pieces (rule : Rule) (text : List Char) : List Piece :=
  Regex.pieces rule.pattern rule.replace text

/-- What each rule replaces lies inside a string value of the text it is applied to. -/
def Framed (F : FloatText) : List Rule → List Char → Prop
  | [], _ => True
  | rule :: rest, text =>
    EditsInside F .start (rule.pieces text) ∧ Framed F rest (rule.apply text)

instance decidableFramed (F : FloatText) :
    (rules : List Rule) → (text : List Char) → Decidable (Framed F rules text)
  | [], _ => .isTrue trivial
  | rule :: rest, text =>
    have := decidableFramed F rest (rule.apply text)
    inferInstanceAs (Decidable (EditsInside F .start (rule.pieces text) ∧
      Framed F rest (rule.apply text)))

/-- The line is one JSON object after redaction, with the same keys, numbers, truth values and
    nulls. -/
def KeepsFraming (F : FloatText) (lib : Library) (text : List Char) : Prop :=
  ∀ fields, loads F text = some (.obj fields) →
    ∃ fields', loads F (sanitize lib text) = some (.obj fields') ∧
      skeleton (.obj fields') = skeleton (.obj fields)

theorem loads_apply {rule : Rule} (hplain : rule.Plain)
    (hinside : EditsInside F .start (rule.pieces text)) {v : Json} (h : loads F text = some v) :
    ∃ v', loads F (rule.apply text) = some v' ∧ skeleton v' = skeleton v := by
  refine loads_edited hinside ?_ ?_
  · intro piece hpiece
    rcases mem_piecesFrom hpiece with ⟨c, rfl⟩ | ⟨before, rest, m, hmatch, rfl⟩
    · rw [inserted_self]
      rfl
    · exact hplain before rest m hmatch
  · rw [Rule.pieces, olds_pieces]
    exact h

theorem loads_passes {rules : List Rule} (hplain : ∀ rule ∈ rules, rule.Plain)
    (hframed : Framed F rules text) {v : Json} (h : loads F text = some v) :
    ∃ v', loads F (rules.foldl Rule.apply text) = some v' ∧ skeleton v' = skeleton v := by
  induction rules generalizing text v with
  | nil => exact ⟨v, h, rfl⟩
  | cons rule rest ih =>
    obtain ⟨hfirst, hrest⟩ := forall_mem_cons.mp hplain
    obtain ⟨hinside, hframed⟩ := hframed
    obtain ⟨u, hu, hsame⟩ := loads_apply hfirst hinside h
    obtain ⟨v', hv', hsame'⟩ := ih hrest hframed hu
    exact ⟨v', hv', hsame'.trans hsame⟩

/-- **Framing**: redaction inside the string values keeps the framing of a line. -/
theorem sanitize_keeps_framing (F : FloatText) (lib : Library) (text : List Char)
    (hframed : Framed F (passes lib) text) : KeepsFraming F lib text := by
  intro fields h
  obtain ⟨v, hv, hsame⟩ := loads_passes (plain_passes lib) hframed h
  obtain ⟨fields', rfl⟩ := obj_of_skeleton hsame
  exact ⟨fields', hv, hsame⟩

/-! ### Two Lines -/

def asciiLibrary : Library where
  word := fun c => c.isAlphanum || c == '_'
  digit := Char.isDigit
  digest := fun _ => List.replicate 12 0
  urlsplit := fun _ => some ⟨none, none, none⟩

def passwordLine : List Char := "\x7b\"text\":\"PASSWORD=secret42, ok\"\x7d".toList

/-- The password is taken out and the rest is left alone. -/
theorem password_line_keeps_framing :
    Framed .fraction (passes asciiLibrary) passwordLine ∧
      sanitize asciiLibrary passwordLine =
        "\x7b\"text\":\"PASSWORD=<REDACTED>, ok\"\x7d".toList ∧
      KeepsFraming .fraction asciiLibrary passwordLine := by
  have hrun : Framed .fraction (passes asciiLibrary) passwordLine ∧
      sanitize asciiLibrary passwordLine =
        "\x7b\"text\":\"PASSWORD=<REDACTED>, ok\"\x7d".toList := by
    -- the literals as lists, so that the kernel does not decode them
    unfold passwordLine
    rw [String.toList_ofList, String.toList_ofList]
    decide +kernel
  obtain ⟨hframed, hsanitized⟩ := hrun
  exact ⟨hframed, hsanitized, sanitize_keeps_framing .fraction asciiLibrary _ hframed⟩

def quotedPasswordLine : List Char := "\x7b\"text\":\"PASSWORD=secret\\\"x\"\x7d".toList

/-- The redaction takes the backslash and leaves the quote. -/
theorem quoted_password_breaks_line :
    loads .fraction (sanitize asciiLibrary quotedPasswordLine) = none ∧
      ¬ KeepsFraming .fraction asciiLibrary quotedPasswordLine := by
  have hdict : ((loads .fraction quotedPasswordLine).bind Json.asObject).isSome := by
    decide +kernel
  have hbroken : (loads .fraction (sanitize asciiLibrary quotedPasswordLine)).isNone := by
    unfold quotedPasswordLine
    rw [String.toList_ofList]
    decide +kernel
  have hnone := Option.isNone_iff_eq_none.mp hbroken
  refine ⟨hnone, fun hkeeps => ?_⟩
  obtain ⟨fields, hfields⟩ := Option.isSome_iff_exists.mp hdict
  obtain ⟨v, hv, hobj⟩ := Option.bind_eq_some_iff.mp hfields
  cases v with
  | obj fields' =>
    obtain ⟨after, hafter, -⟩ := hkeeps fields' hv
    rw [hnone] at hafter
    cases hafter
  | _ => cases hobj

end Codify.Harness.Sanitize

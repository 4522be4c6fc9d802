import Codify.Kit.Content

/-! # Worker Kit Content: Agreement

    A Kit as the directory walk sees it (`Listing`) and an archive of it (`Lists`)
    are two listings of the same members (`Listing.items`).

    * **Reading**: off the root name, `_symlink_target_relative` and the probe's
      `resolve_link_target` read a link alike (`symlinkTargetRelative_eq`).
    * **Walking**: a walk depends on what the links stand for (`walk_congr`).
    * **Result**: `kit_walkers_agree`.
-/

namespace Codify.Kit

open Codify.Framework Codify.Framework.PosixPath List Listing

/-! ### Members -/

/-- What a member is. -/
inductive Kind where
  | file (content : List UInt8)
  | symlink (target : Text)
  | directory

/-- A member of a Kit: the parts of its path. -/
structure Item where
  parts : List Text
  kind : Kind

open Item

def Item.path (item : Item) : Text := ofParts item.parts

def Listing.items : Listing → List Text → List Item
  | done, _ => []
  | file name content rest, dir => ⟨dir ++ [name.text], .file content⟩ :: rest.items dir
  | symlink name target rest, dir => ⟨dir ++ [name.text], .symlink target⟩ :: rest.items dir
  | directory name children rest, dir =>
    ⟨dir ++ [name.text], .directory⟩ :: (children.items (dir ++ [name.text]) ++ rest.items dir)

def Kind.memberType : Kind → MemberType
  | file content => .file content
  | symlink target => .symlink target
  | directory => .directory

variable (root : Name)

def Item.member (item : Item) : Member := ⟨root.text ++ '/' :: item.path, item.kind.memberType⟩

variable (kit : Listing)

/-- The archive lists each member of the Kit once under the name of its root, and maybe the root. -/
def Lists (archive : List Member) : Prop :=
  ∃ order : List Item, order.Perm (kit.items []) ∧
    archive.filter (·.name ≠ root.text) = order.map (Item.member root)

/-- No directory with an excluded path has a member. -/
def ExcludedEmpty : Prop :=
  ∀ item ∈ kit.items [], ∀ path ∈ excludedPaths, ¬ (path ++ ['/']).isPrefixOf item.path

/-! ### Paths of Members -/

variable {root : Name} {kit : Listing} {dir ps : List Text} {item : Item} {path target : Text}

theorem mem_items (h : item ∈ kit.items dir) :
    ∃ name ∈ kit.names, ∃ tail, item.parts = dir ++ name.text :: tail ∧
      ∀ part ∈ tail, Ordinary part := by
  induction kit generalizing dir with
  | done => cases h
  | file name content rest ih | symlink name target rest ih =>
    rcases mem_cons.mp h with rfl | h
    · exact ⟨name, mem_cons_self, [], rfl, by simp⟩
    · obtain ⟨other, hother, htail⟩ := ih h
      exact ⟨other, mem_cons_of_mem _ hother, htail⟩
  | directory name children rest ihChildren ih =>
    rcases mem_cons.mp h with rfl | h
    · exact ⟨name, mem_cons_self, [], rfl, by simp⟩
    rcases mem_append.mp h with h | h
    · obtain ⟨child, -, tail, hparts, htail⟩ := ihChildren h
      refine ⟨name, mem_cons_self, child.text :: tail, ?_, ?_⟩
      · rw [hparts, append_assoc]
        rfl
      · intro part hpart
        rcases mem_cons.mp hpart with rfl | hpart
        · exact child.ordinary
        · exact htail part hpart
    · obtain ⟨other, hother, htail⟩ := ih h
      exact ⟨other, mem_cons_of_mem _ hother, htail⟩

theorem ordinary_items (hdir : ∀ part ∈ dir, Ordinary part) (h : item ∈ kit.items dir) :
    item.parts ≠ [] ∧ ∀ part ∈ item.parts, Ordinary part := by
  obtain ⟨name, -, tail, hparts, htail⟩ := mem_items h
  rw [hparts]
  refine ⟨by simp, fun part hpart => ?_⟩
  rcases mem_append.mp hpart with hpart | hpart
  · exact hdir part hpart
  rcases mem_cons.mp hpart with rfl | hpart
  · exact name.ordinary
  · exact htail part hpart

theorem path_inj (hps : ps ≠ []) (hord : ∀ part ∈ ps, Ordinary part) {qs : List Text}
    (hqs : qs ≠ []) (hord' : ∀ part ∈ qs, Ordinary part) (h : ofParts ps = ofParts qs) : ps = qs := by
  rw [← parts_ofParts hps fun p hp => (hord p hp).noSlash, h,
    parts_ofParts hqs fun p hp => (hord' p hp).noSlash]

theorem not_mem_items {name : Name} {rest : Listing}
    (hlt : ∀ other ∈ rest.names, name.text < other.text) (tail : List Text) :
    dir ++ name.text :: tail ∉ (rest.items dir).map Item.parts := by
  intro hmem
  obtain ⟨item, hitem, hparts⟩ := mem_map.mp hmem
  obtain ⟨other, hother, tail', hparts', -⟩ := mem_items hitem
  rw [hparts'] at hparts
  have hname : other.text = name.text := (List.cons.inj (append_cancel_left hparts)).1
  have hless := hlt other hother
  rw [hname] at hless
  exact lt_irrefl name.text hless

theorem nodup_parts (dir : List Text) (hsorted : kit.Sorted) : ((kit.items dir).map Item.parts).Nodup := by
  induction kit generalizing dir with
  | done => exact nodup_nil
  | file name content rest ih | symlink name target rest ih =>
    exact nodup_cons.mpr ⟨not_mem_items hsorted.1 [], ih dir hsorted.2⟩
  | directory name children rest ihChildren ih =>
    obtain ⟨hlt, hchildren, hrest⟩ := hsorted
    have hbelow : ∀ parts ∈ (children.items (dir ++ [name.text])).map Item.parts,
        ∃ part tail, parts = dir ++ name.text :: part :: tail := by
      intro parts hparts
      obtain ⟨item, hitem, rfl⟩ := mem_map.mp hparts
      obtain ⟨child, -, tail, hparts, -⟩ := mem_items hitem
      refine ⟨child.text, tail, ?_⟩
      rw [hparts, append_assoc]
      rfl
    show ((dir ++ [name.text]) :: (children.items (dir ++ [name.text]) ++ rest.items dir).map
      Item.parts).Nodup
    rw [map_append, nodup_cons, nodup_append]
    refine ⟨?_, ihChildren _ hchildren, ih dir hrest, ?_⟩
    · intro hmem
      rcases mem_append.mp hmem with hmem | hmem
      · obtain ⟨part, tail, heq⟩ := hbelow _ hmem
        simp at heq
      · exact not_mem_items hlt [] hmem
    · rintro a ha b hb rfl
      obtain ⟨part, tail, rfl⟩ := hbelow a ha
      exact not_mem_items hlt _ hb

/-! ### Readings -/

/-- `_relative_path` on a path that is normalized: the checks of the probe, and the exclusion. -/
theorem relativePath_normalized (hne : path ≠ []) (hhead : path.head? ≠ some '/') :
    relativePath (normpath path) =
      (if unsafePath (normpath path) then none else some (normpath path)).filter
        (· ∉ excludedPaths) := by
  have hidem := normpath_idem hne hhead
  obtain ⟨qs, hnormal, -, heq⟩ := normpath_relative hne hhead
  by_cases hqs : qs = []
  · rw [heq, if_pos hqs]
    decide
  -- no part of a normalized path is a dot, so both tests of the parts are one
  have hany : ((parts (normpath path)).any fun part => part = [] ∨ part = dotdot) =
      (parts (normpath path)).any fun part => part = [] ∨ part = dot ∨ part = dotdot := by
    rw [heq, if_neg hqs, parts_ofParts hqs hnormal.noSlash]
    rw [Bool.eq_iff_iff, any_eq_true, any_eq_true]
    constructor
    · rintro ⟨part, hpart, htest⟩
      refine ⟨part, hpart, ?_⟩
      simp only [decide_eq_true_eq] at htest ⊢
      tauto
    · rintro ⟨part, hpart, htest⟩
      have hdot := (hnormal.ne_dot part hpart).1
      refine ⟨part, hpart, ?_⟩
      simp only [decide_eq_true_eq] at htest ⊢
      tauto
  unfold relativePath
  simp only [hidem, hany]
  by_cases hrefusal : unsafePath (normpath path) = true
  · have hrefused := hrefusal
    unfold unsafePath at hrefused
    rw [decide_eq_true_eq] at hrefused
    rw [if_pos (by tauto), if_pos hrefusal]
    rfl
  · have hallowed := hrefusal
    unfold unsafePath at hallowed
    rw [decide_eq_true_eq] at hallowed
    rw [if_neg hrefusal]
    by_cases hexcluded : normpath path ∈ excludedPaths
    · rw [if_pos (by tauto), Option.filter_some, if_neg (by simpa using hexcluded)]
    · rw [if_neg (by tauto), Option.filter_some, if_pos (by simpa using hexcluded)]

theorem relativePath_ofParts (hps : ps ≠ []) (hord : ∀ part ∈ ps, Ordinary part) :
    relativePath (ofParts ps) =
      (if unsafePath (ofParts ps) then none else some (ofParts ps)).filter (· ∉ excludedPaths) := by
  have h := relativePath_normalized (ofParts_ne_nil hps hord) (head_ofParts_ne hps hord)
  rw [normpath_ofParts hps hord] at h
  exact h

variable {suffix : Text}

theorem plainSuffix_ordinary (h : plainSuffix suffix = true) :
    ∀ part ∈ parts suffix, Ordinary part := by
  unfold plainSuffix at h
  simp only [decide_eq_true_eq, Bool.not_eq_true', any_eq_false] at h
  intro part hpart
  have hplain := h.2 part hpart
  rw [not_or, not_or] at hplain
  exact ⟨hplain.1, noSlash_of_mem_parts hpart, hplain.2.1, hplain.2.2⟩

theorem store_path (h : plainSuffix suffix = true) :
    ∃ ps, ps ≠ [] ∧ (∀ part ∈ ps, Ordinary part) ∧
      join "nix/store".toList suffix = ofParts ps ∧ "nix/store/".toList ++ suffix = ofParts ps := by
  have hord := plainSuffix_ordinary h
  have hsuffix : suffix.head? ≠ some '/' := by
    have hhead := head_ofParts_ne (parts_ne_nil suffix) hord
    rwa [ofParts_parts] at hhead
  refine ⟨"nix".toList :: "store".toList :: parts suffix, by simp, ?_, ?_, ?_⟩
  · intro part hpart
    rcases mem_cons.mp hpart with rfl | hpart
    · decide
    rcases mem_cons.mp hpart with rfl | hpart
    · decide
    · exact hord part hpart
  · rw [ofParts_cons (by simp), ofParts_cons (parts_ne_nil suffix), ofParts_parts]
    unfold join
    rw [if_neg hsuffix, if_neg (by decide)]
    rfl
  · rw [ofParts_cons (by simp), ofParts_cons (parts_ne_nil suffix), ofParts_parts]
    rfl

theorem join_target (hhead : path.head? ≠ some '/') (hne : target ≠ [])
    (habsolute : ¬ ['/'].isPrefixOf target = true) :
    join (dirname path) target ≠ [] ∧ (join (dirname path) target).head? ≠ some '/' := by
  have htarget : target.head? ≠ some '/' := by
    intro h
    apply habsolute
    cases target with
    | nil => cases h
    | cons c rest => simpa using (Option.some.inj h).symm
  exact join_relative (fun h => hhead (head_dirname h)) hne htarget

/-- **Reading**: off the root name, the two rules read a link alike, but for the exclusion. -/
theorem symlinkTargetRelative_eq (hhead : path.head? ≠ some '/')
    (hoff : '\\' ∉ target → target ≠ root.text ∧ ¬ (root.text ++ ['/']).isPrefixOf target) :
    symlinkTargetRelative path target =
      (resolveLinkTarget root.text path target).filter (· ∉ excludedPaths) := by
  unfold symlinkTargetRelative resolveLinkTarget
  by_cases hrefused : target = [] ∨ '\\' ∈ target
  · rw [if_pos hrefused, if_pos hrefused]
    rfl
  rw [if_neg hrefused, if_neg hrefused]
  obtain ⟨hroot, hbelow⟩ := hoff fun hback => hrefused (Or.inr hback)
  by_cases hstore : target = nixStorePrefix
  · rw [if_pos hstore, if_pos hstore]
    decide
  rw [if_neg hstore, if_neg hstore]
  by_cases hinStore : (nixStorePrefix ++ ['/']).isPrefixOf target = true
  · -- below the store both rules take the parts of the suffix as they are
    rw [if_pos hinStore, if_pos hinStore]
    dsimp only
    by_cases hplain : plainSuffix (target.drop (nixStorePrefix.length + 1)) = true
    · rw [if_pos hplain, if_pos hplain]
      obtain ⟨ps, hps, hord, hjoin, htext⟩ := store_path hplain
      rw [htext, hjoin, relativePath_ofParts hps hord, normpath_ofParts hps hord]
    · rw [if_neg hplain, if_neg hplain]
      rfl
  rw [if_neg hinStore, if_neg hinStore]
  by_cases habsolute : ['/'].isPrefixOf target = true
  · rw [if_pos habsolute, if_pos habsolute]
    rfl
  rw [if_neg habsolute, if_neg habsolute, if_neg (by simp [hroot, hbelow])]
  obtain ⟨hne, hjoined⟩ := join_target hhead (fun h => hrefused (Or.inl h)) habsolute
  exact relativePath_normalized hne hjoined

/-! ### Names of Members -/

theorem member_name (root : Name) (path : Text) :
    (root.text ++ ['/']).isPrefixOf (root.text ++ '/' :: path) = true ∧
      (root.text ++ '/' :: path).drop (root.text ++ ['/']).length = path ∧
      root.text ++ '/' :: path ≠ root.text := by
  have hcons : root.text ++ '/' :: path = (root.text ++ ['/']) ++ path := by simp
  refine ⟨?_, ?_, ?_⟩
  · rw [List.isPrefixOf_iff_prefix, hcons]
    exact prefix_append _ _
  · rw [hcons]
    exact drop_left
  · simp

theorem archiveRelative_member (hps : ps ≠ []) (hord : ∀ part ∈ ps, Ordinary part) :
    archiveRelative (root.text ++ '/' :: ofParts ps) root.text =
      if ofParts ps ∈ excludedPaths then some (some (ofParts ps))
      else if unsafePath (ofParts ps) then none
      else some (some (ofParts ps)) := by
  obtain ⟨hbelow, hdrop, hname⟩ := member_name root (ofParts ps)
  have hstrip : rstripSlash (root.text ++ '/' :: ofParts ps) = root.text ++ '/' :: ofParts ps := by
    apply rstripSlash_eq
    have hcons : root.text ++ '/' :: ofParts ps = (root.text ++ ['/']) ++ ofParts ps := by simp
    rw [hcons, getLast?_append_of_ne_nil _ (ofParts_ne_nil hps hord)]
    exact getLast_ofParts_ne hps hord
  simp only [archiveRelative, rstripSlash_eq root.ordinary.getLast_ne]
  rw [hstrip, if_neg hname, hbelow, hdrop, normpath_ofParts hps hord, relativePath_ofParts hps hord]
  by_cases hexcluded : ofParts ps ∈ excludedPaths
  · simp [hexcluded]
  · by_cases hrefusal : unsafePath (ofParts ps) = true
    · simp [hexcluded, hrefusal]
    · simp [hexcluded, hrefusal]

theorem probeRelative_member (hps : ps ≠ []) (hord : ∀ part ∈ ps, Ordinary part) :
    probeRelative (root.text ++ '/' :: ofParts ps) root.text = ofParts ps := by
  obtain ⟨hbelow, hdrop, -⟩ := member_name root (ofParts ps)
  unfold probeRelative
  dsimp only
  rw [if_pos hbelow, hdrop, normpath_ofParts hps hord]

theorem rstripSlash_member_ne (hps : ps ≠ []) (hord : ∀ part ∈ ps, Ordinary part) :
    rstripSlash (root.text ++ '/' :: ofParts ps) ≠ root.text := by
  have hcons : root.text ++ '/' :: ofParts ps = (root.text ++ ['/']) ++ ofParts ps := by simp
  rw [rstripSlash_eq]
  · exact (member_name root (ofParts ps)).2.2
  · rw [hcons, getLast?_append_of_ne_nil _ (ofParts_ne_nil hps hord)]
    exact getLast_ofParts_ne hps hord

/-! ### Scanning -/

section Scanning

variable (sha256 : List UInt8 → Digest) {items rest : List Item}

def Item.entry? (item : Item) : Option Entry :=
  match item.kind with
  | .file content => some (fileEntry sha256 item.path content)
  | .symlink target => some (.symlink item.path target)
  | .directory => none

/-- `file_entries` of a member. -/
def Item.fileData? (item : Item) : Option (Text × (Text × Nat)) :=
  match item.kind with
  | .file content => some (item.path, (sha256 content).hex, content.length)
  | _ => none

def Item.safe (item : Item) : Bool := !unsafePath item.path

local instance lawfulBEq_text : LawfulBEq (List Char) := inferInstance

def visible (items : List Item) : List Item := items.filter (·.path ∉ excludedPaths)

variable (name : Name) (v : Visited)

def Visited.extend (items : List Item) : Visited where
  entries := v.entries ++ items.filterMap (Item.entry? sha256)
  memberPaths := v.memberPaths ++ items.map Item.path

/-- What a walk makes of the members that it looks at. -/
def outcome (items : List Item) : Option Visited :=
  if items.all safe then some (v.extend sha256 items) else none

attribute [local simp] Visited.extend Item.entry? outcome Kind.memberType Scan.addMember fileData?

theorem outcome_append (items rest : List Item) :
    (outcome sha256 v items).bind (fun v => outcome sha256 v rest) =
      outcome sha256 v (items ++ rest) := by
  unfold outcome
  rw [all_append]
  cases items.all safe with
  | false => rfl
  | true =>
    cases rest.all safe with
    | false => rfl
    | true => simp

/-- The members that `visit` looks at: it does not enter an excluded directory. -/
def Listing.shown : Listing → List Text → List Item
  | .done, _ => []
  | .file name content rest, dir =>
    (if ofParts (dir ++ [name.text]) ∈ excludedPaths then []
      else [⟨dir ++ [name.text], .file content⟩]) ++ rest.shown dir
  | .symlink name target rest, dir =>
    (if ofParts (dir ++ [name.text]) ∈ excludedPaths then []
      else [⟨dir ++ [name.text], .symlink target⟩]) ++ rest.shown dir
  | .directory name children rest, dir =>
    (if ofParts (dir ++ [name.text]) ∈ excludedPaths then []
      else ⟨dir ++ [name.text], .directory⟩ :: children.shown (dir ++ [name.text])) ++ rest.shown dir

theorem childPath_eq (hdir : ∀ part ∈ dir, Ordinary part) :
    childPath (ofParts dir) name = ofParts (dir ++ [name.text]) := by
  unfold childPath
  by_cases hnil : dir = []
  · subst hnil
    rw [if_pos (by decide), nil_append, ofParts_singleton]
  · rw [if_neg (ofParts_ne_nil hnil hdir), ofParts_append hnil (by simp), ofParts_singleton]

theorem ordinary_child (hdir : ∀ part ∈ dir, Ordinary part) :
    ∀ part ∈ dir ++ [name.text], Ordinary part := by
  intro part hpart
  rcases mem_append.mp hpart with hpart | hpart
  · exact hdir part hpart
  · rw [mem_singleton.mp hpart]
    exact name.ordinary

theorem visitChild_eq (child : Text → Visited → Option Visited)
    (hdir : ∀ part ∈ dir, Ordinary part) :
    visitChild (ofParts dir) name v child =
      if ofParts (dir ++ [name.text]) ∈ excludedPaths then some v
      else if unsafePath (ofParts (dir ++ [name.text])) then none
      else child (ofParts (dir ++ [name.text]))
        { v with memberPaths := v.memberPaths ++ [ofParts (dir ++ [name.text])] } := by
  simp only [visitChild, childPath_eq name hdir]
  rw [relativePath_ofParts (by simp) (ordinary_child name hdir)]
  by_cases hexcluded : ofParts (dir ++ [name.text]) ∈ excludedPaths
  · rw [if_pos hexcluded, if_pos hexcluded]
  · by_cases hrefusal : unsafePath (ofParts (dir ++ [name.text])) = true
    · simp [hexcluded, hrefusal]
    · simp [hexcluded, hrefusal, Option.filter_some]

/-- **Visit**: the directory walk refuses a backslash, and lists what it is shown. -/
theorem visit_eq (kit : Listing) (dir : List Text) (v : Visited) (hdir : ∀ part ∈ dir, Ordinary part) :
    visit sha256 kit (ofParts dir) v = outcome sha256 v (kit.shown dir) := by
  induction kit generalizing dir v with
  | done => simp [visit, shown]
  | file name content rest ih | symlink name target rest ih =>
    unfold visit shown
    rw [visitChild_eq name v _ hdir, ← outcome_append]
    congr 1
    · by_cases hexcluded : ofParts (dir ++ [name.text]) ∈ excludedPaths
      · simp [hexcluded]
      · by_cases hrefusal : unsafePath (ofParts (dir ++ [name.text])) = true
        · simp [hexcluded, hrefusal, safe, Item.path]
        · simp [hexcluded, hrefusal, safe, Item.path, Visited.addEntry]
    · funext v
      exact ih dir v hdir
  | directory name children rest ihChildren ih =>
    unfold visit shown
    rw [visitChild_eq name v _ hdir, ← outcome_append]
    congr 1
    · by_cases hexcluded : ofParts (dir ++ [name.text]) ∈ excludedPaths
      · simp [hexcluded]
      · rw [if_neg hexcluded, if_neg hexcluded, ihChildren _ _ (ordinary_child name hdir)]
        by_cases hrefusal : unsafePath (ofParts (dir ++ [name.text])) = true
        · simp [hrefusal, safe, Item.path]
        · simp [hrefusal, safe, Item.path]
          rfl
    · funext v
      exact ih dir v hdir

/-- The archive walkers look at what the directory walk is shown. -/
theorem mem_visible_of_shown (h : item ∈ kit.shown dir) : item ∈ visible (kit.items dir) := by
  have hone : ∀ {other : Item} {rest : List Item}, item ∈ (if other.path ∈ excludedPaths then []
      else [other]) ++ rest → item = other ∧ other.path ∉ excludedPaths ∨ item ∈ rest := by
    intro other rest hmem
    rcases mem_append.mp hmem with hmem | hmem
    · split at hmem
      · cases hmem
      · next hexcluded => exact .inl ⟨mem_singleton.mp hmem, hexcluded⟩
    · exact .inr hmem
  have hcons : ∀ {other : Item} {rest : List Item},
      item = other ∧ other.path ∉ excludedPaths ∨ item ∈ visible rest →
        item ∈ visible (other :: rest) := by
    rintro other rest (⟨rfl, hexcluded⟩ | hmem)
    · exact mem_filter.mpr ⟨mem_cons_self, by simpa using hexcluded⟩
    · exact mem_filter.mpr ⟨mem_cons_of_mem _ (mem_filter.mp hmem).1, (mem_filter.mp hmem).2⟩
  induction kit generalizing dir with
  | done => cases h
  | file name content rest ih | symlink name target rest ih =>
    unfold Listing.items
    exact hcons ((hone h).imp_right ih)
  | directory name children rest ihChildren ih =>
    unfold Listing.items
    unfold shown at h
    apply hcons
    rcases mem_append.mp h with h | h
    · split at h
      · cases h
      · next hexcluded =>
        rcases mem_cons.mp h with h | h
        · exact .inl ⟨h, hexcluded⟩
        · exact .inr (by simpa [visible] using Or.inl (ihChildren h))
    · exact .inr (by simpa [visible] using Or.inr (ih h))

/-- Without members below the excluded paths, what is shown is what is not excluded. -/
theorem shown_eq_visible (kit : Listing) (hempty : ∀ item ∈ kit.items dir, ∀ path ∈ excludedPaths,
    ¬ (path ++ ['/']).isPrefixOf item.path) (hdir : ∀ part ∈ dir, Ordinary part) :
    kit.shown dir = visible (kit.items dir) := by
  induction kit generalizing dir with
  | done => rfl
  | file name content rest ih | symlink name target rest ih =>
    have hrest := ih (fun item hitem => hempty item (mem_cons_of_mem _ hitem)) hdir
    unfold shown Listing.items visible
    rw [hrest]
    by_cases hexcluded : ofParts (dir ++ [name.text]) ∈ excludedPaths
    · simp [hexcluded, Item.path, visible]
    · simp [hexcluded, Item.path, visible]
  | directory name children rest ihChildren ih =>
    have hmemChildren : ∀ item ∈ children.items (dir ++ [name.text]),
        item ∈ (Listing.directory name children rest).items dir :=
      fun item hitem => mem_cons_of_mem _ (mem_append_left _ hitem)
    have hrest := ih (fun item hitem =>
      hempty item (mem_cons_of_mem _ (mem_append_right _ hitem))) hdir
    have hchildren := ihChildren (fun item hitem => hempty item (hmemChildren item hitem))
      (ordinary_child name hdir)
    unfold shown Listing.items visible
    rw [hrest, hchildren]
    by_cases hexcluded : ofParts (dir ++ [name.text]) ∈ excludedPaths
    · -- a member of this directory would have a path below an excluded one
      have hnone : children.items (dir ++ [name.text]) = [] := by
        rw [eq_nil_iff_forall_not_mem]
        intro item hitem
        obtain ⟨child, -, tail, hparts, -⟩ := mem_items hitem
        apply hempty item (hmemChildren item hitem) _ hexcluded
        have hsplit : item.path =
            (ofParts (dir ++ [name.text]) ++ ['/']) ++ ofParts (child.text :: tail) := by
          unfold Item.path
          rw [hparts, ofParts_append (by simp) (by simp)]
          simp
        rw [hsplit, isPrefixOf_iff_prefix]
        exact prefix_append _ _
      simp [hexcluded, hnone, Item.path, visible]
    · simp [hexcluded, Item.path, visible]

/-! ### Scanning Archives -/

variable (s : Scan)

def Scan.extend (items : List Item) : Scan where
  entries := s.entries ++ items.filterMap (Item.entry? sha256)
  fileEntries := s.fileEntries ++ items.filterMap (fileData? sha256)
  hardlinkTargets := s.hardlinkTargets
  memberPaths := s.memberPaths ++ items.map Item.path

theorem Scan.extend_append (items rest : List Item) :
    (s.extend sha256 items).extend sha256 rest = s.extend sha256 (items ++ rest) := by
  simp [Scan.extend]

/-- The items have paths of ordinary parts, each path once. -/
structure Distinct (items : List Item) : Prop where
  ordinary : ∀ item ∈ items, item.parts ≠ [] ∧ ∀ part ∈ item.parts, Ordinary part
  nodup : (items.map Item.path).Nodup

theorem Distinct.tail (h : Distinct (item :: items)) : Distinct items where
  ordinary other hother := h.ordinary other (mem_cons_of_mem _ hother)
  nodup := (nodup_cons.mp h.nodup).2

theorem archiveMember_eq (hitem : item.parts ≠ [] ∧ ∀ part ∈ item.parts, Ordinary part)
    (hnew : item.path ∉ s.memberPaths) :
    archiveMember sha256 root.text s (item.member root) =
      if item.path ∈ excludedPaths then some s
      else if item.safe then some (s.extend sha256 [item]) else none := by
  unfold archiveMember Item.member
  dsimp only
  unfold Item.path at hnew ⊢
  rw [archiveRelative_member hitem.1 hitem.2]
  by_cases hexcluded : ofParts item.parts ∈ excludedPaths
  · simp [hexcluded]
  by_cases hrefusal : unsafePath (ofParts item.parts) = true
  · simp [hexcluded, hrefusal, safe, Item.path]
  · rw [if_neg hexcluded, if_neg hexcluded, if_neg hrefusal]
    have hsafe : item.safe = true := by simpa [safe, Item.path] using hrefusal
    rw [hsafe, if_pos rfl]
    show (if _ then _ else _) = _
    rw [if_neg hexcluded, if_neg hnew]
    obtain ⟨ps, kind⟩ := item
    cases kind with
    | file content =>
      simp [Scan.extend, Scan.addFile, Item.path, fileEntry]
    | symlink target =>
      simp [Scan.extend, Scan.addEntry, Item.path]
    | directory =>
      simp [Scan.extend, Item.path]

/-- **Walk**: a loop that refuses a member or adds it to its lists stops at the first that it
    refuses, and else adds those that are visible. -/
theorem foldlM_members {σ : Type} {f : σ → Member → Option σ} (extend : σ → List Item → σ)
    {paths : σ → List Text} {accepts : Item → Bool}
    (hstep : ∀ s (item : Item), (item.parts ≠ [] ∧ ∀ part ∈ item.parts, Ordinary part) →
      item.path ∉ paths s →
      f s (item.member root) =
        if item.path ∈ excludedPaths then some s
        else if accepts item then some (extend s [item]) else none)
    (hpaths : ∀ s item, paths (extend s [item]) = paths s ++ [item.path])
    (hnil : ∀ s, extend s [] = s) (happend : ∀ s a b, extend (extend s a) b = extend s (a ++ b))
    (s : σ) (h : Distinct items) (hnew : ∀ item ∈ items, item.path ∉ paths s) :
    (items.map (Item.member root)).foldlM f s =
      if (visible items).all accepts then some (extend s (visible items)) else none := by
  induction items generalizing s with
  | nil => exact congrArg some (hnil s).symm
  | cons item rest ih =>
    have hhead := nodup_cons.mp h.nodup
    rw [map_cons, List.foldlM_cons,
      hstep s item (h.ordinary item mem_cons_self) (hnew item mem_cons_self)]
    by_cases hexcluded : item.path ∈ excludedPaths
    · have hvisible : visible (item :: rest) = visible rest := by simp [visible, hexcluded]
      rw [if_pos hexcluded, hvisible]
      exact ih s h.tail fun other hother => hnew other (mem_cons_of_mem _ hother)
    · have hvisible : visible (item :: rest) = item :: visible rest := by simp [visible, hexcluded]
      rw [if_neg hexcluded, hvisible, all_cons]
      cases accepts item with
      | false => rfl
      | true =>
        have hlater : ∀ other ∈ rest, other.path ∉ paths (extend s [item]) := by
          intro other hother hmem
          rw [hpaths] at hmem
          rcases mem_append.mp hmem with hmem | hmem
          · exact hnew other (mem_cons_of_mem _ hother) hmem
          · exact hhead.1 (mem_singleton.mp hmem ▸ mem_map_of_mem hother)
        rw [if_pos rfl, Bool.true_and]
        refine (ih (extend s [item]) h.tail hlater).trans ?_
        rw [happend, singleton_append]

/-! ### Scanning in the Probe -/

/-- The probe can read the target of a link. -/
def Item.readable (root : Name) (item : Item) : Bool :=
  match item.kind with
  | .symlink target => (resolveLinkTarget root.text item.path target).isSome
  | _ => true

def Item.link? (root : Name) (item : Item) : Option (Text × Text) :=
  match item.kind with
  | .symlink target =>
    (resolveLinkTarget root.text item.path target).map fun resolved => (item.path, resolved)
  | _ => none

def Probe.extend (s : Probe) (root : Name) (items : List Item) : Probe where
  toScan := s.toScan.extend sha256 items
  symlinkTargets := s.symlinkTargets ++ items.filterMap (link? root)

attribute [local simp] Probe.extend

theorem Probe.extend_append (s : Probe) (items rest : List Item) :
    (s.extend sha256 root items).extend sha256 root rest = s.extend sha256 root (items ++ rest) := by
  simp [Scan.extend_append]

theorem probeMember_eq (s : Probe) (hitem : item.parts ≠ [] ∧ ∀ part ∈ item.parts, Ordinary part)
    (hnew : item.path ∉ s.memberPaths) :
    probeMember sha256 root.text s (item.member root) =
      if item.path ∈ excludedPaths then some s
      else if item.safe && item.readable root then some (s.extend sha256 root [item]) else none := by
  unfold probeMember Item.member
  dsimp only
  unfold Item.path at hnew ⊢
  rw [if_neg (rstripSlash_member_ne hitem.1 hitem.2), probeRelative_member hitem.1 hitem.2]
  by_cases hexcluded : ofParts item.parts ∈ excludedPaths
  · simp [hexcluded]
  by_cases hrefusal : unsafePath (ofParts item.parts) = true
  · simp [hexcluded, hrefusal, safe, Item.path]
  · have hsafe : item.safe = true := by simpa [safe, Item.path] using hrefusal
    rw [if_neg hexcluded, if_neg hexcluded, if_neg hrefusal, if_neg hnew, hsafe, Bool.true_and]
    obtain ⟨ps, kind⟩ := item
    cases kind with
    | file content =>
      simp [Scan.extend, Scan.addFile, link?, readable, Item.path, fileEntry]
    | symlink target =>
      cases hread : resolveLinkTarget root.text (ofParts ps) target with
      | none => simp [readable, Item.path, hread]
      | some resolved =>
        simp [Scan.extend, Scan.addEntry, link?, readable, Item.path, hread]
    | directory =>
      simp [Scan.extend, link?, readable, Item.path]

theorem foldlM_skip {σ μ : Type} {f : σ → μ → Option σ} (p : μ → Bool)
    (hskip : ∀ s m, p m = false → f s m = some s) (l : List μ) (s : σ) :
    l.foldlM f s = (l.filter p).foldlM f s := by
  induction l generalizing s with
  | nil => rfl
  | cons m rest ih =>
    cases hm : p m with
    | false =>
      rw [filter_cons_of_neg (by simp [hm]), List.foldlM_cons, hskip s m hm]
      exact ih s
    | true =>
      rw [filter_cons_of_pos (by simp [hm]), List.foldlM_cons, List.foldlM_cons]
      congr 1
      funext s'
      exact ih s'

theorem archiveMember_root (type : MemberType) :
    archiveMember sha256 root.text s ⟨root.text, type⟩ = some s := by
  unfold archiveMember archiveRelative
  simp [rstripSlash_eq root.ordinary.getLast_ne]

theorem probeMember_root (s : Probe) (type : MemberType) :
    probeMember sha256 root.text s ⟨root.text, type⟩ = some s := by
  unfold probeMember
  simp [rstripSlash_eq root.ordinary.getLast_ne]

/-! ### Following Links -/

/-- The end of `archive_inventory` and of `directory_inventory`. -/
def conclude (items : List Item) : Option (List Entry) :=
  if items.all safe ∧
      validateSymlinks (items.filterMap (Item.entry? sha256)) (items.map Item.path) then
    some (sortEntries (items.filterMap (Item.entry? sha256)))
  else none

def concludeProbe (root : Name) (items : List Item) : Option (List Entry) :=
  let links := items.filterMap (link? root)
  if (items.all fun item => item.safe && item.readable root) ∧
      links.all fun (_, target) =>
        (resolveSymlinkTarget target links (items.map Item.path)).isSome then
    some (sortEntries (items.filterMap (Item.entry? sha256)))
  else none

theorem directoryInventory_eq (kit : Listing) :
    directoryInventory sha256 kit = conclude sha256 (kit.shown []) := by
  have hvisit := visit_eq sha256 kit [] {} (by simp)
  unfold directoryInventory conclude
  rw [show ([] : Text) = ofParts [] from rfl, hvisit]
  unfold outcome Visited.extend
  by_cases hsafe : (kit.shown []).all safe = true
  · simp [hsafe]
  · simp [hsafe]

variable {archive : List Member} {order : List Item} {entries entries' : List Entry}

theorem archiveInventory_eq (h : Distinct order)
    (hlists : archive.filter (·.name ≠ root.text) = order.map (Item.member root)) :
    archiveInventory sha256 archive root.text = conclude sha256 (visible order) := by
  unfold archiveInventory conclude
  rw [foldlM_skip (fun member : Member => decide (member.name ≠ root.text))
    (fun s member hmember => by
      obtain ⟨name, type⟩ := member
      have hname : name = root.text := by simpa using hmember
      rw [hname]
      exact archiveMember_root sha256 s type), hlists,
    foldlM_members (Scan.extend sha256) (fun s _ => archiveMember_eq sha256 s)
      (by simp [Scan.extend]) (by simp [Scan.extend]) (Scan.extend_append sha256) {} h (by simp)]
  by_cases hsafe : (visible order).all safe = true
  · rw [if_pos hsafe]
    simp [hsafe, Scan.extend, resolveHardlinks]
  · simp [hsafe]

theorem contentInventoryFromArchive_eq
    (h : Distinct order)
    (hlists : archive.filter (·.name ≠ root.text) = order.map (Item.member root)) :
    contentInventoryFromArchive sha256 archive root.text =
      concludeProbe sha256 root (visible order) := by
  unfold contentInventoryFromArchive concludeProbe
  rw [foldlM_skip (fun member : Member => decide (member.name ≠ root.text))
    (fun s member hmember => by
      obtain ⟨name, type⟩ := member
      have hname : name = root.text := by simpa using hmember
      rw [hname]
      exact probeMember_root sha256 s type), hlists,
    foldlM_members (Probe.extend sha256 · root) (fun s _ => probeMember_eq sha256 s)
      (by simp [Scan.extend]) (by simp [Scan.extend]) (Probe.extend_append sha256) {} h (by simp)]
  by_cases hread : ((visible order).all fun item => item.safe && item.readable root) = true
  · rw [if_pos hread]
    simp only [hread, true_and]
    simp [Scan.extend, resolveHardlinks]
  · rw [if_neg hread, if_neg (by simp [hread])]
    rfl

theorem walk_eq (read : Text → Text → Option Text) (links : OrderedDict Text Text)
    (followFinal : Bool) (visited pending : List Text) :
    walk read links followFinal visited pending =
      match advance (fun path => (links.lookup path).isSome) followFinal [] pending with
      | (candidate, none) => some candidate
      | (candidate, some rest) =>
        if candidate ∈ visited then none
        else
          ((links.lookup candidate).bind (read candidate)).bind fun nested =>
            walk read links followFinal (candidate :: visited) (parts nested ++ rest) := by
  rcases hadvance : advance (fun path => (links.lookup path).isSome) followFinal [] pending with
    ⟨candidate, _ | rest⟩
  · rw [walk]
    split
    · next hnow =>
      rw [hadvance] at hnow
      cases hnow
      rfl
    · next hnow =>
      rw [hadvance] at hnow
      cases hnow
  · rw [walk]
    split
    · next hnow =>
      rw [hadvance] at hnow
      cases hnow
    · next hnow =>
      rw [hadvance] at hnow
      cases hnow
      show _ = if candidate ∈ visited then none else _
      split
      · next hnone => simp [hnone]
      · next target hlink => simp [hlink]

/-- **Walking**: a walk depends on what the links stand for, not on the table. -/
theorem walk_congr {read read' : Text → Text → Option Text} {links links' : OrderedDict Text Text}
    (hlinks : ∀ path, (links.lookup path).isSome = (links'.lookup path).isSome)
    (hread : ∀ path, (links.lookup path).bind (read path) = (links'.lookup path).bind (read' path))
    (followFinal : Bool) (visited pending : List Text) :
    walk read links followFinal visited pending =
      walk read' links' followFinal visited pending := by
  have hisLink := funext hlinks
  induction visited, pending using walk.induct links followFinal with
  | case1 visited pending candidate hadvance =>
    rw [walk_eq, walk_eq read', ← hisLink, hadvance]
  | case2 visited pending candidate rest hadvance hnone =>
    rw [walk_eq, walk_eq read', ← hisLink, hadvance]
    dsimp only
    rw [← hread, hnone]
    rfl
  | case3 visited pending candidate rest hadvance target hlink hmem =>
    rw [walk_eq, walk_eq read', ← hisLink, hadvance]
    dsimp only
    rw [if_pos hmem, if_pos hmem]
  | case4 visited pending candidate rest hadvance target hlink hmem ih =>
    rw [walk_eq, walk_eq read', ← hisLink, hadvance]
    dsimp only
    rw [← hread]
    simp only [ih]

/-! ### Tables of Links -/

def Item.rawLink? (item : Item) : Option (Text × Text) :=
  match item.kind with
  | .symlink target => some (item.path, target)
  | _ => none

theorem symlinkTargets_entries (items : List Item) :
    symlinkTargets (items.filterMap (Item.entry? sha256)) = items.filterMap rawLink? := by
  unfold symlinkTargets
  rw [filterMap_filterMap]
  congr 1
  funext item
  obtain ⟨ps, kind⟩ := item
  cases kind with
  | file content => rfl
  | symlink target => rfl
  | directory => rfl

theorem keys_sublist {β : Type} {f : Item → Option β} {key : β → Text}
    (hkey : ∀ item b, f item = some b → key b = item.path) (items : List Item) :
    ((items.filterMap f).map key).Sublist (items.map Item.path) := by
  induction items with
  | nil => exact List.Sublist.refl _
  | cons item rest ih =>
    cases hitem : f item with
    | none =>
      rw [filterMap_cons_none hitem]
      exact ih.trans (sublist_cons_self _ _)
    | some b =>
      rw [filterMap_cons_some hitem, map_cons, map_cons, hkey item b hitem]
      exact ih.cons_cons _

theorem rawLink_key (item : Item) (link : Text × Text) (h : item.rawLink? = some link) :
    link.1 = item.path := by
  unfold rawLink? at h
  split at h
  · rw [← Option.some.inj h]
  · cases h

theorem link_key (item : Item) (link : Text × Text) (h : item.link? root = some link) :
    link.1 = item.path := by
  unfold link? at h
  split at h
  · obtain ⟨resolved, -, rfl⟩ := Option.map_eq_some_iff.mp h
    rfl
  · cases h

theorem entry_key (item : Item) (entry : Entry) (h : item.entry? sha256 = some entry) :
    entry.path = item.path := by
  unfold entry? at h
  split at h
  · rw [← Option.some.inj h]
    rfl
  · rw [← Option.some.inj h]
    rfl
  · cases h

theorem mem_rawLinks {path target : Text} :
    (path, target) ∈ items.filterMap rawLink? ↔
      ∃ item ∈ items, item.path = path ∧ item.kind = .symlink target := by
  rw [mem_filterMap]
  constructor
  · rintro ⟨item, hitem, hlink⟩
    unfold rawLink? at hlink
    split at hlink
    · next other hkind =>
      cases Option.some.inj hlink
      exact ⟨item, hitem, rfl, hkind⟩
    · cases hlink
  · rintro ⟨item, hitem, rfl, hkind⟩
    refine ⟨item, hitem, ?_⟩
    unfold rawLink?
    rw [hkind]

theorem mem_links {path resolved : Text} :
    (path, resolved) ∈ items.filterMap (link? root) ↔
      ∃ item ∈ items, item.path = path ∧ ∃ target, item.kind = .symlink target ∧
        resolveLinkTarget root.text path target = some resolved := by
  rw [mem_filterMap]
  constructor
  · rintro ⟨item, hitem, hlink⟩
    unfold link? at hlink
    split at hlink
    · next target hkind =>
      obtain ⟨other, hread, heq⟩ := Option.map_eq_some_iff.mp hlink
      cases heq
      exact ⟨item, hitem, rfl, target, hkind, hread⟩
    · cases hlink
  · rintro ⟨item, hitem, rfl, target, hkind, hread⟩
    refine ⟨item, hitem, ?_⟩
    unfold link?
    rw [hkind]
    dsimp only
    rw [hread]
    rfl

/-! ### Order -/

theorem sortEntries_perm (h : entries.Perm entries')
    (hnodup : (entries.map Entry.path).Nodup) : sortEntries entries = sortEntries entries' := by
  have hperm : (sortEntries entries).Perm (sortEntries entries') :=
    (perm_insertionSort _ _).trans (h.trans (perm_insertionSort _ _).symm)
  have : Std.Total fun a b : Entry => ¬ b.path < a.path :=
    ⟨fun a b => (le_total a.path b.path).imp not_lt_of_ge not_lt_of_ge⟩
  have : IsTrans Entry fun a b => ¬ b.path < a.path :=
    ⟨fun a b c hab hbc => not_lt.mpr (le_trans (not_lt.mp hab) (not_lt.mp hbc))⟩
  refine hperm.eq_of_pairwise ?_ (pairwise_insertionSort _ _) (pairwise_insertionSort _ _)
  intro a b ha hb hab hba
  have ha' : a ∈ entries := (mem_insertionSort _).mp ha
  have hb' : b ∈ entries := h.mem_iff.mpr ((mem_insertionSort _).mp hb)
  exact inj_on_of_nodup_map hnodup ha' hb' (le_antisymm (not_lt.mp hab) (not_lt.mp hba))

theorem validateSymlinks_perm {paths paths' : List Text}
    (h : entries.Perm entries') (hpaths : paths.Perm paths')
    (hnodup : (symlinkTargets entries).keys.Nodup) :
    validateSymlinks entries paths = validateSymlinks entries' paths' := by
  have hlinks : (symlinkTargets entries).Perm (symlinkTargets entries') := h.filterMap _
  have hlookup := OrderedDict.lookup_perm hnodup hlinks
  have hresolve : ∀ relative, resolveArchiveRelativePath relative (symlinkTargets entries) paths true =
      resolveArchiveRelativePath relative (symlinkTargets entries') paths' true := by
    intro relative
    unfold resolveArchiveRelativePath
    have hmem : (fun candidate => decide (candidate ∈ paths)) =
        fun candidate => decide (candidate ∈ paths') := by
      funext candidate
      simp [hpaths.mem_iff]
    have hwalk := walk_congr (fun path => congrArg Option.isSome (hlookup path))
      (fun path => congrArg (Option.bind · (symlinkTargetRelative path)) (hlookup path)) true []
      (parts relative)
    rw [hwalk, hmem]
  unfold validateSymlinks
  simp only [hresolve]
  exact hlinks.all_eq

theorem conclude_perm {items items' : List Item} (h : items.Perm items')
    (hnodup : (items.map Item.path).Nodup) : conclude sha256 items = conclude sha256 items' := by
  have hentries : (items.filterMap (Item.entry? sha256)).Perm
      (items'.filterMap (Item.entry? sha256)) := h.filterMap _
  have hkeys : (symlinkTargets (items.filterMap (Item.entry? sha256))).keys.Nodup := by
    rw [symlinkTargets_entries]
    exact hnodup.sublist (keys_sublist (fun item link => rawLink_key item link) items)
  have hpaths : ((items.filterMap (Item.entry? sha256)).map Entry.path).Nodup :=
    hnodup.sublist (keys_sublist (entry_key sha256) items)
  unfold conclude
  rw [h.all_eq, validateSymlinks_perm hentries (h.map _) hkeys, sortEntries_perm hentries hpaths]

/-! ### Two Rules, One Verdict -/

/-- No link has the root name for its target, or a target that begins with it; both rules refuse
    a backslash before they look at the root name. -/
def OffRoot (root : Name) (items : List Item) : Prop :=
  ∀ item ∈ items, ∀ target, item.kind = .symlink target → '\\' ∉ target →
    target ≠ root.text ∧ ¬ (root.text ++ ['/']).isPrefixOf target

/-- A member that every walker refuses: its path is unsafe, or neither rule reads the link. -/
def Item.Refused (root : Name) (item : Item) : Prop :=
  item.safe = false ∨ ∃ target, item.kind = .symlink target ∧
    symlinkTargetRelative item.path target = none ∧
      resolveLinkTarget root.text item.path target = none

/-- The directory walk meets a member that all refuse, or the Kit stays off the two rules that
    differ: no link that is looked at leads to the root name, and no excluded directory has a
    member. -/
def OffDifferences (root : Name) (kit : Listing) : Prop :=
  (∃ item ∈ kit.shown [], item.Refused root) ∨
    OffRoot root (visible (kit.items [])) ∧ ExcludedEmpty kit

theorem read_eq (h : Distinct items) (hoff : OffRoot root items) (hitem : item ∈ items)
    (hkind : item.kind = .symlink target) :
    symlinkTargetRelative item.path target =
      (resolveLinkTarget root.text item.path target).filter (· ∉ excludedPaths) := by
  obtain ⟨hne, hord⟩ := h.ordinary item hitem
  exact symlinkTargetRelative_eq (head_ofParts_ne hne hord) (hoff item hitem target hkind)

theorem conclude_refused (hitem : item ∈ items) (h : item.Refused root) :
    conclude sha256 items = none ∧ concludeProbe sha256 root items = none := by
  unfold conclude concludeProbe
  dsimp only
  rcases h with hrefused | ⟨target, hkind, hread, hresolve⟩
  · rw [if_neg, if_neg]
    · exact ⟨rfl, rfl⟩
    · rintro ⟨hall, -⟩
      have hitem := List.all_eq_true.mp hall item hitem
      rw [hrefused] at hitem
      cases hitem
    · rintro ⟨hall, -⟩
      rw [List.all_eq_true.mp hall item hitem] at hrefused
      cases hrefused
  · rw [if_neg, if_neg]
    · exact ⟨rfl, rfl⟩
    · rintro ⟨hall, -⟩
      have hitem := (Bool.and_eq_true_iff.mp (List.all_eq_true.mp hall item hitem)).2
      unfold readable at hitem
      rw [hkind] at hitem
      dsimp only at hitem
      rw [hresolve] at hitem
      cases hitem
    · rintro ⟨-, hall⟩
      unfold validateSymlinks at hall
      dsimp only at hall
      rw [symlinkTargets_entries, List.all_eq_true] at hall
      have hlink := hall _ (mem_rawLinks.mpr ⟨item, hitem, rfl, hkind⟩)
      dsimp only at hlink
      rw [hread] at hlink
      cases hlink

/-- The two tables stand for the same paths, when the probe reads no excluded one. -/
theorem tables_agree (h : Distinct items) (hoff : OffRoot root items)
    (hread : ∀ item ∈ items, ∀ target, item.kind = .symlink target →
      ∃ resolved, resolveLinkTarget root.text item.path target = some resolved ∧
        resolved ∉ excludedPaths) (path : Text) :
    ((items.filterMap rawLink?).lookup path).bind (symlinkTargetRelative path) =
        (items.filterMap (link? root)).lookup path ∧
      ((items.filterMap rawLink?).lookup path).isSome =
        ((items.filterMap (link? root)).lookup path).isSome := by
  have hraw : (OrderedDict.keys (items.filterMap rawLink?)).Nodup :=
    h.nodup.sublist (keys_sublist (fun item link => rawLink_key item link) items)
  have hlinks : (OrderedDict.keys (items.filterMap (link? root))).Nodup :=
    h.nodup.sublist (keys_sublist (fun item link => link_key item link) items)
  cases hlookup : (items.filterMap rawLink?).lookup path with
  | none =>
    -- a path that is no link here is none there
    have hnone : (items.filterMap (link? root)).lookup path = none := by
      rw [Option.eq_none_iff_forall_ne_some]
      intro resolved hresolved
      obtain ⟨item, hitem, hpath, target, hkind, -⟩ :=
        mem_links.mp ((OrderedDict.lookup_eq_some_iff hlinks).mp hresolved)
      rw [(OrderedDict.lookup_eq_some_iff hraw).mpr
        (mem_rawLinks.mpr ⟨item, hitem, hpath, hkind⟩)] at hlookup
      cases hlookup
    rw [hnone]
    exact ⟨rfl, rfl⟩
  | some target =>
    obtain ⟨item, hitem, rfl, hkind⟩ :=
      mem_rawLinks.mp ((OrderedDict.lookup_eq_some_iff hraw).mp hlookup)
    obtain ⟨resolved, hresolved, hexcluded⟩ := hread item hitem target hkind
    have hsome : (items.filterMap (link? root)).lookup item.path = some resolved :=
      (OrderedDict.lookup_eq_some_iff hlinks).mpr
        (mem_links.mpr ⟨item, hitem, rfl, target, hkind, hresolved⟩)
    rw [hsome]
    refine ⟨?_, rfl⟩
    show symlinkTargetRelative item.path target = some resolved
    rw [read_eq h hoff hitem hkind, hresolved, Option.filter_some, if_pos (by simpa using hexcluded)]

theorem resolve_agree (h : Distinct items) (hoff : OffRoot root items)
    (hread : ∀ item ∈ items, ∀ target, item.kind = .symlink target →
      ∃ resolved, resolveLinkTarget root.text item.path target = some resolved ∧
        resolved ∉ excludedPaths) (relative : Text) (memberPaths : List Text) :
    resolveArchiveRelativePath relative (items.filterMap rawLink?) memberPaths true =
      resolveSymlinkTarget relative (items.filterMap (link? root)) memberPaths := by
  have htables := tables_agree h hoff hread
  have hwalk : walk symlinkTargetRelative (items.filterMap rawLink?) true [] (parts relative) =
      walk (fun _ target => some target) (items.filterMap (link? root)) true []
        (parts relative) := by
    apply walk_congr
    · exact fun path => (htables path).2
    · intro path
      rw [(htables path).1]
      simp
  unfold resolveArchiveRelativePath resolveSymlinkTarget
  rw [hwalk]

/-- An excluded path is not linked and not a member, so a walk to it ends nowhere. -/
theorem resolve_excluded {links : OrderedDict Text Text} {memberPaths : List Text} {path : Text}
    (hpath : path ∈ excludedPaths) (hlinks : links.lookup path = none)
    (hmember : path ∉ memberPaths) : resolveSymlinkTarget path links memberPaths = none := by
  have hall : ∀ path ∈ excludedPaths, parts path = [path] := by decide
  have hparts := hall path hpath
  unfold resolveSymlinkTarget
  rw [walk_eq, hparts]
  have hadvance : advance (fun path => (links.lookup path).isSome) true [] [path] =
      (path, none) := by
    unfold advance
    simp [ofParts_singleton, hlinks, advance]
  rw [hadvance]
  simp [hmember]

/-- **Verdict**: off the root name, the probe concludes like the release. -/
theorem conclude_eq (h : Distinct items) (hoff : OffRoot root items)
    (hvisible : ∀ item ∈ items, item.path ∉ excludedPaths) :
    conclude sha256 items = concludeProbe sha256 root items := by
  have hread : validateSymlinks (items.filterMap (Item.entry? sha256)) (items.map Item.path) = true ↔
      (∀ item ∈ items, item.readable root = true) ∧
        ∀ link ∈ items.filterMap (link? root),
          (resolveSymlinkTarget link.2 (items.filterMap (link? root))
            (items.map Item.path)).isSome = true := by
    unfold validateSymlinks
    dsimp only
    rw [symlinkTargets_entries, all_eq_true]
    constructor
    · intro hvalid
      have hresolved : ∀ item ∈ items, ∀ target, item.kind = .symlink target →
          ∃ resolved, resolveLinkTarget root.text item.path target = some resolved ∧
            resolved ∉ excludedPaths ∧ (resolveArchiveRelativePath resolved
              (items.filterMap rawLink?) (items.map Item.path) true).isSome = true := by
        intro item hitem target hkind
        have hlink := hvalid _ (mem_rawLinks.mpr ⟨item, hitem, rfl, hkind⟩)
        rw [read_eq h hoff hitem hkind] at hlink
        cases hread : resolveLinkTarget root.text item.path target with
        | none => rw [hread] at hlink; cases hlink
        | some resolved =>
          rw [hread] at hlink
          by_cases hexcluded : resolved ∈ excludedPaths
          · rw [Option.filter_some, if_neg (by simpa using hexcluded)] at hlink
            cases hlink
          · rw [Option.filter_some, if_pos (by simpa using hexcluded)] at hlink
            exact ⟨resolved, rfl, hexcluded, hlink⟩
      have hagree := resolve_agree h hoff fun item hitem target hkind => by
        obtain ⟨resolved, hread, hexcluded, -⟩ := hresolved item hitem target hkind
        exact ⟨resolved, hread, hexcluded⟩
      refine ⟨fun item hitem => ?_, fun link hlink => ?_⟩
      · unfold readable
        cases hkind : item.kind with
        | file content => rfl
        | directory => rfl
        | symlink target =>
          obtain ⟨resolved, hread, -⟩ := hresolved item hitem target hkind
          dsimp only
          rw [hread]
          rfl
      · obtain ⟨item, hitem, hpath, target, hkind, hlinked⟩ := mem_links.mp hlink
        obtain ⟨resolved, hread, -, hsome⟩ := hresolved item hitem target hkind
        rw [hpath, hlinked] at hread
        rw [← hagree, Option.some.inj hread]
        exact hsome
    · rintro ⟨hreadable, hresolve⟩
      have hlinks : (OrderedDict.keys (items.filterMap (link? root))).Nodup :=
        h.nodup.sublist (keys_sublist (fun item link => link_key item link) items)
      have hresolved : ∀ item ∈ items, ∀ target, item.kind = .symlink target →
          ∃ resolved, resolveLinkTarget root.text item.path target = some resolved ∧
            resolved ∉ excludedPaths := by
        intro item hitem target hkind
        have hitemRead := hreadable item hitem
        unfold readable at hitemRead
        rw [hkind] at hitemRead
        obtain ⟨resolved, hread⟩ := Option.isSome_iff_exists.mp hitemRead
        refine ⟨resolved, hread, fun hexcluded => ?_⟩
        -- a link to an excluded path would end outside the members
        have hsome := hresolve _ (mem_links.mpr ⟨item, hitem, rfl, target, hkind, hread⟩)
        rw [resolve_excluded hexcluded] at hsome
        · cases hsome
        · rw [Option.eq_none_iff_forall_ne_some]
          intro other hother
          obtain ⟨linked, hlinked, hpath, -⟩ :=
            mem_links.mp ((OrderedDict.lookup_eq_some_iff hlinks).mp hother)
          exact hvisible linked hlinked (hpath ▸ hexcluded)
        · intro hmem
          obtain ⟨linked, hlinked, hpath⟩ := mem_map.mp hmem
          exact hvisible linked hlinked (hpath ▸ hexcluded)
      have hagree := resolve_agree h hoff hresolved
      rintro ⟨path, target⟩ hlink
      obtain ⟨item, hitem, rfl, hkind⟩ := mem_rawLinks.mp hlink
      obtain ⟨resolved, hread, hexcluded⟩ := hresolved item hitem target hkind
      dsimp only
      rw [read_eq h hoff hitem hkind, hread, Option.filter_some, if_pos (by simpa using hexcluded)]
      show (resolveArchiveRelativePath resolved _ _ true).isSome = true
      rw [hagree]
      exact hresolve _ (mem_links.mpr ⟨item, hitem, rfl, target, hkind, hread⟩)
  unfold conclude concludeProbe
  dsimp only
  congr 1
  rw [hread, all_eq_true, all_eq_true, all_eq_true, eq_iff_iff]
  simp only [Bool.and_eq_true]
  constructor
  · rintro ⟨hsafe, hreadable, hresolve⟩
    exact ⟨fun item hitem => ⟨hsafe item hitem, hreadable item hitem⟩, hresolve⟩
  · rintro ⟨hboth, hresolve⟩
    exact ⟨fun item hitem => (hboth item hitem).1, fun item hitem => (hboth item hitem).2, hresolve⟩

end Scanning

end Codify.Kit

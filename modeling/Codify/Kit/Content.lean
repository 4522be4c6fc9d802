import Codify.Framework.Json
import Codify.Framework.PosixPath
import Mathlib.Data.Char
import Mathlib.Data.List.Lex
import Mathlib.Data.List.Sort

/-! # Worker Kit Content

    Three walkers list the content of a Kit: `directory_inventory` and
    `archive_inventory` (deploy/worker-kit/verify-kit-content.py) for the release, and
    `_content_inventory_from_archive` (app/core/worker_runtime_readiness.py) for the
    probe. `validate_content_inventory` (app/core/worker_kit_inventory.py) reads the
    list in the manifest. A refusal is `none`; its message is left out.

    SHA-256 is a parameter with values of 32 bytes.
-/

namespace Codify.Kit

open Codify.Framework Codify.Framework.PosixPath

/-! ### Kits -/

/-- A file name. -/
structure Name where
  text : Text
  ordinary : Ordinary text

instance : DecidableEq Name := fun a b =>
  decidable_of_iff (a.text = b.text) ⟨fun h => by cases a; cases b; congr, congrArg Name.text⟩

/-- A directory, as the entries that are left to list. -/
inductive Listing where
  | done
  | file (name : Name) (content : List UInt8) (rest : Listing)
  | symlink (name : Name) (target : Text) (rest : Listing)
  | directory (name : Name) (children rest : Listing)

namespace Listing

def names : Listing → List Name
  | done => []
  | file name _ rest => name :: rest.names
  | symlink name _ rest => name :: rest.names
  | directory name _ rest => name :: rest.names

/-- All directories are listed in the order of the names, each name once. -/
def Sorted : Listing → Prop
  | done => True
  | file name _ rest => (∀ other ∈ rest.names, name.text < other.text) ∧ rest.Sorted
  | symlink name _ rest => (∀ other ∈ rest.names, name.text < other.text) ∧ rest.Sorted
  | directory name children rest =>
    (∀ other ∈ rest.names, name.text < other.text) ∧ children.Sorted ∧ rest.Sorted

end Listing

/-! ### Entries -/

/-- 32 bytes. -/
structure Digest where
  bytes : List UInt8
  length_eq : bytes.length = 32

/-- `hexdigest()`. -/
def Digest.hex (d : Digest) : Text :=
  d.bytes.flatMap fun b => [Nat.digitChar (b.toNat / 16), Nat.digitChar (b.toNat % 16)]

/-- An entry of `content_inventory`. -/
inductive Entry where
  | file (path sha256 : Text) (size : Nat)
  | symlink (path target : Text)
  deriving DecidableEq

def Entry.path : Entry → Text
  | file path _ _ => path
  | symlink path _ => path

variable (path : Text) (entries : List Entry)

/-- `sorted(entries, key=lambda item: item["path"])`. -/
def sortEntries : List Entry := entries.insertionSort fun a b => ¬ b.path < a.path

/-- The links of a list of entries, with their targets. -/
def symlinkTargets : OrderedDict Text Text :=
  entries.filterMap fun
    | .symlink path target => some (path, target)
    | .file .. => none

/-- `EXCLUDED_PATHS`. -/
def excludedPaths : List Text :=
  ["manifest.json".toList, ".install-receipt.json".toList, ".smoke-passed".toList]

def nixStorePrefix : Text := "/nix/store".toList

/-! ### Paths -/

/-- `_relative_path`. -/
def relativePath (value : Text) : Option Text :=
  let normalized := normpath value
  if normalized = [] ∨ normalized = dot ∨ normalized = dotdot ∨
      (dotdot ++ ['/']).isPrefixOf normalized ∨ ['/'].isPrefixOf normalized ∨ '\\' ∈ value ∨
      (parts normalized).any (fun part => part = [] ∨ part = dotdot) ∨
      normalized ∈ excludedPaths then none
  else some normalized

/-- The parts of a path behind `/nix/store/`, when they can be taken as they are. -/
def plainSuffix (suffix : Text) : Bool :=
  suffix ≠ [] ∧ !(parts suffix).any fun part => part = [] ∨ part = dot ∨ part = dotdot

/-- `_symlink_target_relative`. -/
def symlinkTargetRelative (relative target : Text) : Option Text :=
  if target = [] ∨ '\\' ∈ target then none
  else if target = nixStorePrefix then some "nix/store".toList
  else if (nixStorePrefix ++ ['/']).isPrefixOf target then
    let suffix := target.drop (nixStorePrefix.length + 1)
    if plainSuffix suffix then relativePath ("nix/store/".toList ++ suffix) else none
  else if ['/'].isPrefixOf target then none
  else relativePath (normpath (join (dirname relative) target))

/-- The walk to the first link: its path and what is pending behind it, or the path that the walk
    ends at. -/
def advance (isLink : Text → Bool) (followFinal : Bool) :
    List Text → List Text → Text × Option (List Text)
  | resolved, [] => (ofParts resolved, none)
  | resolved, part :: pending =>
    let candidate := ofParts (resolved ++ [part])
    if isLink candidate ∧ (pending ≠ [] ∨ followFinal) then (candidate, some pending)
    else advance isLink followFinal (resolved ++ [part]) pending

theorem unvisited_lt {links : OrderedDict Text Text} {visited : List Text} {candidate target : Text}
    (hlink : links.lookup candidate = some target) (hvisited : candidate ∉ visited) :
    (links.filter (·.1 ∉ candidate :: visited)).length < (links.filter (·.1 ∉ visited)).length := by
  have hmem : (candidate, target) ∈ links := OrderedDict.mem_of_lookup hlink
  have hsublist : (links.filter (·.1 ∉ candidate :: visited)).Sublist
      (links.filter (·.1 ∉ visited)) := by
    apply List.monotone_filter_right
    intro link hlink
    simp only [List.mem_cons, not_or, decide_eq_true_eq] at hlink ⊢
    exact hlink.2
  apply lt_of_le_of_ne hsublist.length_le
  intro heq
  have hsame := hsublist.eq_of_length heq
  have hold : (candidate, target) ∈ links.filter (·.1 ∉ visited) := by simp [hmem, hvisited]
  rw [← hsame] at hold
  simp at hold

/-- The loop that follows links: `read` is the path that a link stands for. It refuses a link that
    it has followed before. -/
def walk (read : Text → Text → Option Text) (links : OrderedDict Text Text) (followFinal : Bool)
    (visited pending : List Text) : Option Text :=
  match advance (fun path => (links.lookup path).isSome) followFinal [] pending with
  | (candidate, none) => some candidate
  | (candidate, some rest) =>
    match _hlink : links.lookup candidate with
    | none => none
    | some target =>
      if _hvisited : candidate ∈ visited then none
      else
        (read candidate target).bind fun nested =>
          walk read links followFinal (candidate :: visited) (parts nested ++ rest)
termination_by (links.filter (·.1 ∉ visited)).length
decreasing_by
  exact unvisited_lt ‹_› ‹_›

/-- `_resolve_archive_relative_path`. -/
def resolveArchiveRelativePath (links : OrderedDict Text Text) (memberPaths : List Text)
    (followFinal : Bool) : Option Text :=
  (walk symlinkTargetRelative links followFinal [] (parts path)).filter (· ∈ memberPaths)

/-- `_validate_directory_symlinks` and `_validate_archive_symlinks`, which differ in a message. -/
def validateSymlinks (memberPaths : List Text) : Bool :=
  let links := symlinkTargets entries
  links.all fun (path, target) =>
    ((symlinkTargetRelative path target).bind fun relative =>
      resolveArchiveRelativePath relative links memberPaths true).isSome

/-! ### The Directory -/

/-- What `visit` has collected. -/
structure Visited where
  entries : List Entry := []
  memberPaths : List Text := []

def Visited.addEntry (v : Visited) (entry : Entry) : Visited :=
  { v with entries := v.entries ++ [entry] }

/-- `f"{prefix}/{child.name}" if prefix else child.name`. -/
def childPath (pfx : Text) (name : Name) : Text :=
  if pfx = [] then name.text else pfx ++ '/' :: name.text

/-- The body of the loop in `visit`, up to the kind of the child. -/
def visitChild (pfx : Text) (name : Name) (v : Visited) (child : Text → Visited → Option Visited) :
    Option Visited :=
  let relative := childPath pfx name
  if relative ∈ excludedPaths then some v
  else
    (relativePath relative).bind fun relative =>
      child relative { v with memberPaths := v.memberPaths ++ [relative] }

section Walkers

variable (sha256 : List UInt8 → Digest)

def fileEntry (relative : Text) (content : List UInt8) : Entry :=
  .file relative (sha256 content).hex content.length

/-- `visit`. -/
def visit : Listing → Text → Visited → Option Visited
  | .done, _, v => some v
  | .file name content rest, pfx, v =>
    (visitChild pfx name v fun relative v =>
      some (v.addEntry (fileEntry sha256 relative content))).bind (visit rest pfx)
  | .symlink name target rest, pfx, v =>
    (visitChild pfx name v fun relative v =>
      some (v.addEntry (.symlink relative target))).bind (visit rest pfx)
  | .directory name children rest, pfx, v =>
    (visitChild pfx name v fun relative v => visit children relative v).bind (visit rest pfx)

/-- `directory_inventory`. -/
def directoryInventory (root : Listing) : Option (List Entry) :=
  (visit sha256 root [] {}).bind fun v =>
    if validateSymlinks v.entries v.memberPaths then some (sortEntries v.entries) else none

/-! ### Archives -/

/-- The type of an archive member. -/
inductive MemberType where
  | file (content : List UInt8)
  | symlink (linkname : Text)
  | hardlink (linkname : Text)
  | directory
  | other
  deriving DecidableEq

/-- A member of an archive. -/
structure Member where
  name : Text
  type : MemberType
  deriving DecidableEq

/-- What a walk through an archive has collected; `seen` and `member_paths` hold the same paths. -/
structure Scan where
  entries : List Entry := []
  /-- `file_entries`: the digest and the size. -/
  fileEntries : OrderedDict Text (Text × Nat) := []
  hardlinkTargets : OrderedDict Text Text := []
  memberPaths : List Text := []

def Scan.addMember (s : Scan) (relative : Text) : Scan :=
  { s with memberPaths := s.memberPaths ++ [relative] }

def Scan.addEntry (s : Scan) (entry : Entry) : Scan := { s with entries := s.entries ++ [entry] }

def Scan.addFile (s : Scan) (relative : Text) (data : Text × Nat) : Scan :=
  { s with
    entries := s.entries ++ [.file relative data.1 data.2]
    fileEntries := s.fileEntries ++ [(relative, data)] }

def Scan.addHardlink (s : Scan) (relative target : Text) : Scan :=
  { s with hardlinkTargets := s.hardlinkTargets ++ [(relative, target)] }

/-- `resolve_hardlink`, which both archive walkers define: the data of a file, read through hard
    links that then have entries of their own. -/
def resolveHardlink (visiting : List Text) (relative : Text) (s : Scan) :
    Option ((Text × Nat) × Scan) :=
  match s.fileEntries.lookup relative with
  | some data => some (data, s)
  | none =>
    match _hlink : s.hardlinkTargets.lookup relative with
    | none => none
    | some target =>
      if _hvisited : relative ∈ visiting then none
      else
        (resolveHardlink (relative :: visiting) target s).map fun (data, s) =>
          (data, s.addFile relative data)
termination_by (s.hardlinkTargets.filter (·.1 ∉ visiting)).length
decreasing_by
  exact unvisited_lt ‹_› ‹_›

def resolveHardlinks (s : Scan) : Option Scan :=
  (s.hardlinkTargets.map (·.1)).foldlM
    (fun s relative => (resolveHardlink [] relative s).map (·.2)) s

/-- `_archive_relative`: `some none` for the root itself. -/
def archiveRelative (name root : Text) : Option (Option Text) :=
  let root := rstripSlash root
  let pfx := root ++ ['/']
  if rstripSlash name = root then some none
  else if !pfx.isPrefixOf name then none
  else
    let relative := normpath (name.drop pfx.length)
    if relative ∈ excludedPaths then some (some relative)
    else (relativePath relative).map some

/-- `_archive_link_target`. -/
def archiveLinkTarget (relative target root : Text) : Option Text :=
  if target = [] ∨ '\\' ∈ target then none
  else if target = nixStorePrefix then relativePath (normpath "nix/store".toList)
  else if (nixStorePrefix ++ ['/']).isPrefixOf target then
    let suffix := target.drop (nixStorePrefix.length + 1)
    if plainSuffix suffix then relativePath (normpath ("nix/store/".toList ++ suffix)) else none
  else if ['/'].isPrefixOf target then none
  else if target = root ∨ (root ++ ['/']).isPrefixOf target then
    relativePath (normpath (lstripSlash (target.drop root.length)))
  else relativePath (normpath (join (dirname relative) target))

/-- The body of the loop in `archive_inventory`. -/
def archiveMember (root : Text) (s : Scan) (member : Member) : Option Scan :=
  (archiveRelative member.name root).bind fun relative =>
    match relative with
    | none => some s
    | some relative =>
      if relative ∈ excludedPaths then some s
      else if relative ∈ s.memberPaths then none
      else
        let s := s.addMember relative
        match member.type with
        | .symlink linkname => some (s.addEntry (.symlink relative linkname))
        | .hardlink linkname =>
          (archiveLinkTarget relative linkname root).map fun target => s.addHardlink relative target
        | .directory => some s
        | .other => none
        | .file content => some (s.addFile relative ((sha256 content).hex, content.length))

/-- `archive_inventory`. -/
def archiveInventory (archive : List Member) (root : Text) : Option (List Entry) :=
  (archive.foldlM (archiveMember sha256 root) {}).bind fun s =>
    let links := symlinkTargets s.entries
    -- the last component of a hard link's target is not followed
    (s.hardlinkTargets.mapM fun link : Text × Text =>
        (resolveArchiveRelativePath link.2 links s.memberPaths false).map fun target =>
          (link.1, target)).bind fun hardlinkTargets =>
      (resolveHardlinks { s with hardlinkTargets := hardlinkTargets }).bind fun s =>
        if validateSymlinks s.entries s.memberPaths then some (sortEntries s.entries) else none

/-! ### The Probe -/

def unsafePath (path : Text) : Bool :=
  path = [] ∨ path = dot ∨ path = dotdot ∨ (dotdot ++ ['/']).isPrefixOf path ∨
    ['/'].isPrefixOf path ∨ '\\' ∈ path ∨
    (parts path).any fun part => part = [] ∨ part = dot ∨ part = dotdot

/-- `resolve_link_target`. -/
def resolveLinkTarget (root relative target : Text) : Option Text :=
  let resolve (candidate : Text) : Option Text :=
    let resolved := normpath candidate
    if unsafePath resolved then none else some resolved
  if target = [] ∨ '\\' ∈ target then none
  else if target = nixStorePrefix then resolve "nix/store".toList
  else if (nixStorePrefix ++ ['/']).isPrefixOf target then
    let suffix := target.drop (nixStorePrefix.length + 1)
    if plainSuffix suffix then resolve (join "nix/store".toList suffix) else none
  else if ['/'].isPrefixOf target then none
  else if target = root ∨ (root ++ ['/']).isPrefixOf target then
    resolve (lstripSlash (target.drop root.length))
  else resolve (join (dirname relative) target)

/-- The state of the probe; `symlink_targets` holds the paths that the targets stand for. -/
structure Probe extends Scan where
  symlinkTargets : OrderedDict Text Text := []

def probeRelative (name root : Text) : Text :=
  let pfx := root ++ ['/']
  normpath (if pfx.isPrefixOf name then name.drop pfx.length else name)

/-- The body of the loop in `_content_inventory_from_archive`. -/
def probeMember (root : Text) (s : Probe) (member : Member) : Option Probe :=
  if rstripSlash member.name = root then some s
  else
    let relative := probeRelative member.name root
    if relative ∈ excludedPaths then some s
    else if unsafePath relative then none
    else if relative ∈ s.memberPaths then none
    else
      let s := { s with toScan := s.toScan.addMember relative }
      match member.type with
      | .directory => some s
      | .symlink linkname =>
        (resolveLinkTarget root relative linkname).map fun target =>
          { s with
            symlinkTargets := s.symlinkTargets ++ [(relative, target)]
            toScan := s.toScan.addEntry (.symlink relative linkname) }
      | .hardlink linkname =>
        (resolveLinkTarget root relative linkname).map fun target =>
          { s with toScan := s.toScan.addHardlink relative target }
      | .other => none
      | .file content =>
        some { s with
          toScan := s.toScan.addFile relative ((sha256 content).hex, content.length) }

/-- `resolve_symlink_target`: the same loop over paths that are read already. -/
def resolveSymlinkTarget (path : Text) (links : OrderedDict Text Text) (memberPaths : List Text) :
    Option Text :=
  (walk (fun _ target => some target) links true [] (parts path)).filter (· ∈ memberPaths)

/-- `_content_inventory_from_archive`. -/
def contentInventoryFromArchive (archive : List Member) (root : Text) : Option (List Entry) :=
  (archive.foldlM (probeMember sha256 root) {}).bind fun s =>
    (resolveHardlinks s.toScan).bind fun scan =>
      if s.symlinkTargets.all fun (_, target) =>
          (resolveSymlinkTarget target s.symlinkTargets scan.memberPaths).isSome then
        some (sortEntries scan.entries)
      else none

end Walkers

/-! ### The Manifest -/

/-- `_is_sha256`. -/
def isSha256 (value : Text) : Bool :=
  value.length = 64 ∧ value.all ("0123456789abcdef".toList.contains ·)

/-- The paths that `_content_symlink_target` refuses. -/
def escapesRoot : Bool :=
  path = [] ∨ path = dot ∨ path = dotdot ∨ (dotdot ++ ['/']).isPrefixOf path ∨
    ['/'].isPrefixOf path ∨ (parts path).any fun part => part = [] ∨ part = dot ∨ part = dotdot

/-- `_content_symlink_target`. -/
def contentSymlinkTarget (path target : Text) : Option Text :=
  let resolved :=
    if target = [] ∨ '\\' ∈ target then none
    else if target = nixStorePrefix then some "nix/store".toList
    else if (nixStorePrefix ++ ['/']).isPrefixOf target then
      let suffix := target.drop (nixStorePrefix.length + 1)
      if plainSuffix suffix then some (join "nix/store".toList suffix) else none
    else if ['/'].isPrefixOf target then none
    else some (normpath (join (dirname path) target))
  resolved.filter fun path => !escapesRoot path

def Entry.toJson : Entry → Json
  | file path sha256 size =>
    .obj [("kind", .str "file"), ("path", .str (String.ofList path)),
      ("sha256", .str (String.ofList sha256)), ("size", .int size)]
  | symlink path target =>
    .obj [("kind", .str "symlink"), ("path", .str (String.ofList path)),
      ("target", .str (String.ofList target))]

/-- `set(entry) == names`. -/
def hasKeys (entry : JsonObject) (names : List String) : Bool :=
  (entry.all fun item => names.contains item.1) && names.all fun name => entry.has name

/-- The checks of an entry behind those of its path. -/
def validateKind (entry : JsonObject) : Option Entry :=
  match entry.get "kind" with
  | .str "file" =>
    if !hasKeys entry ["kind", "path", "sha256", "size"] then none
    else
      match entry.get "size", entry.get "sha256" with
      | .int size, .str sha256 =>
        if size < 0 ∨ !isSha256 sha256.toList then none
        else some (.file path sha256.toList size.toNat)
      | _, _ => none
  | .str "symlink" =>
    if !hasKeys entry ["kind", "path", "target"] then none
    else
      match entry.get "target" with
      | .str target =>
        (contentSymlinkTarget path target.toList).map fun _ => .symlink path target.toList
      | _ => none
  | _ => none

/-- The body of the loop in `validate_content_inventory`. -/
def validateEntry (normalized : List Entry) (entry : Json) : Option (List Entry) :=
  match entry with
  | .obj entry =>
    match JsonObject.get entry "path" with
    | .str text =>
      let path := text.toList
      if path = [] ∨ path ≠ normpath path then none
      else if path ∈ excludedPaths ∨ ['/'].isPrefixOf path ∨ (dotdot ++ ['/']).isPrefixOf path ∨
          '\\' ∈ path ∨ (parts path).any (fun part => part = [] ∨ part = dot ∨ part = dotdot) then
        none
      else if path ∈ normalized.map Entry.path then none
      else (validateKind path entry).map fun entry => normalized ++ [entry]
    | _ => none
  | _ => none

/-- `validate_content_inventory`. -/
def validateContentInventory (raw : Json) : Option (List Json) :=
  match raw with
  | .arr entries =>
    if entries = [] then none
    else
      (entries.foldlM validateEntry []).map fun normalized => (sortEntries normalized).map Entry.toJson
  | _ => none

end Codify.Kit

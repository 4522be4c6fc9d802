import Codify.Kit.Agreement

/-! # Worker Kit Content: Manifest

    What the walkers accept is written to the manifest, and
    `validate_content_inventory` reads it there.

    * **Entries**: an entry of an accepted list passes every check (`Entry.Valid`).
    * **Result**: `kit_walkers_agree`, with the list unchanged by the validation.
-/

namespace Codify.Kit

open Codify.Framework Codify.Framework.PosixPath List Option

variable {sha256 : List UInt8 → Digest} {root : Name} {items : List Item} {path target : Text}
  {ps : List Text} {entries normalized : List Entry} {entry : Entry}

/-! ### Checks -/

theorem digitChar_mem {n : Nat} (h : n < 16) : n.digitChar ∈ "0123456789abcdef".toList := by
  revert h
  revert n
  decide

theorem isSha256_hex (d : Digest) : isSha256 d.hex = true := by
  have hlength : d.hex.length = 64 := by
    unfold Digest.hex
    simp [length_flatMap, d.length_eq]
  have hdigits : ∀ c ∈ d.hex, c ∈ "0123456789abcdef".toList := by
    intro c hc
    obtain ⟨b, -, hc⟩ := mem_flatMap.mp hc
    have hbyte := b.toNat_lt
    rcases mem_cons.mp hc with rfl | hc
    · exact digitChar_mem (by omega)
    · rw [mem_singleton.mp hc]
      exact digitChar_mem (by omega)
  unfold isSha256
  rw [decide_eq_true_eq]
  refine ⟨hlength, List.all_eq_true.mpr fun c hc => ?_⟩
  simpa using hdigits c hc

theorem escapesRoot_of_safe (h : unsafePath path = false) : escapesRoot path = false := by
  unfold unsafePath at h
  unfold escapesRoot
  rw [decide_eq_false_iff_not] at h ⊢
  tauto

theorem unsafe_of_relativePath {resolved : Text} (hps : ps ≠ []) (hord : ∀ part ∈ ps, Ordinary part)
    (h : relativePath (ofParts ps) = some resolved) : unsafePath (ofParts ps) = false := by
  rw [relativePath_ofParts hps hord] at h
  by_cases hrefusal : unsafePath (ofParts ps) = true
  · rw [if_pos hrefusal] at h
    cases h
  · simpa using hrefusal

theorem contentSymlinkTarget_isSome {resolved : Text} (hhead : path.head? ≠ some '/')
    (h : symlinkTargetRelative path target = some resolved) :
    (contentSymlinkTarget path target).isSome = true := by
  unfold symlinkTargetRelative at h
  unfold contentSymlinkTarget
  by_cases hrefused : target = [] ∨ '\\' ∈ target
  · rw [if_pos hrefused] at h
    cases h
  rw [if_neg hrefused] at h ⊢
  by_cases hstore : target = nixStorePrefix
  · rw [if_pos hstore]
    decide
  rw [if_neg hstore] at h ⊢
  by_cases hinStore : (nixStorePrefix ++ ['/']).isPrefixOf target = true
  · rw [if_pos hinStore] at h ⊢
    dsimp only at h ⊢
    by_cases hplain : plainSuffix (target.drop (nixStorePrefix.length + 1)) = true
    · rw [if_pos hplain] at h ⊢
      obtain ⟨ps, hps, hord, hjoin, htext⟩ := store_path hplain
      rw [htext] at h
      rw [hjoin, filter_some,
        if_pos (by rw [escapesRoot_of_safe (unsafe_of_relativePath hps hord h)]; rfl)]
      rfl
    · rw [if_neg hplain] at h
      cases h
  rw [if_neg hinStore] at h ⊢
  by_cases habsolute : ['/'].isPrefixOf target = true
  · rw [if_pos habsolute] at h
    cases h
  rw [if_neg habsolute] at h ⊢
  obtain ⟨hne, hjoined⟩ := join_target hhead (fun h => hrefused (Or.inl h)) habsolute
  rw [relativePath_normalized hne hjoined] at h
  by_cases hrefusal : unsafePath (normpath (join (dirname path) target)) = true
  · rw [if_pos hrefusal] at h
    cases h
  · have hescapes := escapesRoot_of_safe (by simpa using hrefusal)
    rw [filter_some, if_pos (by rw [hescapes]; rfl)]
    rfl

/-! ### Entries -/

/-- An entry as the walkers write it. -/
structure Entry.Valid (entry : Entry) : Prop where
  path : ∃ ps, ps ≠ [] ∧ (∀ part ∈ ps, Ordinary part) ∧ entry.path = ofParts ps
  safe : unsafePath entry.path = false
  visible : entry.path ∉ excludedPaths
  digest : ∀ path sha256 size, entry = .file path sha256 size → isSha256 sha256 = true
  target : ∀ path target, entry = .symlink path target →
    (contentSymlinkTarget path target).isSome = true

theorem validateEntry_obj {fields : JsonObject} (hps : ps ≠ []) (hord : ∀ part ∈ ps, Ordinary part)
    (hsafe : unsafePath (ofParts ps) = false) (hvisible : ofParts ps ∉ excludedPaths)
    (hnew : ofParts ps ∉ normalized.map Entry.path)
    (hget : fields.get "path" = .str (String.ofList (ofParts ps))) :
    validateEntry normalized (.obj fields) =
      (validateKind (ofParts ps) fields).map fun entry => normalized ++ [entry] := by
  have hnormal := normpath_ofParts hps hord
  unfold unsafePath at hsafe
  rw [decide_eq_false_iff_not] at hsafe
  unfold validateEntry
  dsimp only
  rw [hget]
  simp only [String.toList_ofList]
  rw [if_neg (not_or.mpr ⟨ofParts_ne_nil hps hord, fun hother => hother hnormal.symm⟩),
    if_neg (by tauto), if_neg hnew]

theorem validateEntry_eq (h : entry.Valid) (hnew : entry.path ∉ normalized.map Entry.path) :
    validateEntry normalized entry.toJson = some (normalized ++ [entry]) := by
  obtain ⟨ps, hps, hord, hpath⟩ := h.path
  have hsafe := h.safe
  have hvisible := h.visible
  rw [hpath] at hsafe hvisible hnew
  cases entry with
  | file path digest size =>
    have hdigest := h.digest path digest size rfl
    obtain rfl : path = ofParts ps := hpath
    unfold Entry.toJson
    rw [validateEntry_obj hps hord hsafe hvisible hnew rfl]
    simp [validateKind, JsonObject.get, JsonObject.has, hasKeys, lookup_cons, hdigest]
  | symlink path target =>
    have htarget := h.target path target rfl
    obtain ⟨resolved, hresolved⟩ := isSome_iff_exists.mp htarget
    obtain rfl : path = ofParts ps := hpath
    unfold Entry.toJson
    rw [validateEntry_obj hps hord hsafe hvisible hnew rfl]
    simp [validateKind, JsonObject.get, JsonObject.has, hasKeys, lookup_cons, hresolved]

theorem foldlM_validateEntry (hvalid : ∀ entry ∈ entries, entry.Valid)
    (hnodup : ((normalized ++ entries).map Entry.path).Nodup) :
    (entries.map Entry.toJson).foldlM validateEntry normalized = some (normalized ++ entries) := by
  induction entries generalizing normalized with
  | nil => simp
  | cons entry rest ih =>
    have hnew : entry.path ∉ normalized.map Entry.path := by
      rw [map_append, nodup_append] at hnodup
      intro hmem
      exact hnodup.2.2 _ hmem _ mem_cons_self rfl
    have happend : normalized ++ entry :: rest = (normalized ++ [entry]) ++ rest := by simp
    rw [map_cons, List.foldlM_cons, validateEntry_eq (hvalid entry mem_cons_self) hnew]
    rw [happend] at hnodup ⊢
    exact ih (fun other hother => hvalid other (mem_cons_of_mem _ hother)) hnodup

theorem sortEntries_idem (entries : List Entry) :
    sortEntries (sortEntries entries) = sortEntries entries := by
  have : Std.Total fun a b : Entry => ¬ b.path < a.path :=
    ⟨fun a b => (le_total a.path b.path).imp not_lt_of_ge not_lt_of_ge⟩
  have : IsTrans Entry fun a b => ¬ b.path < a.path :=
    ⟨fun a b c hab hbc => not_lt.mpr (le_trans (not_lt.mp hab) (not_lt.mp hbc))⟩
  exact (pairwise_insertionSort _ entries).insertionSort_eq

/-- **Entries**: what a walk accepts is valid. -/
theorem valid_of_conclude (h : Distinct items)
    (hvisible : ∀ item ∈ items, item.path ∉ excludedPaths)
    (hconclude : conclude sha256 items = some entries) : ∀ entry ∈ entries, entry.Valid := by
  unfold conclude at hconclude
  rw [ite_none_right_eq_some] at hconclude
  obtain ⟨⟨hsafe, hlinks⟩, hsort⟩ := hconclude
  intro entry hentry
  rw [← some.inj hsort] at hentry
  obtain ⟨item, hitem, hentry⟩ :=
    mem_filterMap.mp ((mem_insertionSort _).mp hentry)
  obtain ⟨hne, hord⟩ := h.ordinary item hitem
  have hpath : entry.path = item.path := entry_key sha256 item entry hentry
  have hitemSafe : unsafePath item.path = false := by
    simpa [Item.safe] using List.all_eq_true.mp hsafe item hitem
  refine ⟨⟨item.parts, hne, hord, hpath⟩, hpath ▸ hitemSafe, hpath ▸ hvisible item hitem, ?_, ?_⟩
  · rintro path digest size rfl
    unfold Item.entry? at hentry
    split at hentry
    · cases some.inj hentry
      exact isSha256_hex _
    · cases hentry
    · cases hentry
  · rintro path target rfl
    unfold Item.entry? at hentry
    split at hentry
    · cases hentry
    · next other hkind =>
      cases some.inj hentry
      -- the walk has read the target before it accepted the list
      unfold validateSymlinks at hlinks
      dsimp only at hlinks
      rw [symlinkTargets_entries, List.all_eq_true] at hlinks
      have hread := hlinks _ (mem_rawLinks.mpr ⟨item, hitem, rfl, hkind⟩)
      obtain ⟨resolved, hresolved⟩ := isSome_iff_exists.mp hread
      obtain ⟨relative, hrelative, -⟩ := bind_eq_some_iff.mp hresolved
      exact contentSymlinkTarget_isSome (head_ofParts_ne hne hord) hrelative
    · cases hentry

theorem validate_conclude (h : Distinct items)
    (hvisible : ∀ item ∈ items, item.path ∉ excludedPaths)
    (hconclude : conclude sha256 items = some entries) (hne : entries ≠ []) :
    validateContentInventory (.arr (entries.map Entry.toJson)) =
      some (entries.map Entry.toJson) := by
  have hvalid := valid_of_conclude h hvisible hconclude
  unfold conclude at hconclude
  rw [ite_none_right_eq_some] at hconclude
  have hsort := some.inj hconclude.2
  have hnodup : (entries.map Entry.path).Nodup := by
    have hperm : (sortEntries (items.filterMap (Item.entry? sha256))).Perm
        (items.filterMap (Item.entry? sha256)) := perm_insertionSort _ _
    rw [← hsort, (hperm.map Entry.path).nodup_iff]
    exact h.nodup.sublist (keys_sublist (entry_key sha256) items)
  have hfold : (entries.map Entry.toJson).foldlM validateEntry [] = some ([] ++ entries) :=
    foldlM_validateEntry hvalid hnodup
  unfold validateContentInventory
  dsimp only
  rw [if_neg (by simpa using hne), hfold, nil_append, map_some, ← hsort, sortEntries_idem]

/-! ### The Result -/

/-- The walkers list a Kit and an archive of it alike, and the manifest keeps what they list. -/
structure Agree (sha256 : List UInt8 → Digest) (root : Name) (kit : Listing)
    (archive : List Member) : Prop where
  release : archiveInventory sha256 archive root.text = directoryInventory sha256 kit
  probe : contentInventoryFromArchive sha256 archive root.text = directoryInventory sha256 kit
  manifest : ∀ entries, directoryInventory sha256 kit = some entries → entries ≠ [] →
    validateContentInventory (.arr (entries.map Entry.toJson)) = some (entries.map Entry.toJson)

theorem distinct_of_perm {kit : Listing} {order : List Item} (hsorted : kit.Sorted)
    (hperm : order.Perm (kit.items [])) : Distinct order where
  ordinary item hitem := ordinary_items (by simp) (hperm.mem_iff.mp hitem)
  nodup := by
    rw [(hperm.map Item.path).nodup_iff]
    have hparts := nodup_parts [] hsorted
    have hmap : (kit.items []).map Item.path = ((kit.items []).map Item.parts).map ofParts := by
      rw [List.map_map]
      rfl
    rw [hmap]
    refine hparts.map_on ?_
    intro a ha b hb hab
    obtain ⟨item, hitem, rfl⟩ := List.mem_map.mp ha
    obtain ⟨other, hother, rfl⟩ := List.mem_map.mp hb
    obtain ⟨hne, hord⟩ := ordinary_items (by simp) hitem
    obtain ⟨hne', hord'⟩ := ordinary_items (by simp) hother
    exact path_inj hne hord hne' hord' hab

theorem Distinct.visible (h : Distinct items) : Distinct (visible items) where
  ordinary item hitem := h.ordinary item (mem_filter.mp hitem).1
  nodup := h.nodup.sublist ((filter_sublist).map _)

theorem not_excluded_of_visible {item : Item} (h : item ∈ visible items) :
    item.path ∉ excludedPaths := by simpa using (mem_filter.mp h).2

/-- **Agreement**: off the rules that differ, the three walkers accept the same Kits with the same
    entries, and the manifest keeps them. -/
theorem kit_walkers_agree (sha256 : List UInt8 → Digest) (root : Name) (kit : Listing)
    (archive : List Member) (hsorted : kit.Sorted) (hlists : Lists root kit archive)
    (hoff : OffDifferences root kit) : Agree sha256 root kit archive := by
  obtain ⟨order, hperm, harchive⟩ := hlists
  have hdistinct := distinct_of_perm hsorted hperm
  have hitems := distinct_of_perm hsorted (List.Perm.refl (kit.items []))
  have hvisible : (visible order).Perm (visible (kit.items [])) := hperm.filter _
  have hdirectory := directoryInventory_eq sha256 kit
  have hrelease := archiveInventory_eq sha256 hdistinct harchive
  have hprobe := contentInventoryFromArchive_eq sha256 hdistinct harchive
  rcases hoff with ⟨item, hitem, hrefused⟩ | ⟨hoff, hempty⟩
  · have hshown := (conclude_refused sha256 hitem hrefused).1
    have horder := conclude_refused sha256
      (hvisible.mem_iff.mpr (mem_visible_of_shown hitem)) hrefused
    refine ⟨?_, ?_, fun entries hentries _ => ?_⟩
    · rw [hrelease, hdirectory, hshown, horder.1]
    · rw [hprobe, hdirectory, hshown, horder.2]
    · rw [hdirectory, hshown] at hentries
      cases hentries
  · rw [shown_eq_visible kit hempty (by simp)] at hdirectory
    have horder := conclude_perm sha256 hvisible hdistinct.visible.nodup
    have hoffOrder : OffRoot root (visible order) :=
      fun item hitem => hoff item (hvisible.mem_iff.mp hitem)
    refine ⟨?_, ?_, fun entries hentries hne => ?_⟩
    · rw [hrelease, hdirectory, horder]
    · rw [hprobe, hdirectory, ← horder,
        conclude_eq sha256 hdistinct.visible hoffOrder fun item hitem =>
          not_excluded_of_visible hitem]
    · rw [hdirectory] at hentries
      exact validate_conclude hitems.visible (fun item hitem => not_excluded_of_visible hitem)
        hentries hne

def emptyDigest : Digest where
  bytes := [0xe3, 0xb0, 0xc4, 0x42, 0x98, 0xfc, 0x1c, 0x14, 0x9a, 0xfb, 0xf4, 0xc8, 0x99, 0x6f, 0xb9,
    0x24, 0x27, 0xae, 0x41, 0xe4, 0x64, 0x9b, 0x93, 0x4c, 0xa4, 0x95, 0x99, 0x1b, 0x78, 0x52, 0xb8,
    0x55]
  length_eq := rfl

def kitName : Name := ⟨"kit".toList, by decide⟩

/-- A directory `lib` with an empty file `a`, and a link to `target` beside it. -/
def linked (lib : Name) (target : Text) : Listing :=
  .directory lib (.file ⟨"a".toList, by decide⟩ [] .done)
    (.symlink ⟨"link".toList, by decide⟩ target .done)

def linkedArchive (lib : Name) (target : Text) : List Member :=
  [⟨kitName.text, .directory⟩, ⟨"kit/link".toList, .symlink target⟩,
    ⟨kitName.text ++ '/' :: lib.text, .directory⟩,
    ⟨kitName.text ++ '/' :: (lib.text ++ "/a".toList), .file []⟩]

/-- The link comes first in the archive, and last in the directory. -/
def linkedOrder (lib : Name) (target : Text) : List Item :=
  [⟨["link".toList], .symlink target⟩] ++
    [⟨[lib.text], .directory⟩, ⟨[lib.text, "a".toList], .file []⟩]

theorem linkedOrder_perm (lib : Name) (target : Text) :
    (linkedOrder lib target).Perm ((linked lib target).items []) := perm_append_comm

/-- A link to a file below `lib` is listed alike. -/
theorem lib_link_agrees :
    Agree (fun _ => emptyDigest) kitName (linked ⟨"lib".toList, by decide⟩ "lib/a".toList)
      (linkedArchive ⟨"lib".toList, by decide⟩ "lib/a".toList) := by
  apply kit_walkers_agree
  · unfold linked Listing.Sorted
    simp only [Listing.names, Listing.Sorted]
    decide
  · exact ⟨_, linkedOrder_perm _ _, by decide⟩
  · refine .inr ⟨fun item hitem target hkind _ => ?_, ?_⟩
    · rcases mem_cons.mp (mem_filter.mp hitem).1 with rfl | hitem
      · cases hkind
      rcases mem_cons.mp hitem with rfl | hitem
      · cases hkind
      rw [mem_singleton.mp hitem] at hkind
      cases hkind
      decide
    · unfold ExcludedEmpty
      decide

/-- **Root name**: a link to `kit/a` is a file below `kit` for the release, and one at the root for
    the probe of a Kit whose root has this name. -/
theorem root_name_link_refused :
    ∃ archive, Lists kitName (linked kitName "kit/a".toList) archive ∧
      (linked kitName "kit/a".toList).Sorted ∧
      ¬ Agree (fun _ => emptyDigest) kitName (linked kitName "kit/a".toList) archive := by
  refine ⟨linkedArchive kitName "kit/a".toList, ⟨_, linkedOrder_perm _ _, by decide⟩, ?_, ?_⟩
  · unfold linked Listing.Sorted
    simp only [Listing.names, Listing.Sorted]
    decide
  · intro hagree
    have hprobe := congrArg Option.isSome hagree.probe
    revert hprobe
    decide +kernel

end Codify.Kit

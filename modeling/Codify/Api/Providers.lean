import Codify.Framework.Runs
import Codify.Api.TaskActions

/-! # The Default Provider

    `create_provider`, `update_provider`, `delete_provider` and
    `set_default_provider` (app/api/providers.py) keep one enabled default
    provider. Each reads its rows, decides, and writes at its commit the columns
    that it changed; no lock is taken and no constraint covers `is_default`.

    The module runs any number of these requests statement by statement.
    `Timely` says when a commit still fits the rows that it meets.
-/

namespace Codify.Api.Providers

open Codify Codify.Framework Codify.Api List Option

/-! ### Rows and Requests -/

/-- The columns of `ai_providers` that the requests decide on. -/
structure Provider where
  id : Nat
  name : String
  isDefault : Bool
  isDisabled : Bool
  deriving DecidableEq, Repr

variable (id : Nat) (loaded : Provider) (rows : List Provider)

abbrev providerRow? : Option Provider := Table.row? Provider.id id rows

structure CreateProviderRequest where
  name : String
  isDisabled : Bool := false
  deriving DecidableEq, Repr

structure UpdateProviderRequest where
  name : Option String := none
  isDisabled : Option Bool := none
  deriving DecidableEq, Repr

/-- A request between two of its statements, with the rows as it loaded them. -/
inductive Session where
  /-- `create_provider`: the name was free. -/
  | creating (request : CreateProviderRequest)
  /-- The providers were counted. -/
  | counted (request : CreateProviderRequest) (isFirst : Bool)
  /-- The row is inserted and has its id. -/
  | created (request : CreateProviderRequest) (isFirst : Bool) (id : Nat)
  /-- `update_provider` before and after its checks. -/
  | updating (loaded : Provider) (request : UpdateProviderRequest)
  | updated (loaded : Provider) (request : UpdateProviderRequest)
  /-- `delete_provider`: the row is loaded, others remain, no Task is active. -/
  | deleting (loaded : Provider)
  | spare (loaded : Provider)
  | unused (loaded : Provider)
  /-- The provider to promote is chosen. -/
  | deleted (loaded : Provider) (newDefault : Option Provider)
  /-- `set_default_provider` before and after it selected the defaults. -/
  | promoting (loaded : Provider)
  | promoted (loaded : Provider) (defaults : List Provider)
  deriving DecidableEq, Repr

/-- The table, its sequence, and the requests under way. -/
structure State where
  providers : List Provider := []
  sequence : Nat := 0
  sessions : Nat → Option Session := fun _ => none

/-- One statement, or the commit, of one request; sessions are numbered. -/
inductive Label where
  | openCreate (k : Nat) (request : CreateProviderRequest)
  | countProviders (k : Nat)
  | flush (k : Nat)
  | openUpdate (k id : Nat) (request : UpdateProviderRequest)
  | checkUpdate (k : Nat)
  | openDelete (k id : Nat)
  | countRemaining (k : Nat)
  /-- The count of the active Tasks is answered by another table. -/
  | countActive (k activeCount : Nat)
  | selectNewDefault (k : Nat)
  | openSetDefault (k id : Nat)
  | selectDefaults (k : Nat)
  | commit (k : Nat)
  /-- The request fails, and its transaction is rolled back. -/
  | abort (k : Nat)
  deriving DecidableEq, Repr

/-! ### Checks -/

/-- `db.get`, or the answer 404. -/
def loadProvider : Except HttpError Provider :=
  match providerRow? id rows with
  | some provider => .ok provider
  | none => .error ⟨404, "Provider not found"⟩

def checkName (name : String) (rows : List Provider) : Except HttpError Unit :=
  if rows.any (·.name = name) then
    .error ⟨409, "Provider with name '" ++ name ++ "' already exists"⟩
  else .ok ()

/-- Whether a new provider is the first one. -/
def checkFirst (request : CreateProviderRequest) (rows : List Provider) :
    Except HttpError Bool :=
  if rows.isEmpty && request.isDisabled then
    .error ⟨409, "Default provider cannot be disabled"⟩
  else .ok rows.isEmpty

/-- The checks of an update: the name if it changes, and then the default. -/
def checkUpdate (request : UpdateProviderRequest) (rows : List Provider) : Except HttpError Unit := do
  match request.name with
  | some name => if name ≠ loaded.name then checkName name rows
  | none => pure ()
  if request.isDisabled = some true ∧ loaded.isDefault then
    throw ⟨409, "Default provider cannot be disabled"⟩

def checkRemaining : Except HttpError Unit :=
  if rows.length ≤ 1 then
    .error ⟨409, "Cannot delete the only provider — at least one must exist"⟩
  else .ok ()

def checkActive (activeCount : Nat) : Except HttpError Unit :=
  if 0 < activeCount then
    .error ⟨409, "Cannot delete provider — " ++ toString activeCount ++
      " active task(s) reference it"⟩
  else .ok ()

/-- The enabled provider of the lowest id that takes over from a default. -/
def newDefault : Except HttpError (Option Provider) :=
  if loaded.isDefault then
    match (rows.filter fun r => r.id ≠ loaded.id ∧ r.isDisabled = false).argmin Provider.id with
    | some provider => .ok (some provider)
    | none => .error ⟨409, "Cannot delete default provider — no enabled provider remains"⟩
  else .ok none

def checkEnabled : Except HttpError Unit :=
  if loaded.isDisabled then .error ⟨409, "Disabled provider cannot be set as default"⟩ else .ok ()

/-! ### Commits -/

/-- The row of `create_provider`. -/
def newProvider (request : CreateProviderRequest) (isFirst : Bool) (id : Nat) : Provider :=
  { id, name := request.name, isDefault := isFirst, isDisabled := request.isDisabled }

/-- The columns that `update_provider` has changed. -/
def updateRow (request : UpdateProviderRequest) (row : Provider) : Provider :=
  { row with
    name := flushColumn loaded.name (request.name.getD loaded.name) row.name
    isDisabled :=
      flushColumn loaded.isDisabled (request.isDisabled.getD loaded.isDisabled) row.isDisabled }

/-- The flag `is_default` of one row. -/
def setDefault : List Provider := Table.update Provider.id id ({ · with isDefault := true }) rows

/-- The provider that a deletion promotes, unless it was the default when it was chosen. -/
def promotedId (newDefault : Option Provider) : Option Nat :=
  (newDefault.filter fun p => p.isDefault = false).map Provider.id

/-- The defaults that `set_default_provider` clears. -/
def clearedIds (defaults : List Provider) : List Nat :=
  (defaults.map Provider.id).filter (· ≠ loaded.id)

/-- The rows after a commit. It fails on the key, on the name, or when a row that it updates is
    gone; a row that it deletes may be gone. -/
def commitRows : Session → Option (List Provider)
  | .created request isFirst id =>
    if rows.any fun r => r.id = id ∨ r.name = request.name then none
    else some (rows ++ [newProvider request isFirst id])
  | .updated loaded request =>
    let rows' := Table.update Provider.id loaded.id (updateRow loaded request) rows
    if (providerRow? loaded.id rows).isSome ∧ (rows'.map Provider.name).Nodup then some rows'
    else none
  | .deleted loaded newDefault =>
    let rest := rows.filter (·.id ≠ loaded.id)
    match promotedId newDefault with
    | none => some rest
    | some id => if (providerRow? id rows).isSome then some (setDefault id rest) else none
  | .promoted loaded defaults =>
    let cleared := clearedIds loaded defaults
    if ∀ id ∈ loaded.id :: cleared, (providerRow? id rows).isSome then
      some (setDefault loaded.id (rows.map fun r =>
        if r.id ∈ cleared then { r with isDefault := false } else r))
    else none
  | _ => none

/-! ### The System -/

namespace State

variable (s : State)

def setSession (k : Nat) (session : Session) : State :=
  { s with sessions := fun j => if j = k then some session else s.sessions j }

/-- The request is answered, and its transaction is over. -/
def close (k : Nat) : State :=
  { s with sessions := fun j => if j = k then none else s.sessions j }

/-- A check passes, or answers the request. -/
def check (k : Nat) (result : Except HttpError Session) : State :=
  match result with
  | .ok session => s.setSession k session
  | .error _ => s.close k

def start (k : Nat) (result : Except HttpError Session) : Option State :=
  if (s.sessions k).isSome then none else some (s.check k result)

/-- A commit, or its failure at a constraint or a row that is gone; a provider that was the
    default already is answered without one. -/
def commit (k : Nat) : Option State :=
  match s.sessions k with
  | some (.promoting loaded) => if loaded.isDefault then some (s.close k) else none
  | some session =>
    match session with
    | .created .. | .updated .. | .deleted .. | .promoted .. =>
      some { s.close k with providers := (commitRows s.providers session).getD s.providers }
    | _ => none
  | none => none

end State

def step (s : State) : Label → Option State
  | .openCreate k request => s.start k ((checkName request.name s.providers).map fun _ =>
      .creating request)
  | .countProviders k =>
    match s.sessions k with
    | some (.creating request) =>
      some (s.check k ((checkFirst request s.providers).map (.counted request)))
    | _ => none
  | .flush k =>
    match s.sessions k with
    | some (.counted request isFirst) =>
      some { s.setSession k (.created request isFirst (s.sequence + 1)) with
        sequence := s.sequence + 1 }
    | _ => none
  | .openUpdate k id request =>
    s.start k ((loadProvider id s.providers).map (.updating · request))
  | .checkUpdate k =>
    match s.sessions k with
    | some (.updating loaded request) =>
      some (s.check k ((checkUpdate loaded request s.providers).map fun _ =>
        .updated loaded request))
    | _ => none
  | .openDelete k id => s.start k ((loadProvider id s.providers).map .deleting)
  | .countRemaining k =>
    match s.sessions k with
    | some (.deleting loaded) =>
      some (s.check k ((checkRemaining s.providers).map fun _ => .spare loaded))
    | _ => none
  | .countActive k activeCount =>
    match s.sessions k with
    | some (.spare loaded) =>
      some (s.check k ((checkActive activeCount).map fun _ => .unused loaded))
    | _ => none
  | .selectNewDefault k =>
    match s.sessions k with
    | some (.unused loaded) =>
      some (s.check k ((newDefault loaded s.providers).map (.deleted loaded)))
    | _ => none
  | .openSetDefault k id =>
    s.start k (do
      let loaded ← loadProvider id s.providers
      checkEnabled loaded
      return .promoting loaded)
  | .selectDefaults k =>
    match s.sessions k with
    | some (.promoting loaded) =>
      if loaded.isDefault then none
      else some (s.setSession k (.promoted loaded (s.providers.filter (·.isDefault))))
    | _ => none
  | .commit k => s.commit k
  | .abort k => if (s.sessions k).isSome then some (s.close k) else none

def requests : System State Label where
  init := fun s => s = {}
  next := step

/-! ### One Default -/

/-- If there is a provider, one is the default, and it is enabled. -/
def OneDefault : Prop := rows ≠ [] → ∃ r, rows.filter (·.isDefault) = [r] ∧ r.isDisabled = false

/-- What was read for a commit still fits the rows that it meets. -/
def Fits : Session → Prop
  | .created _ isFirst _ => isFirst = rows.isEmpty
  | .updated loaded request => ∀ r ∈ rows, r.id = loaded.id → r.isDefault = true →
      ¬ (request.isDisabled = some true ∧ loaded.isDisabled = false)
  | .deleted loaded newDefault =>
    match promotedId newDefault with
    | none => (∀ r ∈ rows, r.id = loaded.id → r.isDefault = false) ∨ ∀ r ∈ rows, r.id = loaded.id
    | some id => ∀ r ∈ rows, (r.isDefault = true → r.id = loaded.id ∨ r.id = id) ∧
        (r.id = id → r.isDisabled = false)
  | .promoted loaded defaults => ∀ r ∈ rows,
      (r.isDefault = true → r.id = loaded.id ∨ r.id ∈ clearedIds loaded defaults) ∧
        (r.id = loaded.id → r.isDisabled = false)
  | _ => True

/-- A commit that takes effect fits the rows that it meets. -/
def Timely (s : State) : Label → Prop
  | .commit k => ∀ session ∈ s.sessions k,
      (commitRows s.providers session).isSome → Fits s.providers session
  | _ => True

variable {rows rows' : List Provider} {s s' : State} {l : Label}

theorem oneDefault_iff (hunique : Table.KeyUnique Provider.id rows) :
    OneDefault rows ↔ (rows ≠ [] → ∃ r ∈ rows, r.isDefault = true ∧ r.isDisabled = false ∧
      ∀ r' ∈ rows, r'.isDefault = true → r'.id = r.id) := by
  refine imp_congr_right fun _ => ⟨?_, ?_⟩
  · rintro ⟨r, hfilter, henabled⟩
    have hr : r ∈ rows.filter (·.isDefault) := by simp [hfilter]
    refine ⟨r, mem_of_mem_filter hr, (mem_filter.mp hr).2, henabled, ?_⟩
    intro r' hr' hdefault
    have hmem : r' ∈ rows.filter (·.isDefault) := mem_filter.mpr ⟨hr', hdefault⟩
    rw [hfilter, mem_singleton] at hmem
    rw [hmem]
  · rintro ⟨r, hr, hdefault, henabled, hsame⟩
    refine ⟨r, ?_, henabled⟩
    have hall : ∀ r' ∈ rows.filter (·.isDefault), r' = r := by
      intro r' hr'
      obtain ⟨hmem, hdefault'⟩ := mem_filter.mp hr'
      exact hunique.eq_of_key_eq hmem hr (hsame r' hmem hdefault')
    have hnodup : (rows.filter (·.isDefault)).Nodup :=
      (List.Nodup.of_map _ hunique).filter _
    have hrepl := eq_replicate_of_mem hall
    rw [hrepl, nodup_replicate] at hnodup
    have hpos : 0 < (rows.filter (·.isDefault)).length :=
      length_pos_of_mem (mem_filter.mpr ⟨hr, hdefault⟩)
    have hone : (rows.filter (·.isDefault)).length = 1 := by omega
    rw [hrepl, hone]
    rfl

/-- What the checks of a request establish. -/
def Session.Sound : Session → Prop
  | .counted request isFirst => isFirst = true → request.isDisabled = false
  | .created request isFirst _ => isFirst = true → request.isDisabled = false
  | .deleted loaded newDefault => ∀ id ∈ promotedId newDefault, id ≠ loaded.id
  | _ => True

/-! ### One Commit -/

theorem keyUnique_setDefault (id : Nat) (h : Table.KeyUnique Provider.id rows) :
    Table.KeyUnique Provider.id (setDefault id rows) := by
  refine h.map fun r => ?_
  split <;> rfl

variable {id k : Nat} {r loaded : Provider} {session : Session} {result : Except HttpError Session}

theorem mem_setDefault : r ∈ setDefault id rows ↔
    ∃ r₀ ∈ rows, (if r₀.id = id then { r₀ with isDefault := true } else r₀) = r :=
  List.mem_map

theorem keyUnique_commitRows (hunique : Table.KeyUnique Provider.id rows)
    (h : commitRows rows session = some rows') : Table.KeyUnique Provider.id rows' := by
  cases session with
  | created request isFirst id =>
    simp only [commitRows] at h
    split at h
    · cases h
    next hnew =>
    cases h
    refine hunique.append fun r hr hid => hnew ?_
    exact List.any_eq_true.mpr ⟨r, hr, by simpa [newProvider] using Or.inl hid⟩
  | updated loaded request =>
    simp only [commitRows] at h
    split at h
    · cases h
      refine hunique.map fun r => ?_
      split <;> rfl
    · cases h
  | deleted loaded newDefault =>
    simp only [commitRows] at h
    split at h
    · cases h
      exact hunique.filter _
    · split at h
      · cases h
        exact keyUnique_setDefault _ (hunique.filter _)
      · cases h
  | promoted loaded defaults =>
    simp only [commitRows] at h
    split at h
    · cases h
      refine keyUnique_setDefault _ (hunique.map fun r => ?_)
      split <;> rfl
    · cases h
  | _ => cases h

/-- After a creation there is one default exactly when `isFirst` was right. -/
theorem oneDefault_created {request : CreateProviderRequest} {isFirst : Bool}
    (hunique : Table.KeyUnique Provider.id rows) (hgood : OneDefault rows)
    (hsound : isFirst = true → request.isDisabled = false)
    (h : commitRows rows (.created request isFirst id) = some rows') :
    OneDefault rows' ↔ isFirst = rows.isEmpty := by
  have hunique' := keyUnique_commitRows hunique h
  simp only [commitRows] at h
  split at h
  · cases h
  next hnew =>
  cases h
  rw [oneDefault_iff hunique']
  rw [oneDefault_iff hunique] at hgood
  have hmem : newProvider request isFirst id ∈ rows ++ [newProvider request isFirst id] := by simp
  by_cases hempty : rows = []
  · subst hempty
    constructor
    · intro hone
      obtain ⟨r, hr, hdefault, -, -⟩ := hone (ne_nil_of_mem hmem)
      obtain rfl : r = newProvider request isFirst id := by simpa using hr
      exact hdefault
    · rintro rfl -
      exact ⟨_, hmem, rfl, hsound rfl, fun r hr _ => by rw [mem_singleton.mp hr]⟩
  · obtain ⟨d, hd, hdefault, henabled, hsame⟩ := hgood hempty
    have hfalse : rows.isEmpty = false := by simpa using hempty
    rw [hfalse]
    constructor
    · intro hone
      obtain ⟨r, -, -, -, hall⟩ := hone (ne_nil_of_mem hmem)
      by_contra hfirst
      -- the new row and the old default would both be it
      have hnewDefault : isFirst = true := by simpa using hfirst
      have hid := (hall d (mem_append_left _ hd) hdefault).trans (hall _ hmem hnewDefault).symm
      exact hnew (List.any_eq_true.mpr ⟨d, hd, by simpa [newProvider] using Or.inl hid⟩)
    · rintro rfl -
      refine ⟨d, mem_append_left _ hd, hdefault, henabled, ?_⟩
      intro r hr hrdefault
      rcases mem_append.mp hr with hr | hr
      · exact hsame r hr hrdefault
      · rw [mem_singleton.mp hr] at hrdefault
        cases hrdefault

/-- After an update there is one default exactly when `Fits` holds. -/
theorem oneDefault_updated {request : UpdateProviderRequest}
    (hunique : Table.KeyUnique Provider.id rows) (hgood : OneDefault rows)
    (h : commitRows rows (.updated loaded request) = some rows') :
    OneDefault rows' ↔ Fits rows (.updated loaded request) := by
  have hunique' := keyUnique_commitRows hunique h
  simp only [commitRows] at h
  split at h
  swap
  · cases h
  next hpresent =>
  cases h
  obtain ⟨row, hrow⟩ := isSome_iff_exists.mp hpresent.1
  have hne : rows ≠ [] := ne_nil_of_mem (Table.mem_of_row? hrow).1
  rw [oneDefault_iff hunique']
  rw [oneDefault_iff hunique] at hgood
  obtain ⟨d, hd, hdefault, henabled, hsame⟩ := hgood hne
  -- the row of the default after the update
  let f : Provider → Provider := fun r => if r.id = loaded.id then updateRow loaded request r else r
  have hf : ∀ r, (f r).id = r.id ∧ (f r).isDefault = r.isDefault := by
    intro r
    simp only [f]
    split
    · exact ⟨rfl, rfl⟩
    · exact ⟨rfl, rfl⟩
  have hmem : f d ∈ Table.update Provider.id loaded.id (updateRow loaded request) rows :=
    List.mem_map_of_mem hd
  have hdisabled : (f d).isDisabled = true ↔
      d.id = loaded.id ∧ request.isDisabled = some true ∧ loaded.isDisabled = false := by
    simp only [f]
    split
    · next hid =>
      simp only [updateRow, flushColumn, henabled, hid]
      cases request.isDisabled with
      | none => simp
      | some b => cases b <;> cases loaded.isDisabled <;> simp
    · next hid => simp [hid, henabled]
  constructor
  · intro hone r hr hid hrdefault hbad
    have hrd : r.id = d.id := hsame r hr hrdefault
    obtain ⟨r', hr', hdefault', henabled', hall⟩ := hone (ne_nil_of_mem hmem)
    have hid' := hall _ hmem ((hf d).2.trans hdefault)
    have hsameRow : f d = r' := hunique'.eq_of_key_eq hmem hr' hid'
    have htrue := hdisabled.mpr ⟨hrd.symm.trans hid, hbad⟩
    rw [hsameRow, henabled'] at htrue
    cases htrue
  · intro hfits _
    refine ⟨f d, hmem, (hf d).2.trans hdefault, ?_, ?_⟩
    · rw [← Bool.not_eq_true]
      intro htrue
      obtain ⟨hid, hbad⟩ := hdisabled.mp htrue
      exact hfits d hd hid hdefault hbad
    · intro r' hr' hdefault'
      obtain ⟨r, hr, rfl⟩ := List.mem_map.mp hr'
      rw [(hf d).1]
      exact (hf r).1.trans (hsame r hr ((hf r).2.symm.trans hdefault'))

theorem setDefault_id_of_mem (hr : r ∈ setDefault id rows) :
    ∃ r₀ ∈ rows, r.id = r₀.id ∧ r.isDisabled = r₀.isDisabled ∧
      (r.isDefault = true ↔ r₀.isDefault = true ∨ r₀.id = id) := by
  obtain ⟨r₀, hr₀, rfl⟩ := mem_setDefault.mp hr
  refine ⟨r₀, hr₀, ?_⟩
  split
  · next hid => simp [hid]
  · next hid => simp [hid]

theorem exists_mem_setDefault (id : Nat) {r₀ : Provider} (hr₀ : r₀ ∈ rows) :
    ∃ r ∈ setDefault id rows, r.id = r₀.id ∧ r.isDisabled = r₀.isDisabled ∧
      (r.isDefault = true ↔ r₀.isDefault = true ∨ r₀.id = id) := by
  refine ⟨_, mem_setDefault.mpr ⟨r₀, hr₀, rfl⟩, ?_⟩
  split
  · next hid => simp [hid]
  · next hid => simp [hid]

/-- After a provider is made the default, it alone is the default exactly when it is enabled and
    no other row was one. -/
theorem oneDefault_setDefault {row : Provider}
    (hunique : Table.KeyUnique Provider.id rows) (hrow : row ∈ rows) (hid : row.id = id) :
    OneDefault (setDefault id rows) ↔ row.isDisabled = false ∧
      ∀ r ∈ rows, r.isDefault = true → r.id = id := by
  rw [oneDefault_iff (keyUnique_setDefault id hunique)]
  obtain ⟨row', hrow', hid', hdisabled', hdefault'⟩ := exists_mem_setDefault id hrow
  constructor
  · intro hone
    obtain ⟨r, hr, -, henabled, hall⟩ := hone (ne_nil_of_mem hrow')
    have hrid : row'.id = r.id := hall _ hrow' (hdefault'.mpr (.inr hid))
    have hsame : row' = r := (keyUnique_setDefault id hunique).eq_of_key_eq hrow' hr hrid
    refine ⟨by rw [← hdisabled', hsame, henabled], ?_⟩
    intro r₀ hr₀ hr₀default
    obtain ⟨r₁, hr₁, hid₁, -, hdefault₁⟩ := exists_mem_setDefault id hr₀
    have hrid₁ := hall _ hr₁ (hdefault₁.mpr (.inl hr₀default))
    rw [← hid₁, hrid₁, ← hrid, hid', hid]
  · rintro ⟨henabled, hothers⟩ -
    refine ⟨row', hrow', hdefault'.mpr (.inr hid), hdisabled'.trans henabled, ?_⟩
    intro r hr hrdefault
    obtain ⟨r₀, hr₀, hid₀, -, hdefault₀⟩ := setDefault_id_of_mem hr
    rw [hid₀, hid', hid]
    rcases hdefault₀.mp hrdefault with hold | hnew
    · exact hothers r₀ hr₀ hold
    · exact hnew

/-- After a deletion one default is left exactly when `Fits` holds. -/
theorem oneDefault_deleted {newDefault : Option Provider}
    (hunique : Table.KeyUnique Provider.id rows) (hgood : OneDefault rows)
    (hsound : ∀ id ∈ promotedId newDefault, id ≠ loaded.id)
    (h : commitRows rows (.deleted loaded newDefault) = some rows') :
    OneDefault rows' ↔ Fits rows (.deleted loaded newDefault) := by
  have hrest := hunique.filter fun r => decide (r.id ≠ loaded.id)
  have hmemRest : ∀ r, r ∈ rows.filter (·.id ≠ loaded.id) ↔ r ∈ rows ∧ r.id ≠ loaded.id := by
    simp
  rw [oneDefault_iff hunique] at hgood
  simp only [commitRows] at h
  simp only [Fits]
  split at h
  · next hnone =>
    cases h
    rw [oneDefault_iff hrest]
    constructor
    · intro hone
      by_cases hall : ∀ r ∈ rows, r.id = loaded.id
      · exact .inr hall
      left
      push Not at hall
      obtain ⟨other, hother, hne⟩ := hall
      have hmem := (hmemRest other).mpr ⟨hother, hne⟩
      obtain ⟨r, hr, hdefault, -, -⟩ := hone (ne_nil_of_mem hmem)
      obtain ⟨d, -, -, -, hsame⟩ := hgood (ne_nil_of_mem hother)
      intro r' hr' hid'
      -- were it the default, `r` would be it, which the deletion keeps
      by_contra hdefault'
      have hrd := hsame r ((hmemRest r).mp hr).1 hdefault
      have hrd' := hsame r' hr' (by simpa using hdefault')
      exact ((hmemRest r).mp hr).2 (hrd.trans (hrd'.symm.trans hid'))
    · intro hfits hne
      obtain ⟨other, hother⟩ := exists_mem_of_ne_nil _ hne
      obtain ⟨hmem, hotherId⟩ := (hmemRest other).mp hother
      obtain ⟨d, hd, hdefault, henabled, hsame⟩ := hgood (ne_nil_of_mem hmem)
      have hdid : d.id ≠ loaded.id := by
        intro hid
        rcases hfits with hfits | hall
        · rw [hfits d hd hid] at hdefault
          cases hdefault
        · exact hotherId (hall other hmem)
      exact ⟨d, (hmemRest d).mpr ⟨hd, hdid⟩, hdefault, henabled,
        fun r hr hrdefault => hsame r ((hmemRest r).mp hr).1 hrdefault⟩
  · next id hsome =>
    split at h
    swap
    · cases h
    next hpresent =>
    cases h
    obtain ⟨row, hrow⟩ := isSome_iff_exists.mp hpresent
    obtain ⟨hmem, hid⟩ := Table.mem_of_row? hrow
    -- the promoted row is not the one that goes
    have hne : id ≠ loaded.id := hsound id hsome
    rw [oneDefault_setDefault hrest ((hmemRest row).mpr ⟨hmem, hid.trans_ne hne⟩) hid]
    constructor
    · rintro ⟨henabled, hothers⟩ r hr
      refine ⟨fun hdefault => ?_, fun hrid => ?_⟩
      · by_cases hrid : r.id = loaded.id
        · exact .inl hrid
        · exact .inr (hothers r ((hmemRest r).mpr ⟨hr, hrid⟩) hdefault)
      · rw [hunique.eq_of_key_eq hr hmem (hrid.trans hid.symm), henabled]
    · intro hfits
      refine ⟨(hfits row hmem).2 hid, fun r hr hdefault => ?_⟩
      obtain ⟨hr, hrid⟩ := (hmemRest r).mp hr
      exact ((hfits r hr).1 hdefault).resolve_left hrid

/-- After a promotion there is one default exactly when `Fits` holds. -/
theorem oneDefault_promoted {defaults : List Provider}
    (hunique : Table.KeyUnique Provider.id rows)
    (h : commitRows rows (.promoted loaded defaults) = some rows') :
    OneDefault rows' ↔ Fits rows (.promoted loaded defaults) := by
  simp only [commitRows] at h
  simp only [Fits]
  generalize hcleared : clearedIds loaded defaults = cleared at h ⊢
  have hself : loaded.id ∉ cleared := by
    rw [← hcleared]
    simp [clearedIds]
  split at h
  swap
  · cases h
  next hpresent =>
  cases h
  obtain ⟨row, hrow⟩ := isSome_iff_exists.mp (hpresent _ mem_cons_self)
  obtain ⟨hmem, hid⟩ := Table.mem_of_row? hrow
  let f : Provider → Provider := fun r => if r.id ∈ cleared then { r with isDefault := false } else r
  have hf : ∀ r, (f r).id = r.id ∧ (f r).isDisabled = r.isDisabled ∧
      ((f r).isDefault = true ↔ r.isDefault = true ∧ r.id ∉ cleared) := by
    intro r
    simp only [f]
    split
    · next hin => simp [hin]
    · next hout => simp [hout]
  have hmap : Table.KeyUnique Provider.id (rows.map f) := hunique.map fun r => (hf r).1
  rw [oneDefault_setDefault hmap (List.mem_map_of_mem hmem) ((hf row).1.trans hid), (hf row).2.1]
  constructor
  · rintro ⟨henabled, hothers⟩ r hr
    refine ⟨fun hdefault => ?_, fun hrid => ?_⟩
    · by_cases hin : r.id ∈ cleared
      · exact .inr hin
      · left
        have hkept := hothers (f r) (List.mem_map_of_mem hr) ((hf r).2.2.mpr ⟨hdefault, hin⟩)
        exact (hf r).1.symm.trans hkept
    · rw [hunique.eq_of_key_eq hr hmem (hrid.trans hid.symm), henabled]
  · intro hfits
    refine ⟨(hfits row hmem).2 hid, fun r' hr' hdefault => ?_⟩
    obtain ⟨r, hr, rfl⟩ := List.mem_map.mp hr'
    obtain ⟨hold, hout⟩ := (hf r).2.2.mp hdefault
    exact (hf r).1.trans (((hfits r hr).1 hold).resolve_right hout)

/-- **Commit**: a commit on a good table keeps it good exactly when it fits. -/
theorem oneDefault_commitRows (hunique : Table.KeyUnique Provider.id rows)
    (hgood : OneDefault rows) (hsound : session.Sound)
    (h : commitRows rows session = some rows') : OneDefault rows' ↔ Fits rows session := by
  cases session with
  | created request isFirst id => exact oneDefault_created hunique hgood hsound h
  | updated loaded request => exact oneDefault_updated hunique hgood h
  | deleted loaded newDefault => exact oneDefault_deleted hunique hgood hsound h
  | promoted loaded defaults => exact oneDefault_promoted hunique h
  | _ => cases h

/-! ### Runs -/

/-- The ids are unique, and the requests under way have passed their checks. -/
structure Inv (s : State) : Prop where
  unique : Table.KeyUnique Provider.id s.providers
  sound : ∀ k session, s.sessions k = some session → session.Sound

theorem promotedId_ne {chosen : Option Provider}
    (h : newDefault loaded rows = .ok chosen) : ∀ id ∈ promotedId chosen, id ≠ loaded.id := by
  unfold newDefault at h
  split at h
  swap
  · cases h
    simp [promotedId]
  split at h
  swap
  · cases h
  next provider hmin =>
  cases h
  intro id hid
  obtain ⟨p, hp, rfl⟩ := Option.mem_map.mp hid
  obtain rfl : provider = p := (mem_filter_iff.mp hp).1 |> some.inj
  have hmem := argmin_mem hmin
  exact (of_decide_eq_true (mem_filter.mp hmem).2).1

theorem inv_setSession (h : Inv s) (hsound : session.Sound) :
    Inv (s.setSession k session) := by
  refine ⟨h.unique, fun j session' hj => ?_⟩
  change (if j = k then some session else s.sessions j) = some session' at hj
  split at hj
  · cases hj
    exact hsound
  · exact h.sound j session' hj

theorem inv_close (h : Inv s) : Inv (s.close k) := by
  refine ⟨h.unique, fun j session' hj => ?_⟩
  change (if j = k then none else s.sessions j) = some session' at hj
  split at hj
  · cases hj
  · exact h.sound j session' hj

theorem inv_check (h : Inv s)
    (hsound : ∀ session, result = .ok session → session.Sound) : Inv (s.check k result) := by
  unfold State.check
  split
  · exact inv_setSession h (hsound _ rfl)
  · exact inv_close h

theorem providers_check (s : State) (k : Nat) (result : Except HttpError Session) :
    (s.check k result).providers = s.providers := by
  unfold State.check
  split
  · rfl
  · rfl

theorem start_eq_some
    (h : s.start k result = some s') : s' = s.check k result := by
  unfold State.start at h
  split at h
  · cases h
  · exact (some.inj h).symm

theorem commit_eq_some (h : s.commit k = some s') :
    ∃ session, s.sessions k = some session ∧
      s' = { s.close k with providers := (commitRows s.providers session).getD s.providers } := by
  unfold State.commit at h
  split at h
  · next loaded hk =>
    split at h
    · cases h
      exact ⟨_, hk, rfl⟩
    · cases h
  · next session hk =>
    split at h
    · cases h
      exact ⟨_, hk, rfl⟩
    · cases h
      exact ⟨_, hk, rfl⟩
    · cases h
      exact ⟨_, hk, rfl⟩
    · cases h
      exact ⟨_, hk, rfl⟩
    · cases h
  · cases h

/-- Only a commit writes providers. -/
theorem step_other (hl : ∀ k, l ≠ .commit k) (hinv : Inv s) (h : step s l = some s') :
    Inv s' ∧ s'.providers = s.providers := by
  -- every check but two leads to a session that promises nothing
  have hcheck : ∀ {k : Nat} {result : Except HttpError Session},
      (∀ session, result = .ok session → session.Sound) →
      Inv (s.check k result) ∧ (s.check k result).providers = s.providers :=
    fun hsound => ⟨inv_check hinv hsound, providers_check s _ _⟩
  have hmap : ∀ {α : Type} {f : α → Session} {result : Except HttpError α}
      {session : Session}, (∀ a, result = .ok a → (f a).Sound) →
      result.map f = .ok session → session.Sound := by
    intro α f result session hf hmap
    cases result with
    | error e => cases hmap
    | ok a =>
      cases hmap
      exact hf a rfl
  cases l with
  | openCreate k request | openUpdate k id request | openDelete k id =>
    rw [start_eq_some h]
    exact hcheck fun session => hmap fun _ _ => trivial
  | countProviders k =>
    simp only [step] at h
    split at h
    · next request _ =>
      cases h
      refine hcheck fun session => hmap fun isFirst hfirst => ?_
      intro htrue
      unfold checkFirst at hfirst
      split at hfirst
      · cases hfirst
      next hallowed =>
      cases hfirst
      simpa [htrue] using hallowed
    · cases h
  | flush k =>
    simp only [step] at h
    split at h
    · next request isFirst hk =>
      cases h
      have hsound : (Session.created request isFirst (s.sequence + 1)).Sound :=
        hinv.sound k (.counted request isFirst) hk
      have hsession := inv_setSession (k := k) hinv hsound
      exact ⟨⟨hsession.unique, hsession.sound⟩, rfl⟩
    · cases h
  | checkUpdate k | countRemaining k | countActive k activeCount =>
    simp only [step] at h
    split at h
    · cases h
      exact hcheck fun session => hmap fun _ _ => trivial
    · cases h
  | selectNewDefault k =>
    simp only [step] at h
    split at h
    · cases h
      exact hcheck fun session => hmap fun chosen hchosen => promotedId_ne hchosen
    · cases h
  | openSetDefault k id =>
    rw [start_eq_some h]
    refine hcheck fun session hsession => ?_
    cases hload : loadProvider id s.providers with
    | error e =>
      rw [hload] at hsession
      cases hsession
    | ok loaded =>
      rw [hload] at hsession
      exact hmap (f := fun _ => .promoting loaded) (fun _ _ => trivial) hsession
  | selectDefaults k =>
    simp only [step] at h
    split at h
    · split at h
      · cases h
      · cases h
        exact ⟨inv_setSession hinv trivial, rfl⟩
    · cases h
  | commit k => exact absurd rfl (hl k)
  | abort k =>
    simp only [step] at h
    split at h
    · cases h
      exact ⟨inv_close hinv, rfl⟩
    · cases h

/-- **One step**: the ids stay unique, and a good table stays good exactly when the step is
    timely. -/
theorem oneDefault_step (hinv : Inv s) (h : step s l = some s') :
    Inv s' ∧ (OneDefault s.providers → (OneDefault s'.providers ↔ Timely s l)) := by
  by_cases hl : ∀ k, l ≠ .commit k
  · obtain ⟨hinv', hsame⟩ := step_other hl hinv h
    refine ⟨hinv', fun hgood => ?_⟩
    rw [hsame]
    refine iff_of_true hgood ?_
    cases l with
    | commit k => exact absurd rfl (hl k)
    | _ => trivial
  push Not at hl
  obtain ⟨k, rfl⟩ := hl
  obtain ⟨session, hk, rfl⟩ := commit_eq_some h
  have hclose := inv_close (k := k) hinv
  have hsound := hinv.sound k session hk
  have htimely : Timely s (.commit k) ↔
      ((commitRows s.providers session).isSome → Fits s.providers session) := by
    simp [Timely, hk]
  rw [htimely]
  cases hrows : commitRows s.providers session with
  | none => exact ⟨⟨hclose.unique, hclose.sound⟩, fun hgood => iff_of_true hgood (by simp)⟩
  | some rows' =>
    refine ⟨⟨keyUnique_commitRows hinv.unique hrows, hclose.sound⟩, fun hgood => ?_⟩
    exact (oneDefault_commitRows hinv.unique hgood hsound hrows).trans (by simp)

theorem oneDefault_run {ls : List Label} (hinv : Inv s) (hgood : OneDefault s.providers)
    (h : requests.exec s ls = some s') :
    ((∀ m ∈ moments step s ls, OneDefault m.1.providers) ∧ OneDefault s'.providers) ↔
      ∀ m ∈ moments step s ls, Timely m.1 m.2 := by
  induction ls generalizing s with
  | nil =>
    cases h
    simpa [moments] using hgood
  | cons l ls ih =>
    obtain ⟨t, hstep, hrest⟩ := bind_eq_some_iff.mp h
    have hnext : step s l = some t := hstep
    obtain ⟨hinv', hiff⟩ := oneDefault_step hinv hnext
    have hmoments : moments step s (l :: ls) = (s, l) :: moments step t ls := by
      simp [moments, hnext]
    rw [hmoments, forall_mem_cons, forall_mem_cons, ← hiff hgood]
    by_cases hgood' : OneDefault t.providers
    · have hboth := ih hinv' hgood' hrest
      simp only [hgood, hgood', true_and]
      exact hboth
    · -- the table of `t` is seen by the next step, or at the end
      refine iff_of_false ?_ (fun hand => hgood' hand.1)
      rintro ⟨⟨-, hall⟩, hlast⟩
      cases ls with
      | nil =>
        cases hrest
        exact hgood' hlast
      | cons l' ls' => exact hgood' (hall (t, l') mem_cons_self)

/-- In every run of the requests from an empty table, each committed table has exactly one
    default, an enabled one, as long as it has a row, if and only if each commit of the run
    fits the rows that it meets. -/
theorem default_provider_unique_iff {labels : List Label} {s : State}
    (h : requests.exec {} labels = some s) :
    ((∀ m ∈ moments step {} labels, OneDefault m.1.providers) ∧ OneDefault s.providers) ↔
      ∀ m ∈ moments step {} labels, Timely m.1 m.2 :=
  oneDefault_run ⟨by simp [Table.KeyUnique], fun _ _ hk => nomatch hk⟩ (fun hne => absurd rfl hne) h

/-- Two providers are created, the second becomes the default, and the first is deleted. -/
def handedOver : List Label :=
  [.openCreate 0 { name := "a" }, .countProviders 0, .flush 0, .commit 0,
    .openCreate 1 { name := "b" }, .countProviders 1, .flush 1, .commit 1,
    .openSetDefault 2 2, .selectDefaults 2, .commit 2,
    .openDelete 3 1, .countRemaining 3, .countActive 3 0, .selectNewDefault 3, .commit 3]

theorem default_provider_unique_handedOver :
    ∃ s, requests.exec {} handedOver = some s ∧
      s.providers = [{ id := 2, name := "b", isDefault := true, isDisabled := false }] ∧
      (((∀ m ∈ moments step {} handedOver, OneDefault m.1.providers) ∧
        OneDefault s.providers) ↔ ∀ m ∈ moments step {} handedOver, Timely m.1 m.2) := by
  have hexec : (requests.exec {} handedOver).map State.providers =
      some [{ id := 2, name := "b", isDefault := true, isDisabled := false }] := by
    decide +kernel
  obtain ⟨s, hs, hrows⟩ := map_eq_some_iff.mp hexec
  exact ⟨s, hs, hrows, default_provider_unique_iff hs⟩

/-- Two first creations count before either commits: both rows are the default. -/
theorem two_first_providers :
    ¬ ∀ s, requests.Reachable System.anyStep s → OneDefault s.providers := by
  intro hclaim
  have hs := System.reachable_of_exec rfl (show requests.exec {}
    [.openCreate 0 { name := "a" }, .openCreate 1 { name := "b" }, .countProviders 0,
      .countProviders 1, .flush 0, .commit 0, .flush 1, .commit 1] = some _ from rfl)
  obtain ⟨r, hr, -⟩ := hclaim _ hs (cons_ne_nil _ _)
  exact nomatch (show [_, _] = [r] from hr)

end Codify.Api.Providers

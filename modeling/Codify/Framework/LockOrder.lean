import Mathlib.Data.Fintype.Lattice
import Mathlib.Data.Fintype.EquivFin
import Codify.Framework.System
import Codify.Framework.Table

/-! # Lock Programs

    A transaction takes exclusive locks one after the other and holds them until
    it ends. A request waits for another one when its next lock is held there.

    * **Order**: with the locks ranked, a waiting request is `Ordered` when its next
      lock comes after all those that it holds. Requests that all wait so cannot
      wait in a circle.
    * **Exceptions**: a request may also wait against the order for a holder that is
      `Clear` of it, which has only locks to take that come after all those of the
      waiting one. `noDeadlock` allows both.
-/

namespace Codify.Framework.LockOrder

open List

universe u v w

/-! ### Requests -/

/-- A transaction under way: the locks that it holds and those that it has still to take. -/
structure Session (R : Type u) (L : Type v) where
  id : Nat
  request : R
  held : List L
  todo : List L
  waiting : Bool
  deriving DecidableEq

inductive Label (R : Type u) where
  /-- A transaction starts. -/
  | start (id : Nat) (request : R)
  /-- It comes to its next lock: it takes it, or it starts to wait. -/
  | request (id : Nat)
  /-- The lock that it waits for is free, and it takes it. -/
  | grant (id : Nat)
  /-- It commits or it is rolled back; its locks are released. -/
  | finish (id : Nat)
  deriving DecidableEq

variable {R : Type u} {L : Type v}

def Session.take (x : Session R L) : Session R L :=
  { x with held := x.held ++ x.todo.take 1, todo := x.todo.tail, waiting := false }

abbrev row? (id : Nat) (s : List (Session R L)) : Option (Session R L) :=
  Table.row? Session.id id s

section Steps

variable [DecidableEq L]

def free (s : List (Session R L)) (id : Nat) (l : L) : Bool :=
  s.all fun y => decide (y.id = id) || decide (l ∉ y.held)

/-- Transactions that run the given program of locks. -/
def step (program : R → List L) (s : List (Session R L)) : Label R → Option (List (Session R L))
  | .start id request =>
    if (row? id s).isSome then none else some (s ++ [⟨id, request, [], program request, false⟩])
  | .request id =>
    (row? id s).bind fun x =>
      match x.waiting, x.todo with
      | false, l :: _ =>
        some (Table.update Session.id id
          (fun y => if free s id l then y.take else { y with waiting := true }) s)
      | _, _ => none
  | .grant id =>
    (row? id s).bind fun x =>
      match x.waiting, x.todo with
      | true, l :: _ =>
        if free s id l then some (Table.update Session.id id Session.take s) else none
      | _, _ => none
  | .finish id =>
    (row? id s).bind fun x => if x.waiting then none else some (s.filter (·.id ≠ id))

def transactions (program : R → List L) : System (List (Session R L)) (Label R) where
  init s := s = []
  next := step program

end Steps

/-- The next lock of the first one is held by the second one. -/
def WaitsFor (x y : Session R L) : Prop :=
  x.waiting = true ∧ x.id ≠ y.id ∧ ∃ l ∈ x.todo.head?, l ∈ y.held

/-- A circle of transactions each of which waits for the next. -/
def Deadlocked (s : List (Session R L)) : Prop :=
  ∃ (n : Nat) (r : Fin (n + 1) → Session R L), ∀ i, r i ∈ s ∧ WaitsFor (r i) (r (i + 1))

/-! ### Order -/

section Order

variable {P : Type w} [LinearOrder P] (rank : L → P)

/-- The next lock comes after all those that are held. -/
def Ordered (x : Session R L) : Prop := ∀ l ∈ x.todo.head?, ∀ h ∈ x.held, rank h < rank l

/-- What the holder has still to take comes after all those that the waiting one holds. -/
def Clear (x y : Session R L) : Prop := ∀ l ∈ y.todo, ∀ h ∈ x.held, rank h < rank l

/-- A program takes its locks in the order. -/
def Increasing (program : List L) : Prop := (program.map rank).Pairwise (· < ·)

/-- Whoever waits does so in the order, or for a holder that is clear of it. -/
def Tame (s : List (Session R L)) : Prop :=
  ∀ x ∈ s, ∀ y ∈ s, WaitsFor x y → Ordered rank x ∨ Clear rank x y

variable {rank} {s t : List (Session R L)} {program : R → List L}

/-- **Lock order**: a circle has a lock of the highest rank that is waited for. Its holder waits
    for no higher one, and neither does the transaction that its holder waits for. -/
theorem not_deadlocked (h : Tame rank s) : ¬ Deadlocked s := by
  rintro ⟨n, r, hr⟩
  have hlock : ∀ i, ∃ l ∈ (r i).todo.head?, l ∈ (r (i + 1)).held := fun i => (hr i).2.2.2
  choose lock hnext hheld using hlock
  obtain ⟨m, hmax⟩ := Finite.exists_max fun i => rank (lock i)
  have hmem : ∀ i, r i ∈ s := fun i => (hr i).1
  rcases h (r (m + 1)) (hmem _) (r (m + 1 + 1)) (hmem _) (hr (m + 1)).2 with hordered | hclear
  · exact absurd (hordered _ (hnext (m + 1)) _ (hheld m)) (not_lt.mpr (hmax (m + 1)))
  · have hlater := mem_of_mem_head? (hnext (m + 1 + 1))
    exact absurd (hclear _ hlater _ (hheld m)) (not_lt.mpr (hmax (m + 1 + 1)))

/-- The exceptional requests wait against the order only for a holder that is clear of them:
    when they come to a lock that is held, and when someone takes a lock that they wait for. -/
def Respected (rank : L → P) (exceptional : R → Bool) (s : List (Session R L)) : Label R → Prop
  | .request id | .grant id =>
    ∀ x ∈ s, x.id = id → ∀ l ∈ x.todo.head?, ∀ y ∈ s, y.id ≠ id →
      (l ∈ y.held → exceptional x.request = true → Ordered rank x ∨ Clear rank x y) ∧
      (y.waiting = true → l ∈ y.todo.head? → exceptional y.request = true →
        Ordered rank y ∨ Clear rank y x.take)
  | _ => True

/-- **Invariant** of the transactions. -/
structure Inv (rank : L → P) (program : R → List L) (s : List (Session R L)) : Prop where
  ids : Table.KeyUnique Session.id s
  progress : ∀ x ∈ s, x.held ++ x.todo = program x.request
  tame : Tame rank s

theorem ordered_of_increasing {x : Session R L} (hprogress : x.held ++ x.todo = program x.request)
    (h : Increasing rank (program x.request)) : Ordered rank x := by
  intro l hl a ha
  unfold Increasing at h
  rw [← hprogress, map_append, pairwise_append] at h
  exact h.2.2 _ (mem_map_of_mem ha) _ (mem_map_of_mem (mem_of_mem_head? hl))

/-! ### Steps -/

variable {exceptional : R → Bool}

theorem mem_update {id : Nat} {f : Session R L → Session R L} {x : Session R L} :
    x ∈ Table.update Session.id id f s ↔ ∃ x₀ ∈ s, (if x₀.id = id then f x₀ else x₀) = x :=
  mem_map

theorem held_append_todo_take (x : Session R L) :
    x.take.held ++ x.take.todo = x.held ++ x.todo := by
  cases htodo : x.todo with
  | nil => simp [Session.take, htodo]
  | cons l rest => simp [Session.take, htodo]

/-- A lock that the transaction has after its step was held before it, or is the one taken. -/
theorem mem_held_take {x : Session R L} {l : L} (h : l ∈ x.take.held) :
    l ∈ x.held ∨ l ∈ x.todo.head? := by
  rcases mem_append.mp h with hheld | htaken
  · exact .inl hheld
  · cases htodo : x.todo with
    | nil => simp [htodo] at htaken
    | cons l' rest =>
      simp only [htodo, take_succ_cons, take_zero, mem_singleton] at htaken
      simp [htaken]

theorem Clear.mono {x y y' : Session R L} (h : Clear rank x y)
    (htodo : ∀ l ∈ y'.todo, l ∈ y.todo) : Clear rank x y' :=
  fun l hl a ha => h l (htodo l hl) a ha

theorem Inv.take (h : Inv rank program s) {id : Nat}
    (hguard : ∀ x ∈ s, x.id = id → ∀ l ∈ x.todo.head?, ∀ y ∈ s, y.id ≠ id → y.waiting = true →
      l ∈ y.todo.head? → Ordered rank y ∨ Clear rank y x.take) :
    Inv rank program (Table.update Session.id id Session.take s) where
  ids := h.ids.map fun x => by split <;> rfl
  progress x hx := by
    obtain ⟨x₀, hx₀, rfl⟩ := mem_update.mp hx
    split
    · exact (held_append_todo_take x₀).trans (h.progress x₀ hx₀)
    · exact h.progress x₀ hx₀
  tame x hx y hy hwaits := by
    obtain ⟨x₀, hx₀, rfl⟩ := mem_update.mp hx
    obtain ⟨y₀, hy₀, rfl⟩ := mem_update.mp hy
    by_cases hxid : x₀.id = id
    · -- the one that has taken its lock does not wait
      rw [if_pos hxid] at hwaits
      exact absurd hwaits.1 Bool.false_ne_true
    · rw [if_neg hxid] at hwaits ⊢
      by_cases hyid : y₀.id = id
      · rw [if_pos hyid] at hwaits ⊢
        obtain ⟨hwaiting, hne, l, hl, hheld⟩ := hwaits
        rcases mem_held_take hheld with hheld | htaken
        · refine (h.tame x₀ hx₀ y₀ hy₀ ⟨hwaiting, hne, l, hl, hheld⟩).imp_right fun hclear => ?_
          exact hclear.mono fun m hm => mem_of_mem_tail hm
        · exact hguard y₀ hy₀ hyid l htaken x₀ hx₀ hxid hwaiting hl
      · rw [if_neg hyid] at hwaits ⊢
        exact h.tame x₀ hx₀ y₀ hy₀ hwaits

theorem Inv.wait (h : Inv rank program s) {id : Nat}
    (hguard : ∀ x ∈ s, x.id = id → ∀ l ∈ x.todo.head?, ∀ y ∈ s, y.id ≠ id → l ∈ y.held →
      Ordered rank x ∨ Clear rank x y) :
    Inv rank program (Table.update Session.id id (fun x => { x with waiting := true }) s) where
  ids := h.ids.map fun x => by split <;> rfl
  progress x hx := by
    obtain ⟨x₀, hx₀, rfl⟩ := mem_update.mp hx
    split <;> exact h.progress x₀ hx₀
  tame x hx y hy hwaits := by
    obtain ⟨x₀, hx₀, rfl⟩ := mem_update.mp hx
    obtain ⟨y₀, hy₀, rfl⟩ := mem_update.mp hy
    obtain ⟨hwaiting, hne, l, hl, hheld⟩ := hwaits
    have hheld₀ : l ∈ y₀.held := by split at hheld <;> exact hheld
    by_cases hxid : x₀.id = id
    · rw [if_pos hxid] at hl hne ⊢
      have hyid : y₀.id ≠ id := by
        intro hyid
        rw [if_pos hyid] at hne
        exact hne (hxid.trans hyid.symm)
      rw [if_neg hyid]
      exact hguard x₀ hx₀ hxid l hl y₀ hy₀ hyid hheld₀
    · rw [if_neg hxid] at hwaiting hl hne ⊢
      have hne₀ : x₀.id ≠ y₀.id := by split at hne <;> exact hne
      have htame := h.tame x₀ hx₀ y₀ hy₀ ⟨hwaiting, hne₀, l, hl, hheld₀⟩
      split <;> exact htame

theorem Inv.start (h : Inv rank program s) {id : Nat} (request : R)
    (hnew : row? id s = none) :
    Inv rank program (s ++ [⟨id, request, [], program request, false⟩]) where
  ids := h.ids.append (Table.row?_eq_none_iff.mp hnew)
  progress x hx := by
    rcases mem_append.mp hx with hx | hx
    · exact h.progress x hx
    · rw [mem_singleton.mp hx]
      rfl
  tame x hx y hy hwaits := by
    rcases mem_append.mp hx with hx | hx
    · rcases mem_append.mp hy with hy | hy
      · exact h.tame x hx y hy hwaits
      · obtain ⟨-, -, l, -, hheld⟩ := hwaits
        rw [mem_singleton.mp hy] at hheld
        exact absurd hheld not_mem_nil
    · rw [mem_singleton.mp hx] at hwaits
      exact absurd hwaits.1 Bool.false_ne_true

theorem Inv.finish (h : Inv rank program s) (id : Nat) :
    Inv rank program (s.filter (·.id ≠ id)) where
  ids := h.ids.filter _
  progress x hx := h.progress x (mem_of_mem_filter hx)
  tame x hx y hy hwaits :=
    h.tame x (mem_of_mem_filter hx) y (mem_of_mem_filter hy) hwaits

section Runs

variable [DecidableEq L]

instance (x : Session R L) : Decidable (Ordered rank x) := by unfold Ordered; infer_instance

instance (x y : Session R L) : Decidable (Clear rank x y) := by unfold Clear; infer_instance

instance (s : List (Session R L)) (l : Label R) : Decidable (Respected rank exceptional s l) := by
  cases l <;> unfold Respected <;> dsimp only <;> infer_instance

/-- **Step lemma**: what is not exceptional waits in the order. -/
theorem inv_step (hincreasing : ∀ r, exceptional r = false → Increasing rank (program r))
    {l : Label R} (h : Inv rank program s) (hguard : Respected rank exceptional s l)
    (hstep : step program s l = some t) : Inv rank program t := by
  have hordered : ∀ x ∈ s, exceptional x.request = false → Ordered rank x := fun x hx hr =>
    ordered_of_increasing (h.progress x hx) (hincreasing _ hr)
  have hall : ∀ {x : Session R L} {Q : Prop}, x ∈ s →
      (exceptional x.request = true → Ordered rank x ∨ Q) → Ordered rank x ∨ Q := by
    intro x Q hx hQ
    cases hr : exceptional x.request with
    | true => exact hQ hr
    | false => exact .inl (hordered x hx hr)
  cases l with
  | start id request =>
    dsimp only [step] at hstep
    split at hstep <;> cases hstep
    next hnone =>
    exact h.start request (by simpa using hnone)
  | request id =>
    obtain ⟨x, hx, hstep⟩ := Option.bind_eq_some_iff.mp hstep
    split at hstep <;> cases hstep
    next a rest hwaiting htodo =>
    cases free s id a with
    | true =>
      simp only [if_true]
      exact h.take fun x hx hid l hl y hy hyid hwaiting hy' =>
        hall hy fun hr => (hguard x hx hid l hl y hy hyid).2 hwaiting hy' hr
    | false =>
      simp only [Bool.false_eq_true, if_false]
      exact h.wait fun x hx hid l hl y hy hyid hheld =>
        hall hx fun hr => (hguard x hx hid l hl y hy hyid).1 hheld hr
  | grant id =>
    obtain ⟨x, hx, hstep⟩ := Option.bind_eq_some_iff.mp hstep
    split at hstep
    · split at hstep <;> cases hstep
      exact h.take fun x hx hid l hl y hy hyid hwaiting hy' =>
        hall hy fun hr => (hguard x hx hid l hl y hy hyid).2 hwaiting hy' hr
    · cases hstep
  | finish id =>
    obtain ⟨x, hx, hstep⟩ := Option.bind_eq_some_iff.mp hstep
    split at hstep <;> cases hstep
    exact h.finish id

/-- **No deadlock**: as long as the exceptional requests are clear of whom they wait for against
    the order, no circle of waiting transactions is reached. -/
theorem noDeadlock (hincreasing : ∀ r, exceptional r = false → Increasing rank (program r))
    (h : (transactions program).Reachable (Respected rank exceptional) s) : ¬ Deadlocked s := by
  have hinv : Inv rank program s := h.invariant (P := Inv rank program) (fun s hs => by
      obtain rfl : s = [] := hs
      exact ⟨nodup_nil, fun x hx => absurd hx not_mem_nil, fun x hx => absurd hx not_mem_nil⟩)
    fun _ _ _ hinv hguard hstep => inv_step hincreasing hinv hguard hstep
  exact not_deadlocked hinv.tame

end Runs

end Order

end Codify.Framework.LockOrder

import Mathlib.Algebra.BigOperators.Group.Multiset.Basic
import Mathlib.Data.Multiset.AddSub
import CppRedis.Runs

/-!
Threads that run the same program over shared data, in any interleaving: a
configuration is the shared data and one local state for each thread, a move is
an action of one thread or an event from outside. `held` adds up what the local
states hold; a move of one thread changes its own share only (`held_split`).
Properties of local states survive a move when the moving thread establishes its
own and keeps those of the others (`locals_set`).
-/
namespace CppRedis.Interleaving
universe u v w x y

structure Config (Shared : Type u) (Local : Type v) where
  shared : Shared
  locals : List Local

inductive Move (Act : Type w) (Event : Type x)
  | thread (i : Nat) (act : Act)
  | outside (event : Event)
  deriving DecidableEq

variable {Shared : Type u} {Local : Type v} {Act : Type w} {Event : Type x}

/-- One move of the interleaved program: the thread's own step, or the event. -/
def step (own : Shared → Local → Act → Option (Shared × Local)) (outer : Shared → Event → Option Shared)
    (c : Config Shared Local) : Move Act Event → Option (Config Shared Local)
  | .thread i act =>
    match c.locals[i]? with
    | none => none
    | some l =>
      match own c.shared l act with
      | none => none
      | some (g, l') => some ⟨g, c.locals.set i l'⟩
  | .outside event =>
    match outer c.shared event with
    | none => none
    | some g => some ⟨g, c.locals⟩

/-- What one move does. -/
theorem step_cases {own : Shared → Local → Act → Option (Shared × Local)} {outer : Shared → Event → Option Shared}
    {c c' : Config Shared Local} {m : Move Act Event} (taken : step own outer c m = some c') :
    (∃ i act l l', m = .thread i act ∧ c.locals[i]? = some l ∧ own c.shared l act = some (c'.shared, l') ∧
      c'.locals = c.locals.set i l') ∨
    (∃ event, m = .outside event ∧ outer c.shared event = some c'.shared ∧ c'.locals = c.locals) := by
  cases m with
  | thread i act =>
    simp only [step] at taken
    cases at_i : c.locals[i]? with
    | none => simp [at_i] at taken
    | some l =>
      cases moved : own c.shared l act with
      | none => simp [at_i, moved] at taken
      | some target =>
        obtain ⟨g, l'⟩ := target
        simp only [at_i, moved, Option.some.injEq] at taken
        subst taken
        exact .inl ⟨i, act, l, l', rfl, at_i, moved, rfl⟩
  | outside event =>
    simp only [step] at taken
    cases moved : outer c.shared event with
    | none => simp [moved] at taken
    | some g =>
      simp only [moved, Option.some.injEq] at taken
      subst taken
      exact .inr ⟨event, rfl, moved, rfl⟩

theorem step_thread {own : Shared → Local → Act → Option (Shared × Local)} {outer : Shared → Event → Option Shared}
    {c : Config Shared Local} {i : Nat} {act : Act} {l l' : Local} {g : Shared} (at_i : c.locals[i]? = some l)
    (moved : own c.shared l act = some (g, l')) :
    step own outer c (.thread i act) = some ⟨g, c.locals.set i l'⟩ := by
  simp only [step, at_i, moved]

/-- Events alone leave the threads where they are. -/
theorem run_outside {own : Shared → Local → Act → Option (Shared × Local)} {outer : Shared → Event → Option Shared}
    {g g' : Shared} {events : List Event} (runs : Runs.run outer g events = some g') (ls : List Local) :
    Runs.run (step own outer) ⟨g, ls⟩ (events.map .outside) = some ⟨g', ls⟩ := by
  induction events generalizing g with
  | nil => cases runs; rfl
  | cons event rest ih =>
    obtain ⟨mid, taken, later⟩ := Runs.run_cons_some.mp runs
    exact Runs.run_cons_some.mpr ⟨⟨mid, ls⟩, by simp [step, taken], ih later⟩

/-! ### What the threads hold -/

section
variable {R : Type y}

/-- Everything that the local states hold, together. -/
def held (f : Local → Multiset R) (ls : List Local) : Multiset R := (ls.map f).sum

@[simp] theorem held_nil (f : Local → Multiset R) : held f [] = 0 := rfl
@[simp] theorem held_cons (f : Local → Multiset R) (l : Local) (ls : List Local) :
    held f (l :: ls) = f l + held f ls := by simp [held]

theorem held_append (f : Local → Multiset R) (ls ks : List Local) : held f (ls ++ ks) = held f ls + held f ks := by
  simp [held]

theorem le_held_of_mem (f : Local → Multiset R) {ls : List Local} {l : Local} (member : l ∈ ls) :
    f l ≤ held f ls := by
  obtain ⟨before, after, rfl⟩ := List.append_of_mem member
  rw [held_append, held_cons, add_left_comm]
  exact Multiset.le_add_right _ _

/-- The share of thread `i` and the rest, which a change of thread `i` keeps. -/
theorem held_split (f : Local → Multiset R) {ls : List Local} {i : Nat} {l : Local} (at_i : ls[i]? = some l) :
    ∃ rest, held f ls = f l + rest ∧ (∀ l', held f (ls.set i l') = f l' + rest) ∧
      ∀ j k, j ≠ i → ls[j]? = some k → f k ≤ rest := by
  induction ls generalizing i with
  | nil => simp at at_i
  | cons k ks ih =>
    cases i with
    | zero =>
      simp only [List.getElem?_cons_zero, Option.some.injEq] at at_i
      subst at_i
      refine ⟨held f ks, held_cons f k ks, fun l' => held_cons f l' ks, ?_⟩
      intro j m other at_j
      obtain ⟨j, rfl⟩ := Nat.exists_eq_succ_of_ne_zero other
      rw [List.getElem?_cons_succ] at at_j
      exact le_held_of_mem f (List.mem_of_getElem? at_j)
    | succ i =>
      rw [List.getElem?_cons_succ] at at_i
      obtain ⟨rest, total, changed, others⟩ := ih at_i
      refine ⟨f k + rest, ?_, ?_, ?_⟩
      · rw [held_cons, total, add_left_comm]
      · intro l'
        rw [List.set_cons_succ, held_cons, changed, add_left_comm]
      · intro j m other at_j
        cases j with
        | zero =>
          simp only [List.getElem?_cons_zero, Option.some.injEq] at at_j
          subst at_j
          exact Multiset.le_add_right _ _
        | succ j =>
          rw [List.getElem?_cons_succ] at at_j
          exact (others j m (by omega) at_j).trans (Multiset.le_add_left _ _)

theorem held_zero (f : Local → Multiset R) {ls : List Local} (nothing : ∀ l ∈ ls, f l = 0) : held f ls = 0 := by
  induction ls with
  | nil => rfl
  | cons l ls ih =>
    rw [held_cons, nothing l List.mem_cons_self, ih fun k member => nothing k (List.mem_cons_of_mem l member), add_zero]

theorem held_replicate (f : Local → Multiset R) {l : Local} (nothing : f l = 0) (n : Nat) :
    held f (List.replicate n l) = 0 :=
  held_zero f fun _ member => by rw [List.eq_of_mem_replicate member, nothing]

end

/-! ### Properties of the local states -/

/-- After a move of thread `i`, a property holds of every local state if the
    thread establishes it and it is kept for all other threads. -/
theorem locals_set {P : Local → Prop} {ls : List Local} {i : Nat} {l' : Local} (mine : P l')
    (others : ∀ j k, j ≠ i → ls[j]? = some k → P k) {j : Nat} {k : Local}
    (at_j : (ls.set i l')[j]? = some k) : P k := by
  by_cases same : j = i
  · subst same
    rw [List.getElem?_set] at at_j
    by_cases inside : j < ls.length
    · simp only [↓reduceIte, inside, Option.some.injEq] at at_j
      exact at_j ▸ mine
    · simp [inside] at at_j
  · rw [List.getElem?_set_ne (fun e => same e.symm)] at at_j
    exact others j k same at_j

end CppRedis.Interleaving

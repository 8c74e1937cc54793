import Mathlib.Data.Finset.Card
import Mathlib.Data.Finset.Dedup
import Mathlib.Logic.Function.Basic

/-!
Maps whose entries may have a deadline. In a `Timed` map no entry is past its
deadline. A `Lazy` map keeps an entry until somebody looks for it; its `view` is the
timed map that everybody sees, and the operations of the one are those of the other
(`view_put`, `view_erase`, `view_access`, `view_advance`).
-/
namespace CppRedis.Deadlines
universe u v
variable {K : Type u} {V : Type v}

structure Entry (V : Type v) where
  value : V
  deadline : Option Nat

/-- An entry lives up to its deadline, that moment included. -/
def Entry.alive (now : Nat) (e : Entry V) : Bool :=
  match e.deadline with
  | none => true
  | some d => decide (now ≤ d)

theorem Entry.alive_earlier {e : Entry V} {now later : Nat} (le : now ≤ later) (alive : e.alive later = true) :
    e.alive now = true := by
  obtain ⟨value, _ | d⟩ := e
  · rfl
  · exact decide_eq_true (le.trans (of_decide_eq_true alive))

/-! ### Timed maps -/

@[ext]
structure Timed (K : Type u) (V : Type v) where
  now : Nat
  entries : K → Option (Entry V)
  alive : ∀ k e, entries k = some e → e.alive now = true

namespace Timed

/-- The time passes; the entries whose deadline is over are gone. -/
def advance (m : Timed K V) (duration : Nat) : Timed K V where
  now := m.now + duration
  entries k := (m.entries k).filter (Entry.alive (m.now + duration))
  alive _ _ found := (Option.filter_eq_some_iff.mp found).2

variable [DecidableEq K]

def put (m : Timed K V) (k : K) (e : Entry V) (alive : e.alive m.now = true) : Timed K V where
  now := m.now
  entries := Function.update m.entries k (some e)
  alive k' e' found := by
    by_cases same : k' = k
    · rw [same, Function.update_self] at found
      exact Option.some.inj found ▸ alive
    · rw [Function.update_of_ne same] at found
      exact m.alive k' e' found

/-- The key has the value for ever. -/
def set (m : Timed K V) (k : K) (v : V) : Timed K V := m.put k ⟨v, none⟩ rfl

/-- The key has the value for a time. -/
def setFor (m : Timed K V) (k : K) (v : V) (duration : Nat) : Timed K V :=
  m.put k ⟨v, some (m.now + duration)⟩ (decide_eq_true (Nat.le_add_right _ _))

theorem setFor_injective {m : Timed K V} {k : K} {v : V} {one other : Nat}
    (same : m.setFor k v one = m.setFor k v other) : one = other := by
  have entries := congrFun (congrArg Timed.entries same) k
  simpa [setFor, put] using entries

def eraseAll (m : Timed K V) (keys : List K) : Timed K V where
  now := m.now
  entries k := if k ∈ keys then none else m.entries k
  alive k e found := by
    split at found
    · cases found
    · exact m.alive k e found

/-- The keys of a list that have a value. -/
def present (m : Timed K V) (keys : List K) : Finset K := keys.toFinset.filter fun k => (m.entries k).isSome

theorem eraseAll_nil (m : Timed K V) : m.eraseAll [] = m := by
  ext k
  · rfl
  · simp [eraseAll]

theorem eraseAll_cons (m : Timed K V) (k : K) (rest : List K) :
    m.eraseAll (k :: rest) = (m.eraseAll [k]).eraseAll rest := by
  refine Timed.ext rfl (funext ?_)
  intro k'
  simp only [eraseAll, List.mem_cons, List.not_mem_nil, or_false]
  by_cases first : k' = k
  · simp [first]
  · simp [first]

theorem eraseAll_absent {m : Timed K V} {k : K} (absent : m.entries k = none) : m.eraseAll [k] = m := by
  refine Timed.ext rfl (funext ?_)
  intro k'
  simp only [eraseAll, List.mem_singleton]
  by_cases same : k' = k
  · rw [if_pos same, same, absent]
  · rw [if_neg same]

/-- What is erased are the keys that are there. -/
theorem eraseAll_eq_iff (m : Timed K V) (keys keys' : List K) :
    m.eraseAll keys = m.eraseAll keys' ↔ m.present keys = m.present keys' := by
  constructor
  · intro same
    ext k
    have here := congrArg (fun m : Timed K V => m.entries k) same
    simp only [eraseAll] at here
    simp only [present, Finset.mem_filter, List.mem_toFinset]
    cases found : m.entries k with
    | none => simp
    | some e => by_cases one : k ∈ keys <;> by_cases other : k ∈ keys' <;> simp_all
  · intro same
    refine Timed.ext rfl (funext ?_)
    intro k
    have here := Finset.ext_iff.mp same k
    simp only [present, Finset.mem_filter, List.mem_toFinset] at here
    simp only [eraseAll]
    cases found : m.entries k with
    | none => simp
    | some e => by_cases one : k ∈ keys <;> by_cases other : k ∈ keys' <;> simp_all

theorem present_cons_absent {m : Timed K V} {k : K} (absent : m.entries k = none) (rest : List K) :
    m.present (k :: rest) = m.present rest := by
  rw [present, List.toFinset_cons, Finset.filter_insert, if_neg (by simp [absent])]
  rfl

/-- One key more is counted once, also if it stands in the rest again. -/
theorem present_cons_card {m : Timed K V} {k : K} {e : Entry V} (found : m.entries k = some e) (rest : List K) :
    (m.present (k :: rest)).card = ((m.eraseAll [k]).present rest).card + 1 := by
  have shape : m.present (k :: rest) = insert k ((m.eraseAll [k]).present rest) := by
    ext k'
    simp only [present, eraseAll, List.toFinset_cons, Finset.mem_filter, Finset.mem_insert, List.mem_toFinset,
      List.mem_singleton]
    by_cases same : k' = k
    · simp [same, found]
    · simp [same]
  rw [shape, Finset.card_insert_of_notMem]
  simp [present, eraseAll]

end Timed

/-! ### Lazy maps -/

structure Lazy (K : Type u) (V : Type v) where
  clock : Nat
  dict : K → Option (Entry V)

namespace Lazy

def advance (s : Lazy K V) (duration : Nat) : Lazy K V := { s with clock := s.clock + duration }

/-- What is seen of the map. -/
def view (s : Lazy K V) : Timed K V where
  now := s.clock
  entries k := (s.dict k).filter (Entry.alive s.clock)
  alive _ _ found := (Option.filter_eq_some_iff.mp found).2

theorem view_advance (s : Lazy K V) (duration : Nat) : (s.advance duration).view = s.view.advance duration := by
  refine Timed.ext rfl (funext ?_)
  intro k
  simp only [view, advance, Timed.advance, Option.filter_filter]
  congr 1
  funext e
  by_cases later : e.alive (s.clock + duration) = true
  · rw [later, Entry.alive_earlier (Nat.le_add_right _ _) later]
    rfl
  · simp [later]

variable [DecidableEq K]

def put (s : Lazy K V) (k : K) (e : Entry V) : Lazy K V := { s with dict := Function.update s.dict k (some e) }

def erase (s : Lazy K V) (k : K) : Lazy K V := { s with dict := Function.update s.dict k none }

/-- The entry of a key, which is thrown away if its deadline is over. -/
def access (s : Lazy K V) (k : K) : Option (Entry V) × Lazy K V :=
  match s.dict k with
  | none => (none, s)
  | some e => if e.alive s.clock then (some e, s) else (none, s.erase k)

theorem view_put {s : Lazy K V} {k : K} {e : Entry V} (alive : e.alive s.clock = true) :
    (s.put k e).view = s.view.put k e alive := by
  refine Timed.ext rfl (funext ?_)
  intro k'
  by_cases same : k' = k
  · simp [view, put, Timed.put, same, Option.filter, alive]
  · simp [view, put, Timed.put, same]

theorem view_erase (s : Lazy K V) (k : K) : (s.erase k).view = s.view.eraseAll [k] := by
  refine Timed.ext rfl (funext ?_)
  intro k'
  by_cases same : k' = k
  · simp [view, erase, Timed.eraseAll, same]
  · simp [view, erase, Timed.eraseAll, same]

theorem view_set (s : Lazy K V) (k : K) (v : V) : (s.put k ⟨v, none⟩).view = s.view.set k v := view_put rfl

theorem view_setFor (s : Lazy K V) (k : K) (v : V) (duration : Nat) :
    (s.put k ⟨v, some (s.clock + duration)⟩).view = s.view.setFor k v duration := view_put _

/-- Looking for a key finds what is seen, and leaves it as it is seen. -/
theorem view_access (s : Lazy K V) (k : K) : ∃ s', s.access k = (s.view.entries k, s') ∧ s'.view = s.view := by
  cases found : s.dict k with
  | none => exact ⟨s, by simp [access, view, found], rfl⟩
  | some e =>
    by_cases alive : e.alive s.clock = true
    · exact ⟨s, by simp [access, view, found, alive, Option.filter], rfl⟩
    · have gone : s.view.entries k = none := by simp [view, found, alive, Option.filter]
      refine ⟨s.erase k, ?_, (view_erase s k).trans (Timed.eraseAll_absent gone)⟩
      rw [gone]
      simp [access, found, alive]

end Lazy

end CppRedis.Deadlines

import Mathlib.Data.List.Basic

/-!
Lists in numbered buckets, and lists of pairs that stand for a map. Where each element
is in the bucket that is its place, what a bucket has is all that there is at this
place (`Placed.mem_iff`). Keys are compared by an equivalence, and a list whose keys
are all different stands for one map, in whatever order (`Stands.perm`).
-/
namespace CppRedis.Buckets

/-! ### Buckets -/

variable {α : Type} {table : List (List α)} {i : Nat}

def bucket (table : List (List α)) (i : Nat) : List α := table.getD i []

theorem bucket_eq (inside : i < table.length) : bucket table i = table[i] := by
  rw [bucket, List.getD_eq_getElem?_getD, List.getElem?_eq_getElem inside, Option.getD_some]

theorem bucket_set (inside : i < table.length) (chain : List α) (j : Nat) :
    bucket (table.set i chain) j = if j = i then chain else bucket table j := by
  unfold bucket
  rw [List.getD_eq_getElem?_getD, List.getD_eq_getElem?_getD, List.getElem?_set]
  by_cases same : i = j
  · subst same
    simp [inside]
  · simp [same, Ne.symm same]

/-- What stands in one bucket, and the rest. -/
theorem split_bucket (inside : i < table.length) :
    ∃ rest, table.flatten.Perm (bucket table i ++ rest) ∧ ∀ chain, (table.set i chain).flatten.Perm (chain ++ rest) := by
  have moved : ∀ front chain back : List α, (front ++ (chain ++ back)).Perm (chain ++ (front ++ back)) := by
    intro front chain back
    rw [← List.append_assoc, ← List.append_assoc]
    exact List.perm_append_comm.append_right back
  refine ⟨(table.take i).flatten ++ (table.drop (i + 1)).flatten, ?_, fun chain => ?_⟩
  · have whole : table = table.take i ++ table[i] :: table.drop (i + 1) := by simp
    rw [bucket_eq inside]
    nth_rewrite 1 [whole]
    rw [List.flatten_append, List.flatten_cons]
    exact moved _ _ _
  · rw [List.set_eq_take_append_cons_drop, if_pos inside, List.flatten_append, List.flatten_cons]
    exact moved _ _ _

/-- Each element is in its place. -/
def Placed (place : α → Nat) (table : List (List α)) : Prop := ∀ i, ∀ e ∈ bucket table i, place e = i

variable {place : α → Nat}

theorem placed_replicate (n : Nat) : Placed place (List.replicate n []) := by
  intro i e member
  simp [bucket, List.getD_eq_getElem?_getD, List.getElem?_replicate] at member
  split at member <;> simp at member

theorem Placed.set (placed : Placed place table) (inside : i < table.length) {chain : List α}
    (here : ∀ e ∈ chain, place e = i) : Placed place (table.set i chain) := by
  intro j e member
  rw [bucket_set inside] at member
  split at member
  · rename_i same
    rw [same]
    exact here e member
  · exact placed j e member

/-- What has a certain place is in this bucket. -/
theorem Placed.mem_iff (placed : Placed place table) {e : α} : e ∈ bucket table (place e) ↔ e ∈ table.flatten := by
  constructor
  · intro member
    by_cases inside : place e < table.length
    · rw [bucket_eq inside] at member
      exact List.mem_flatten.mpr ⟨_, List.getElem_mem inside, member⟩
    · rw [bucket, List.getD_eq_getElem?_getD, List.getElem?_eq_none (Nat.le_of_not_lt inside)] at member
      cases member
  · intro member
    obtain ⟨chain, there, member⟩ := List.mem_flatten.mp member
    obtain ⟨j, inside, rfl⟩ := List.mem_iff_getElem.mp there
    rw [← bucket_eq inside] at member
    rwa [placed j e member]

/-! ### Maps -/

variable {κ ν : Type} (same : κ → κ → Bool)

/-- No key stands twice. -/
def Distinct (l : List (κ × ν)) : Prop := l.Pairwise fun e e' => same e.1 e'.1 = false

/-- The list has, under each key, what the map has. -/
def Stands (l : List (κ × ν)) (m : κ → Option ν) : Prop :=
  ∀ key value, m key = some value ↔ ∃ k, (k, value) ∈ l ∧ same key k = true

def assign (key : κ) (value : ν) (m : κ → Option ν) : κ → Option ν :=
  fun k => if same k key = true then some value else m k

def remove (key : κ) (m : κ → Option ν) : κ → Option ν := fun k => if same k key = true then none else m k

variable {same} {l l' : List (κ × ν)} {m : κ → Option ν} {key k : κ} {value : ν}

theorem stands_nil : Stands same ([] : List (κ × ν)) fun _ => none := by
  intro key value
  simp

theorem Stands.perm (stands : Stands same l m) (order : l.Perm l') : Stands same l' m := by
  intro key value
  rw [stands key value]
  exact exists_congr fun k => and_congr_left fun _ => order.mem_iff

theorem Stands.none_iff (stands : Stands same l m) : m key = none ↔ ∀ e ∈ l, same key e.1 = false := by
  constructor
  · intro absent e member
    by_contra present
    have here := (stands key e.2).mpr ⟨e.1, member, by simpa using present⟩
    rw [absent] at here
    cases here
  · intro absent
    by_contra present
    obtain ⟨value, here⟩ := Option.ne_none_iff_exists'.mp present
    obtain ⟨k, member, equal⟩ := (stands key value).mp here
    rw [absent _ member] at equal
    cases equal

/-- A key that the list does not have. -/
theorem Distinct.cons (distinct : Distinct same l) (absent : ∀ e ∈ l, same key e.1 = false) (value : ν) :
    Distinct same ((key, value) :: l) := List.pairwise_cons.mpr ⟨absent, distinct⟩

variable (equiv : Equivalence fun a b => same a b = true)

include equiv

theorem same_comm (a b : κ) : same a b = same b a := by
  rw [Bool.eq_iff_iff]
  exact ⟨equiv.symm, equiv.symm⟩

theorem Distinct.perm (distinct : Distinct same l) (order : l.Perm l') : Distinct same l' := by
  refine (order.pairwise_iff ?_).mp distinct
  intro e e' apart
  rwa [same_comm equiv]

theorem Stands.cons (stands : Stands same l m) (absent : ∀ e ∈ l, same key e.1 = false) (value : ν) :
    Stands same ((key, value) :: l) (assign same key value m) := by
  intro k v
  unfold assign
  by_cases equal : same k key = true
  · rw [if_pos equal]
    constructor
    · intro is
      cases is
      exact ⟨key, List.mem_cons_self, equal⟩
    · rintro ⟨k', member, equal'⟩
      rcases List.mem_cons.mp member with head | tail
      · cases head
        rfl
      · have apart := absent _ tail
        rw [equiv.trans (equiv.symm equal) equal'] at apart
        cases apart
  · rw [if_neg equal, stands k v]
    constructor
    · rintro ⟨k', member, equal'⟩
      exact ⟨k', List.mem_cons_of_mem _ member, equal'⟩
    · rintro ⟨k', member, equal'⟩
      rcases List.mem_cons.mp member with head | tail
      · cases head
        exact absurd equal' equal
      · exact ⟨k', tail, equal'⟩

/-- The pair of a key is taken out. -/
theorem Stands.tail (stands : Stands same ((k, value) :: l) m) (distinct : Distinct same ((k, value) :: l))
    (equal : same key k = true) : Stands same l (remove same key m) := by
  have apart := (List.pairwise_cons.mp distinct).1
  intro key' v
  unfold remove
  by_cases equal' : same key' key = true
  · rw [if_pos equal']
    constructor
    · intro is
      cases is
    · rintro ⟨k', member, there⟩
      have apart' := apart _ member
      rw [equiv.trans (equiv.symm (equiv.trans equal' equal)) there] at apart'
      cases apart'
  · rw [if_neg equal', stands key' v]
    constructor
    · rintro ⟨k', member, there⟩
      rcases List.mem_cons.mp member with head | tail
      · cases head
        exact absurd (equiv.trans there (equiv.symm equal)) equal'
      · exact ⟨k', tail, there⟩
    · rintro ⟨k', member, there⟩
      exact ⟨k', List.mem_cons_of_mem _ member, there⟩

/-- Another value under the key that stands there. -/
theorem Stands.update (stands : Stands same ((k, value) :: l) m) (distinct : Distinct same ((k, value) :: l))
    (equal : same key k = true) (value' : ν) : Stands same ((k, value') :: l) (assign same key value' m) := by
  have apart := (List.pairwise_cons.mp distinct).1
  have rest := stands.tail equiv distinct equal
  have again := rest.cons equiv apart value'
  have is : assign same k value' (remove same key m) = assign same key value' m := by
    funext key'
    unfold assign remove
    by_cases equal' : same key' key = true
    · rw [if_pos (equiv.trans equal' equal), if_pos equal']
    · rw [if_neg fun there => equal' (equiv.trans there (equiv.symm equal)), if_neg equal', if_neg equal']
  rwa [is] at again

end CppRedis.Buckets

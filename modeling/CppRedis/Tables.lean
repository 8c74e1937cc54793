import Mathlib.Data.Finset.Card
import Mathlib.Data.List.AList

/-!
Finite maps that are given by pairs of different keys, and what is made of a map by
such pairs, one after the other. `assigned_pairs` says that all of them override it,
`assigned_part` what becomes of a key where some are left out.
-/
namespace CppRedis.Tables

/-- A finite map, in some order of its keys. -/
abbrev Table (K V : Type) := AList fun _ : K => V

variable {K V : Type}

def pairs (t : Table K V) : List (K × V) := t.entries.map fun e => (e.1, e.2)

theorem length_pairs (t : Table K V) : (pairs t).length = t.entries.length := by rw [pairs, List.length_map]

/-- Some of a table's pairs make a table. -/
theorem exists_part {t : Table K V} {l : List (K × V)} (part : l.Sublist (pairs t)) : ∃ t' : Table K V, pairs t' = l := by
  obtain ⟨entries, sublist, rfl⟩ := List.sublist_map_iff.mp part
  exact ⟨⟨entries, t.nodupKeys.sublist sublist⟩, rfl⟩

/-- The one map, and the other where the one has nothing. -/
def overriding (top base : K → Option V) : K → Option V := fun key => (top key).or (base key)

theorem overriding_none (m : K → Option V) : overriding (fun _ => none) m = m := funext fun _ => Option.none_or

theorem overriding_nothing (m : K → Option V) : overriding m (fun _ => none) = m := funext fun _ => Option.or_none

theorem overriding_assoc (top middle base : K → Option V) :
    overriding top (overriding middle base) = overriding (overriding top middle) base :=
  funext fun _ => Option.or_assoc.symm

variable [DecidableEq K]

/-- The map that a table stands for. -/
def contents (t : Table K V) : K → Option V := fun key => t.lookup key

/-- One assignment after the other. -/
def assigned (m : K → Option V) (l : List (K × V)) : K → Option V :=
  l.foldl (fun m (key, value) => Function.update m key (some value)) m

/-- What stands under certain keys. -/
def restricted (m : K → Option V) (keys : List K) : K → Option V := fun key => if key ∈ keys then m key else none

/-- The pairs are put into the table in order. -/
def insertAll (t : Table K V) (l : List (K × V)) : Table K V := l.foldl (fun t (key, value) => t.insert key value) t

theorem mem_pairs {t : Table K V} {key : K} {value : V} : (key, value) ∈ pairs t ↔ contents t key = some value := by
  rw [contents, ← Option.mem_def, AList.mem_lookup_iff, pairs, List.mem_map]
  constructor
  · rintro ⟨e, member, same⟩
    cases same
    exact member
  · exact fun member => ⟨⟨key, value⟩, member, rfl⟩

theorem contents_eq_none {t : Table K V} {key : K} : contents t key = none ↔ key ∉ t := AList.lookup_eq_none

private theorem assigned_entries {l : List (Sigma fun _ : K => V)} (distinct : l.NodupKeys) (m : K → Option V) (key : K) :
    assigned m (l.map fun e => (e.1, e.2)) key = (l.dlookup key).or (m key) := by
  induction l generalizing m with
  | nil => rfl
  | cons e rest ih =>
    have later := ih (List.nodupKeys_cons.mp distinct).2 (Function.update m e.1 (some e.2))
    rw [List.map_cons, assigned, List.foldl_cons]
    refine later.trans ?_
    by_cases same : key = e.1
    · subst same
      have fresh : rest.dlookup e.1 = none := List.dlookup_eq_none.mpr (List.nodupKeys_cons.mp distinct).1
      rw [fresh, Function.update_self]
      exact (congrArg (Option.or · _) (List.dlookup_cons_eq rest e.1 e.2)).symm
    · rw [Function.update_of_ne same, List.dlookup_cons_ne rest e same]

theorem assigned_pairs (m : K → Option V) (t : Table K V) : assigned m (pairs t) = overriding (contents t) m :=
  funext fun key => assigned_entries t.nodupKeys m key

/-- Where a key's pair is among those left out, the map has to have it before. -/
theorem assigned_part {t : Table K V} {l : List (K × V)} (part : l.Sublist (pairs t)) (m : K → Option V) (key : K) :
    assigned m l key = overriding (contents t) m key ↔
      ∀ value, (key, value) ∈ pairs t → (key, value) ∉ l → m key = some value := by
  obtain ⟨t', rfl⟩ := exists_part part
  rw [assigned_pairs, overriding, overriding]
  cases whole : contents t key with
  | none =>
    have absent : contents t' key = none := by
      rw [Option.eq_none_iff_forall_ne_some]
      intro value stands
      have member := mem_pairs.mp (part.subset (mem_pairs.mpr stands))
      rw [whole] at member
      cases member
    refine iff_of_true (by rw [absent]) ?_
    intro value member
    rw [mem_pairs, whole] at member
    cases member
  | some value =>
    have only : ∀ {v}, (key, v) ∈ pairs t → v = value := fun member => Option.some.inj ((mem_pairs.mp member).symm.trans whole)
    by_cases kept : (key, value) ∈ pairs t'
    · rw [mem_pairs.mp kept]
      refine iff_of_true rfl ?_
      intro v member left
      rw [only member] at left
      exact absurd kept left
    · have absent : contents t' key = none := by
        rw [Option.eq_none_iff_forall_ne_some]
        intro v stands
        have member := mem_pairs.mpr stands
        rw [only (part.subset member)] at member
        exact kept member
      rw [absent, Option.none_or, Option.some_or]
      constructor
      · intro before v member _
        rw [only member]
        exact before
      · exact fun before => before value (mem_pairs.mpr whole) kept

theorem contents_insert (t : Table K V) (key : K) (value : V) :
    contents (t.insert key value) = Function.update (contents t) key (some value) := by
  funext k
  by_cases same : k = key
  · subst same
    rw [Function.update_self]
    exact AList.lookup_insert t
  · rw [Function.update_of_ne same]
    exact AList.lookup_insert_ne same

theorem contents_insertAll (t : Table K V) (l : List (K × V)) : contents (insertAll t l) = assigned (contents t) l := by
  induction l generalizing t with
  | nil => rfl
  | cons pair rest ih =>
    rw [insertAll, List.foldl_cons]
    refine (ih _).trans ?_
    rw [contents_insert]
    rfl

theorem mem_insertAll {t : Table K V} {l : List (K × V)} {key : K} : key ∈ insertAll t l ↔ key ∈ t ∨ key ∈ l.map Prod.fst := by
  induction l generalizing t with
  | nil => simp [insertAll]
  | cons pair rest ih =>
    have later : key ∈ insertAll (t.insert pair.1 pair.2) rest ↔ _ := ih
    rw [insertAll, List.foldl_cons]
    refine later.trans ?_
    rw [AList.mem_insert, List.map_cons, List.mem_cons]
    tauto

private theorem keys_insertAll (l : List (K × V)) :
    (insertAll (∅ : Table K V) l).keys.toFinset = (l.map Prod.fst).toFinset := by
  ext key
  rw [List.mem_toFinset, List.mem_toFinset, ← AList.mem_keys, mem_insertAll]
  simp

/-- No pair adds more than one key. -/
theorem size_insertAll_le (l : List (K × V)) : (insertAll (∅ : Table K V) l).keys.length ≤ l.length := by
  rw [← List.toFinset_card_of_nodup (AList.keys_nodup _), keys_insertAll, ← List.length_map Prod.fst]
  exact List.toFinset_card_le _

/-- Each pair adds a key exactly if no key comes twice. -/
theorem size_insertAll (l : List (K × V)) : l.length = (insertAll (∅ : Table K V) l).keys.length ↔ (l.map Prod.fst).Nodup := by
  rw [← List.toFinset_card_of_nodup (AList.keys_nodup _), keys_insertAll, ← List.length_map Prod.fst, eq_comm]
  exact Multiset.toFinset_card_eq_card_iff_nodup

theorem contents_union (top base : Table K V) : contents (top ∪ base) = overriding (contents top) (contents base) := by
  funext key
  by_cases member : key ∈ top
  · obtain ⟨value, stands⟩ := Option.isSome_iff_exists.mp (AList.lookup_isSome.mpr member)
    rw [overriding, contents, contents, AList.lookup_union_left member, stands, Option.some_or]
  · rw [overriding, contents_eq_none.mpr member, Option.none_or]
    exact AList.lookup_union_right member

/-- The order of the pairs makes no difference. -/
theorem contents_perm {t t' : Table K V} (same : t.entries.Perm t'.entries) : contents t = contents t' :=
  funext fun _ => AList.perm_lookup same

/-- The orders in which tables are listed. -/
structure Order (K V : Type) [DecidableEq K] where
  arrange : Table K V → Table K V
  same : ∀ t, (arrange t).entries.Perm t.entries

instance : Inhabited (Order K V) := ⟨id, fun _ => .refl _⟩

theorem Order.contents_arrange (order : Order K V) (t : Table K V) : contents (order.arrange t) = contents t :=
  contents_perm (order.same t)

theorem Order.length_arrange (order : Order K V) (t : Table K V) : (pairs (order.arrange t)).length = (pairs t).length := by
  rw [length_pairs, length_pairs, (order.same t).length_eq]

/-- As many pairs stand for the same map. -/
theorem length_eq_of_contents {t t' : Table K V} (same : contents t = contents t') : (pairs t).length = (pairs t').length := by
  rw [length_pairs, length_pairs]
  refine (List.lookup_ext t.nodupKeys t'.nodupKeys ?_).length_eq
  intro key value
  have here := congrFun same key
  rw [contents, contents, AList.lookup, AList.lookup] at here
  rw [here]

theorem restricted_nil (m : K → Option V) : restricted m [] = fun _ => none := funext fun _ => if_neg List.not_mem_nil

/-- A key with nothing under it makes no difference. -/
theorem restricted_cons_none {m : K → Option V} {key : K} (absent : m key = none) (keys : List K) :
    restricted m (key :: keys) = restricted m keys := by
  funext k
  by_cases same : k = key
  · subst same
    simp only [restricted, List.mem_cons, true_or, ↓reduceIte, absent, ite_self]
  · simp only [restricted, List.mem_cons, same, false_or]

/-- The first key may as well be assigned before. -/
theorem restricted_cons_some {m : K → Option V} {key : K} {value : V} (stands : m key = some value) (keys : List K)
    (base : K → Option V) :
    overriding (restricted m (key :: keys)) base =
      overriding (restricted m keys) (Function.update base key (some value)) := by
  funext k
  by_cases same : k = key
  · subst same
    by_cases again : k ∈ keys <;>
      simp only [overriding, restricted, List.mem_cons, true_or, ↓reduceIte, stands, again, Option.some_or, Option.none_or,
        Function.update_self]
  · simp only [overriding, restricted, List.mem_cons, same, false_or, Function.update_of_ne same]

/-- Fewer keys are enough where those left out have nothing. -/
theorem restricted_part {m m' : K → Option V} {keys part : List K} (within : ∀ key ∈ part, key ∈ keys) :
    restricted m part = restricted m' keys ↔
      (∀ key ∈ part, m key = m' key) ∧ ∀ key ∈ keys, key ∉ part → m' key = none := by
  rw [funext_iff]
  unfold restricted
  constructor
  · intro same
    constructor
    · intro key member
      have here := same key
      rw [if_pos member, if_pos (within key member)] at here
      exact here
    · intro key member left
      have here := same key
      rw [if_neg left, if_pos member] at here
      exact here.symm
  · rintro ⟨kept, left⟩ key
    by_cases inside : key ∈ part
    · rw [if_pos inside, if_pos (within key inside), kept key inside]
    · rw [if_neg inside]
      by_cases member : key ∈ keys
      · rw [if_pos member, left key member inside]
      · rw [if_neg member]

/-- The map in which the last pair for a key stands. -/
def lastWins (l : List (K × V)) : K → Option V := assigned (fun _ => none) l

/-- One assignment overrides what was there. -/
private theorem overriding_one (m : K → Option V) (key : K) (value : V) :
    overriding (Function.update (fun _ => none) key (some value)) m = Function.update m key (some value) := by
  funext k
  by_cases same : k = key
  · subst same
    rw [overriding, Function.update_self, Function.update_self, Option.some_or]
  · rw [overriding, Function.update_of_ne same, Function.update_of_ne same, Option.none_or]

/-- Assignments in order do what the map of the last ones does. -/
theorem assigned_eq (m : K → Option V) (l : List (K × V)) : assigned m l = overriding (lastWins l) m := by
  induction l generalizing m with
  | nil => exact (overriding_none m).symm
  | cons pair rest ih =>
    obtain ⟨key, value⟩ := pair
    have here : assigned m ((key, value) :: rest) = overriding (lastWins rest) (Function.update m key (some value)) := ih _
    have alone : lastWins ((key, value) :: rest) =
        overriding (lastWins rest) (Function.update (fun _ => none) key (some value)) := ih _
    rw [here, alone, ← overriding_one, overriding_assoc]

theorem lastWins_pairs (t : Table K V) : lastWins (pairs t) = contents t := by
  rw [lastWins, assigned_pairs, overriding_nothing]

/-- A table with the last pairs has no more than there are. -/
theorem length_pairs_le {t : Table K V} {l : List (K × V)} (last : contents t = lastWins l) : (pairs t).length ≤ l.length := by
  have same : contents t = contents (insertAll ∅ l) := last.trans (contents_insertAll ∅ l).symm
  rw [length_eq_of_contents same, length_pairs]
  have bound := size_insertAll_le l
  rwa [AList.keys, List.keys, List.length_map] at bound

end CppRedis.Tables

import CppRedis.Buckets
import CppRedis.Requests

/-!
The hash tables of hiredis, which keep the callbacks of subscriptions. A table has as
many chains as its size, which is doubled when there is an entry for each. `Wf` is what
every operation keeps. In every run of operations each gives what it gives on a finite
map (`gives_mapped`), and the iterator gives each entry once (`walks`).
-/
namespace CppRedis.Dicts
open CppRedis.Strings CppRedis.Requests CppRedis.Buckets

/-- The functions of a `dictType` that say which keys are equal: equal keys have one
    hash. -/
structure DictType (κ : Type) where
  hashFunction : κ → UInt32
  keyCompare : κ → κ → Bool
  equiv : Equivalence fun a b => keyCompare a b = true
  hashed : ∀ {a b}, keyCompare a b = true → hashFunction a = hashFunction b

/-- `table` has `size` chains. -/
structure Dict (κ ν : Type) where
  table : List (List (κ × ν)) := []
  used : Nat := 0

structure DictIterator (κ ν : Type) where
  index : Int := -1
  entry : List (κ × ν) := []
  nextEntry : List (κ × ν) := []

def DICT_HT_INITIAL_SIZE : Nat := 4

def LONG_MAX : Nat := 2 ^ 63 - 1

/-- The loop of `dictGenHashFunction`. -/
def dictGenHashFunction (buf : Str) : UInt32 := buf.foldl (fun hash c => (hash <<< 5) + hash + c.toUInt32) 5381

def dictCreate (κ ν : Type) : Dict κ ν := {}

/-- The loop of `_dictNextPower`, where so many doublings are enough. -/
def dictNextPower_from : Nat → Nat → Nat → Nat
  | 0, i, _ => i
  | fuel + 1, i, size => if size ≤ i then i else dictNextPower_from fuel (i * 2) size

/-- `_dictNextPower`. -/
def dictNextPower (size : Nat) : Nat :=
  if LONG_MAX ≤ size then LONG_MAX else dictNextPower_from 64 DICT_HT_INITIAL_SIZE size

namespace Dict
variable {κ ν : Type} (type : DictType κ)

def size (ht : Dict κ ν) : Nat := ht.table.length

/-- `dictHashKey(ht, key) & ht->sizemask`. -/
def slot (size : Nat) (key : κ) : Nat := (type.hashFunction key).toNat &&& (size - 1)

/-- The loop of `dictExpand` over a chain: the entries go to the heads of their chains in
    `n.table`, and `ht->used` is counted down. -/
def rehash_chain : List (κ × ν) → List (List (κ × ν)) → Nat → List (List (κ × ν)) × Nat
  | [], table, used => (table, used)
  | he :: chain, table, used =>
    let h := slot type table.length he.1
    rehash_chain chain (table.set h (he :: bucket table h)) (used - 1)

/-- The loop of `dictExpand` over the old table. -/
def rehash : List (List (κ × ν)) → List (List (κ × ν)) → Nat → List (List (κ × ν)) × Nat
  | [], table, used => (table, used)
  | chain :: rest, table, used =>
    if used = 0 then (table, used)
    else
      let (table, used) := rehash_chain type chain table used
      rehash rest table used

/-- `dictExpand`, true for `DICT_OK`; none where its assertion fails. -/
def dictExpand (size : Nat) (ht : Dict κ ν) : Option (Bool × Dict κ ν) :=
  let realsize := dictNextPower size
  if size < ht.used then some (false, ht)
  else
    match rehash type ht.table (List.replicate realsize []) ht.used with
    | (table, 0) => some (true, { table := table, used := ht.used })
    | _ => none

/-- `_dictExpandIfNeeded`. -/
def dictExpandIfNeeded (ht : Dict κ ν) : Option (Bool × Dict κ ν) :=
  if ht.size = 0 then ht.dictExpand type DICT_HT_INITIAL_SIZE
  else if ht.used = ht.size then ht.dictExpand type (ht.size * 2)
  else some (true, ht)

/-- `_dictKeyIndex`. -/
def dictKeyIndex (key : κ) (ht : Dict κ ν) : Option (Int × Dict κ ν) :=
  match ht.dictExpandIfNeeded type with
  | none => none
  | some (false, ht) => some (-1, ht)
  | some (true, ht) =>
    let h := slot type ht.size key
    if (bucket ht.table h).any (fun he => type.keyCompare key he.1) = true then some (-1, ht) else some (int_of_size h, ht)

/-- `dictAdd`, true for `DICT_OK`. There is no result where the index is no place in the
    table. -/
def dictAdd (key : κ) (val : ν) (ht : Dict κ ν) : Option (Bool × Dict κ ν) :=
  match ht.dictKeyIndex type key with
  | none => none
  | some (index, ht) =>
    if index = -1 then some (false, ht)
    else if index < 0 then none
    else
      some (true, { table := ht.table.set index.toNat ((key, val) :: bucket ht.table index.toNat), used := ht.used + 1 })

def dictFind (key : κ) (ht : Dict κ ν) : Option (κ × ν) :=
  if ht.size = 0 then none
  else (bucket ht.table (slot type ht.size key)).find? fun he => type.keyCompare key he.1

/-- `dictSetHashVal` on the entry that `dictFind` gives. -/
def set_val (key : κ) (val : ν) : List (κ × ν) → List (κ × ν)
  | [] => []
  | he :: chain => if type.keyCompare key he.1 = true then (he.1, val) :: chain else he :: set_val key val chain

/-- `dictReplace`, true where the key is new. There is no result where there is no
    entry to set. -/
def dictReplace (key : κ) (val : ν) (ht : Dict κ ν) : Option (Bool × Dict κ ν) :=
  match ht.dictAdd type key val with
  | none => none
  | some (true, ht) => some (true, ht)
  | some (false, ht) =>
    match ht.dictFind type key with
    | none => none
    | some _ =>
      let h := slot type ht.size key
      some (false, { ht with table := ht.table.set h (set_val type key val (bucket ht.table h)) })

/-- The loop of `dictDelete`: the chain without the entry, if there is one. -/
def unlink (key : κ) : List (κ × ν) → Option (List (κ × ν))
  | [] => none
  | de :: chain => if type.keyCompare key de.1 = true then some chain else (unlink key chain).map (de :: ·)

/-- `dictDelete`, true for `DICT_OK`. -/
def dictDelete (key : κ) (ht : Dict κ ν) : Bool × Dict κ ν :=
  if ht.size = 0 then (false, ht)
  else
    let h := slot type ht.size key
    match unlink type key (bucket ht.table h) with
    | none => (false, ht)
    | some chain => (true, { table := ht.table.set h chain, used := ht.used - 1 })

/-- The loop of `dictNext`. -/
def dictNext_from (ht : Dict κ ν) : Nat → DictIterator κ ν → Option (κ × ν) × DictIterator κ ν
  | 0, iter => (none, iter)
  | fuel + 1, iter =>
    match iter.entry with
    | [] =>
      let index := iter.index + 1
      if int_of_size ht.size ≤ index then (none, { iter with index := index })
      else
        match bucket ht.table index.toNat with
        | [] => dictNext_from ht fuel { iter with index := index, entry := [] }
        | he :: next => (some he, { index := index, entry := he :: next, nextEntry := next })
    | _ :: _ =>
      match iter.nextEntry with
      | [] => dictNext_from ht fuel { iter with entry := [] }
      | he :: next => (some he, { iter with entry := he :: next, nextEntry := next })

def dictNext (ht : Dict κ ν) (iter : DictIterator κ ν) : Option (κ × ν) × DictIterator κ ν :=
  dictNext_from ht (ht.size + 2) iter

def dictGetIterator : DictIterator κ ν := {}

/-- `while ((de = dictNext(it)) != NULL)`: what `de` is, one after the other. -/
def visits (ht : Dict κ ν) : Nat → DictIterator κ ν → List (κ × ν)
  | 0, _ => []
  | fuel + 1, iter =>
    match ht.dictNext iter with
    | (none, _) => []
    | (some de, iter) => de :: visits ht fuel iter

/-- The loop with a new iterator. -/
def walk (ht : Dict κ ν) : List (κ × ν) := ht.visits (ht.used + 1) dictGetIterator

end Dict

/-! ### The table of callbacks -/

def callbackHash (key : Str) : UInt32 := dictGenHashFunction (key.take (int_of_size key.length).toNat)

def callbackKeyCompare (key1 key2 : Str) : Bool :=
  let l1 := int_of_size key1.length
  let l2 := int_of_size key2.length
  if l1 ≠ l2 then false else key1.take l1.toNat = key2.take l1.toNat

theorem callbackKeyCompare_iff {key1 key2 : Str} :
    callbackKeyCompare key1 key2 = true ↔
      int_of_size key1.length = int_of_size key2.length ∧
        key1.take (int_of_size key1.length).toNat = key2.take (int_of_size key2.length).toNat := by
  unfold callbackKeyCompare
  by_cases lengths : int_of_size key1.length = int_of_size key2.length
  · simp [lengths]
  · simp [lengths]

def callbackDict : DictType Str where
  hashFunction := callbackHash
  keyCompare := callbackKeyCompare
  equiv := by
    refine ⟨fun a => ?_, ?_, ?_⟩
    · exact callbackKeyCompare_iff.mpr ⟨rfl, rfl⟩
    · intro a b equal
      obtain ⟨lengths, bytes⟩ := callbackKeyCompare_iff.mp equal
      exact callbackKeyCompare_iff.mpr ⟨lengths.symm, bytes.symm⟩
    · intro a b c equal equal'
      obtain ⟨lengths, bytes⟩ := callbackKeyCompare_iff.mp equal
      obtain ⟨lengths', bytes'⟩ := callbackKeyCompare_iff.mp equal'
      exact callbackKeyCompare_iff.mpr ⟨lengths.trans lengths', bytes.trans bytes'⟩
  hashed := fun equal => congrArg dictGenHashFunction (callbackKeyCompare_iff.mp equal).2

/-! ### What every operation keeps -/

variable {κ ν : Type} {type : DictType κ} {ht ht' : Dict κ ν} {key : κ} {val : ν}

namespace Dict

def entries (ht : Dict κ ν) : List (κ × ν) := ht.table.flatten

theorem slot_lt (type : DictType κ) {size : Nat} (filled : 0 < size) (key : κ) : slot type size key < size := by
  have masked : slot type size key ≤ size - 1 := Nat.and_le_right
  omega

theorem slot_same (size : Nat) {a b : κ} (equal : type.keyCompare a b = true) : slot type size a = slot type size b := by
  rw [slot, slot, type.hashed equal]

/-- Where an entry belongs. -/
def place (type : DictType κ) (size : Nat) (e : κ × ν) : Nat := slot type size e.1

/-- What a chain has of a key is what the table has of it. -/
theorem chain_iff {size : Nat} {table : List (List (κ × ν))} (placed : Placed (place type size) table) {e : κ × ν} :
    e ∈ bucket table (slot type size key) ∧ type.keyCompare key e.1 = true ↔
      e ∈ table.flatten ∧ type.keyCompare key e.1 = true := by
  refine and_congr_left fun equal => ?_
  have there : slot type size key = place type size e := slot_same size equal
  rw [there]
  exact placed.mem_iff

private theorem rehash_chain_places {size : Nat} (filled : 0 < size) (chain : List (κ × ν)) {table : List (List (κ × ν))}
    (length : table.length = size) (placed : Placed (place type size) table) (used : Nat) :
    ∃ table', rehash_chain type chain table used = (table', used - chain.length) ∧ table'.length = size ∧
      Placed (place type size) table' ∧ table'.flatten.Perm (chain ++ table.flatten) := by
  induction chain generalizing table used with
  | nil => exact ⟨table, rfl, length, placed, .refl _⟩
  | cons he chain ih =>
    have inside : slot type size he.1 < table.length := by
      rw [length]
      exact slot_lt type filled he.1
    obtain ⟨rest, whole, changed⟩ := split_bucket inside
    have next : Placed (place type size) (table.set (slot type size he.1) (he :: bucket table (slot type size he.1))) := by
      apply placed.set inside
      intro e member
      rcases List.mem_cons.mp member with rfl | member
      · rfl
      · exact placed _ e member
    obtain ⟨table', is, length', placed', order⟩ := ih (List.length_set.trans length) next (used - 1)
    refine ⟨table', ?_, length', placed', ?_⟩
    · rw [rehash_chain, length, is, List.length_cons, Nat.sub_sub, Nat.add_comm 1]
    · have head := (changed (he :: bucket table (slot type size he.1))).trans (List.Perm.cons he whole.symm)
      exact (order.trans (head.append_left chain)).trans List.perm_middle

/-- All entries of the old table go to the new one, and the count comes down to none. -/
private theorem rehash_places {size : Nat} (filled : 0 < size) (rest : List (List (κ × ν))) {table : List (List (κ × ν))}
    (length : table.length = size) (placed : Placed (place type size) table) :
    ∃ table', rehash type rest table rest.flatten.length = (table', 0) ∧ table'.length = size ∧
      Placed (place type size) table' ∧ table'.flatten.Perm (rest.flatten ++ table.flatten) := by
  induction rest generalizing table with
  | nil => exact ⟨table, rfl, length, placed, .refl _⟩
  | cons chain rest ih =>
    by_cases none : (chain :: rest).flatten.length = 0
    · refine ⟨table, ?_, length, placed, ?_⟩
      · rw [rehash, if_pos none, none]
      · rw [List.length_eq_zero_iff.mp none, List.nil_append]
    · obtain ⟨table₁, is₁, length₁, placed₁, order₁⟩ :=
        rehash_chain_places filled chain length placed (chain :: rest).flatten.length
      obtain ⟨table₂, is₂, length₂, placed₂, order₂⟩ := ih length₁ placed₁
      refine ⟨table₂, ?_, length₂, placed₂, ?_⟩
      · rw [rehash, if_neg none, is₁]
        simp only [List.flatten_cons, List.length_append, Nat.add_sub_cancel_left]
        exact is₂
      · refine order₂.trans ((order₁.append_left _).trans ?_)
        rw [List.flatten_cons, ← List.append_assoc]
        exact List.perm_append_comm.append_right _

theorem dictNextPower_power {p : Nat} (small : p ≤ 60) : dictNextPower (2 ^ (p + 2)) = 2 ^ (p + 2) := by
  have doubled : ∀ fuel a, a ≤ p → p - a < fuel → dictNextPower_from fuel (2 ^ (a + 2)) (2 ^ (p + 2)) = 2 ^ (p + 2) := by
    intro fuel
    induction fuel with
    | zero => exact fun a _ none => absurd none (Nat.not_lt_zero _)
    | succ fuel ih =>
      intro a le enough
      unfold dictNextPower_from
      rcases Nat.eq_or_lt_of_le le with rfl | lt
      · rw [if_pos (Nat.le_refl _)]
      · have smaller : 2 ^ (a + 2) < 2 ^ (p + 2) := Nat.pow_lt_pow_right (by omega) (by omega)
        rw [if_neg (by omega), ← Nat.pow_succ]
        exact ih (a + 1) lt (by omega)
  have below : 2 ^ (p + 2) < LONG_MAX := by
    have le : 2 ^ (p + 2) ≤ 2 ^ 62 := Nat.pow_le_pow_right (by omega) (by omega)
    unfold LONG_MAX
    omega
  unfold dictNextPower
  rw [if_neg (by omega)]
  exact doubled 64 0 (Nat.zero_le _) (by omega)

/-- What every operation keeps: the entries are counted, each is in its chain, no key
    stands twice, and the size is a power of two with room for all. -/
structure Wf (type : DictType κ) (ht : Dict κ ν) : Prop where
  counted : ht.used = ht.entries.length
  placed : Placed (place type ht.size) ht.table
  distinct : Distinct type.keyCompare ht.entries
  power : ht.size = 0 ∨ ∃ p ≤ 28, ht.size = 2 ^ (p + 2)
  room : ht.used ≤ ht.size

theorem wf_create (type : DictType κ) : Wf type (dictCreate κ ν) :=
  ⟨rfl, fun _ _ member => by simp [dictCreate, bucket] at member, .nil, .inl rfl, Nat.le_refl 0⟩

theorem Wf.small (wf : Wf type ht) : ht.size ≤ 2 ^ 30 := by
  rcases wf.power with empty | ⟨p, le, is⟩
  · omega
  · rw [is]
    exact Nat.pow_le_pow_right (by omega) (by omega)

private theorem dictExpand_wf {p : Nat} (wf : Wf type ht) (le : p ≤ 28) (more : ht.used < 2 ^ (p + 2)) :
    ∃ ht', ht.dictExpand type (2 ^ (p + 2)) = some (true, ht') ∧ Wf type ht' ∧ ht'.size = 2 ^ (p + 2) ∧
      ht'.used = ht.used ∧ ht'.entries.Perm ht.entries := by
  have power := dictNextPower_power (p := p) (by omega)
  have filled : 0 < 2 ^ (p + 2) := Nat.pow_pos (by omega)
  obtain ⟨table, is, length, placed, order⟩ :=
    rehash_places filled ht.table (List.length_replicate (a := []) (n := 2 ^ (p + 2))) (placed_replicate _)
  have nothing : (List.replicate (2 ^ (p + 2)) ([] : List (κ × ν))).flatten = [] := by simp
  rw [nothing, List.append_nil] at order
  refine ⟨{ table := table, used := ht.used }, ?_, ?_, length, rfl, order⟩
  · have counted : ht.used = ht.table.flatten.length := wf.counted
    unfold dictExpand
    rw [if_neg (by omega), power, counted, is]
    rfl
  · refine ⟨wf.counted.trans order.length_eq.symm, ?_, wf.distinct.perm type.equiv order.symm, .inr ⟨p, le, length⟩, ?_⟩
    · show Placed (place type table.length) table
      rw [length]
      exact placed
    · show ht.used ≤ table.length
      omega

/-- There is a place for one more entry. -/
theorem dictExpandIfNeeded_wf (wf : Wf type ht) (few : ht.used < 2 ^ 30) :
    ∃ ht', ht.dictExpandIfNeeded type = some (true, ht') ∧ Wf type ht' ∧ ht'.used < ht'.size ∧ ht'.used = ht.used ∧
      ht'.entries.Perm ht.entries := by
  have room := wf.room
  unfold dictExpandIfNeeded
  by_cases empty : ht.size = 0
  · rw [if_pos empty]
    obtain ⟨ht', is, wf', size, used, order⟩ := dictExpand_wf (p := 0) wf (by omega) (by omega)
    exact ⟨ht', is, wf', by omega, used, order⟩
  · rw [if_neg empty]
    by_cases full : ht.used = ht.size
    · rw [if_pos full]
      obtain none | ⟨p, le, is⟩ := wf.power
      · omega
      · have less : p ≠ 28 := by
          rintro rfl
          omega
        have double : ht.size * 2 = 2 ^ (p + 1 + 2) := by rw [is, ← Nat.pow_succ]
        obtain ⟨ht', is', wf', size, used, order⟩ := dictExpand_wf (p := p + 1) wf (by omega) (by omega)
        rw [double]
        exact ⟨ht', is', wf', by omega, used, order⟩
    · rw [if_neg full]
      exact ⟨ht, rfl, wf, by omega, rfl, .refl _⟩

/-- The key stands in the table. -/
def Has (type : DictType κ) (ht : Dict κ ν) (key : κ) : Prop := ∃ e ∈ ht.entries, type.keyCompare key e.1 = true

theorem dictKeyIndex_wf (wf : Wf type ht) (few : ht.used < 2 ^ 30) (key : κ) :
    ∃ ht', Wf type ht' ∧ ht'.used < ht'.size ∧ ht'.used = ht.used ∧ ht'.entries.Perm ht.entries ∧
      ((ht.Has type key ∧ ht.dictKeyIndex type key = some (-1, ht')) ∨
        (¬ ht.Has type key ∧ ht.dictKeyIndex type key = some (((slot type ht'.size key : Nat) : Int), ht'))) := by
  obtain ⟨ht', is, wf', room, used, order⟩ := dictExpandIfNeeded_wf wf few
  refine ⟨ht', wf', room, used, order, ?_⟩
  have there : (bucket ht'.table (slot type ht'.size key)).any (fun he => type.keyCompare key he.1) = true ↔ ht.Has type key := by
    rw [List.any_eq_true]
    refine exists_congr fun e => ?_
    rw [chain_iff wf'.placed]
    exact and_congr_left fun _ => order.mem_iff
  unfold dictKeyIndex
  rw [is]
  dsimp only
  by_cases present : ht.Has type key
  · left
    rw [if_pos (there.mpr present)]
    exact ⟨present, rfl⟩
  · right
    have inside := slot_lt type (Nat.zero_lt_of_lt room) key
    have small := wf'.small
    rw [if_neg fun any => present (there.mp any), int_of_size_small (by omega)]
    exact ⟨present, rfl⟩

/-- One chain is another, and the entries are counted and different. -/
private theorem Wf.set (wf : Wf type ht) {h n : Nat} {chain : List (κ × ν)} (inside : h < ht.table.length)
    (here : ∀ e ∈ chain, place type ht.size e = h) (counted : n = (ht.table.set h chain).flatten.length)
    (distinct : Distinct type.keyCompare (ht.table.set h chain).flatten) (room : n ≤ ht.size) :
    Wf type { table := ht.table.set h chain, used := n } := by
  have length : (ht.table.set h chain).length = ht.size := List.length_set
  refine ⟨counted, ?_, distinct, ?_, ?_⟩
  · show Placed (place type (ht.table.set h chain).length) (ht.table.set h chain)
    rw [length]
    exact wf.placed.set inside here
  · show (ht.table.set h chain).length = 0 ∨ ∃ p ≤ 28, (ht.table.set h chain).length = 2 ^ (p + 2)
    rw [length]
    exact wf.power
  · show n ≤ (ht.table.set h chain).length
    rw [length]
    exact room

theorem dictAdd_wf (wf : Wf type ht) (few : ht.used < 2 ^ 30) (key : κ) (val : ν) :
    ∃ ht', Wf type ht' ∧
      ((ht.Has type key ∧ ht.dictAdd type key val = some (false, ht') ∧ ht'.used = ht.used ∧ ht'.entries.Perm ht.entries) ∨
        (¬ ht.Has type key ∧ ht.dictAdd type key val = some (true, ht') ∧ ht'.used = ht.used + 1 ∧
          ht'.entries.Perm ((key, val) :: ht.entries))) := by
  obtain ⟨ht', wf', room, used, order, ⟨present, is⟩ | ⟨absent, is⟩⟩ := dictKeyIndex_wf wf few key
  · refine ⟨ht', wf', .inl ⟨present, ?_, used, order⟩⟩
    unfold dictAdd
    rw [is]
    rfl
  · have inside : slot type ht'.size key < ht'.table.length := slot_lt type (Nat.zero_lt_of_lt room) key
    obtain ⟨rest, whole, changed⟩ := split_bucket inside
    have added := (changed ((key, val) :: bucket ht'.table (slot type ht'.size key))).trans (List.Perm.cons (key, val) whole.symm)
    have fresh : ∀ e ∈ ht'.entries, type.keyCompare key e.1 = false := by
      intro e member
      by_contra equal
      exact absent ⟨e, order.mem_iff.mp member, by simpa using equal⟩
    refine ⟨{ table := ht'.table.set (slot type ht'.size key) ((key, val) :: bucket ht'.table (slot type ht'.size key)),
              used := ht'.used + 1 }, ?_, .inr ⟨absent, ?_, by rw [used], added.trans (order.cons _)⟩⟩
    · refine wf'.set inside ?_ ?_ ((wf'.distinct.cons fresh val).perm type.equiv added.symm) room
      · intro e member
        rcases List.mem_cons.mp member with rfl | member
        · rfl
        · exact wf'.placed _ e member
      · rw [added.length_eq, List.length_cons, wf'.counted, entries]
    · unfold dictAdd
      rw [is]
      dsimp only
      rw [if_neg (by omega), if_neg (by omega), Int.toNat_natCast]

theorem dictFind_some (wf : Wf type ht) {e : κ × ν} (is : ht.dictFind type key = some e) :
    e ∈ ht.entries ∧ type.keyCompare key e.1 = true := by
  unfold dictFind at is
  split at is
  · cases is
  · exact (chain_iff wf.placed).mp ⟨List.mem_of_find?_eq_some is, by simpa using List.find?_some is⟩

theorem dictFind_none (wf : Wf type ht) (is : ht.dictFind type key = none) : ¬ ht.Has type key := by
  rintro ⟨e, member, equal⟩
  have there := (chain_iff wf.placed).mpr ⟨member, equal⟩
  unfold dictFind at is
  split at is
  · rename_i empty
    have nothing : ht.table = [] := List.length_eq_zero_iff.mp empty
    rw [entries, nothing] at member
    cases member
  · exact List.find?_eq_none.mp is e there.1 equal

/-- The entry of a key gets another value. -/
private theorem set_val_perm {chain : List (κ × ν)} {e : κ × ν} (member : e ∈ chain)
    (equal : type.keyCompare key e.1 = true) (val : ν) :
    ∃ k old others, type.keyCompare key k = true ∧ chain.Perm ((k, old) :: others) ∧
      (set_val type key val chain).Perm ((k, val) :: others) := by
  induction chain with
  | nil => cases member
  | cons he chain ih =>
    unfold set_val
    by_cases here : type.keyCompare key he.1 = true
    · rw [if_pos here]
      exact ⟨he.1, he.2, chain, here, .refl _, .refl _⟩
    · rw [if_neg here]
      rcases List.mem_cons.mp member with rfl | member
      · exact absurd equal here
      · obtain ⟨k, old, others, equal', order, order'⟩ := ih member
        exact ⟨k, old, he :: others, equal', (order.cons he).trans (.swap _ _ _), (order'.cons he).trans (.swap _ _ _)⟩

theorem dictReplace_wf (wf : Wf type ht) (few : ht.used < 2 ^ 30) (key : κ) (val : ν) :
    ∃ ht', Wf type ht' ∧
      ((ht.Has type key ∧ ht.dictReplace type key val = some (false, ht') ∧ ht'.used = ht.used ∧
          ∃ k old others, type.keyCompare key k = true ∧ ht.entries.Perm ((k, old) :: others) ∧
            ht'.entries.Perm ((k, val) :: others)) ∨
        (¬ ht.Has type key ∧ ht.dictReplace type key val = some (true, ht') ∧ ht'.used = ht.used + 1 ∧
          ht'.entries.Perm ((key, val) :: ht.entries))) := by
  obtain ⟨ht₁, wf₁, ⟨present, is, used, order⟩ | ⟨absent, is, used, order⟩⟩ := dictAdd_wf wf few key val
  · cases found : ht₁.dictFind type key with
    | none =>
      obtain ⟨e, member, equal⟩ := present
      exact absurd ⟨e, order.mem_iff.mpr member, equal⟩ (dictFind_none wf₁ found)
    | some e =>
      obtain ⟨member, equal⟩ := dictFind_some wf₁ found
      have there := (chain_iff wf₁.placed).mpr ⟨member, equal⟩
      have filled : 0 < ht₁.size := by
        rw [Nat.pos_iff_ne_zero]
        intro empty
        unfold dictFind at found
        rw [if_pos empty] at found
        cases found
      have inside : slot type ht₁.size key < ht₁.table.length := slot_lt type filled key
      obtain ⟨k, old, others, equal', chain, chain'⟩ := set_val_perm there.1 equal val
      obtain ⟨rest, whole, changed⟩ := split_bucket inside
      have before : ht₁.entries.Perm ((k, old) :: (others ++ rest)) := whole.trans (chain.append_right rest)
      have after := (changed (set_val type key val (bucket ht₁.table (slot type ht₁.size key)))).trans (chain'.append_right rest)
      refine ⟨{ ht₁ with table := ht₁.table.set (slot type ht₁.size key) (set_val type key val (bucket ht₁.table (slot type ht₁.size key))) },
        ?_, .inl ⟨present, ?_, used, k, old, others ++ rest, equal', order.symm.trans before, after⟩⟩
      · have apart := wf₁.distinct.perm type.equiv before
        refine wf₁.set inside ?_ ?_ (Distinct.perm type.equiv ?_ after.symm) wf₁.room
        · intro e' member'
          rcases List.mem_cons.mp (chain'.mem_iff.mp member') with rfl | tail
          · exact (slot_same ht₁.size equal').symm
          · exact wf₁.placed _ e' (chain.mem_iff.mpr (List.mem_cons_of_mem _ tail))
        · rw [wf₁.counted, before.length_eq, after.length_eq, List.length_cons, List.cons_append, List.length_cons]
        · exact List.pairwise_cons.mpr (List.pairwise_cons.mp apart)
      · unfold dictReplace
        rw [is]
        dsimp only
        rw [found]
  · refine ⟨ht₁, wf₁, .inr ⟨absent, ?_, used, order⟩⟩
    unfold dictReplace
    rw [is]

private theorem unlink_perm {chain chain' : List (κ × ν)} (is : unlink type key chain = some chain') :
    ∃ e, type.keyCompare key e.1 = true ∧ chain.Perm (e :: chain') := by
  induction chain generalizing chain' with
  | nil => cases is
  | cons de chain ih =>
    unfold unlink at is
    split at is
    · rename_i here
      cases is
      exact ⟨de, here, .refl _⟩
    · obtain ⟨later, is', rfl⟩ := Option.map_eq_some_iff.mp is
      obtain ⟨e, equal, order⟩ := ih is'
      exact ⟨e, equal, (order.cons de).trans (.swap _ _ _)⟩

private theorem unlink_none {chain : List (κ × ν)} (is : unlink type key chain = none) {e : κ × ν} (member : e ∈ chain) :
    ¬ type.keyCompare key e.1 = true := by
  induction chain with
  | nil => cases member
  | cons de chain ih =>
    unfold unlink at is
    split at is
    · cases is
    · rename_i other
      rcases List.mem_cons.mp member with rfl | member
      · exact other
      · exact ih (Option.map_eq_none_iff.mp is) member

theorem dictDelete_wf (wf : Wf type ht) (key : κ) :
    ∃ ht', Wf type ht' ∧
      ((¬ ht.Has type key ∧ ht.dictDelete type key = (false, ht') ∧ ht' = ht) ∨
        (ht.dictDelete type key = (true, ht') ∧ ht'.used = ht.used - 1 ∧
          ∃ e, type.keyCompare key e.1 = true ∧ ht.entries.Perm (e :: ht'.entries))) := by
  by_cases empty : ht.size = 0
  · refine ⟨ht, wf, .inl ⟨?_, ?_, rfl⟩⟩
    · rintro ⟨e, member, equal⟩
      rw [entries, List.length_eq_zero_iff.mp empty] at member
      cases member
    · unfold dictDelete
      rw [if_pos empty]
  · have inside : slot type ht.size key < ht.table.length := slot_lt type (Nat.pos_of_ne_zero empty) key
    cases unlinked : unlink type key (bucket ht.table (slot type ht.size key)) with
    | none =>
      refine ⟨ht, wf, .inl ⟨?_, ?_, rfl⟩⟩
      · rintro ⟨e, member, equal⟩
        exact unlink_none unlinked ((chain_iff wf.placed).mpr ⟨member, equal⟩).1 equal
      · simp only [dictDelete, empty, unlinked, ↓reduceIte]
    | some chain =>
      obtain ⟨e, equal, order⟩ := unlink_perm unlinked
      obtain ⟨rest, whole, changed⟩ := split_bucket inside
      have before : ht.entries.Perm (e :: (chain ++ rest)) := whole.trans (order.append_right rest)
      have after := changed chain
      have less : ht.used = (chain ++ rest).length + 1 := wf.counted.trans before.length_eq
      have room := wf.room
      refine ⟨{ table := ht.table.set (slot type ht.size key) chain, used := ht.used - 1 }, ?_,
        .inr ⟨?_, rfl, e, equal, before.trans (after.symm.cons e)⟩⟩
      · refine wf.set inside ?_ ?_ ?_ (by omega)
        · intro e' member
          exact wf.placed _ e' (order.mem_iff.mpr (List.mem_cons_of_mem _ member))
        · rw [after.length_eq]
          omega
        · have apart := wf.distinct.perm type.equiv before
          exact Distinct.perm type.equiv (List.pairwise_cons.mp apart).2 after.symm
      · simp only [dictDelete, empty, unlinked, ↓reduceIte]

/-! ### The iterator -/

/-- What an iterator has still to give. -/
private def ahead (ht : Dict κ ν) (iter : DictIterator κ ν) : List (κ × ν) :=
  (if iter.entry = [] then [] else iter.nextEntry) ++ (ht.table.drop (iter.index + 1).toNat).flatten

private theorem ahead_nil (index : Int) (next : List (κ × ν)) :
    ht.ahead ⟨index, [], next⟩ = (ht.table.drop (index + 1).toNat).flatten := by
  rw [ahead, if_pos rfl, List.nil_append]

private theorem ahead_cons (index : Int) (e : κ × ν) (rest next : List (κ × ν)) :
    ht.ahead ⟨index, e :: rest, next⟩ = next ++ (ht.table.drop (index + 1).toNat).flatten := by
  rw [ahead, if_neg (List.cons_ne_nil _ _)]

/-- Chains from an index on: the first one, and those behind. -/
private theorem flatten_drop (table : List (List (κ × ν))) (i : Nat) :
    (table.drop i).flatten = bucket table i ++ (table.drop (i + 1)).flatten := by
  by_cases inside : i < table.length
  · rw [List.drop_eq_getElem_cons inside, List.flatten_cons, bucket_eq inside]
  · rw [List.drop_eq_nil_of_le (by omega), List.drop_eq_nil_of_le (by omega), bucket,
      List.getD_eq_getElem?_getD, List.getElem?_eq_none (by omega)]
    rfl

/-- An iterator before its first entry, or behind one of them. -/
private structure Valid (ht : Dict κ ν) (iter : DictIterator κ ν) : Prop where
  begun : -1 ≤ iter.index
  inside : iter.entry ≠ [] → 0 ≤ iter.index ∧ iter.index < ht.size

private theorem ahead_done {iter : DictIterator κ ν} (none : iter.entry = []) (past : ht.size ≤ iter.index + 1) :
    ht.ahead iter = [] := by
  unfold ahead
  rw [if_pos none, List.drop_eq_nil_of_le]
  · rfl
  · show ht.size ≤ _
    omega

private theorem dictNext_ahead (small : ht.size < 2 ^ 31) {fuel : Nat} {iter : DictIterator κ ν} (valid : Valid ht iter)
    (enough : ht.size + (if iter.entry = [] then 0 else 1) < iter.index + fuel) :
    (∃ iter', ht.dictNext_from fuel iter = (none, iter') ∧ ht.ahead iter = []) ∨
      ∃ e iter', ht.dictNext_from fuel iter = (some e, iter') ∧ ht.ahead iter = e :: ht.ahead iter' ∧ Valid ht iter' := by
  have begun := valid.begun
  have inside := valid.inside
  have signed := int_of_size_small small
  induction fuel generalizing iter with
  | zero =>
    left
    refine ⟨iter, rfl, ?_⟩
    by_cases none : iter.entry = []
    · rw [if_pos none] at enough
      exact ahead_done none (by omega)
    · rw [if_neg none] at enough
      have := inside none
      omega
  | succ fuel ih =>
    obtain ⟨index, entry, nextEntry⟩ := iter
    dsimp only at begun inside enough
    cases entry with
    | nil =>
      rw [if_pos rfl] at enough
      by_cases past : (ht.size : Int) ≤ index + 1
      · left
        refine ⟨⟨index + 1, [], nextEntry⟩, ?_, ahead_done rfl past⟩
        simp only [dictNext_from, signed, past, ↓reduceIte]
      · have next : (index + 1 + 1).toNat = (index + 1).toNat + 1 := by omega
        have split := flatten_drop ht.table (index + 1).toNat
        cases chain : bucket ht.table (index + 1).toNat with
        | nil =>
          have same : ht.ahead ⟨index, [], nextEntry⟩ = ht.ahead ⟨index + 1, [], nextEntry⟩ := by
            rw [ahead_nil, ahead_nil, next, split, chain, List.nil_append]
          have is : ht.dictNext_from (fuel + 1) ⟨index, [], nextEntry⟩ = ht.dictNext_from fuel ⟨index + 1, [], nextEntry⟩ := by
            simp only [dictNext_from, signed, past, chain, ↓reduceIte]
          rw [is, same]
          exact @ih ⟨index + 1, [], nextEntry⟩ ⟨by dsimp only; omega, fun filled => absurd rfl filled⟩
            (by rw [if_pos rfl]; dsimp only; omega) (by dsimp only; omega) fun filled => absurd rfl filled
        | cons he later =>
          right
          refine ⟨he, ⟨index + 1, he :: later, later⟩, ?_, ?_, by dsimp only; omega, fun _ => by dsimp only; omega⟩
          · simp only [dictNext_from, signed, past, chain, ↓reduceIte]
          · rw [ahead_nil, ahead_cons, next, split, chain, List.cons_append]
    | cons e rest =>
      rw [if_neg (List.cons_ne_nil _ _)] at enough
      have within := inside (List.cons_ne_nil _ _)
      cases nextEntry with
      | nil =>
        have same : ht.ahead ⟨index, e :: rest, []⟩ = ht.ahead ⟨index, [], []⟩ := by
          rw [ahead_cons, ahead_nil, List.nil_append]
        have is : ht.dictNext_from (fuel + 1) ⟨index, e :: rest, []⟩ = ht.dictNext_from fuel ⟨index, [], []⟩ := rfl
        rw [is, same]
        exact @ih ⟨index, [], []⟩ ⟨begun, fun filled => absurd rfl filled⟩
          (by rw [if_pos rfl]; dsimp only; omega) begun fun filled => absurd rfl filled
      | cons he later =>
        right
        refine ⟨he, ⟨index, he :: later, later⟩, rfl, ?_, begun, fun _ => within⟩
        rw [ahead_cons, ahead_cons, List.cons_append]

private theorem visits_ahead (small : ht.size < 2 ^ 31) {fuel : Nat} {iter : DictIterator κ ν} (valid : Valid ht iter)
    (enough : (ht.ahead iter).length < fuel) : ht.visits fuel iter = ht.ahead iter := by
  induction fuel generalizing iter with
  | zero => omega
  | succ fuel ih =>
    have steps : ht.size + (if iter.entry = [] then 0 else 1) < iter.index + ((ht.size + 2 : Nat) : Int) := by
      have := valid.begun
      split
      · omega
      · rename_i filled
        have := valid.inside filled
        omega
    unfold visits dictNext
    rcases dictNext_ahead small valid steps with ⟨iter', is, nothing⟩ | ⟨e, iter', is, there, valid'⟩
    · rw [is, nothing]
    · rw [there, List.length_cons] at enough
      rw [is, there]
      exact congrArg (e :: ·) (ih valid' (by omega))

/-- The iterator gives the entries, chain by chain. -/
theorem walk_eq (wf : Wf type ht) : ht.walk = ht.entries := by
  have small := wf.small
  have all : ht.ahead dictGetIterator = ht.entries := rfl
  rw [← all]
  refine visits_ahead (by omega) ⟨Int.le_refl _, fun filled => absurd rfl filled⟩ ?_
  rw [all, wf.counted]
  exact Nat.lt_succ_self _

end Dict

/-! ### Runs -/

inductive Op (κ ν : Type)
  | add (key : κ) (val : ν)
  | replace (key : κ) (val : ν)
  | delete (key : κ)
  | find (key : κ)

/-- What an operation returns. -/
inductive Result (ν : Type)
  | done (ok : Bool)
  | found (val : Option ν)

/-- One operation. -/
def Dict.op (type : DictType κ) (ht : Dict κ ν) : Op κ ν → Option (Result ν × Dict κ ν)
  | .add key val => (ht.dictAdd type key val).map fun r => (.done r.1, r.2)
  | .replace key val => (ht.dictReplace type key val).map fun r => (.done r.1, r.2)
  | .delete key => some (.done (ht.dictDelete type key).1, (ht.dictDelete type key).2)
  | .find key => some (.found ((ht.dictFind type key).map (·.2)), ht)

/-- What it is on a map. -/
def mapped (type : DictType κ) (m : κ → Option ν) : Op κ ν → Result ν × (κ → Option ν)
  | .add key val =>
    if m key = none then (.done true, assign type.keyCompare key val m) else (.done false, m)
  | .replace key val => (.done (m key).isNone, assign type.keyCompare key val m)
  | .delete key => (.done (m key).isSome, remove type.keyCompare key m)
  | .find key => (.found (m key), m)

/-- The operations of a run, with what they return; none from where one has no result. -/
def run (type : DictType κ) : List (Op κ ν) → Dict κ ν → Option (List (Result ν) × Dict κ ν)
  | [], ht => some ([], ht)
  | op :: ops, ht =>
    match ht.op type op with
    | none => none
    | some (r, ht) => (run type ops ht).map fun later => (r :: later.1, later.2)

def mapped_run (type : DictType κ) : List (Op κ ν) → (κ → Option ν) → List (Result ν) × (κ → Option ν)
  | [], m => ([], m)
  | op :: ops, m =>
    let later := mapped_run type ops (mapped type m op).2
    ((mapped type m op).1 :: later.1, later.2)

/-- How many operations may add a key. -/
def additions : List (Op κ ν) → Nat
  | [] => 0
  | .add _ _ :: ops | .replace _ _ :: ops => additions ops + 1
  | .delete _ :: ops | .find _ :: ops => additions ops

variable {m : κ → Option ν}

private theorem has_iff (stands : Stands type.keyCompare ht.entries m) : ht.Has type key ↔ m key ≠ none := by
  rw [ne_eq, stands.none_iff]
  unfold Dict.Has
  push Not
  exact exists_congr fun e => and_congr_right fun _ => by simp

/-- An operation gives what it gives on the map that the entries stand for. -/
private theorem op_mapped (wf : Dict.Wf type ht) (stands : Stands type.keyCompare ht.entries m) (op : Op κ ν)
    (few : ht.used + additions [op] ≤ 2 ^ 30) :
    ∃ ht', ht.op type op = some ((mapped type m op).1, ht') ∧ Dict.Wf type ht' ∧
      Stands type.keyCompare ht'.entries (mapped type m op).2 ∧ ht'.used ≤ ht.used + additions [op] := by
  cases op with
  | add key val =>
    obtain ⟨ht', wf', ⟨present, is, used, order⟩ | ⟨absent, is, used, order⟩⟩ := Dict.dictAdd_wf wf (by simp only [additions] at few; omega) key val
    · have there := (has_iff stands).mp present
      refine ⟨ht', ?_, wf', ?_, by simp only [additions]; omega⟩
      · simp only [Dict.op, is, mapped, there, Option.map_some, ↓reduceIte]
      · simp only [mapped, there, ↓reduceIte]
        exact stands.perm order.symm
    · have nothing := not_not.mp (mt (has_iff stands).mpr absent)
      refine ⟨ht', ?_, wf', ?_, by simp only [additions]; omega⟩
      · simp only [Dict.op, is, mapped, nothing, Option.map_some, ↓reduceIte]
      · simp only [mapped, nothing, ↓reduceIte]
        exact (stands.cons type.equiv (stands.none_iff.mp nothing) val).perm order.symm
  | replace key val =>
    obtain ⟨ht', wf', ⟨present, is, used, k, old, others, equal, before, after⟩ | ⟨absent, is, used, order⟩⟩ :=
      Dict.dictReplace_wf wf (by simp only [additions] at few; omega) key val
    · refine ⟨ht', ?_, wf', ?_, by simp only [additions]; omega⟩
      · have there : (m key).isNone = false := Option.isNone_eq_false_iff.mpr (Option.isSome_iff_ne_none.mpr ((has_iff stands).mp present))
        simp only [Dict.op, is, mapped, there, Option.map_some]
      · exact ((stands.perm before).update type.equiv (wf.distinct.perm type.equiv before) equal val).perm after.symm
    · have nothing := not_not.mp (mt (has_iff stands).mpr absent)
      refine ⟨ht', ?_, wf', ?_, by simp only [additions]; omega⟩
      · simp only [Dict.op, is, mapped, nothing, Option.map_some, Option.isNone_none]
      · exact (stands.cons type.equiv (stands.none_iff.mp nothing) val).perm order.symm
  | delete key =>
    obtain ⟨ht', wf', ⟨absent, is, rfl⟩ | ⟨is, used, e, equal, order⟩⟩ := Dict.dictDelete_wf wf key
    · have nothing := not_not.mp (mt (has_iff stands).mpr absent)
      refine ⟨ht', ?_, wf, ?_, by simp only [additions]; omega⟩
      · simp only [Dict.op, is, mapped, nothing, Option.isSome_none]
      · have same : remove type.keyCompare key m = m := by
          funext k
          unfold remove
          split
          · rename_i equal
            by_contra present
            obtain ⟨e, member, equal'⟩ := (has_iff stands).mpr (Ne.symm present)
            exact absent ⟨e, member, type.equiv.trans (type.equiv.symm equal) equal'⟩
          · rfl
        simp only [mapped, same]
        exact stands
    · have there : (m key).isSome = true := by
        rw [Option.isSome_iff_ne_none]
        exact (has_iff stands).mp ⟨e, order.mem_iff.mpr List.mem_cons_self, equal⟩
      refine ⟨ht', ?_, wf', ?_, by simp only [additions]; omega⟩
      · simp only [Dict.op, is, mapped, there]
      · exact (stands.perm order).tail type.equiv (wf.distinct.perm type.equiv order) equal
  | find key =>
    refine ⟨ht, ?_, wf, stands, Nat.le_refl _⟩
    cases found : ht.dictFind type key with
    | none =>
      have nothing := not_not.mp (mt (has_iff stands).mpr (Dict.dictFind_none wf found))
      simp only [Dict.op, found, mapped, nothing, Option.map_none]
    | some e =>
      obtain ⟨member, equal⟩ := Dict.dictFind_some wf found
      have there := (stands key e.2).mpr ⟨e.1, member, equal⟩
      simp only [Dict.op, found, mapped, there, Option.map_some]

private theorem additions_cons (op : Op κ ν) (ops : List (Op κ ν)) :
    additions (op :: ops) = additions [op] + additions ops := by
  cases op <;> simp only [additions] <;> omega

private theorem run_mapped (wf : Dict.Wf type ht) (stands : Stands type.keyCompare ht.entries m) {ops : List (Op κ ν)}
    (few : ht.used + additions ops ≤ 2 ^ 30) :
    ∃ ht', run type ops ht = some ((mapped_run type ops m).1, ht') ∧ Dict.Wf type ht' ∧
      Stands type.keyCompare ht'.entries (mapped_run type ops m).2 := by
  induction ops generalizing ht m with
  | nil => exact ⟨ht, rfl, wf, stands⟩
  | cons op ops ih =>
    rw [additions_cons] at few
    obtain ⟨ht₁, is, wf₁, stands₁, used⟩ := op_mapped wf stands op (by omega)
    obtain ⟨ht₂, is', wf₂, stands₂⟩ := ih wf₁ stands₁ (by omega)
    refine ⟨ht₂, ?_, wf₂, stands₂⟩
    simp only [run, is, is', Option.map_some, mapped_run]

/-- Every run of operations gives what it gives on a finite map: no assertion fails, and
    no index is outside the table. -/
theorem gives_mapped (type : DictType κ) (ops : List (Op κ ν)) (few : additions ops ≤ 2 ^ 30) :
    (run type ops (dictCreate κ ν)).map (·.1) = some (mapped_run type ops fun _ => none).1 := by
  obtain ⟨ht, is, _, _⟩ := run_mapped (Dict.wf_create type) stands_nil (by simpa [dictCreate] using few)
  rw [is]
  rfl

/-- A subscription, again with another callback, and its end. -/
theorem gives_mapped_channel :
    (run callbackDict [.replace (lit "news") 1, .replace (lit "news") 2, .find (lit "news"), .delete (lit "news"),
        .find (lit "news")] (dictCreate Str Nat)).map (·.1) =
      some (mapped_run callbackDict [.replace (lit "news") 1, .replace (lit "news") 2, .find (lit "news"),
        .delete (lit "news"), .find (lit "news")] fun _ => none).1 :=
  gives_mapped callbackDict _ (by decide)

/-- After every run the iterator gives each key once, with the value of the map, and as
    many entries as are counted; the table has a power of two of chains, and not more
    entries than chains. -/
theorem walks (type : DictType κ) (ops : List (Op κ ν)) (few : additions ops ≤ 2 ^ 30) {rs : List (Result ν)}
    (is : run type ops (dictCreate κ ν) = some (rs, ht)) :
    Distinct type.keyCompare ht.walk ∧ Stands type.keyCompare ht.walk (mapped_run type ops fun _ => none).2 ∧
      ht.walk.length = ht.used ∧ ht.used ≤ ht.size ∧ (ht.size = 0 ∨ ∃ p, ht.size = 2 ^ (p + 2)) := by
  obtain ⟨ht', is', wf, stands⟩ := run_mapped (Dict.wf_create type) stands_nil (by simpa [dictCreate] using few)
  cases is.symm.trans is'
  rw [Dict.walk_eq wf]
  refine ⟨wf.distinct, stands, wf.counted.symm, wf.room, ?_⟩
  exact wf.power.imp_right fun ⟨p, _, size⟩ => ⟨p, size⟩

/-- One channel in the first table. -/
theorem walks_channel :
    ∃ ht : Dict Str Nat, run callbackDict [.replace (lit "news") 1] (dictCreate Str Nat) = some ([.done true], ht) ∧
      ht.walk.length = ht.used ∧ ht.used ≤ ht.size :=
  have walked := walks callbackDict [.replace (lit "news") 1] (by decide) rfl
  ⟨_, rfl, walked.2.2.1, walked.2.2.2.1⟩

end CppRedis.Dicts

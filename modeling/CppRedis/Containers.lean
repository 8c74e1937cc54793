import Mathlib.Data.Finmap
import CppRedis.Decoders
import CppRedis.Tables

/-!
The decoders of arrays, sets and maps with the caller's container, which they clear
before they fill it: what is in it afterwards, also where they throw. A map does not
keep the order in which it was filled, a hash map is listed in some order.
`fill_keyed_ok` says what the loops over keys and fields leave.
-/
namespace CppRedis.Containers
open CppRedis.Strings CppRedis.Reply CppRedis.Clients CppRedis.Decoders CppRedis.Tables

abbrev string_map := Finmap fun _ : Str => Str

abbrev string_hash_map := Table Str Str

/-! ### The decoders -/

/-- The loop of the decoders that pass over what is no string, from element `i` on;
    `put` is what they do with a string, none where they read outside of a vector. -/
def fill {C : Type} (put : Nat → Str → C → Option C) : List RedisReply → Nat → C → Int → Except Fault Int × C
  | [], _, c, elements => (.ok elements, c)
  | .string str :: rest, i, c, elements =>
    match put i str c with
    | none => (.error .undefined, c)
    | some c =>
      match bump elements with
      | .error fault => (.error fault, c)
      | .ok elements => fill put rest (i + 1) c elements
  | _ :: rest, i, c, elements => fill put rest (i + 1) c elements

def recv_string_array_reply (reply : RedisReply) (_arr : List Str) : Except Fault Int × List Str :=
  match reply with
  | .array element => fill (fun _ str arr => some (arr ++ [str])) element 0 [] 0
  | .hollow elements _ => (.error (hollowFault .length_error elements), [])
  | _ => (.error (.thrown (throw_redis_exception reply)), [])

def recv_string_set_reply (reply : RedisReply) (_s : Finset Str) : Except Fault Int × Finset Str :=
  match reply with
  | .array element => fill (fun _ str s => some (insert str s)) element 0 ∅ 0
  | .hollow _ _ => (.error .undefined, ∅)
  | _ => (.error (.thrown (throw_redis_exception reply)), ∅)

def recv_string_map_reply (reply : RedisReply) (keys : List Str) (_m : string_map) : Except Fault Int × string_map :=
  match reply with
  | .array element => fill (fun i str m => keys[i]?.map fun key => m.insert key str) element 0 ∅ 0
  | .hollow _ _ => (.error .undefined, ∅)
  | _ => (.error (.thrown (throw_redis_exception reply)), ∅)

/-- The loop of `recv_string_hash_map_reply` without fields, two elements a round. -/
def fill_pairs (reply : RedisReply) : List RedisReply → string_hash_map → Int → Except Fault Int × string_hash_map
  | [], h, elements => (.ok elements, h)
  | [_], h, _ => (.error .undefined, h)
  | .string field :: .string value :: rest, h, elements =>
    match bump elements with
    | .error fault => (.error fault, h.insert field value)
    | .ok elements => fill_pairs reply rest (h.insert field value) elements
  | _ :: _ :: _, h, _ => (.error (.thrown (throw_redis_exception reply)), h)

def recv_string_hash_map_reply (reply : RedisReply) (_h : string_hash_map) : Except Fault Int × string_hash_map :=
  match reply with
  | .array element => fill_pairs reply element ∅ 0
  | .hollow elements _ => (.error (hollowFault .bad_alloc (elements / 2)), ∅)
  | _ => (.error (.thrown (throw_redis_exception reply)), ∅)

/-- The overload of `recv_string_hash_map_reply` with fields. -/
def recv_string_hash_map_reply_fields (reply : RedisReply) (fields : List Str) (_h : string_hash_map) :
    Except Fault Int × string_hash_map :=
  match reply with
  | .array element => fill (fun i str h => fields[i]?.map fun field => h.insert field str) element 0 ∅ 0
  | .hollow _ _ => (.error .undefined, ∅)
  | _ => (.error (.thrown (throw_redis_exception reply)), ∅)

/-- A decoder that fills a container. -/
inductive Collection
  | array
  | set
  | map (keys : List Str)
  | pairs
  | fields (fields : List Str)

namespace Collection

abbrev Container : Collection → Type
  | .array => List Str
  | .set => Finset Str
  | .map _ => string_map
  | .pairs => string_hash_map
  | .fields _ => string_hash_map

def recv : (c : Collection) → RedisReply → c.Container → Except Fault Int × c.Container
  | .array => recv_string_array_reply
  | .set => recv_string_set_reply
  | .map keys => fun reply m => recv_string_map_reply reply keys m
  | .pairs => recv_string_hash_map_reply
  | .fields names => fun reply h => recv_string_hash_map_reply_fields reply names h

/-- `size()`. -/
def size : (c : Collection) → c.Container → Nat
  | .array => List.length
  | .set => Finset.card
  | .map _ => fun m => m.keys.card
  | .pairs => fun h => h.keys.length
  | .fields _ => fun h => h.keys.length

/-- The container after `clear()`. -/
def cleared : (c : Collection) → c.Container
  | .array => []
  | .set => ∅
  | .map _ => ∅
  | .pairs => ∅
  | .fields _ => ∅

/-- The decoder of a method that ends with this one. -/
def decoder : Collection → Decoder
  | .array => .array
  | .set => .set
  | .map keys => .map keys
  | .pairs => .pairs
  | .fields names => .fields names

/-- What the method returns, with the contents of the container. -/
def value : (c : Collection) → Int → c.Container → Value
  | .array => .array
  | .set => .set
  | .map _ => fun n m => .map n fun key => m.lookup key
  | .pairs => fun n h => .map n (contents h)
  | .fields _ => fun n h => .map n (contents h)

end Collection

/-! ### The loops -/

/-- The strings of an array, each under the key in its place. -/
def placed : List Str → List RedisReply → List (Str × Str)
  | key :: keys, .string str :: rest => (key, str) :: placed keys rest
  | _ :: keys, _ :: rest => placed keys rest
  | [], _ => []
  | _ :: _, [] => []

/-- The pairs of strings that lead an array. -/
def leading : List RedisReply → List (Str × Str)
  | .string field :: .string value :: rest => (field, value) :: leading rest
  | _ => []

section Fill
variable {C D : Type} {put : Nat → Str → C → Option C}

private theorem bump_cases (n : Int) :
    (n < 2 ^ 31 - 1 ∧ bump n = .ok (n + 1)) ∨ (¬ n < 2 ^ 31 - 1 ∧ bump n = .error .undefined) := by
  by_cases room : n < 2 ^ 31 - 1
  · exact .inl ⟨room, bump_room room⟩
  · exact .inr ⟨room, bump_full room⟩

/-- A round that counts and returns is followed by the others. -/
private theorem bump_returned {n k : Int} {c filled : C} {later : Int → Except Fault Int × C}
    (returned : (match bump n with
      | .error fault => (.error fault, c)
      | .ok elements => later elements) = (.ok k, filled)) : later (n + 1) = (.ok k, filled) := by
  rcases bump_cases n with ⟨_, next⟩ | ⟨_, next⟩
  · rw [next] at returned
    exact returned
  · rw [next] at returned
    cases returned

/-- The loop does not throw. -/
theorem fill_not_thrown (element : List RedisReply) (i : Nat) (c : C) (n : Int) (e : Exception) :
    (fill put element i c n).1 ≠ .error (.thrown e) := by
  induction element generalizing i c n with
  | nil => simp [fill]
  | cons elem rest ih =>
    cases elem with
    | string str =>
      rw [fill]
      split
      · simp
      · rename_i c' _
        rcases bump_cases n with ⟨_, next⟩ | ⟨_, next⟩
        · rw [next]
          exact ih (i + 1) c' (n + 1)
        · rw [next]
          simp
    | status str | error str | integer k | nil | array inner | hollow m some => exact ih (i + 1) c n

/-- Loops that do the same to containers that correspond. -/
theorem fill_map {put' : Nat → Str → D → Option D} (f : C → D)
    (same : ∀ i str c, put' i str (f c) = (put i str c).map f) (element : List RedisReply) (i : Nat) (c : C) (n : Int) :
    fill put' element i (f c) n = ((fill put element i c n).1, f (fill put element i c n).2) := by
  induction element generalizing i c n with
  | nil => rfl
  | cons elem rest ih =>
    cases elem with
    | string str =>
      rw [fill, fill, same]
      cases put i str c with
      | none => rfl
      | some c' =>
        rcases bump_cases n with ⟨_, next⟩ | ⟨_, next⟩
        · simp only [Option.map_some, next]
          exact ih (i + 1) c' (n + 1)
        · simp only [Option.map_some, next]
    | status str | error str | integer k | nil | array inner | hollow m some => exact ih (i + 1) c n

end Fill

theorem fill_array (element : List RedisReply) (i : Nat) (arr : List Str) {n : Int} (small : n ≤ 2 ^ 31 - 1) :
    (n + (stringsOf element).length ≤ 2 ^ 31 - 1 ∧
      fill (fun _ str arr => some (arr ++ [str])) element i arr n =
        (.ok (n + (stringsOf element).length), arr ++ stringsOf element)) ∨
    (¬ n + (stringsOf element).length ≤ 2 ^ 31 - 1 ∧
      (fill (fun _ str arr => some (arr ++ [str])) element i arr n).1 = .error .undefined) := by
  induction element generalizing i arr n with
  | nil => exact .inl ⟨by simpa [stringsOf] using small, by simp [fill, stringsOf]⟩
  | cons elem rest ih =>
    cases elem with
    | string str =>
      have whole : ((stringsOf (.string str :: rest)).length : Int) = (stringsOf rest).length + 1 := by
        rw [stringsOf_string, List.length_cons]
        push_cast
        rfl
      rw [fill, whole]
      rcases bump_cases n with ⟨room, next⟩ | ⟨full, next⟩
      · simp only [next]
        rcases ih (i + 1) (arr ++ [str]) (n := n + 1) (by omega) with ⟨bound, filled⟩ | ⟨bound, undefined⟩
        · refine .inl ⟨by omega, ?_⟩
          rw [filled, stringsOf_string, List.append_assoc, List.singleton_append, add_right_comm, add_assoc]
        · exact .inr ⟨by omega, undefined⟩
      · simp only [next]
        exact .inr ⟨by omega, trivial⟩
    | status str | error str | integer k | nil | array inner | hollow m some => exact ih (i + 1) arr small

/-- What a set decoder leaves where it returns. -/
theorem fill_set_ok {element : List RedisReply} {i : Nat} {s filled : Finset Str} {n k : Int}
    (returned : fill (fun _ str s => some (insert str s)) element i s n = (.ok k, filled)) :
    k = n + (stringsOf element).length ∧ filled = s ∪ (stringsOf element).toFinset := by
  induction element generalizing i s n with
  | nil =>
    cases returned
    simp [stringsOf]
  | cons elem rest ih =>
    cases elem with
    | string str =>
      rw [fill] at returned
      obtain ⟨rfl, rfl⟩ := ih (bump_returned returned)
      rw [stringsOf_string]
      constructor
      · rw [List.length_cons]
        push_cast
        ring
      · rw [List.toFinset_cons, Finset.insert_union, Finset.union_insert]
    | status str | error str | integer k | nil | array inner | hollow m some => exact ih returned

/-- An element that is no string leaves its key out. -/
private theorem placed_skip (keys : List Str) (i : Nat) {elem : RedisReply} (no : ∀ str, elem ≠ .string str)
    (rest : List RedisReply) : placed (keys.drop i) (elem :: rest) = placed (keys.drop (i + 1)) rest := by
  rw [← List.drop_drop]
  cases keys.drop i with
  | nil => rfl
  | cons key later =>
    cases elem with
    | string str => exact absurd rfl (no str)
    | status str | error str | integer k | nil | array inner | hollow m some => rfl

/-- What the loops over keys leave where they return. -/
theorem fill_keyed_ok {keys : List Str} {element : List RedisReply} {i : Nat} {h filled : string_hash_map} {n k : Int}
    (returned : fill (fun i str h => keys[i]?.map fun key => h.insert key str) element i h n = (.ok k, filled)) :
    k = n + (stringsOf element).length ∧ k = n + (placed (keys.drop i) element).length ∧
      filled = insertAll h (placed (keys.drop i) element) := by
  induction element generalizing i h n with
  | nil =>
    have none : placed (keys.drop i) [] = [] := by cases keys.drop i <;> rfl
    cases returned
    rw [none]
    simp [stringsOf, insertAll]
  | cons elem rest ih =>
    cases elem with
    | string str =>
      rw [fill] at returned
      cases at_i : keys[i]? with
      | none =>
        simp only [at_i, Option.map_none] at returned
        cases returned
      | some key =>
        simp only [at_i, Option.map_some] at returned
        obtain ⟨counted, pairs, rfl⟩ := ih (bump_returned returned)
        obtain ⟨inside, rfl⟩ := List.getElem?_eq_some_iff.mp at_i
        rw [stringsOf_string, List.drop_eq_getElem_cons inside, placed, List.length_cons, List.length_cons]
        refine ⟨?_, ?_, rfl⟩
        · push_cast
          omega
        · push_cast
          omega
    | status str | error str | integer k | nil | array inner | hollow m some =>
      rw [placed_skip keys i (by simp) rest]
      exact ih returned

/-- With a key for each element, and not too many of them, the loops over keys return. -/
theorem fill_keyed_total (keys : List Str) (element : List RedisReply) (i : Nat) (h : string_hash_map) {n : Int}
    (enough : i + element.length ≤ keys.length) (counted : n + element.length ≤ 2 ^ 31 - 1) :
    ∃ k filled, fill (fun i str h => keys[i]?.map fun key => h.insert key str) element i h n = (.ok k, filled) := by
  induction element generalizing i h n with
  | nil => exact ⟨n, h, rfl⟩
  | cons elem rest ih =>
    rw [List.length_cons] at enough counted
    push_cast at counted
    cases elem with
    | string str =>
      have inside : i < keys.length := by omega
      rcases bump_cases n with ⟨_, next⟩ | ⟨full, _⟩
      · simp only [fill, List.getElem?_eq_getElem inside, Option.map_some, next]
        exact ih (i + 1) _ (by omega) (by omega)
      · omega
    | status str | error str | integer k | nil | array inner | hollow m some => exact ih (i + 1) h (by omega) (by omega)

/-- What the loop over pairs leaves where it returns. -/
theorem fill_pairs_ok {reply : RedisReply} {element : List RedisReply} {h filled : string_hash_map} {n k : Int}
    (returned : fill_pairs reply element h n = (.ok k, filled)) :
    k = n + (leading element).length ∧ filled = insertAll h (leading element) := by
  match element with
  | [] =>
    cases returned
    simp [leading, insertAll]
  | [last] => cases last <;> cases returned
  | first :: second :: rest =>
    have stops : (∀ str, first ≠ .string str) ∨ (∀ str, second ≠ .string str) →
        fill_pairs reply (first :: second :: rest) h n = (.error (.thrown (throw_redis_exception reply)), h) := by
      intro no
      cases first <;> cases second <;> simp_all [fill_pairs]
    cases first with
    | string field =>
      cases second with
      | string value =>
        rw [fill_pairs] at returned
        obtain ⟨rfl, rfl⟩ := fill_pairs_ok (bump_returned returned)
        refine ⟨?_, rfl⟩
        rw [leading, List.length_cons]
        push_cast
        ring
      | status str | error str | integer k | nil | array inner | hollow m some =>
        rw [stops (.inr (by simp))] at returned
        cases returned
    | status str | error str | integer k | nil | array inner | hollow m some =>
      rw [stops (.inl (by simp))] at returned
      cases returned

/-! ### What the methods return -/

/-- The results of a loop, with its container. -/
private abbrev results {C D : Type} (f : C → D) (r : Except Fault Int × C) : Except Fault (Int × D) :=
  r.1.map fun n => (n, f r.2)

private theorem set_results (element : List RedisReply) (i : Nat) (s : Finset Str) (n : Int) :
    recv_string_set_from element s n = results id (fill (fun _ str s => some (insert str s)) element i s n) := by
  induction element generalizing i s n with
  | nil => rfl
  | cons elem rest ih =>
    cases elem with
    | string str =>
      rw [recv_string_set_from, fill]
      rcases bump_cases n with ⟨_, next⟩ | ⟨_, next⟩
      · simp only [next]
        exact ih (i + 1) (insert str s) (n + 1)
      · simp only [next]
        rfl
    | status str | error str | integer k | nil | array inner | hollow m some => exact ih (i + 1) s n

private theorem keyed_results (keys : List Str) (element : List RedisReply) (i : Nat) (h : string_hash_map) (n : Int) :
    recv_string_map_from keys element i (contents h) n =
      results contents (fill (fun i str h => keys[i]?.map fun key => h.insert key str) element i h n) := by
  induction element generalizing i h n with
  | nil => rfl
  | cons elem rest ih =>
    cases elem with
    | string str =>
      rw [recv_string_map_from, fill]
      cases keys[i]? with
      | none => rfl
      | some key =>
        rcases bump_cases n with ⟨_, next⟩ | ⟨_, next⟩
        · simp only [next, Option.map_some]
          rw [← contents_insert]
          exact ih (i + 1) (h.insert key str) (n + 1)
        · simp only [next, Option.map_some]
          rfl
    | status str | error str | integer k | nil | array inner | hollow m some => exact ih (i + 1) h n

private theorem pairs_results (reply : RedisReply) (element : List RedisReply) (h : string_hash_map) (n : Int) :
    recv_string_pairs_from reply element (contents h) n = results contents (fill_pairs reply element h n) := by
  match element with
  | [] => rfl
  | [last] => cases last <;> rfl
  | first :: second :: rest =>
    cases first with
    | string field =>
      cases second with
      | string value =>
        rw [recv_string_pairs_from, fill_pairs]
        rcases bump_cases n with ⟨_, next⟩ | ⟨_, next⟩
        · simp only [next]
          rw [← contents_insert]
          exact pairs_results reply rest (h.insert field value) (n + 1)
        · simp only [next]
          rfl
      | status str | error str | integer k | nil | array inner | hollow m some => rfl
    | status str | error str | integer k | nil | array inner | hollow m some => cases second <;> rfl

/-- The loop over a map does what the one over a hash map does. -/
theorem fill_map_keyed (keys : List Str) (element : List RedisReply) (i : Nat) (h : string_hash_map) (n : Int) :
    fill (fun i str (m : string_map) => keys[i]?.map fun key => m.insert key str) element i h.toFinmap n =
      ((fill (fun i str (h : string_hash_map) => keys[i]?.map fun key => h.insert key str) element i h n).1,
        (fill (fun i str (h : string_hash_map) => keys[i]?.map fun key => h.insert key str) element i h n).2.toFinmap) := by
  apply fill_map AList.toFinmap
  intro i str h
  cases keys[i]? with
  | none => rfl
  | some key => exact congrArg some (Finmap.insert_toFinmap key str h)

/-- A method returns what the decoder does, with the contents of the container. -/
theorem decode_eq (c : Collection) (reply : RedisReply) (prior : c.Container) :
    c.decoder.decode reply = (c.recv reply prior).1.map fun n => c.value n (c.recv reply prior).2 := by
  cases c with
  | array =>
    cases reply with
    | array element =>
      simp only [Collection.decoder, Decoder.decode, recv_string_array_reply_array, Collection.recv, recv_string_array_reply]
      rcases fill_array element 0 [] (n := 0) (by decide) with ⟨bound, filled⟩ | ⟨bound, undefined⟩
      · rw [zero_add] at bound filled
        rw [if_pos bound, filled]
        rfl
      · rw [zero_add] at bound
        rw [if_neg bound, undefined]
        rfl
    | status str | error str | integer k | nil | string str | hollow m some => rfl
  | set =>
    cases reply with
    | array element =>
      show (recv_string_set_from element ∅ 0).map _ = _
      rw [set_results element 0]
      simp only [Collection.recv, recv_string_set_reply, results]
      cases (fill (fun _ str s => some (insert str s)) element 0 (∅ : Finset Str) 0).1 <;> rfl
    | status str | error str | integer k | nil | string str | hollow m some => rfl
  | map keys =>
    cases reply with
    | array element =>
      show (recv_string_map_from keys element 0 (contents ∅) 0).map _ = _
      rw [keyed_results]
      simp only [Collection.recv, recv_string_map_reply, results]
      rw [show fill (fun i str (m : string_map) => keys[i]?.map fun key => m.insert key str) element 0 ∅ 0 = _ from
        fill_map_keyed keys element 0 ∅ 0]
      cases (fill (fun i str (h : string_hash_map) => keys[i]?.map fun key => h.insert key str) element 0 ∅ 0).1 <;> rfl
    | status str | error str | integer k | nil | string str | hollow m some => rfl
  | pairs =>
    cases reply with
    | array element =>
      show (recv_string_pairs_from (.array element) element (contents ∅) 0).map _ = _
      rw [pairs_results]
      simp only [Collection.recv, recv_string_hash_map_reply, results]
      cases (fill_pairs (.array element) element ∅ 0).1 <;> rfl
    | status str | error str | integer k | nil | string str | hollow m some => rfl
  | fields names =>
    cases reply with
    | array element =>
      show (recv_string_map_from names element 0 (contents ∅) 0).map _ = _
      rw [keyed_results]
      simp only [Collection.recv, recv_string_hash_map_reply_fields, results]
      cases (fill (fun i str (h : string_hash_map) => names[i]?.map fun key => h.insert key str) element 0 ∅ 0).1 <;> rfl
    | status str | error str | integer k | nil | string str | hollow m some => rfl

/-! ### Keys and fields -/

/-- At the index there are the key and, in the reply, the string. -/
def Stands (keys : List Str) (element : List RedisReply) (key str : Str) (i : Nat) : Prop :=
  keys[i]? = some key ∧ element[i]? = some (.string str)

/-- It is the last index at which there are the key and a string. -/
structure IsLast (keys : List Str) (element : List RedisReply) (key str : Str) (i : Nat) : Prop where
  stands : Stands keys element key str i
  last : ∀ j other, i < j → ¬ Stands keys element key other j

private theorem stands_zero {keys : List Str} {element : List RedisReply} {k key str : Str} {elem : RedisReply} :
    Stands (k :: keys) (elem :: element) key str 0 ↔ k = key ∧ elem = .string str := by
  simp [Stands]

private theorem stands_succ {keys : List Str} {element : List RedisReply} {k key str : Str} {elem : RedisReply} {i : Nat} :
    Stands (k :: keys) (elem :: element) key str (i + 1) ↔ Stands keys element key str i := Iff.rfl

private theorem isLast_succ {keys : List Str} {element : List RedisReply} {k key str : Str} {elem : RedisReply} {i : Nat}
    (last : IsLast keys element key str i) : IsLast (k :: keys) (elem :: element) key str (i + 1) := by
  refine ⟨stands_succ.mpr last.stands, ?_⟩
  intro j other later there
  cases j with
  | zero => omega
  | succ j => exact last.last j other (by omega) (stands_succ.mp there)

private theorem isLast_unique {keys : List Str} {element : List RedisReply} {key a b : Str} {i j : Nat}
    (one : IsLast keys element key a i) (two : IsLast keys element key b j) : a = b := by
  rcases Nat.lt_trichotomy i j with before | same | after
  · exact absurd two.stands (one.last j b before)
  · subst same
    have there := one.stands.2.symm.trans two.stands.2
    cases there
    rfl
  · exact absurd one.stands (two.last i a after)

/-- Under a key, the strings leave the last one that stands in its place, or what was
    there where there is none. -/
private theorem assigned_placed (keys : List Str) (element : List RedisReply) (m : StringMap) (key : Str) :
    (∃ i str, IsLast keys element key str i ∧ assigned m (placed keys element) key = some str) ∨
      ((∀ i str, ¬ Stands keys element key str i) ∧ assigned m (placed keys element) key = m key) := by
  induction element generalizing keys m with
  | nil =>
    refine .inr ⟨?_, by cases keys <;> rfl⟩
    rintro i str ⟨_, there⟩
    simp at there
  | cons elem rest ih =>
    cases keys with
    | nil =>
      refine .inr ⟨?_, rfl⟩
      rintro i str ⟨there, _⟩
      simp at there
    | cons k keys =>
      cases elem with
      | string s =>
        rw [placed, assigned, List.foldl_cons]
        rcases ih keys (Function.update m k (some s)) with ⟨i, str, last, result⟩ | ⟨none, result⟩
        · exact .inl ⟨i + 1, str, isLast_succ last, result⟩
        · by_cases same : key = k
          · subst same
            rw [Function.update_self] at result
            refine .inl ⟨0, s, ⟨stands_zero.mpr ⟨rfl, rfl⟩, ?_⟩, result⟩
            intro j other later there
            cases j with
            | zero => omega
            | succ j => exact none j other (stands_succ.mp there)
          · rw [Function.update_of_ne same] at result
            refine .inr ⟨?_, result⟩
            intro i str there
            cases i with
            | zero => exact same (stands_zero.mp there).1.symm
            | succ i => exact none i str (stands_succ.mp there)
      | status s | error s | integer n | nil | array inner | hollow count some =>
        rcases ih keys m with ⟨i, str, last, result⟩ | ⟨none, result⟩
        · exact .inl ⟨i + 1, str, isLast_succ last, result⟩
        · refine .inr ⟨?_, result⟩
          intro i str there
          cases i with
          | zero => cases (stands_zero.mp there).2
          | succ i => exact none i str (stands_succ.mp there)

namespace Collection

/-- The strings, or pairs of them, that a decoder counts. -/
def taken (reply : RedisReply) : Collection → Nat
  | .pairs =>
    match reply with
    | .array element => (leading element).length
    | _ => 0
  | _ =>
    match reply with
    | .array element => (stringsOf element).length
    | _ => 0

/-- Nothing that a decoder takes falls on something that it took before. -/
def Distinct (reply : RedisReply) : Collection → Prop
  | .array => True
  | .set => ∀ element, reply = .array element → (stringsOf element).Nodup
  | .map keys => ∀ element, reply = .array element → ((placed keys element).map Prod.fst).Nodup
  | .pairs => ∀ element, reply = .array element → ((leading element).map Prod.fst).Nodup
  | .fields names => ∀ element, reply = .array element → ((placed names element).map Prod.fst).Nodup

end Collection

/-- The keys of the strings are some of the keys. -/
theorem placed_sublist (keys : List Str) (element : List RedisReply) : ((placed keys element).map Prod.fst).Sublist keys := by
  induction element generalizing keys with
  | nil => cases keys <;> exact List.nil_sublist _
  | cons elem rest ih =>
    cases keys with
    | nil => exact List.nil_sublist _
    | cons key keys =>
      cases elem with
      | string str => exact (ih keys).cons_cons key
      | status str | error str | integer k | nil | array inner | hollow m some => exact (ih keys).cons key

private theorem keyed_size {l : List (Str × Str)} {k : Int} (counted : k = 0 + (l.length : Int)) :
    ((insertAll ∅ l).keys.length : Int) ≤ k ∧ (k = (insertAll ∅ l).keys.length ↔ (l.map Prod.fst).Nodup) := by
  rw [zero_add] at counted
  subst counted
  refine ⟨?_, ?_⟩
  · exact_mod_cast size_insertAll_le l
  · rw [← size_insertAll]
    exact Nat.cast_inj

/-- A map has the keys of the hash map that was filled in the same way. -/
private theorem map_filled {keys : List Str} {element : List RedisReply} {n : Int} {filled : string_map}
    (returned : recv_string_map_reply (.array element) keys ∅ = (.ok n, filled)) :
    ∃ h : string_hash_map, recv_string_hash_map_reply_fields (.array element) keys ∅ = (.ok n, h) ∧
      filled.keys.card = h.keys.length := by
  have same := (fill_map_keyed keys element 0 ∅ 0).symm.trans returned
  obtain ⟨result, there⟩ := Prod.mk.inj same
  refine ⟨_, Prod.ext result rfl, ?_⟩
  rw [← there]
  rfl

/-- What the loop over keys or fields has counted. -/
private theorem keyed_counts {keys : List Str} {element : List RedisReply} {n : Int} {h : string_hash_map}
    (returned : recv_string_hash_map_reply_fields (.array element) keys ∅ = (.ok n, h)) :
    n = (stringsOf element).length ∧ (h.keys.length : Int) ≤ n ∧
      (n = h.keys.length ↔
        ∀ element', RedisReply.array element = .array element' → ((placed keys element').map Prod.fst).Nodup) ∧
      (keys.Nodup → n = h.keys.length) := by
  obtain ⟨counted, pairs, rfl⟩ := fill_keyed_ok returned
  obtain ⟨below, all⟩ := keyed_size pairs
  simp only [RedisReply.array.injEq, forall_eq']
  exact ⟨by rw [counted, zero_add], below, all, fun distinct => all.mpr ((placed_sublist keys element).nodup distinct)⟩

/-- A decoder that returns has counted the strings it took. They are as many as there
    are in the container exactly if no two fell together, and no two do where all keys
    of the request are different. -/
theorem count_is_size {c : Collection} {reply : RedisReply} {prior filled : c.Container} {n : Int}
    (returned : c.recv reply prior = (.ok n, filled)) :
    c.decoder.decode reply = .ok (c.value n filled) ∧ n = c.taken reply ∧ (c.size filled : Int) ≤ n ∧
      (n = c.size filled ↔ c.Distinct reply) ∧
      ∀ keys, (c = .map keys ∨ c = .fields keys) → keys.Nodup → n = c.size filled := by
  have decoded : c.decoder.decode reply = .ok (c.value n filled) := by
    rw [decode_eq c reply prior, returned]
    rfl
  refine ⟨decoded, ?_⟩
  cases reply with
  | array element =>
    cases c with
    | array =>
      rcases fill_array element 0 [] (n := 0) (by decide) with ⟨_, whole⟩ | ⟨_, undefined⟩
      · rw [zero_add, List.nil_append] at whole
        cases whole.symm.trans returned
        exact ⟨rfl, le_rfl, iff_of_true rfl trivial, by simp⟩
      · have result := congrArg Prod.fst returned
        cases undefined.symm.trans result
    | set =>
      obtain ⟨rfl, rfl⟩ := fill_set_ok returned
      simp only [Collection.taken, Collection.size, Collection.Distinct, zero_add, Finset.empty_union,
        RedisReply.array.injEq, forall_eq', Nat.cast_le, Nat.cast_inj]
      refine ⟨trivial, List.toFinset_card_le _, ?_, by simp⟩
      rw [eq_comm]
      exact Multiset.toFinset_card_eq_card_iff_nodup
    | map keys =>
      obtain ⟨h, hashed, size⟩ := map_filled returned
      obtain ⟨counted, below, all, distinct⟩ := keyed_counts hashed
      simp only [Collection.size, size]
      refine ⟨counted, below, all, ?_⟩
      rintro keys' (is | is) different
      · cases is
        exact distinct different
      · cases is
    | pairs =>
      obtain ⟨counted, rfl⟩ := fill_pairs_ok returned
      obtain ⟨below, all⟩ := keyed_size counted
      rw [zero_add] at counted
      refine ⟨counted, below, ?_, by simp⟩
      simp only [Collection.Distinct, RedisReply.array.injEq, forall_eq']
      exact all
    | fields names =>
      obtain ⟨counted, below, all, distinct⟩ := keyed_counts returned
      refine ⟨counted, below, all, ?_⟩
      rintro keys (is | is) different
      · cases is
      · cases is
        exact distinct different
  | status str | error str | integer k | nil | string str | hollow m some => cases c <;> cases returned

/-- Two members that differ are two entries. -/
theorem count_of_members :
    ∃ filled : Finset Str, recv_string_set_reply (.array [.string [49], .nil, .string [50]]) ∅ = (.ok 2, filled) ∧
      2 = (filled.card : Int) := by
  have returned : Collection.set.recv (.array [.string [49], .nil, .string [50]]) ∅ = (.ok 2, {[50], [49]}) := rfl
  obtain ⟨_, _, _, all, _⟩ := count_is_size returned
  refine ⟨_, returned, all.mpr ?_⟩
  rintro element ⟨⟩
  decide

/-- A request that names a key twice has two strings counted for one entry. -/
theorem count_of_repeated_key :
    ¬ ∀ (c : Collection) (reply : RedisReply) (prior filled : c.Container) (n : Int),
      c.recv reply prior = (.ok n, filled) → n = c.size filled := by
  intro all
  have same := all (.map [[97], [97]]) (.array [.string [49], .string [49]]) ∅ _ 2 rfl
  revert same
  decide

/-! ### Exceptions -/

theorem length_leading (element : List RedisReply) : (leading element).length = stringPairs element := by
  match element with
  | [] => rfl
  | [last] => cases last <;> rfl
  | first :: second :: rest =>
    cases first with
    | string field =>
      cases second with
      | string value => rw [leading, stringPairs, List.length_cons, length_leading rest]
      | status str | error str | integer k | nil | array inner | hollow m some => rfl
    | status str | error str | integer k | nil | array inner | hollow m some => rfl

/-- Behind the pairs of strings that lead the array there is a pair that is not of strings,
    and an `int` has counted those. -/
def Broken (element : List RedisReply) : Prop :=
  2 * stringPairs element + 2 ≤ element.length ∧ (stringPairs element : Int) ≤ 2 ^ 31 - 1

/-- The loop over pairs throws at the first pair that is not of strings, and leaves those
    before it. -/
theorem fill_pairs_throws (reply : RedisReply) (element : List RedisReply) (h : string_hash_map) {n : Int}
    (small : n ≤ 2 ^ 31 - 1) :
    (2 * stringPairs element + 2 ≤ element.length ∧ n + stringPairs element ≤ 2 ^ 31 - 1 ∧
      fill_pairs reply element h n = (.error (.thrown (throw_redis_exception reply)), insertAll h (leading element))) ∨
    (¬ (2 * stringPairs element + 2 ≤ element.length ∧ n + stringPairs element ≤ 2 ^ 31 - 1) ∧
      ∀ e, (fill_pairs reply element h n).1 ≠ .error (.thrown e)) := by
  match element with
  | [] => exact .inr ⟨by simp, by simp [fill_pairs]⟩
  | [last] => exact .inr ⟨by simp, by cases last <;> simp [fill_pairs]⟩
  | first :: second :: rest =>
    have stops : fill_pairs reply (first :: second :: rest) h n = (.error (.thrown (throw_redis_exception reply)), h) →
        leading (first :: second :: rest) = [] →
        2 * stringPairs (first :: second :: rest) + 2 ≤ (first :: second :: rest).length ∧
        n + stringPairs (first :: second :: rest) ≤ 2 ^ 31 - 1 ∧
        fill_pairs reply (first :: second :: rest) h n =
          (.error (.thrown (throw_redis_exception reply)), insertAll h (leading (first :: second :: rest))) := by
      intro thrown none
      rw [thrown, ← length_leading, none]
      exact ⟨by simp, by simpa using small, rfl⟩
    cases first with
    | string field =>
      cases second with
      | string value =>
        rw [fill_pairs, stringPairs, leading]
        simp only [List.length_cons]
        push_cast
        rcases bump_cases n with ⟨room, next⟩ | ⟨full, next⟩
        · simp only [next]
          rcases fill_pairs_throws reply rest (h.insert field value) (n := n + 1) (by omega) with
            ⟨more, bound, thrown⟩ | ⟨none, returns⟩
          · exact .inl ⟨by omega, by omega, thrown⟩
          · exact .inr ⟨by omega, returns⟩
        · simp only [next]
          exact .inr ⟨by omega, by simp⟩
      | status str | error str | integer k | nil | array inner | hollow m some => exact .inl (stops rfl rfl)
    | status str | error str | integer k | nil | array inner | hollow m some =>
      exact .inl (stops (by cases second <;> rfl) rfl)

/-- The replies for which a decoder does not throw after it has put something into the
    container: only that of `hgetall` does, where pairs of strings lead an array in
    which another pair follows. -/
def Collection.ThrowsFirst (reply : RedisReply) : Collection → Prop
  | .pairs => ∀ element, reply = .array element → Broken element → stringPairs element = 0
  | .array | .set | .map _ | .fields _ => True

/-- A decoder that throws has left the container empty, exactly for these replies. -/
theorem thrown_leaves_nothing_iff (c : Collection) (reply : RedisReply) (prior : c.Container) :
    (∀ e filled, c.recv reply prior = (.error (.thrown e), filled) → filled = c.cleared) ↔ c.ThrowsFirst reply := by
  cases reply with
  | array element =>
    cases c with
    | array | set | map keys | fields names =>
      refine iff_of_true ?_ trivial
      intro e filled thrown
      exact absurd (congrArg Prod.fst thrown) (fill_not_thrown element 0 _ 0 e)
    | pairs =>
      simp only [Collection.ThrowsFirst, RedisReply.array.injEq, forall_eq']
      rcases fill_pairs_throws (.array element) element ∅ (n := 0) (by decide) with
        ⟨more, bound, thrown⟩ | ⟨none, returns⟩
      · rw [zero_add] at bound
        have cleared : insertAll (∅ : string_hash_map) (leading element) = ∅ ↔ stringPairs element = 0 := by
          rw [← length_leading, List.length_eq_zero_iff]
          constructor
          · intro empty
            by_contra some
            obtain ⟨pair, member⟩ := List.exists_mem_of_ne_nil _ some
            have key : pair.1 ∈ insertAll (∅ : string_hash_map) (leading element) :=
              mem_insertAll.mpr (.inr (List.mem_map_of_mem member))
            rw [empty] at key
            exact absurd key (AList.notMem_empty pair.1)
          · intro none
            rw [none]
            rfl
        constructor
        · intro all _
          exact cleared.mp (all _ _ thrown)
        · intro first e filled thrown'
          cases thrown.symm.trans thrown'
          exact cleared.mpr (first ⟨more, bound⟩)
      · rw [zero_add] at none
        refine iff_of_true ?_ fun broken => absurd broken none
        intro e filled thrown
        exact absurd (congrArg Prod.fst thrown) (returns e)
  | status str | error str | integer k | nil | string str | hollow m some =>
    refine iff_of_true ?_ ?_
    · intro e filled thrown
      have left := congrArg Prod.snd thrown
      cases c <;> exact left.symm
    · cases c with
      | array | set | map keys | fields names => trivial
      | pairs =>
        intro element is
        cases is

/-- The pair in front of one with a nil is left behind. -/
theorem pair_left_by_exception :
    ¬ ∀ (c : Collection) (reply : RedisReply) (prior : c.Container) (e : Exception) (filled : c.Container),
      c.recv reply prior = (.error (.thrown e), filled) → filled = c.cleared := by
  intro all
  have empty := all .pairs (.array [.string [102], .string [118], .nil, .string [120]]) ∅ _ _ rfl
  have size : Collection.pairs.size (AList.insert [102] [118] (∅ : string_hash_map)) = 0 := congrArg Collection.pairs.size empty
  revert size
  decide

end CppRedis.Containers

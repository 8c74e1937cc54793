import Mathlib.Data.Finset.Insert
import CppRedis.Clients

/-!
The decoders of `reply.cpp` other than those of `Reply`, and the pairing of each
with the value that a method of `Client` returns. An access outside of a vector and
an `int` counter that overflows are undefined. `decode_ends_well` says for which
replies a decoder returns or throws a `RedisException`.
-/
namespace CppRedis.Decoders
open CppRedis.Strings CppRedis.Reply CppRedis.Clients

/-- `string_map` and `string_hash_map`. -/
abbrev StringMap := Str → Option Str

/-- What a method returns, with its output argument. A float is given by the text that
    `atof` reads. -/
inductive Value
  | bool (b : Bool)
  | text (s : Str)
  | int (n : Int)
  | float (text : Str)
  | string (n : Int) (value : Str)
  | array (n : Int) (arr : List Str)
  | set (n : Int) (s : Finset Str)
  | map (n : Int) (m : StringMap)

/-! ### The decoders -/

def recv_status_reply (reply : RedisReply) : Except Exception Str :=
  match reply with
  | .status str => .ok str
  | _ => .error (throw_redis_exception reply)

/-- The integer is cut down to an `int`. -/
def recv_int_reply (reply : RedisReply) : Except Exception Int :=
  match reply with
  | .integer n => .ok (n.bmod (2 ^ 32))
  | _ => .error (throw_redis_exception reply)

/-- The text that is handed to `atof`. -/
def recv_float_reply (reply : RedisReply) : Except Exception Str :=
  match reply with
  | .string str => .ok (cstr str)
  | _ => .error (throw_redis_exception reply)

/-- What it returns, and the output argument, which is left alone unless the reply is
    a string. -/
def recv_string_reply (reply : RedisReply) (str : Str) : Int × Str :=
  match reply with
  | .string s => (0, s)
  | _ => (-1, str)

/-- `elements++` of an `int`. -/
def bump (elements : Int) : Except Fault Int := if elements < 2 ^ 31 - 1 then .ok (elements + 1) else .error .undefined

theorem bump_room {n : Int} (room : n < 2 ^ 31 - 1) : bump n = .ok (n + 1) := if_pos room

theorem bump_full {n : Int} (full : ¬ n < 2 ^ 31 - 1) : bump n = .error .undefined := if_neg full

/-- The loop of `recv_string_set_reply`. -/
def recv_string_set_from : List RedisReply → Finset Str → Int → Except Fault (Int × Finset Str)
  | [], s, elements => .ok (elements, s)
  | .string str :: rest, s, elements => (bump elements).bind fun elements => recv_string_set_from rest (insert str s) elements
  | _ :: rest, s, elements => recv_string_set_from rest s elements

/-- The caller's set is cleared before it is filled, and so are the maps below. -/
def recv_string_set_reply (reply : RedisReply) : Except Fault (Int × Finset Str) :=
  match reply with
  | .array element => recv_string_set_from element ∅ 0
  | .hollow _ _ => .error .undefined
  | _ => .error (.thrown (throw_redis_exception reply))

/-- The loop of `recv_string_map_reply` from element `i` on, and of the overload of
    `recv_string_hash_map_reply` with fields. -/
def recv_string_map_from (keys : List Str) : List RedisReply → Nat → StringMap → Int → Except Fault (Int × StringMap)
  | [], _, m, elements => .ok (elements, m)
  | .string str :: rest, i, m, elements =>
    match keys[i]? with
    | none => .error .undefined
    | some key => (bump elements).bind fun elements =>
      recv_string_map_from keys rest (i + 1) (Function.update m key (some str)) elements
  | _ :: rest, i, m, elements => recv_string_map_from keys rest (i + 1) m elements

def recv_string_map_reply (reply : RedisReply) (keys : List Str) : Except Fault (Int × StringMap) :=
  match reply with
  | .array element => recv_string_map_from keys element 0 (fun _ => none) 0
  | .hollow _ _ => .error .undefined
  | _ => .error (.thrown (throw_redis_exception reply))

/-- The loop of `recv_string_hash_map_reply` without fields: it takes two elements a
    round, also where there is only one left. -/
def recv_string_pairs_from (reply : RedisReply) : List RedisReply → StringMap → Int → Except Fault (Int × StringMap)
  | [], h, elements => .ok (elements, h)
  | [_], _, _ => .error .undefined
  | .string field :: .string value :: rest, h, elements => (bump elements).bind fun elements =>
    recv_string_pairs_from reply rest (Function.update h field (some value)) elements
  | _ :: _ :: _, _, _ => .error (.thrown (throw_redis_exception reply))

def recv_string_hash_map_reply (reply : RedisReply) : Except Fault (Int × StringMap) :=
  match reply with
  | .array element => recv_string_pairs_from reply element (fun _ => none) 0
  | .hollow elements _ => .error (hollowFault .bad_alloc (elements / 2))
  | _ => .error (.thrown (throw_redis_exception reply))

/-- The decoder of a method, with what it is given besides the reply. -/
inductive Decoder
  | ok
  | status
  | int
  | float
  | string (value : Str)
  | array
  | set
  | map (keys : List Str)
  | pairs
  | fields (fields : List Str)

/-- The value that the method returns for a reply. -/
def Decoder.decode (reply : RedisReply) : Decoder → Except Fault Value
  | .ok => ((recv_ok_reply reply).mapError .thrown).map .bool
  | .status => ((recv_status_reply reply).mapError .thrown).map .text
  | .int => ((recv_int_reply reply).mapError .thrown).map .int
  | .float => ((recv_float_reply reply).mapError .thrown).map .float
  | .string value => .ok (.string (recv_string_reply reply value).1 (recv_string_reply reply value).2)
  | .array =>
    match recv_string_array_reply reply [] with
    | (.error fault, _) => .error fault
    | (.ok n, arr) => if n ≤ 2 ^ 31 - 1 then .ok (.array n arr) else .error .undefined
  | .set => (recv_string_set_reply reply).map fun (n, s) => .set n s
  | .map keys => (recv_string_map_reply reply keys).map fun (n, m) => .map n m
  | .pairs => (recv_string_hash_map_reply reply).map fun (n, h) => .map n h
  | .fields names => (recv_string_map_reply reply names).map fun (n, h) => .map n h

/-- An integer is reported as it is exactly if it is an int. -/
theorem decode_int (n : Int) : Decoder.int.decode (.integer n) = .ok (.int n) ↔ -2 ^ 31 ≤ n ∧ n < 2 ^ 31 := by
  show Except.ok (Value.int (n.bmod (2 ^ 32))) = .ok (.int n) ↔ _
  rw [Except.ok.injEq, Value.int.injEq]
  constructor
  · intro same
    have below : n.bmod (2 ^ 32) < (2 ^ 32 + 1) / 2 := Int.bmod_lt (by decide)
    have above : -(2 ^ 32 / 2) ≤ n.bmod (2 ^ 32) := Int.le_bmod (by decide)
    omega
  · intro fits
    apply Int.bmod_eq_of_le <;> omega

/-! ### When a decoder returns or throws -/

/-- A value, or an exception that is a `RedisException`. -/
def EndsWell {α : Type} : Except Fault α → Prop
  | .ok _ => True
  | .error (.thrown e) => e.isRedis = true
  | .error .terminated => False
  | .error .undefined => False

/-- The elements that an `int` counts. -/
def Countable (element : List RedisReply) : Prop := ((stringsOf element).length : Int) ≤ 2 ^ 31 - 1

/-- No string stands where there is no key. -/
def Keyed (keys : List Str) (element : List RedisReply) : Prop :=
  ∀ (i : Nat) str, element[i]? = some (.string str) → i < keys.length

/-- The pairs of strings that lead an array. -/
def stringPairs : List RedisReply → Nat
  | .string _ :: .string _ :: rest => stringPairs rest + 1
  | _ => 0

/-- Behind the pairs of strings that lead it, the array has no single element. -/
def Paired (element : List RedisReply) : Prop :=
  (stringPairs element : Int) ≤ 2 ^ 31 - 1 ∧ element.length ≠ 2 * stringPairs element + 1

/-- The reply is no array without its elements. -/
def Whole (reply : RedisReply) : Prop := ∀ elements some, reply ≠ .hollow elements some

@[simp] theorem whole_array (element : List RedisReply) : Whole (.array element) := fun _ _ is => nomatch is

/-- The replies that the decoder can take. -/
def Decoder.Fits (reply : RedisReply) : Decoder → Prop
  | .array | .set => Whole reply ∧ ∀ element, reply = .array element → Countable element
  | .map names | .fields names =>
    Whole reply ∧ ∀ element, reply = .array element → Keyed names element ∧ Countable element
  | .pairs => Whole reply ∧ ∀ element, reply = .array element → Paired element
  | .ok | .status | .int | .float | .string _ => True

@[simp] theorem endsWell_ok {α : Type} (a : α) : EndsWell (.ok a : Except Fault α) ↔ True := Iff.rfl

theorem endsWell_map {α β : Type} (f : α → β) (r : Except Fault α) : EndsWell (r.map f) ↔ EndsWell r := by
  cases r with
  | ok a => exact Iff.rfl
  | error fault => cases fault <;> exact Iff.rfl

theorem endsWell_thrown {α : Type} (r : Except Exception α) (redis : ∀ e, r = .error e → e.isRedis = true) :
    EndsWell (r.mapError .thrown) := by
  cases r with
  | ok a => trivial
  | error e => exact redis e rfl

private theorem bump_endsWell {α : Type} (n : Int) (f : Int → Except Fault α) :
    EndsWell ((bump n).bind f) ↔ n < 2 ^ 31 - 1 ∧ EndsWell (f (n + 1)) := by
  by_cases room : n < 2 ^ 31 - 1
  · have next : (bump n).bind f = f (n + 1) := by
      rw [bump_room room]
      rfl
    rw [next]
    exact (and_iff_right room).symm
  · have above : (bump n).bind f = .error .undefined := by
      rw [bump_full room]
      rfl
    rw [above]
    exact iff_of_false id fun both => room both.1

theorem stringsOf_string (str : Str) (rest : List RedisReply) :
    stringsOf (.string str :: rest) = str :: stringsOf rest := rfl

private theorem set_endsWell (element : List RedisReply) (s : Finset Str) {n : Int} (small : n ≤ 2 ^ 31 - 1) :
    EndsWell (recv_string_set_from element s n) ↔ n + (stringsOf element).length ≤ 2 ^ 31 - 1 := by
  induction element generalizing s n with
  | nil => simpa [recv_string_set_from, stringsOf] using small
  | cons elem rest ih =>
    cases elem with
    | string str =>
      rw [recv_string_set_from, bump_endsWell, stringsOf_string, List.length_cons]
      by_cases room : n < 2 ^ 31 - 1
      · rw [ih (insert str s) (by omega)]
        push_cast
        constructor
        · rintro ⟨_, bound⟩
          omega
        · exact fun bound => ⟨room, by omega⟩
      · refine iff_of_false (fun both => room both.1) ?_
        push_cast
        omega
    | status str | error str | integer k | nil | array inner | hollow m some => exact ih s small

theorem keyed_cons (keys : List Str) (i : Nat) (elem : RedisReply) (rest : List RedisReply) :
    (∀ (j : Nat) str, (elem :: rest)[j]? = some (.string str) → i + j < keys.length) ↔
      (∀ str, elem = .string str → i < keys.length) ∧
      ∀ (j : Nat) str, rest[j]? = some (.string str) → i + 1 + j < keys.length := by
  constructor
  · intro all
    constructor
    · intro str is
      exact all 0 str (by simp [is])
    · intro j str at_j
      have later := all (j + 1) str (by simpa using at_j)
      omega
  · rintro ⟨here, later⟩ j str at_j
    cases j with
    | zero => exact here str (by simpa using at_j)
    | succ j =>
      have bound := later j str (by simpa using at_j)
      omega

private theorem map_endsWell (keys : List Str) (element : List RedisReply) (i : Nat) (m : StringMap) {n : Int}
    (small : n ≤ 2 ^ 31 - 1) :
    EndsWell (recv_string_map_from keys element i m n) ↔
      (∀ (j : Nat) str, element[j]? = some (.string str) → i + j < keys.length) ∧
      n + (stringsOf element).length ≤ 2 ^ 31 - 1 := by
  induction element generalizing i m n with
  | nil => simpa [recv_string_map_from, stringsOf] using small
  | cons elem rest ih =>
    rw [keyed_cons]
    cases elem with
    | string str =>
      rw [recv_string_map_from, stringsOf_string, List.length_cons]
      cases at_i : keys[i]? with
      | none =>
        have beyond : keys.length ≤ i := List.getElem?_eq_none_iff.mp at_i
        refine iff_of_false id ?_
        rintro ⟨⟨here, _⟩, _⟩
        have inside := here str rfl
        omega
      | some key =>
        have inside : i < keys.length := (List.getElem?_eq_some_iff.mp at_i).1
        rw [bump_endsWell]
        by_cases room : n < 2 ^ 31 - 1
        · rw [ih (i + 1) _ (by omega)]
          push_cast
          constructor
          · rintro ⟨_, keyed, bound⟩
            exact ⟨⟨fun _ _ => inside, keyed⟩, by omega⟩
          · rintro ⟨⟨_, keyed⟩, bound⟩
            exact ⟨room, keyed, by omega⟩
        · refine iff_of_false (fun both => room both.1) ?_
          rintro ⟨_, bound⟩
          push_cast at bound
          omega
    | status str | error str | integer k | nil | array inner | hollow count some =>
      have later := ih (i + 1) m small
      refine later.trans (and_congr_left fun _ => ⟨fun keyed => ⟨?_, keyed⟩, And.right⟩)
      intro str is
      cases is

private theorem pairs_endsWell (reply : RedisReply) (element : List RedisReply) (h : StringMap) {n : Int}
    (small : n ≤ 2 ^ 31 - 1) :
    EndsWell (recv_string_pairs_from reply element h n) ↔
      n + stringPairs element ≤ 2 ^ 31 - 1 ∧ element.length ≠ 2 * stringPairs element + 1 := by
  match element with
  | [] => simpa [recv_string_pairs_from, stringPairs] using small
  | [last] => cases last <;> simp [recv_string_pairs_from, stringPairs, EndsWell]
  | first :: second :: rest =>
    have stops : (∀ h, recv_string_pairs_from reply (first :: second :: rest) h n =
        .error (.thrown (throw_redis_exception reply))) → stringPairs (first :: second :: rest) = 0 →
        (EndsWell (recv_string_pairs_from reply (first :: second :: rest) h n) ↔
          n + stringPairs (first :: second :: rest) ≤ 2 ^ 31 - 1 ∧
            (first :: second :: rest).length ≠ 2 * stringPairs (first :: second :: rest) + 1) := by
      intro thrown none
      rw [thrown, none]
      exact iff_of_true (throw_redis_exception_isRedis reply) ⟨by push_cast; omega, by simp⟩
    cases first with
    | string field =>
      cases second with
      | string value =>
        rw [recv_string_pairs_from, bump_endsWell, stringPairs]
        by_cases room : n < 2 ^ 31 - 1
        · rw [pairs_endsWell reply rest _ (by omega)]
          simp only [List.length_cons]
          push_cast
          constructor
          · rintro ⟨_, bound, even⟩
            exact ⟨by omega, by omega⟩
          · rintro ⟨bound, even⟩
            exact ⟨room, by omega, by omega⟩
        · refine iff_of_false (fun both => room both.1) ?_
          rintro ⟨bound, _⟩
          push_cast at bound
          omega
      | status str | error str | integer k | nil | array inner | hollow m some => exact stops (fun _ => rfl) rfl
    | status str | error str | integer k | nil | array inner | hollow m some => exact stops (fun _ => by cases second <;> rfl) rfl

private theorem recv_isRedis {reply : RedisReply} {e : Exception} (is : e = throw_redis_exception reply) :
    e.isRedis = true := is ▸ throw_redis_exception_isRedis reply

private theorem hollowFault_not_redis {α : Type} (reserve : Exception) (other : reserve.isRedis = false) (elements : Nat) :
    ¬ EndsWell (.error (hollowFault reserve elements) : Except Fault α) := by
  unfold hollowFault
  split
  · show ¬ reserve.isRedis = true
    rw [other]
    exact Bool.false_ne_true
  · exact id

/-- A decoder returns a value or throws a `RedisException` exactly for the replies that
    it can take. -/
theorem decode_ends_well (decoder : Decoder) (reply : RedisReply) :
    EndsWell (decoder.decode reply) ↔ decoder.Fits reply := by
  cases decoder with
  | ok =>
    refine iff_of_true ((endsWell_map _ _).mpr (endsWell_thrown _ ?_)) trivial
    intro e thrown
    exact recv_isRedis (recv_ok_reply_throws thrown).2
  | status | int | float =>
    refine iff_of_true ((endsWell_map _ _).mpr (endsWell_thrown _ ?_)) trivial
    intro e thrown
    cases reply <;> cases thrown <;> rfl
  | string value => exact iff_of_true trivial trivial
  | array =>
    cases reply with
    | array element =>
      simp only [Decoder.decode, recv_string_array_reply_array, Decoder.Fits, whole_array, true_and, RedisReply.array.injEq,
        forall_eq']
      by_cases fits : ((stringsOf element).length : Int) ≤ 2 ^ 31 - 1
      · rw [if_pos fits]
        exact iff_of_true trivial fits
      · rw [if_neg fits]
        exact iff_of_false id fits
    | hollow m some => exact iff_of_false (hollowFault_not_redis .length_error rfl m) fun fits => fits.1 m some rfl
    | status str | error str | integer k | nil | string str =>
      exact iff_of_true (throw_redis_exception_isRedis _) ⟨fun _ _ is => (nomatch is), fun _ is => nomatch is⟩
  | set =>
    rw [Decoder.decode, endsWell_map]
    cases reply with
    | array element =>
      simp only [recv_string_set_reply, set_endsWell element ∅ (n := 0) (by decide), zero_add, Decoder.Fits,
        whole_array, true_and, RedisReply.array.injEq, forall_eq', Countable]
    | hollow m some => exact iff_of_false id fun fits => fits.1 m some rfl
    | status str | error str | integer k | nil | string str =>
      exact iff_of_true (throw_redis_exception_isRedis _) ⟨fun _ _ is => (nomatch is), fun _ is => nomatch is⟩
  | map names | fields names =>
    rw [Decoder.decode, endsWell_map]
    cases reply with
    | array element =>
      simp only [recv_string_map_reply, map_endsWell names element 0 _ (n := 0) (by decide), zero_add, Decoder.Fits,
        whole_array, true_and, RedisReply.array.injEq, forall_eq', Countable, Keyed]
    | hollow m some => exact iff_of_false id fun fits => fits.1 m some rfl
    | status str | error str | integer k | nil | string str =>
      exact iff_of_true (throw_redis_exception_isRedis _) ⟨fun _ _ is => (nomatch is), fun _ is => nomatch is⟩
  | pairs =>
    rw [Decoder.decode, endsWell_map]
    cases reply with
    | array element =>
      simp only [recv_string_hash_map_reply, pairs_endsWell (.array element) element _ (n := 0) (by decide), zero_add,
        Decoder.Fits, whole_array, true_and, RedisReply.array.injEq, forall_eq', Paired]
    | hollow m some => exact iff_of_false (hollowFault_not_redis .bad_alloc rfl (m / 2)) fun fits => fits.1 m some rfl
    | status str | error str | integer k | nil | string str =>
      exact iff_of_true (throw_redis_exception_isRedis _) ⟨fun _ _ is => (nomatch is), fun _ is => nomatch is⟩

end CppRedis.Decoders

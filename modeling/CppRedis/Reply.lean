import Mathlib.Tactic.Ring
import CppRedis.Strings

/-!
The replies of a hiredis reader and how the client decodes them. A decoder that
is given an output argument returns what the call gives or throws, and the
argument's value afterwards.
-/
namespace CppRedis.Reply
open CppRedis.Strings

/-- What `redisReply` holds, by its `type`. An array is hollow where the server has sent a
    negative number of elements: `elements` is that number as a `size_t`, and `element` is
    NULL or has NULL pointers only. -/
inductive RedisReply
  | status (str : Str)
  | error (str : Str)
  | integer (integer : Int)
  | nil
  | string (str : Str)
  | array (element : List RedisReply)
  | hollow (elements : Nat) (some : 0 < elements)

/-- The exceptions that the code throws: the four of `redis_exception.hpp`, the
    two of `stoi`, that of `new` for an array of a negative length and those of
    `reserve` of a vector and of a hash map. -/
inductive Exception
  | RedisException (err : Str)
  | ConnectionException (err : Str)
  | CommandException (err : Str)
  | ValueException (err : Str)
  | invalid_argument
  | out_of_range
  | bad_array_new_length
  | length_error
  | bad_alloc
  deriving DecidableEq

/-- The exception is one that `catch (const RedisException&)` takes. -/
def Exception.isRedis : Exception → Bool
  | .RedisException _ => true
  | .ConnectionException _ => true
  | .CommandException _ => true
  | .ValueException _ => true
  | .invalid_argument => false
  | .out_of_range => false
  | .bad_array_new_length => false
  | .length_error => false
  | .bad_alloc => false

/-- How an operation fails to return: an exception leaves it, an exception
    leaves a destructor and ends the program, or its behaviour is undefined. -/
inductive Fault
  | thrown (e : Exception)
  | terminated
  | undefined

/-- The exception `throw_redis_exception` throws for a reply. -/
def throw_redis_exception : RedisReply → Exception
  | .error str => .ValueException (cstr str)
  | .nil => .ValueException (lit "nil reply")
  | _ => .RedisException (lit "Unknown exception")

def REDIS_STATUS_REPLY_OK : Str := lit "OK"

def recv_ok_reply (reply : RedisReply) : Except Exception Bool :=
  match reply with
  | .status str => .ok (strncmp_eq str REDIS_STATUS_REPLY_OK str.length)
  | _ => .error (throw_redis_exception reply)

/-- The loop of `recv_string_array_reply` over the elements. -/
def recv_string_array_from : List RedisReply → List Str → Int → Int × List Str
  | [], arr, elements => (elements, arr)
  | .string str :: rest, arr, elements => recv_string_array_from rest (arr ++ [str]) (elements + 1)
  | _ :: rest, arr, elements => recv_string_array_from rest arr elements

/-- `max_size()` of a vector of strings; no hash map has that many buckets either. -/
def max_size : Nat := (2 ^ 63 - 1) / 32

/-- `reserve` throws, or the first element is a NULL pointer. -/
def hollowFault (reserve : Exception) (elements : Nat) : Fault :=
  if max_size < elements then .thrown reserve else .undefined

def recv_string_array_reply (reply : RedisReply) (_arr : List Str) : Except Fault Int × List Str :=
  match reply with
  | .array element =>
    let (elements, arr) := recv_string_array_from element [] 0
    (.ok elements, arr)
  | .hollow elements _ => (.error (hollowFault .length_error elements), [])
  | _ => (.error (.thrown (throw_redis_exception reply)), [])

/-- The strings among the elements of an array, in order. -/
def stringsOf (element : List RedisReply) : List Str :=
  element.filterMap fun elem => match elem with
    | .string str => some str
    | _ => none

theorem recv_string_array_from_eq (element : List RedisReply) (arr : List Str) (elements : Int) :
    recv_string_array_from element arr elements =
      (elements + (stringsOf element).length, arr ++ stringsOf element) := by
  induction element generalizing arr elements with
  | nil => simp [recv_string_array_from, stringsOf]
  | cons elem rest ih =>
    cases elem with
    | string str =>
      simp only [recv_string_array_from, ih]
      simp only [stringsOf, List.filterMap_cons, List.length_cons, List.append_assoc, List.singleton_append]
      congr 1
      push_cast
      ring
    | _ => simp only [recv_string_array_from, ih, stringsOf, List.filterMap_cons]

theorem recv_string_array_reply_array (element : List RedisReply) (arr : List Str) :
    recv_string_array_reply (.array element) arr = (.ok (stringsOf element).length, stringsOf element) := by
  simp [recv_string_array_reply, recv_string_array_from_eq]

/-- The replies that `recv_ok_reply` takes without an exception. -/
def RedisReply.IsStatus : RedisReply → Prop
  | .status _ => True
  | _ => False

instance : (reply : RedisReply) → Decidable reply.IsStatus
  | .status _ => .isTrue trivial
  | .error _ | .integer _ | .nil | .string _ | .array _ | .hollow _ _ => .isFalse id

theorem throw_redis_exception_isRedis (reply : RedisReply) : (throw_redis_exception reply).isRedis = true := by
  cases reply <;> rfl

/-- `recv_ok_reply` returns for every status and throws for everything else. -/
theorem recv_ok_reply_returns (reply : RedisReply) : (∃ ok, recv_ok_reply reply = .ok ok) ↔ reply.IsStatus := by
  cases reply <;> simp [recv_ok_reply, RedisReply.IsStatus]

theorem recv_ok_reply_throws {reply : RedisReply} {e : Exception} (thrown : recv_ok_reply reply = .error e) :
    ¬ reply.IsStatus ∧ e = throw_redis_exception reply := by
  cases reply <;> simp_all [recv_ok_reply, RedisReply.IsStatus]

end CppRedis.Reply

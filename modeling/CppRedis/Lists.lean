import CppRedis.Methods
import CppRedis.Runs

/-!
The list commands: a server that keeps lists of strings, the operations on an
abstract map from keys to lists, and the methods of `Client` between them. The
server works on the arguments that it gets (`exec`); the operations on those of the
method (`operate`). `exec_operates` connects the two; `lists_refine_iff` says in
which runs the methods report what the operations give.
-/
namespace CppRedis.Lists
open CppRedis.Strings CppRedis.Reply CppRedis.Connection CppRedis.Clients CppRedis.Commands CppRedis.Decoders
open CppRedis.Methods CppRedis.Requests CppRedis.Runs

/-! ### Places in a list -/

/-- The place that an index means, which counts from the end where it is negative. -/
def place (index : Int) (length : Nat) : Option Nat :=
  let i := if index < 0 then index + length else index
  if 0 ≤ i ∧ i < length then some i.toNat else none

/-- The elements between two indices, both included. -/
def slice (start stop : Int) (xs : List Str) : List Str :=
  let first := max 0 (if start < 0 then start + xs.length else start)
  let last := if stop < 0 then stop + xs.length else stop
  if last < first then [] else (xs.drop first.toNat).take (last - first + 1).toNat

/-- The first occurrences of a value are left out, so many at most. -/
def without : Nat → Str → List Str → List Str
  | 0, _, xs => xs
  | n + 1, value, xs => without n value (xs.erase value)

/-- All occurrences, the first or the last ones are left out. -/
def remove (count : Int) (value : Str) (xs : List Str) : List Str :=
  if count = 0 then xs.filter (· ≠ value)
  else if 0 < count then without count.toNat value xs
  else (without count.natAbs value xs.reverse).reverse

/-! ### The abstract map -/

/-- A key that is not there has the empty list. -/
abbrev Store := Str → List Str

/-- A call of a list method; `before` is the value of the output string. -/
inductive ListCall
  | lpush (key : Str) (values : List Str)
  | rpush (key : Str) (values : List Str)
  | lpushx (key value : Str)
  | rpushx (key value : Str)
  | lpop (key before : Str)
  | rpop (key before : Str)
  | lindex (key : Str) (index : Int32) (before : Str)
  | llen (key : Str)
  | lrange (key : Str) (start stop : Int32)
  | lrem (key : Str) (count : Int32) (value : Str)
  | lset (key : Str) (index : Int32) (value : Str)
  | ltrim (key : Str) (start stop : Int32)
  | rpoplpush (source destination : Str)
  | brpoplpush (source destination : Str) (timeout : Int32)

/-- What an operation gives. -/
inductive Result
  | number (n : Nat)
  | element (x : Option Str)
  | elements (xs : List Str)
  | done
  | moved (x : Option Str)

/-- The last element of one list becomes the first of another. -/
def move (source destination : Str) (s : Store) : Result × Store :=
  match (s source).getLast? with
  | none => (.moved none, s)
  | some x =>
    let s := Function.update s source (s source).dropLast
    (.moved (some x), Function.update s destination (x :: s destination))

/-- The operation of a call; none where it cannot be carried out. -/
def operate : ListCall → Store → Option (Result × Store)
  | .lpush key values, s =>
    if values = [] then none
    else some (.number (values.length + (s key).length), Function.update s key (values.reverse ++ s key))
  | .rpush key values, s =>
    if values = [] then none
    else some (.number ((s key).length + values.length), Function.update s key (s key ++ values))
  | .lpushx key value, s =>
    if s key = [] then some (.number 0, s) else some (.number ((s key).length + 1), Function.update s key (value :: s key))
  | .rpushx key value, s =>
    if s key = [] then some (.number 0, s) else some (.number ((s key).length + 1), Function.update s key (s key ++ [value]))
  | .lpop key _, s => some (.element (s key).head?, Function.update s key (s key).tail)
  | .rpop key _, s => some (.element (s key).getLast?, Function.update s key (s key).dropLast)
  | .lindex key index _, s => some (.element ((place index.toInt (s key).length).bind fun i => (s key)[i]?), s)
  | .llen key, s => some (.number (s key).length, s)
  | .lrange key start stop, s => some (.elements (slice start.toInt stop.toInt (s key)), s)
  | .lrem key count value, s =>
    let rest := remove count.toInt value (s key)
    some (.number ((s key).length - rest.length), Function.update s key rest)
  | .lset key index value, s =>
    match place index.toInt (s key).length with
    | none => none
    | some i => some (.done, Function.update s key ((s key).set i value))
  | .ltrim key start stop, s => some (.done, Function.update s key (slice start.toInt stop.toInt (s key)))
  | .rpoplpush source destination, s => some (move source destination s)
  | .brpoplpush source destination timeout, s =>
    if timeout.toInt < 0 then none else some (move source destination s)

/-- The value in which a method reports what the operation gives. A move has its
    element in `values`, whatever the number; nothing is asked where none was moved. -/
def Result.Shown (before : Str) : Result → Value → Prop
  | .number n, v => v = .int n
  | .element (some x), v => v = .string 0 x
  | .element none, v => v = .string (-1) before
  | .elements xs, v => v = .array xs.length xs
  | .done, v => v = .bool true
  | .moved (some x), v => ∃ n, v = .array n [x]
  | .moved none, _ => True

/-! ### The server -/

def wrongArguments : RedisReply := .error (lit "ERR wrong number of arguments")
def notAnInteger : RedisReply := .error (lit "ERR value is not an integer or out of range")
def okReply : RedisReply := .status (lit "OK")

/-- A bulk string, or nil. -/
def bulk : Option Str → RedisReply
  | none => .nil
  | some x => .string x

/-- A list is stored, and its length reported. -/
def pushed (key : Str) (xs : List Str) (s : Store) : RedisReply × Store := (.integer xs.length, Function.update s key xs)

/-- What the server makes of a command: the reply and the lists afterwards, or none
    where it blocks for ever. -/
abbrev Handler := List Str → Store → Option (RedisReply × Store)

namespace Server

def lpush : Handler
  | key :: value :: values, s => some (pushed key ((value :: values).foldl (fun xs x => x :: xs) (s key)) s)
  | _, s => some (wrongArguments, s)

def rpush : Handler
  | key :: value :: values, s => some (pushed key ((value :: values).foldl (fun xs x => xs ++ [x]) (s key)) s)
  | _, s => some (wrongArguments, s)

def lpushx : Handler
  | [key, value], s => some (if s key = [] then (.integer 0, s) else pushed key (value :: s key) s)
  | _, s => some (wrongArguments, s)

def rpushx : Handler
  | [key, value], s => some (if s key = [] then (.integer 0, s) else pushed key (s key ++ [value]) s)
  | _, s => some (wrongArguments, s)

def lpop : Handler
  | [key], s => some (bulk (s key).head?, Function.update s key (s key).tail)
  | _, s => some (wrongArguments, s)

def rpop : Handler
  | [key], s => some (bulk (s key).getLast?, Function.update s key (s key).dropLast)
  | _, s => some (wrongArguments, s)

def lindex : Handler
  | [key, index], s =>
    match string2ll index with
    | none => some (notAnInteger, s)
    | some index => some (bulk ((place index (s key).length).bind fun i => (s key)[i]?), s)
  | _, s => some (wrongArguments, s)

def llen : Handler
  | [key], s => some (.integer (s key).length, s)
  | _, s => some (wrongArguments, s)

def lrange : Handler
  | [key, start, stop], s =>
    match string2ll start, string2ll stop with
    | some start, some stop => some (.array ((slice start stop (s key)).map .string), s)
    | _, _ => some (notAnInteger, s)
  | _, s => some (wrongArguments, s)

def lrem : Handler
  | [key, count, value], s =>
    match string2ll count with
    | none => some (notAnInteger, s)
    | some count =>
      let rest := remove count value (s key)
      some (.integer ((s key).length - rest.length : Nat), Function.update s key rest)
  | _, s => some (wrongArguments, s)

def lset : Handler
  | [key, index, value], s =>
    if s key = [] then some (.error (lit "ERR no such key"), s)
    else
      match string2ll index with
      | none => some (notAnInteger, s)
      | some index =>
        match place index (s key).length with
        | none => some (.error (lit "ERR index out of range"), s)
        | some i => some (okReply, Function.update s key ((s key).set i value))
  | _, s => some (wrongArguments, s)

def ltrim : Handler
  | [key, start, stop], s =>
    match string2ll start, string2ll stop with
    | some start, some stop => some (okReply, Function.update s key (slice start stop (s key)))
    | _, _ => some (notAnInteger, s)
  | _, s => some (wrongArguments, s)

def popPush (source destination : Str) (s : Store) : RedisReply × Store :=
  match (s source).getLast? with
  | none => (.nil, s)
  | some x =>
    let s := Function.update s source (s source).dropLast
    (.string x, Function.update s destination (x :: s destination))

def rpoplpush : Handler
  | [source, destination], s => some (popPush source destination s)
  | _, s => some (wrongArguments, s)

/-- Nobody else pushes: an empty source is waited for in vain. -/
def brpoplpush : Handler
  | [source, destination, timeout], s =>
    match string2ll timeout with
    | none => some (.error (lit "ERR timeout is not an integer or out of range"), s)
    | some timeout =>
      if timeout < 0 then some (.error (lit "ERR timeout is negative"), s)
      else if s source = [] ∧ timeout = 0 then none
      else some (popPush source destination s)
  | _, s => some (wrongArguments, s)

end Server

/-- The handler of a command. -/
def handler (name : Str) : Option Handler :=
  if name = lit "LPUSH" then some Server.lpush
  else if name = lit "RPUSH" then some Server.rpush
  else if name = lit "LPUSHX" then some Server.lpushx
  else if name = lit "RPUSHX" then some Server.rpushx
  else if name = lit "LPOP" then some Server.lpop
  else if name = lit "RPOP" then some Server.rpop
  else if name = lit "LINDEX" then some Server.lindex
  else if name = lit "LLEN" then some Server.llen
  else if name = lit "LRANGE" then some Server.lrange
  else if name = lit "LREM" then some Server.lrem
  else if name = lit "LSET" then some Server.lset
  else if name = lit "LTRIM" then some Server.ltrim
  else if name = lit "RPOPLPUSH" then some Server.rpoplpush
  else if name = lit "BRPOPLPUSH" then some Server.brpoplpush
  else none

/-- A request without arguments is passed over. -/
def exec : RedisCmd → Store → Option (RedisReply × Store)
  | [], _ => none
  | name :: args, s =>
    match handler name with
    | none => some (.error (lit "ERR unknown command"), s)
    | some run => run args s

/-! ### The server carries out the operations -/

/-- The method of a call. -/
def ListCall.command : ListCall → Command
  | .lpush key values => .lpush key values
  | .rpush key values => .rpush key values
  | .lpushx key value => .lpushx key value
  | .rpushx key value => .rpushx key value
  | .lpop key before => .lpop key before
  | .rpop key before => .rpop key before
  | .lindex key index before => .lindex key index before
  | .llen key => .llen key
  | .lrange key start stop => .lrange key start stop
  | .lrem key count value => .lrem key count value
  | .lset key index value => .lset key index value
  | .ltrim key start stop => .ltrim key start stop
  | .rpoplpush source destination => .rpoplpush source destination
  | .brpoplpush source destination timeout => .brpoplpush source destination timeout

/-- The value of the output string before the call. -/
def ListCall.before : ListCall → Str
  | .lpop _ before => before
  | .rpop _ before => before
  | .lindex _ _ before => before
  | _ => []

/-- The reply for what an operation gives. -/
def Result.reply : Result → RedisReply
  | .number n => .integer n
  | .element x => bulk x
  | .elements xs => .array (xs.map .string)
  | .done => okReply
  | .moved x => bulk x

/-- The decoder of the method, for what the operation gives. -/
inductive Suits (before : Str) : Decoder → Result → Prop
  | number (n : Nat) : Suits before .int (.number n)
  | element (x : Option Str) : Suits before (.string before) (.element x)
  | elements (xs : List Str) : Suits before .array (.elements xs)
  | done : Suits before .ok .done
  | moved (x : Option Str) : Suits before .array (.moved x)

/-- The server carries out the operation of the call, refuses the command where there
    is none, or blocks. -/
inductive Carried (call : ListCall) (s : Store) (cmd : RedisCmd) (decoder : Decoder) : Prop
  | out {result : Result} {lists : Store} (operates : operate call s = some (result, lists))
      (executes : exec cmd s = some (result.reply, lists)) (suits : Suits call.before decoder result)
  | refused {text : Str} (none : operate call s = none) (executes : exec cmd s = some (.error text, s))
  | blocks (executes : exec cmd s = none)

private theorem push_front (values xs : List Str) : values.foldl (fun xs x => x :: xs) xs = values.reverse ++ xs := by
  induction values generalizing xs with
  | nil => rfl
  | cons x rest ih => simp [ih]

private theorem push_back (values xs : List Str) : values.foldl (fun xs x => xs ++ [x]) xs = xs ++ values := by
  induction values generalizing xs with
  | nil => simp
  | cons x rest ih => simp [ih]

private theorem popPush_move (source destination : Str) (s : Store) :
    Server.popPush source destination s = ((move source destination s).1.reply, (move source destination s).2) := by
  simp only [Server.popPush, move]
  cases (s source).getLast? <;> rfl

private theorem move_suits (before source destination : Str) (s : Store) :
    Suits before .array (move source destination s).1 := by
  simp only [move]
  cases (s source).getLast? with
  | none => exact .moved none
  | some x => exact .moved (some x)

/-- The command is handed over with all its arguments. -/
def Handed : ListCall → Prop
  | .lpush _ values => values.length + 2 < 2 ^ 31
  | .rpush _ values => values.length + 2 < 2 ^ 31
  | _ => True

theorem exec_operates {call : ListCall} (whole : Handed call) (s : Store) :
    ∃ cmd decoder, call.command.call = .sends cmd decoder ∧ Carried call s cmd decoder := by
  cases call with
  | lpush key values =>
    refine ⟨_, _, send_eq whole, ?_⟩
    cases values with
    | nil => exact .refused rfl rfl
    | cons value values =>
      refine .out rfl ?_ (.number _)
      show some (pushed key _ s) = _
      rw [push_front, pushed, List.length_append, List.length_reverse]
      rfl
  | rpush key values =>
    refine ⟨_, _, send_eq whole, ?_⟩
    cases values with
    | nil => exact .refused rfl rfl
    | cons value values =>
      refine .out rfl ?_ (.number _)
      show some (pushed key _ s) = _
      rw [push_back, pushed, List.length_append]
      rfl
  | lpushx key value | rpushx key value =>
    refine ⟨_, _, send_eq (by simp), ?_⟩
    by_cases empty : s key = []
    · refine .out (if_pos empty) ?_ (.number 0)
      exact congrArg some (if_pos empty)
    · refine .out (if_neg empty) ?_ (.number _)
      refine congrArg some ((if_neg empty).trans ?_)
      simp [pushed, Result.reply]
  | lpop key before | rpop key before => exact ⟨_, _, send_eq (by simp), .out rfl rfl (.element _)⟩
  | lindex key index before =>
    refine ⟨_, _, send_eq (by simp), .out rfl ?_ (.element _)⟩
    show Server.lindex [key, int index] s = _
    simp only [Server.lindex, string2ll_int]
    rfl
  | llen key => exact ⟨_, _, send_eq (by simp), .out rfl rfl (.number _)⟩
  | lrange key start stop =>
    refine ⟨_, _, send_eq (by simp), .out rfl ?_ (.elements _)⟩
    show Server.lrange [key, int start, int stop] s = _
    simp only [Server.lrange, string2ll_int]
    rfl
  | lrem key count value =>
    refine ⟨_, _, send_eq (by simp), .out rfl ?_ (.number _)⟩
    show Server.lrem [key, int count, value] s = _
    simp only [Server.lrem, string2ll_int]
    rfl
  | lset key index value =>
    refine ⟨_, _, send_eq (by simp), ?_⟩
    have run : exec [lit "LSET", key, int index, value] s = Server.lset [key, int index, value] s := rfl
    simp only [Server.lset, string2ll_int] at run
    cases found : place index.toInt (s key).length with
    | none =>
      by_cases empty : s key = []
      · exact .refused (by simp only [operate, found]) (run.trans (if_pos empty))
      · exact .refused (by simp only [operate, found]) (run.trans ((if_neg empty).trans (by rw [found])))
    | some i =>
      have filled : s key ≠ [] := by
        intro empty
        have outside : place index.toInt 0 = none := if_neg (by push_cast; split <;> omega)
        rw [empty] at found
        cases outside.symm.trans found
      have operates : operate (.lset key index value) s = some (.done, Function.update s key ((s key).set i value)) := by
        simp only [operate, found]
      refine .out operates (run.trans ((if_neg filled).trans ?_)) .done
      rw [found]
      rfl
  | ltrim key start stop =>
    refine ⟨_, _, send_eq (by simp), .out rfl ?_ .done⟩
    show Server.ltrim [key, int start, int stop] s = _
    simp only [Server.ltrim, string2ll_int]
    rfl
  | rpoplpush source destination =>
    refine ⟨_, _, send_eq (by simp), .out rfl ?_ (move_suits _ source destination s)⟩
    exact congrArg some (popPush_move source destination s)
  | brpoplpush source destination timeout =>
    refine ⟨_, _, send_eq (by simp), ?_⟩
    have run : exec [lit "BRPOPLPUSH", source, destination, int timeout] s =
        Server.brpoplpush [source, destination, int timeout] s := rfl
    simp only [Server.brpoplpush, string2ll_int] at run
    by_cases negative : timeout.toInt < 0
    · exact .refused (if_pos negative) (run.trans (if_pos negative))
    · rw [if_neg negative] at run
      by_cases waits : s source = [] ∧ timeout.toInt = 0
      · exact .blocks (run.trans (if_pos waits))
      · refine .out (if_neg negative) (run.trans ((if_neg waits).trans ?_)) (move_suits _ source destination s)
        exact congrArg some (popPush_move source destination s)

/-! ### What the methods report -/

/-- The reply to the command of a call with the decoder of the method, none where the
    method throws before it is sent, and the lists afterwards; there is no answer where
    the server blocks. -/
def answer (call : ListCall) (s : Store) : Option (Option (Decoder × RedisReply) × Store) :=
  match call.command.call with
  | .sends cmd decoder =>
    match unsent cmd with
    | some _ => some (none, s)
    | none => (exec cmd s).map fun (reply, lists) => (some (decoder, reply), lists)
  | .throws _ => some (none, s)
  | .returns _ => none
  | .undefined => none

/-- The map after a call; nothing changes where there is no operation. -/
def after (call : ListCall) (s : Store) : Store :=
  match operate call s with
  | some (_, lists) => lists
  | none => s

/-- The lists of the server and the map, at one call after the other. -/
def step (s : Store × Store) (call : ListCall) : Option (Store × Store) :=
  (answer call s.1).map fun (_, lists) => (lists, after call s.2)

/-- The command is sent, and unless the server replies with an error, the method returns
    and reports what the operation gives; the lists are those of the map. -/
def Reports (s : Store × Store) (call : ListCall) (s' : Store × Store) : Prop :=
  (∀ out lists, answer call s.1 = some (out, lists) → ∃ decoder reply, out = some (decoder, reply) ∧
    ((∀ text, reply ≠ .error text) →
      ∃ v result, decoder.decode reply = .ok v ∧ operate call s.2 = some (result, s'.2) ∧ result.Shown call.before v)) ∧
  s'.1 = s'.2

/-- The call is none of the two whose decoder does not fit the reply, and the number that
    it reports is of type `int`. -/
def Countable (s : Store) : ListCall → Prop
  | .lpush key values => values = [] ∨ values.length + (s key).length < 2 ^ 31
  | .rpush key values => values = [] ∨ (s key).length + values.length < 2 ^ 31
  | .lpushx key _ => (s key).length + 1 < 2 ^ 31
  | .rpushx key _ => (s key).length + 1 < 2 ^ 31
  | .llen key => (s key).length < 2 ^ 31
  | .lrange key start stop => (slice start.toInt stop.toInt (s key)).length < 2 ^ 31
  | .lrem key count value => (s key).length - (remove count.toInt value (s key)).length < 2 ^ 31
  | .rpoplpush _ _ => False
  | .brpoplpush _ _ timeout => timeout.toInt < 0
  | .lpop _ _ => True
  | .rpop _ _ => True
  | .lindex _ _ _ => True
  | .lset _ _ _ => True
  | .ltrim _ _ _ => True

/-- The whole command is sent, and what it gives can be reported. -/
structure Reportable (s : Store) (call : ListCall) : Prop where
  handed : Handed call
  sent : call.command.Sent
  countable : Countable s call

/-- The method can report the result. -/
def Result.Decodes : Result → Prop
  | .number n => n < 2 ^ 31
  | .elements xs => xs.length < 2 ^ 31
  | .element _ => True
  | .done => True
  | .moved _ => False

private theorem stringsOf_strings (xs : List Str) : stringsOf (xs.map .string) = xs := by
  induction xs with
  | nil => rfl
  | cons x rest ih => exact congrArg (x :: ·) ih

private theorem decodes_iff {before : Str} {decoder : Decoder} {result : Result} (suits : Suits before decoder result) :
    (∃ v, decoder.decode result.reply = .ok v ∧ result.Shown before v) ↔ result.Decodes := by
  cases suits with
  | number n =>
    have decodes := decode_int n
    constructor
    · rintro ⟨v, decoded, rfl⟩
      have fits := decodes.mp decoded
      show n < 2 ^ 31
      omega
    · intro fits
      have small : n < 2 ^ 31 := fits
      exact ⟨_, decodes.mpr (by omega), rfl⟩
  | element x => cases x <;> exact iff_of_true ⟨_, rfl, rfl⟩ trivial
  | elements xs =>
    have decoded : Decoder.array.decode (Result.elements xs).reply =
        if (xs.length : Int) ≤ 2 ^ 31 - 1 then .ok (.array xs.length xs) else .error .undefined := by
      simp only [Decoder.decode, Result.reply, recv_string_array_reply_array, stringsOf_strings]
    show _ ↔ xs.length < 2 ^ 31
    rw [decoded]
    by_cases fits : (xs.length : Int) ≤ 2 ^ 31 - 1
    · rw [if_pos fits]
      exact iff_of_true ⟨_, rfl, rfl⟩ (by omega)
    · rw [if_neg fits]
      refine iff_of_false ?_ (by omega)
      rintro ⟨v, none, _⟩
      cases none
  | done => exact iff_of_true ⟨_, rfl, rfl⟩ trivial
  | moved x =>
    refine iff_of_false ?_ id
    rintro ⟨v, decoded, _⟩
    cases x <;> cases decoded

private theorem decodes_once {call : ListCall} {s : Store} {result : Result} {lists : Store}
    (operates : operate call s = some (result, lists)) :
    (∀ r l, operate call s = some (r, l) → r.Decodes) ↔ result.Decodes := by
  constructor
  · exact fun all => all result lists operates
  · intro decodes r l same
    obtain rfl := (Prod.mk.inj (Option.some.inj (operates.symm.trans same))).1
    exact decodes

private theorem move_decodes (source destination : Str) (s : Store) : ¬ (move source destination s).1.Decodes := by
  simp only [move]
  cases (s source).getLast? <;> exact id

private theorem countable_iff (call : ListCall) (s : Store) :
    Countable s call ↔ ∀ result lists, operate call s = some (result, lists) → result.Decodes := by
  have once : ∀ {result lists}, operate call s = some (result, lists) →
      ((∀ r l, operate call s = some (r, l) → r.Decodes) ↔ result.Decodes) := decodes_once
  have never : operate call s = none → ∀ r l, operate call s = some (r, l) → r.Decodes := by
    intro none r l some
    cases none.symm.trans some
  cases call with
  | lpush key values | rpush key values =>
    by_cases empty : values = []
    · exact iff_of_true (.inl empty) (never (if_pos empty))
    · exact (or_iff_right empty).trans (once (if_neg empty)).symm
  | lpushx key value | rpushx key value =>
    by_cases empty : s key = []
    · refine Iff.trans ?_ (once (if_pos empty)).symm
      simp [Countable, Result.Decodes, empty]
    · exact (once (if_neg empty)).symm
  | lpop key before | rpop key before | lindex key index before | llen key | lrange key start stop
  | lrem key count value | ltrim key start stop => exact (once rfl).symm
  | lset key index value =>
    refine iff_of_true trivial ?_
    intro r l operates
    simp only [operate] at operates
    split at operates
    · cases operates
    · cases operates
      trivial
  | rpoplpush source destination =>
    exact iff_of_false id fun all => move_decodes source destination s (all _ _ rfl)
  | brpoplpush source destination timeout =>
    by_cases negative : timeout.toInt < 0
    · exact iff_of_true negative (never (if_pos negative))
    · exact iff_of_false negative fun all => move_decodes source destination s (all _ _ (if_neg negative))

private theorem reply_error (result : Result) (text : Str) : result.reply ≠ .error text := by
  intro same
  cases result with
  | element x | moved x => cases x <;> cases same
  | number n | elements xs | done => cases same

private theorem answer_eq {call : ListCall} {s : Store} {cmd : RedisCmd} {decoder : Decoder}
    (sends : call.command.call = .sends cmd decoder) (sendable : Sendable cmd) :
    answer call s = (exec cmd s).map fun (reply, lists) => (some (decoder, reply), lists) := by
  simp only [answer, sends, unsent_none.mpr sendable]

/-- After a call that is sent the lists of the server are those of the map. -/
theorem step_same {s s' : Store × Store} {call : ListCall} (whole : Handed call) (sent : call.command.Sent) (same : s.1 = s.2)
    (taken : step s call = some s') : s'.1 = s'.2 := by
  obtain ⟨server, lists⟩ := s
  obtain rfl : server = lists := same
  obtain ⟨cmd, decoder, sends, carried⟩ := exec_operates whole server
  have sendable := (Command.sent_iff sends).mp sent
  simp only [step, answer_eq sends sendable] at taken
  cases carried with
  | out operates executes suits =>
    rw [executes] at taken
    obtain rfl := Option.some.inj taken
    simp only [after, operates]
  | refused none executes =>
    rw [executes] at taken
    obtain rfl := Option.some.inj taken
    simp only [after, none]
  | blocks executes =>
    rw [executes] at taken
    cases taken

/-- A push adds as many elements as values are sent. -/
private theorem push_length {name : String} (push : name = "LPUSH" ∨ name = "RPUSH") {key : Str} {values : List Str}
    {s lists : Store} {reply : RedisReply} (done : exec (lit name :: key :: values) s = some (reply, lists)) :
    (lists key).length = values.length + (s key).length := by
  cases values with
  | nil =>
    have refused : exec [lit name, key] s = some (wrongArguments, s) := by rcases push with rfl | rfl <;> rfl
    rw [refused] at done
    cases done
    exact (Nat.zero_add _).symm
  | cons value values =>
    rcases push with rfl | rfl
    · have out : some (pushed key ((value :: values).foldl (fun xs x => x :: xs) (s key)) s) = some (reply, lists) := done
      rw [push_front] at out
      cases out
      simp only [Function.update_self, List.length_append, List.length_reverse]
    · have out : some (pushed key ((value :: values).foldl (fun xs x => xs ++ [x]) (s key)) s) = some (reply, lists) := done
      rw [push_back] at out
      cases out
      simp only [Function.update_self, List.length_append, Nat.add_comm]

/-- A push that is not handed over with all its values adds fewer. -/
private theorem pushed_fewer {name : String} (push : name = "LPUSH" ∨ name = "RPUSH") {call : ListCall} {key : Str}
    {values : List Str} (is : call.command.call = send name (key :: values) .int) (long : 2 ^ 31 ≤ values.length + 2)
    {s lists : Store} {decoder : Decoder} {reply : RedisReply} (out : answer call s = some (some (decoder, reply), lists)) :
    (lists key).length < values.length + (s key).length := by
  simp only [answer, is] at out
  unfold send at out
  cases given : handed (lit name :: key :: values) with
  | error e => simp [given] at out
  | ok cmd =>
    have short := handed_short given
    have goes : unsent cmd = none := by
      cases goes : unsent cmd with
      | none => rfl
      | some fault => simp [given, goes] at out
    simp only [given, goes] at out
    obtain ⟨⟨reply', lists'⟩, done, shape⟩ := Option.map_eq_some_iff.mp out
    cases shape
    rw [handed_take given] at done short
    generalize (int_of_size (lit name :: key :: values).length).toNat = k at done short
    rcases k with _ | _ | k
    · cases done
    · have refused : exec [lit name] s = some (wrongArguments, s) := by rcases push with rfl | rfl <;> rfl
      rw [List.take_succ_cons, List.take_zero, refused] at done
      cases done
      show (s key).length < _
      omega
    · simp only [List.take_succ_cons, List.length_cons] at done short
      rw [push_length push done]
      omega

/-- Nothing is reported of a push whose arguments an `int` cannot count. -/
private theorem push_unreported {name : String} (push : name = "LPUSH" ∨ name = "RPUSH") {call : ListCall} {key : Str}
    {values : List Str} (is : call.command.call = send name (key :: values) .int) (long : 2 ^ 31 ≤ values.length + 2)
    {s s' : Store × Store} (grows : (after call s.2 key).length = values.length + (s.2 key).length) (same : s.1 = s.2)
    (taken : step s call = some s') : ¬ Reports s call s' := by
  rintro ⟨sent, same'⟩
  obtain ⟨⟨out, lists⟩, answered, rfl⟩ := Option.map_eq_some_iff.mp taken
  obtain ⟨decoder, reply, rfl, _⟩ := sent out lists answered
  have fewer := pushed_fewer push is long answered
  have kept : lists = after call s.2 := same'
  rw [kept, grows, same] at fewer
  omega

/-- Nothing is reported of what hiredis refuses. -/
private theorem unsent_unreported {s s' : Store × Store} {call : ListCall} (whole : Handed call) (unsendable : ¬ call.command.Sent) :
    ¬ Reports s call s' := by
  rintro ⟨sent, _⟩
  obtain ⟨cmd, decoder, sends, _⟩ := exec_operates whole s.1
  rw [Command.sent_iff sends, ← unsent_none] at unsendable
  obtain ⟨fault, goes⟩ := Option.ne_none_iff_exists'.mp unsendable
  obtain ⟨_, _, some, _⟩ := sent none s.1 (by simp only [answer, sends, goes])
  cases some

theorem step_reports {s s' : Store × Store} {call : ListCall} (same : s.1 = s.2) (taken : step s call = some s') :
    Reports s call s' ↔ Reportable s.2 call := by
  by_cases whole : Handed call
  · by_cases sent : call.command.Sent
    · have kept := step_same whole sent same taken
      obtain ⟨server, lists⟩ := s
      obtain rfl : server = lists := same
      obtain ⟨cmd, decoder, sends, carried⟩ := exec_operates whole server
      have sendable := (Command.sent_iff sends).mp sent
      have reportable : Reportable server call ↔ ∀ result lists, operate call server = some (result, lists) → result.Decodes := by
        rw [← countable_iff]
        exact ⟨fun all => all.countable, fun countable => ⟨whole, sent, countable⟩⟩
      simp only [Reports, kept, and_true, reportable]
      simp only [step, answer_eq sends sendable] at taken
      cases carried with
      | @out result lists operates executes suits =>
        have replied : answer call server = some (some (decoder, result.reply), lists) := by
          rw [answer_eq sends sendable, executes]
          rfl
        rw [executes] at taken
        obtain rfl := Option.some.inj taken
        rw [decodes_once operates, ← decodes_iff suits]
        constructor
        · intro reports
          obtain ⟨_, _, sent, report⟩ := reports _ lists replied
          cases sent
          obtain ⟨v, r, decoded, gives, shown⟩ := report (reply_error result)
          obtain rfl := (Prod.mk.inj (Option.some.inj (operates.symm.trans gives))).1
          exact ⟨v, decoded, shown⟩
        · rintro ⟨v, decoded, shown⟩ out lists' is
          cases replied.symm.trans is
          exact ⟨decoder, result.reply, rfl, fun _ => ⟨v, result, decoded, by simp only [after, operates], shown⟩⟩
      | @refused text none executes =>
        refine iff_of_true ?_ fun r l some => nomatch none.symm.trans some
        intro out lists' is
        rw [answer_eq sends sendable, executes] at is
        cases is
        exact ⟨decoder, .error text, rfl, fun noError => absurd rfl (noError text)⟩
      | blocks executes =>
        rw [executes] at taken
        cases taken
    · exact iff_of_false (unsent_unreported whole sent) fun reportable => sent reportable.sent
  · refine iff_of_false ?_ fun reportable => whole reportable.handed
    cases call with
    | lpush key values =>
      have long : 2 ^ 31 ≤ values.length + 2 := Nat.le_of_not_lt whole
      have some : values ≠ [] := fun empty => by simp [empty] at long
      refine push_unreported (.inl rfl) rfl long ?_ same taken
      simp [after, operate, some]
    | rpush key values =>
      have long : 2 ^ 31 ≤ values.length + 2 := Nat.le_of_not_lt whole
      have some : values ≠ [] := fun empty => by simp [empty] at long
      refine push_unreported (.inr rfl) rfl long ?_ same taken
      simp [after, operate, some, Nat.add_comm]
    | _ => exact absurd trivial whole

/-- In a run from the same lists, all methods report what the operations give exactly if
    no call is an `rpoplpush` or a `brpoplpush` that the server does not refuse, all their
    commands can be sent, and the numbers that they report are ints. -/
theorem lists_refine_iff (s : Store) (calls : List ListCall) :
    Each step Reports (s, s) calls ↔ Meets step (fun s call => Reportable s.2 call) (s, s) calls := by
  refine each_iff_meets (fun s => s.1 = s.2) ?_ ?_ rfl calls
  · exact fun s call s' same reportable taken => step_same reportable.handed reportable.sent same taken
  · exact fun s call s' same taken => step_reports same taken

/-- The server moves the element to the other list, and the method throws. -/
theorem moved_unreported :
    ¬ Each step Reports (fun _ => [], fun _ => []) [.lpush (lit "a") [lit "x"], .rpoplpush (lit "a") (lit "b")] := by
  have push : (ListCall.lpush (lit "a") [lit "x"]).command.call = .sends [lit "LPUSH", lit "a", lit "x"] .int :=
    send_eq (by decide)
  have move : (ListCall.rpoplpush (lit "a") (lit "b")).command.call = .sends [lit "RPOPLPUSH", lit "a", lit "b"] .array :=
    send_eq (by decide)
  intro reports
  have pushes : Sendable [lit "LPUSH", lit "a", lit "x"] := by decide +kernel
  have moves : Sendable [lit "RPOPLPUSH", lit "a", lit "b"] := by decide +kernel
  obtain ⟨_, later⟩ := reports _ (by simp only [step, answer_eq push pushes]; rfl)
  obtain ⟨⟨report, _⟩, _⟩ := later _ (by simp only [step, answer_eq move moves]; rfl)
  obtain ⟨decoder, reply, sent, report⟩ := report _ _ (by simp only [answer_eq move moves]; rfl)
  cases sent
  obtain ⟨v, result, decoded, _, _⟩ := report nofun
  cases decoded

end CppRedis.Lists

import CppRedis.Decoders
import CppRedis.Requests

/-!
The command methods of `Client`. Each builds its command and hands it to one of the
decoders; a few return before that for some arguments. A vector is given by its
elements and a map by its pairs in the order of iteration; the variadic overloads
that only collect their arguments into a vector are those with the vector.
-/
namespace CppRedis.Methods
open CppRedis.Strings CppRedis.Reply CppRedis.Connection CppRedis.Commands CppRedis.Decoders CppRedis.Requests

inductive BitOp
  | AND
  | OR
  | XOR
  | NOT
  | BitOp_Num
  deriving DecidableEq

inductive InsertDirection
  | BEFORE
  | AFTER
  | InsertDirection_Num
  deriving DecidableEq

/-- The last value of the enumeration is its size. -/
def bitop_strs : BitOp → Option Str
  | .AND => some (lit "AND")
  | .OR => some (lit "OR")
  | .XOR => some (lit "XOR")
  | .NOT => some (lit "NOT")
  | .BitOp_Num => none

def insert_direction_str : InsertDirection → Option Str
  | .BEFORE => some (lit "BEFORE")
  | .AFTER => some (lit "AFTER")
  | .InsertDirection_Num => none

/-- What a method does: it returns without a command, reads outside of a table, throws
    when the command is handed over, or sends it and decodes the reply. -/
inductive Call
  | returns (v : Value)
  | undefined
  | throws (e : Exception)
  | sends (cmd : RedisCmd) (decoder : Decoder)

/-- A method with its arguments; a float is given as it is written. -/
inductive Command
  | set (key value : Str)
  | setex (key value : Str) (seconds : Int32)
  | psetex (key value : Str) (milliseconds : Int32)
  | setnx (key value : Str)
  | mset (kv_map : List (Str × Str))
  | mset_args (args : List Str)
  | msetnx (kv_map : List (Str × Str))
  | msetnx_args (args : List Str)
  | get (key value : Str)
  | mget (keys : List Str)
  | getset (key value original : Str)
  | setrange (key : Str) (offset : Int32) (value : Str)
  | getrange (key : Str) (start stop : Int32) (substring : Str)
  | append (key value : Str)
  | incr (key : Str)
  | incrby (key : Str) (increment : Int32)
  | incrbyfloat (key increment : Str)
  | decr (key : Str)
  | decrby (key : Str) (increment : Int32)
  | strlen (key : Str)
  | setbit (key : Str) (offset value : Int32)
  | getbit (key : Str) (offset : Int32)
  | bitcount (key : Str)
  | bitcount_from (key : Str) (start : Int32)
  | bitcount_range (key : Str) (start stop : Int32)
  | bitop (operation : BitOp) (destkey : Str) (keys : List Str)
  | exists_ (key : Str)
  | expire (key : Str) (seconds : UInt32)
  | expireat (key : Str) (timestamp : UInt32)
  | pexpire (key : Str) (milliseconds : UInt32)
  | pexpireat (key : Str) (milliseconds_timestamp : UInt32)
  | ttl (key : Str)
  | pttl (key : Str)
  | persist (key : Str)
  | keys (pattern : Str)
  | del (keys : List Str)
  | type (key : Str)
  | scard (key : Str)
  | sadd (key : Str) (members : List Str)
  | sdiff (keys : List Str)
  | sdiffstore (destination : Str) (keys : List Str)
  | sinter (keys : List Str)
  | sinterstore (destination : Str) (keys : List Str)
  | smembers (key : Str)
  | sismember (key member : Str)
  | smove (source destination member : Str)
  | spop (key member : Str)
  | srandmember (key : Str) (count : Int32)
  | srem (key member : Str)
  | sunion (keys : List Str)
  | sunionstore (destination : Str) (keys : List Str)
  | hget (key field value : Str)
  | hmget (key : Str) (fields : List Str)
  | hset (key field value : Str)
  | hmset (key : Str) (h : List (Str × Str))
  | hmset_args (key : Str) (args : List Str)
  | hsetnx (key field value : Str)
  | hexists (key field : Str)
  | hincrby (key field : Str) (increment : Int32)
  | hincrbyfloat (key field increment : Str)
  | hkeys (key : Str)
  | hvals (key : Str)
  | hgetall (key : Str)
  | hlen (key : Str)
  | blpop (keys : List Str) (timeout : Int32)
  | linsert (key : Str) (direction : InsertDirection) (pivot : Int32) (value : Str)
  | lindex (key : Str) (index : Int32) (value : Str)
  | llen (key : Str)
  | lpop (key value : Str)
  | lpush (key : Str) (values : List Str)
  | lpushx (key value : Str)
  | lrange (key : Str) (start stop : Int32)
  | lrem (key : Str) (count : Int32) (value : Str)
  | lset (key : Str) (count : Int32) (value : Str)
  | ltrim (key : Str) (start stop : Int32)
  | rpop (key value : Str)
  | rpoplpush (source destination : Str)
  | brpoplpush (source destination : Str) (timeout : Int32)
  | rpush (key : Str) (values : List Str)
  | rpushx (key value : Str)
  | publish (channel message : Str)

/-- `cmd << n` for an `int`. -/
def int (n : Int32) : Str := number n.toInt

/-- `cmd << n` for an `unsigned int`. -/
def unsigned (n : UInt32) : Str := number n.toNat

/-- A command of this name. -/
@[irreducible] def send (name : String) (args : List Str) (decoder : Decoder) : Call :=
  match handed (lit name :: args) with
  | .error e => .throws e
  | .ok cmd => .sends cmd decoder

/-- The set operations that clear their argument and return for no keys. -/
def setOperation (name : String) (keys : List Str) : Call :=
  if keys = [] then .returns (.set 0 ∅) else send name keys .set

def Command.call : Command → Call
  | .set key value => send "SET" [key, value] .ok
  | .setex key value seconds =>
    if seconds ≤ 0 then .returns (.bool false) else send "SETEX" [key, int seconds, value] .ok
  | .psetex key value milliseconds =>
    if milliseconds ≤ 0 then .returns (.bool false) else send "SETEX" [key, int milliseconds, value] .ok
  | .setnx key value => send "SETNX" [key, value] .int
  | .mset kv_map => send "MSET" (flat kv_map) .ok
  | .mset_args args => send "MSET" args .ok
  | .msetnx kv_map => send "MSETNX" (flat kv_map) .int
  | .msetnx_args args => send "MSETNX" args .int
  | .get key value => send "GET" [key] (.string value)
  | .mget names => send "MGET" names (.map names)
  | .getset key value original => send "GETSET" [key, value] (.string original)
  | .setrange key offset value => send "SETRANGE" [key, int offset, value] .int
  | .getrange key start stop substring => send "GETRANGE" [key, int start, int stop] (.string substring)
  | .append key value => send "APPEND" [key, value] .int
  | .incr key => send "INCR" [key] .int
  | .incrby key increment => send "INCRBY" [key, int increment] .int
  | .incrbyfloat key increment => send "INCRBYFLOAT" [key, increment] .float
  | .decr key => send "DECR" [key] .int
  | .decrby key increment => send "DECRBY" [key, int increment] .int
  | .strlen key => send "STRLEN" [key] .int
  | .setbit key offset value => send "SETBIT" [key, int offset, int value] .int
  | .getbit key offset => send "GETBIT" [key, int offset] .int
  | .bitcount key => send "BITCOUNT" [key] .int
  | .bitcount_from key start => send "BITCOUNT" [key, int start] .int
  | .bitcount_range key start stop => send "BITCOUNT" [key, int start, int stop] .int
  | .bitop operation destkey names =>
    if names = [] then .returns (.int (-1))
    else
      match bitop_strs operation with
      | none => .undefined
      | some name => send "BITOP" (name :: destkey :: names) .int
  | .exists_ key => send "EXISTS" [key] .int
  | .expire key seconds => send "EXPIRE" [key, unsigned seconds] .int
  | .expireat key timestamp => send "EXPIREAT" [key, unsigned timestamp] .int
  | .pexpire key milliseconds => send "PEXPIRE" [key, unsigned milliseconds] .int
  | .pexpireat key milliseconds_timestamp => send "PEXPIREAT" [key, unsigned milliseconds_timestamp] .int
  | .ttl key => send "TTL" [key] .int
  | .pttl key => send "PTTL" [key] .int
  | .persist key => send "PERSIST" [key] .int
  | .keys pattern => send "KEYS" [pattern] .array
  | .del names => send "DEL" names .int
  | .type key => send "TYPE" [key] .status
  | .scard key => send "SCARD" [key] .int
  | .sadd key members => if members = [] then .returns (.int 0) else send "SADD" (key :: members) .int
  | .sdiff names => setOperation "SDIFF" names
  | .sdiffstore destination names => send "SDIFFSTORE" (destination :: names) .int
  | .sinter names => setOperation "SINTER" names
  | .sinterstore destination names => send "SINTERSTORE" (destination :: names) .int
  | .smembers key => send "SMEMBERS" [key] .set
  | .sismember key member => send "SISMEMBER" [key, member] .int
  | .smove source destination member => send "SMOVE" [source, destination, member] .int
  | .spop key member => send "SPOP" [key] (.string member)
  | .srandmember key count => send "SRANDMEMBER" [key, int count] .array
  | .srem key member => send "SREM" [key, member] .int
  | .sunion names => setOperation "SUNION" names
  | .sunionstore destination names => send "SUNIONSTORE" (destination :: names) .int
  | .hget key field value => send "HGET" [key, field] (.string value)
  | .hmget key fields => send "HMGET" (key :: fields) (.fields fields)
  | .hset key field value => send "HSET" [key, field, value] .int
  | .hmset key h => send "HMSET" (key :: flat h) .ok
  | .hmset_args key args => send "HMSET" (key :: args) .ok
  | .hsetnx key field value => send "HSETNX" [key, field, value] .int
  | .hexists key field => send "HEXISTS" [key, field] .int
  | .hincrby key field increment => send "HINCRBY" [key, field, int increment] .int
  | .hincrbyfloat key field increment => send "HINCRBYFLOAT" [key, field, increment] .float
  | .hkeys key => send "HKEYS" [key] .array
  | .hvals key => send "HVALS" [key] .array
  | .hgetall key => send "HGETALL" [key] .pairs
  | .hlen key => send "HLEN" [key] .int
  | .blpop names timeout => send "BLPOP" (names ++ [int timeout]) .array
  | .linsert key direction pivot value =>
    match insert_direction_str direction with
    | none => .undefined
    | some name => send "LINSERT" [key, name, int pivot, value] .int
  | .lindex key index value => send "LINDEX" [key, int index] (.string value)
  | .llen key => send "LLEN" [key] .int
  | .lpop key value => send "LPOP" [key] (.string value)
  | .lpush key values => send "LPUSH" (key :: values) .int
  | .lpushx key value => send "LPUSHX" [key, value] .int
  | .lrange key start stop => send "LRANGE" [key, int start, int stop] .array
  | .lrem key count value => send "LREM" [key, int count, value] .int
  | .lset key count value => send "LSET" [key, int count, value] .ok
  | .ltrim key start stop => send "LTRIM" [key, int start, int stop] .ok
  | .rpop key value => send "RPOP" [key] (.string value)
  | .rpoplpush source destination => send "RPOPLPUSH" [source, destination] .array
  | .brpoplpush source destination timeout => send "BRPOPLPUSH" [source, destination, int timeout] .array
  | .rpush key values => send "RPUSH" (key :: values) .int
  | .rpushx key value => send "RPUSHX" [key, value] .int
  | .publish channel message => send "PUBLISH" [channel, message] .int

/-- The command has all arguments where an `int` can count them. -/
theorem send_eq {name : String} {args : List Str} {decoder : Decoder} (small : args.length + 1 < 2 ^ 31) :
    send name args decoder = .sends (lit name :: args) decoder := by
  unfold send
  rw [handed_eq (by simpa using small)]

/-- The method hands over a command that hiredis can format. -/
def Command.Sent (m : Command) : Prop := ∃ cmd decoder, m.call = .sends cmd decoder ∧ Sendable cmd

theorem Command.sent_iff {m : Command} {cmd : RedisCmd} {decoder : Decoder} (sends : m.call = .sends cmd decoder) :
    m.Sent ↔ Sendable cmd := by
  constructor
  · rintro ⟨cmd', decoder', sends', sendable⟩
    cases sends.symm.trans sends'
    exact sendable
  · exact fun sendable => ⟨cmd, decoder, sends, sendable⟩

/-- The decoder of a method's reply. -/
def Command.decoder : Command → Decoder
  | .set .. | .setex .. | .psetex .. | .mset .. | .mset_args .. | .hmset .. | .hmset_args .. | .lset .. | .ltrim .. => .ok
  | .type .. => .status
  | .incrbyfloat .. | .hincrbyfloat .. => .float
  | .get _ value => .string value
  | .getset _ _ original => .string original
  | .getrange _ _ _ substring => .string substring
  | .spop _ member => .string member
  | .hget _ _ value => .string value
  | .lindex _ _ value => .string value
  | .lpop _ value => .string value
  | .rpop _ value => .string value
  | .keys .. | .srandmember .. | .hkeys .. | .hvals .. | .blpop .. | .lrange .. | .rpoplpush .. | .brpoplpush .. => .array
  | .sdiff .. | .sinter .. | .sunion .. | .smembers .. => .set
  | .mget names => .map names
  | .hgetall .. => .pairs
  | .hmget _ names => .fields names
  | _ => .int

private theorem send_decoder {name : String} {args : List Str} {decoder decoder' : Decoder} {cmd : RedisCmd}
    (sends : send name args decoder = .sends cmd decoder') : decoder' = decoder := by
  unfold send at sends
  split at sends
  · cases sends
  · cases sends
    rfl

theorem call_decoder {m : Command} {cmd : RedisCmd} {decoder : Decoder} (sends : m.call = .sends cmd decoder) :
    decoder = m.decoder := by
  cases m with
  | setex | psetex | sadd | sdiff | sinter | sunion =>
    simp only [Command.call, setOperation] at sends
    split at sends
    · cases sends
    · exact send_decoder sends
  | bitop operation destkey keys =>
    simp only [Command.call] at sends
    split at sends
    · cases sends
    · split at sends
      · cases sends
      · exact send_decoder sends
  | linsert key direction pivot value =>
    simp only [Command.call] at sends
    split at sends
    · cases sends
    · exact send_decoder sends
  | _ => exact send_decoder sends

/-- The server reads back every number that a method sends. -/
theorem string2ll_int (n : Int32) : string2ll (int n) = some n.toInt := by
  have low := n.le_toInt
  have high := n.toInt_lt
  exact string2ll_number (by omega) (by omega)

theorem string2ll_unsigned (n : UInt32) : string2ll (unsigned n) = some (n.toNat : Int) := by
  have high := n.toNat_lt
  exact string2ll_number (by omega) (by omega)

end CppRedis.Methods

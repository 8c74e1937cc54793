import CppRedis.Requests
import CppRedis.Streams

/-!
The reply reader of hiredis: a buffer that is fed, a stack of read tasks of which each
but the first stands in the array of the one below it, and the items that are
processed at the cursor. `reader` is the same without a buffer, a machine on the
stream of the server's bytes. Where an `int` can count the bytes in the buffer, the
replies that the reader gives are those of the machine (`gives_decoded`).
-/
namespace CppRedis.Readers
open CppRedis.Strings CppRedis.Reply CppRedis.Requests CppRedis.Streams

/-! ### Tasks -/

/-- The type of an item whose first byte has been read, as `REDIS_REPLY_*`. -/
inductive ItemType
  | ERROR
  | STATUS
  | INTEGER
  | STRING
  | ARRAY
  deriving DecidableEq

/-- A `redisReadTask`. `element` are the members that the array of `obj` has so far; an
    array stands in the one below it when it has all of them. -/
structure Task where
  type : Option ItemType := none
  elements : Int := -1
  idx : Int
  element : List RedisReply := []

/-- The task of a reply that stands in no array. -/
def root : Task := { idx := -1 }

/-- The object is put where its task says, and the next task is due; without one, the
    object is the reply. -/
def moveToNextTask : Task → List Task → RedisReply → List Task × Option RedisReply
  | _, [], obj => ([], some obj)
  | cur, prv :: below, obj =>
    if cur.idx = prv.elements - 1 then moveToNextTask prv below (.array (prv.element ++ [obj]))
    else ({ idx := cur.idx + 1 } :: { prv with element := prv.element ++ [obj] } :: below, none)

/-- The object would stand in an array that has no room: `createArray` and the task took
    an `int`, for which the number was too large. -/
def Roomless (below : List Task) : Prop := ∃ prv, below.head? = some prv ∧ prv.elements ≤ 0

instance : (below : List Task) → Decidable (Roomless below)
  | [] => .isFalse fun ⟨_, is, _⟩ => nomatch is
  | prv :: _ => decidable_of_iff (prv.elements ≤ 0)
    ⟨fun small => ⟨prv, rfl, small⟩, fun ⟨_, is, small⟩ => Option.some.inj is ▸ small⟩

theorem roomy_nil : ¬ Roomless [] := fun ⟨_, is, _⟩ => by cases is

/-- `createArray` of a number that is not positive: `elements` is a `size_t`, and what
    is behind `element` are NULL pointers. -/
def createArray (n : Int) : RedisReply :=
  if some : 0 < (n % 2 ^ 64).toNat then .hollow (n % 2 ^ 64).toNat some else .array []

/-- `switch (p[0])` of `processItem`. -/
def type_of (byte : UInt8) : Option ItemType :=
  if byte = 45 then some .ERROR
  else if byte = 43 then some .STATUS
  else if byte = 58 then some .INTEGER
  else if byte = 36 then some .STRING
  else if byte = 42 then some .ARRAY
  else none

/-! ### Numbers and lines -/

/-- The loop of `readLongLong`; none where the `long long` overflows. The byte behind the
    buffer is a NUL. -/
def readLongLong_from (mult : Int) : Str → Int → Option Int
  | [], _ => some (-1)
  | c :: s, v =>
    if c = 13 then some (mult * v)
    else if isdigit c = true then
      let v := v * 10 + (c.toNat - 48 : Nat)
      if v < 2 ^ 63 then readLongLong_from mult s v else none
    else some (-1)

def readLongLong (s : Str) : Option Int :=
  if s.head? = some 45 then readLongLong_from (-1) s.tail 0
  else if s.head? = some 43 then readLongLong_from 1 s.tail 0
  else readLongLong_from 1 s 0

/-- The loops of `seekNewline`, where the cursor is so far before `_len`; `skip` is the
    inner one. The byte behind the buffer is a NUL. -/
def seekNewline_from : (skip : Bool) → Nat → Str → Nat → Option Nat
  | _, _, [], _ => none
  | false, 0, _, _ => none
  | true, 0, c :: s, pos => if c = 13 ∧ s.head? = some 10 then some pos else none
  | _, n + 1, c :: s, pos =>
    if c = 13 then
      if s.head? = some 10 then some pos else seekNewline_from false n s (pos + 1)
    else seekNewline_from true n s (pos + 1)

/-- `int _len = len-1`, and the loops from the first byte on. -/
def seekNewline (s : Str) : Option Nat := seekNewline_from false (int_of_size (s.length - 1)).toNat s 0

/-! ### The reader -/

def REDIS_ERR_PROTOCOL : Int := 4

def isprint (byte : UInt8) : Bool := 32 ≤ byte && byte ≤ 126

/-- A digit of `%02x`. -/
def hex (n : UInt8) : UInt8 := if n < 10 then 48 + n else 87 + n

def chrtos (byte : UInt8) : Str :=
  if byte = 92 ∨ byte = 34 then lit "\"\\" ++ [byte] ++ lit "\""
  else if byte = 10 then lit "\"\\n\""
  else if byte = 13 then lit "\"\\r\""
  else if byte = 9 then lit "\"\\t\""
  else if byte = 7 then lit "\"\\a\""
  else if byte = 8 then lit "\"\\b\""
  else if isprint byte = true then lit "\"" ++ [byte] ++ lit "\""
  else lit "\"\\x" ++ [hex (byte / 16), hex (byte % 16)] ++ lit "\""

/-- The text of `__redisReaderSetErrorProtocolByte`. -/
def protocol_byte (byte : UInt8) : Str := lit "Protocol error, got " ++ chrtos byte ++ lit " as reply type byte"

def too_deep : Str := lit "No support for nested multi bulk replies with depth > 7"

/-- A `redisReader`; `rstack` has `ridx + 1` tasks, the current one first, and `len` is
    the length of `buf`. -/
structure RedisReader where
  err : Int := 0
  errstr : Str := []
  buf : Str := []
  pos : Nat := 0
  rstack : List Task := []
  reply : Option RedisReply := none

def redisReaderCreate : RedisReader := {}

namespace RedisReader

/-- What is behind the cursor. -/
def unread (r : RedisReader) : Str := r.buf.drop r.pos

/-- `__redisReaderSetError`. -/
def setError (type : Int) (str : Str) (r : RedisReader) : RedisReader :=
  { r with reply := none, buf := [], pos := 0, rstack := [], err := type, errstr := str.take 127 }

/-- The object of the current task is made. -/
def finish (cur : Task) (below : List Task) (obj : RedisReply) (r : RedisReader) : RedisReader :=
  let (rstack, reply) := moveToNextTask cur below obj
  { r with rstack := rstack, reply := reply }

/-- `readLine`: the line is where the cursor was. -/
def readLine (r : RedisReader) : Option (Str × RedisReader) :=
  (seekNewline r.unread).map fun len => (r.unread.take len, { r with pos := r.pos + len + 2 })

/-- `processLineItem`; whether the item was there. There is no result where the `long
    long` overflows. -/
def processLineItem (type : ItemType) (cur : Task) (below : List Task) (r : RedisReader) : Option (Bool × RedisReader) :=
  match r.readLine with
  | none => some (false, r)
  | some (line, read) =>
    match type with
    | .INTEGER => (readLongLong r.unread).map fun value => (true, read.finish cur below (.integer value))
    | .ERROR => some (true, read.finish cur below (.error line))
    | _ => some (true, read.finish cur below (.status line))

def processBulkItem (cur : Task) (below : List Task) (r : RedisReader) : Option (Bool × RedisReader) :=
  match seekNewline r.unread with
  | none => some (false, r)
  | some s =>
    match readLongLong r.unread with
    | none => none
    | some len =>
      if len < 0 then some (true, { r with pos := r.pos + (s + 2) }.finish cur below .nil)
      -- `len+2` overflows the `long`
      else if 2 ^ 63 ≤ len + 2 then none
      else
        let bytelen := s + 2 + (len.toNat + 2)
        if r.pos + bytelen ≤ r.buf.length then
          some (true, { r with pos := r.pos + bytelen }.finish cur below
            (.string ((r.unread.drop (s + 2)).take len.toNat)))
        else some (false, r)

/-- `processMultiBulkItem`. `createArray` and the task take an `int`. -/
def processMultiBulkItem (cur : Task) (below : List Task) (r : RedisReader) : Option (Bool × RedisReader) :=
  if below.length = 8 then some (false, r.setError REDIS_ERR_PROTOCOL too_deep)
  else
    match r.readLine with
    | none => some (false, r)
    | some (_, read) =>
      match readLongLong r.unread with
      | none => none
      | some elements =>
        let n := elements.bmod (2 ^ 32)
        if elements = -1 then some (true, read.finish cur below .nil)
        else if 0 < elements then
          some (true, { read with
            rstack := { idx := 0 } :: { cur with elements := n, element := [] } :: below, reply := none })
        else some (true, read.finish cur below (createArray n))

/-- The second `switch` of `processItem`. -/
def processByType (type : ItemType) (cur : Task) (below : List Task) (r : RedisReader) : Option (Bool × RedisReader) :=
  match type with
  | .STRING => r.processBulkItem cur below
  | .ARRAY => r.processMultiBulkItem cur below
  | type => r.processLineItem type cur below

/-- There is no result where an object would be written through the `element` of an array
    that has none. -/
def processTyped (type : ItemType) (cur : Task) (below : List Task) (r : RedisReader) : Option (Bool × RedisReader) :=
  match r.processByType type cur below with
  | some (true, r) => if Roomless below then none else some (true, r)
  | processed => processed

/-- `processItem`, true for `REDIS_OK`. -/
def processItem (cur : Task) (below : List Task) (r : RedisReader) : Option (Bool × RedisReader) :=
  match cur.type with
  | some type => r.processTyped type cur below
  | none =>
    match r.unread with
    | [] => some (false, r)
    | byte :: _ =>
      match type_of byte with
      | none => some (false, r.setError REDIS_ERR_PROTOCOL (protocol_byte byte))
      | some type =>
        let cur := { cur with type := some type }
        { r with pos := r.pos + 1, rstack := cur :: below }.processTyped type cur below

/-- The loop of `redisReaderGetReply`; an item takes one byte at least. -/
def processItems : Nat → RedisReader → Option RedisReader
  | 0, r => some r
  | fuel + 1, r =>
    match r.rstack with
    | [] => some r
    | cur :: below =>
      match r.processItem cur below with
      | none => none
      | some (false, r) => some r
      | some (true, r) => processItems fuel r

end RedisReader

/-- `redisReaderFeed`, and whether it returns `REDIS_OK`. -/
def redisReaderFeed (buf : Str) (r : RedisReader) : Bool × RedisReader :=
  if r.err ≠ 0 then (false, r) else (true, { r with buf := r.buf ++ buf })

/-- `sdsrange(s, start, -1)`. -/
def sdsrange_from (s : Str) (start : Int) : Str :=
  s.drop (if start < 0 then (s.length + start).toNat else start.toNat)

/-- What `redisReaderGetReply` returns, and where that is `REDIS_OK` the reply that it
    gives; there is no result where an item has none. -/
def redisReaderGetReply (r : RedisReader) : Option (Except Unit (Option RedisReply) × RedisReader) :=
  if r.err ≠ 0 then some (.error (), r)
  else if r.buf.length = 0 then some (.ok none, r)
  else
    let r := if r.rstack = [] then { r with rstack := [root] } else r
    match r.processItems (r.unread.length + 1) with
    | none => none
    | some r =>
      if r.err ≠ 0 then some (.error (), r)
      else
        let r := if 1024 ≤ r.pos then { r with buf := sdsrange_from r.buf (int_of_size r.pos), pos := 0 } else r
        if r.rstack = [] then some (.ok r.reply, { r with reply := none }) else some (.ok none, r)

end CppRedis.Readers

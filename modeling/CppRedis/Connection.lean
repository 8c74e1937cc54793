import CppRedis.Uri

/-!
Blocking connections. A `Context` is a `redisContext` together with the two
directions of its socket and the server's end of it: the requests that the
server has not carried out, the answers that the client has not read, and the
database that the last SELECT chose. A `Net` holds all contexts, in the order in
which they were opened, and what the server has carried out on them. Whatever is
not decided by the code (whether a connection is accepted, whether a request
gets a reply and which one) is an argument of the operation.
-/
namespace CppRedis.Connection
open CppRedis.Strings CppRedis.Reply CppRedis.Uri

/-- The arguments of a command, its name first, as `RedisCmd` points to them. -/
abbrev RedisCmd := List Str

/-- What is sent on a connection; a command bears the number of the call that
    sends it, unless it is sent outside of `execute`. -/
inductive Request
  | select (db : Int)
  | quit
  | command (call : Nat) (cmd : RedisCmd)
  | ask (cmd : RedisCmd)
  deriving DecidableEq

/-- A reply, and the request that the server answered by it. -/
structure Answer where
  request : Request
  reply : RedisReply

/-- `err` holds `errstr` once the context has failed; it is never cleared. -/
structure Context where
  host : Str
  port : Int
  err : Option Str := none
  toServer : List Request := []
  toClient : List Answer := []
  selected : Option Int := none
  freed : Bool := false

/-- What becomes of a request that is sent and waited for in one call: a reply,
    with which the server has switched the database or not if the request was
    SELECT, or none and an error. -/
inductive Exchange
  | reply (r : RedisReply) (switched : Bool)
  | noReply (errstr : Str)

namespace Context

/-- The database after a request has been carried out. -/
def selectedBy (ctx : Context) : Request → Bool → Option Int
  | .select db, true => some db
  | _, _ => ctx.selected

/-- `redisCommand` on a context on which nothing is outstanding. -/
def redisCommand (request : Request) (x : Exchange) (ctx : Context) : Option RedisReply × Context :=
  match ctx.err with
  | some _ => (none, ctx)
  | none =>
    match x with
    | .reply r switched => (some r, { ctx with selected := ctx.selectedBy request switched })
    | .noReply errstr => (none, { ctx with err := some errstr, toServer := ctx.toServer ++ [request] })

/-- What is left of the context where hiredis cannot format a command. -/
def outOfMemory (ctx : Context) : Context := { ctx with err := some (lit "Out of memory") }

/-- The writing half of `redisCommandArgv`; the result is `errstr` where the
    call returns NULL. -/
def write (request : Request) (fail : Option Str) (ctx : Context) : Option Str × Context :=
  match ctx.err, fail with
  | some errstr, _ => (some errstr, ctx)
  | none, some errstr => (some errstr, { ctx with err := some errstr })
  | none, none => (none, { ctx with toServer := ctx.toServer ++ [request] })

/-- The reading half of `redisCommandArgv`: the next reply on the socket, an
    error, or none while the call waits. -/
def read (fail : Option Str) (ctx : Context) : Option (Except Str Answer × Context) :=
  match ctx.err, fail, ctx.toClient with
  | some errstr, _, _ => some (.error errstr, ctx)
  | none, some errstr, _ => some (.error errstr, { ctx with err := some errstr })
  | none, none, a :: rest => some (.ok a, { ctx with toClient := rest })
  | none, none, [] => none

/-- The server carries out the next request and answers it. -/
def serve (r : RedisReply) (switched : Bool) (ctx : Context) : Option (Request × Context) :=
  match ctx.toServer with
  | [] => none
  | request :: rest =>
    some (request, { ctx with
      toServer := rest
      toClient := ctx.toClient ++ [⟨request, r⟩]
      selected := ctx.selectedBy request switched })

/-- Nothing is outstanding, unless the context has failed. -/
def Quiet (ctx : Context) : Prop := ctx.err = none → ctx.toServer = [] ∧ ctx.toClient = []

end Context

/-- The place of a context among all that were opened; a `Connection*` whose
    `context_` is set. -/
abbrev ConnId := Nat

/-- A request as the server carried it out, and the database it was in then. -/
structure Executed where
  conn : ConnId
  request : Request
  db : Option Int

structure Net where
  contexts : List Context := []
  executed : List Executed := []

namespace Net

/-- The context at `c` becomes `ctx`. -/
def put (net : Net) (c : ConnId) (ctx : Context) : Net := { net with contexts := net.contexts.set c ctx }

/-- `redisConnect`. -/
def redisConnect (net : Net) (host : Str) (port : Int) : Net :=
  { net with contexts := net.contexts ++ [⟨host, port, none, [], [], none, false⟩] }

def serve (net : Net) (c : ConnId) (r : RedisReply) (switched : Bool) : Option Net :=
  match net.contexts[c]? with
  | none => none
  | some ctx =>
    match ctx.serve r switched with
    | none => none
    | some (request, ctx') =>
      some { net.put c ctx' with executed := net.executed ++ [⟨c, request, ctx.selected⟩] }

@[simp] theorem put_length (net : Net) (c : ConnId) (ctx : Context) :
    (net.put c ctx).contexts.length = net.contexts.length := by simp [put]

theorem put_self {net : Net} {c : ConnId} {old : Context} (at_c : net.contexts[c]? = some old) (ctx : Context) :
    (net.put c ctx).contexts[c]? = some ctx := by
  have inside : c < net.contexts.length := (List.getElem?_eq_some_iff.mp at_c).1
  simp [put, inside]

theorem put_other (net : Net) {c d : ConnId} (other : d ≠ c) (ctx : Context) :
    (net.put c ctx).contexts[d]? = net.contexts[d]? := by
  simp only [put]
  exact List.getElem?_set_ne (fun same => other same.symm)

theorem redisConnect_new (net : Net) (host : Str) (port : Int) :
    (net.redisConnect host port).contexts[net.contexts.length]? =
      some ⟨host, port, none, [], [], none, false⟩ := by
  simp [redisConnect]

end Net

/-! ### The operations of `Connection` -/

/-- `connect(host, port)`: the new context when the connection is accepted; when
    it is refused the context is freed at once. -/
def connect (host : Str) (port : Int) (accepted : Bool) (net : Net) : Option ConnId × Net :=
  if accepted then (some net.contexts.length, net.redisConnect host port) else (none, net)

def select (db : Int) (c : ConnId) (x : Exchange) (net : Net) : Except Exception Bool × Net :=
  match net.contexts[c]? with
  | none => (.ok false, net)
  | some ctx =>
    let (reply, ctx') := ctx.redisCommand (.select db) x
    match reply with
    | none => (.ok false, net.put c ctx')
    | some r => (recv_ok_reply r, net.put c ctx')

def quit (x : Exchange) (ctx : Context) : Except Exception Bool × Context :=
  let (reply, ctx') := ctx.redisCommand .quit x
  match reply with
  | none => (.ok true, ctx')
  | some r =>
    match recv_ok_reply r with
    | .error e => (.error e, ctx')
    | .ok _ => (.ok true, ctx')

/-- `disconnect` of a connection that has a context: the context is freed unless
    `quit` throws. -/
def disconnect (x : Exchange) (ctx : Context) : Except Exception Unit × Context :=
  match quit x ctx with
  | (.error e, ctx') => (.error e, ctx')
  | (.ok _, ctx') => (.ok (), { ctx' with freed := true })

/-- `send_command` on a connection that no one shares; calls of `execute` write
    and read in two steps. -/
def send_command (cmd : RedisCmd) (x : Exchange) (ctx : Context) : Except Exception RedisReply × Context :=
  let (reply, ctx') := ctx.redisCommand (.ask cmd) x
  match reply with
  | none => (.error (.CommandException (ctx'.err.getD [])), ctx')
  | some r => (.ok r, ctx')

/-- How the exchange for QUIT ends without an exception. -/
def Exchange.Quits : Exchange → Prop
  | .reply r _ => r.IsStatus
  | .noReply _ => True

instance : (x : Exchange) → Decidable x.Quits
  | .reply r _ => inferInstanceAs (Decidable r.IsStatus)
  | .noReply _ => .isTrue trivial

/-- A connection is closed without an exception exactly if it has failed or QUIT
    is answered by a status or not at all. -/
theorem disconnect_returns (x : Exchange) (ctx : Context) :
    (∃ ctx', disconnect x ctx = (.ok (), ctx')) ↔ (ctx.err = none → x.Quits) := by
  obtain ⟨host, port, err, toServer, toClient, selected, freed⟩ := ctx
  cases err with
  | some errstr => simp [disconnect, quit, Context.redisCommand]
  | none =>
    cases x with
    | noReply errstr => simp [disconnect, quit, Context.redisCommand, Exchange.Quits]
    | reply r switched =>
      have returns := recv_ok_reply_returns r
      cases received : recv_ok_reply r with
      | ok ok =>
        have status := returns.mp ⟨ok, received⟩
        simp [disconnect, quit, Context.redisCommand, received, Exchange.Quits, status]
      | error e =>
        have other : ¬ r.IsStatus := (recv_ok_reply_throws received).1
        simp [disconnect, quit, Context.redisCommand, received, Exchange.Quits, other]

end CppRedis.Connection

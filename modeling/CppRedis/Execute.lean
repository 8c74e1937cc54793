import CppRedis.Interleaving
import CppRedis.Pool

/-!
`Client::execute` by any number of threads on one pool. A thread builds its
guard (`acquire`, under the mutex), writes its command and waits for the reply
(the two halves of `send_command`), and leaves the scope, where the guard's
destructor calls `release`; the server carries out requests in between. What the
connections and the server do is an argument of the move. `Moves` lists all that
a thread can do in one move (`own_moves`).
-/
namespace CppRedis.Execute
open CppRedis.Strings CppRedis.Reply CppRedis.Connection CppRedis.Pool CppRedis.Interleaving
open ConnectionPool

/-- An execute call that has ended: what it was lent, and the reply it returned
    or the exception it threw. -/
structure Returned where
  call : Nat
  cmd : RedisCmd
  conn : Option ConnId
  result : Except Exception Answer

/-- Where a thread is in `execute`; from `guarded` to `unwinding` its guard is
    alive and holds `conn`. -/
inductive Stage
  | idle
  | guarded (call : Nat) (cmd : RedisCmd) (conn : Option ConnId)
  | waiting (call : Nat) (cmd : RedisCmd) (conn : ConnId)
  | unwinding (call : Nat) (cmd : RedisCmd) (conn : Option ConnId) (result : Except Exception Answer)

def Stage.isIdle : Stage → Bool
  | .idle => true
  | _ => false

/-- What the threads share; the calls are numbered in the order in which they
    begin. -/
structure Shared where
  pool : ConnectionPool
  net : Net
  nextCall : Nat := 0
  returned : List Returned := []

inductive Act
  | acquire (cmd : RedisCmd) (o : Opening)
  | send (fail : Option Str)
  | receive (fail : Option Str)
  | release

/-- The server carries out the next request on a connection. -/
structure Serving where
  conn : ConnId
  reply : RedisReply
  switched : Bool

/-- One step of a thread in `execute`. -/
def own : Shared → Stage → Act → Option (Shared × Stage)
  | g, .idle, .acquire cmd o =>
    match acquire o g.pool g.net with
    | (.ok conn, pool, net) =>
      some ({ g with pool := pool, net := net, nextCall := g.nextCall + 1 }, .guarded g.nextCall cmd conn)
    | (.error e, pool, net) =>
      -- the guard is not built, so nothing is released
      some ({ g with pool := pool, net := net, nextCall := g.nextCall + 1,
                     returned := g.returned ++ [⟨g.nextCall, cmd, none, .error e⟩] }, .idle)
  | g, .guarded call cmd none, .send _ =>
    some (g, .unwinding call cmd none (.error (.ConnectionException (lit "no available redis Connection"))))
  | g, .guarded call cmd (some c), .send fail =>
    match g.net.contexts[c]? with
    | none => none
    | some ctx =>
      match ctx.write (.command call cmd) fail with
      | (none, ctx') => some ({ g with net := g.net.put c ctx' }, .waiting call cmd c)
      | (some errstr, ctx') =>
        some ({ g with net := g.net.put c ctx' },
          .unwinding call cmd (some c) (.error (.CommandException errstr)))
  | g, .waiting call cmd c, .receive fail =>
    match g.net.contexts[c]? with
    | none => none
    | some ctx =>
      match ctx.read fail with
      | none => none
      | some (.ok a, ctx') => some ({ g with net := g.net.put c ctx' }, .unwinding call cmd (some c) (.ok a))
      | some (.error errstr, ctx') =>
        some ({ g with net := g.net.put c ctx' },
          .unwinding call cmd (some c) (.error (.CommandException errstr)))
  | g, .unwinding call cmd conn result, .release =>
    some ({ g with pool := release conn g.pool, returned := g.returned ++ [⟨call, cmd, conn, result⟩] }, .idle)
  | _, _, _ => none

def serving (g : Shared) (e : Serving) : Option Shared :=
  match g.net.serve e.conn e.reply e.switched with
  | none => none
  | some net => some { g with net := net }

abbrev System := Config Shared Stage

def step : System → Move Act Serving → Option System := Interleaving.step own serving

/-- A pool after `initialize`, however that ended, and threads that have not
    begun. -/
def start (threads : Nat) (env : Nat → Opening) (p : ConnectionPool) : System :=
  ⟨⟨(initialize_pool env p {}).2.1, (initialize_pool env p {}).2.2, 0, []⟩, List.replicate threads .idle⟩

/-- The connection that a thread's guard holds. -/
def holds : Stage → Multiset ConnId
  | .idle => 0
  | .guarded _ _ conn => conn.elim 0 ({·})
  | .waiting _ _ c => {c}
  | .unwinding _ _ conn _ => conn.elim 0 ({·})

/-- The number of the call that a thread is in. -/
def calling : Stage → Multiset Nat
  | .idle => 0
  | .guarded call _ _ => {call}
  | .waiting call _ _ => {call}
  | .unwinding call _ _ _ => {call}

/-! ### What a thread can do in one move -/

inductive Moves (g : Shared) : Stage → Act → Shared → Stage → Prop
  | lent {cmd : RedisCmd} {o : Opening} {conn : Option ConnId} {rest : List (Option ConnId)}
      (queue : g.pool.connq_ = conn :: rest) :
      Moves g .idle (.acquire cmd o)
        { g with pool := { g.pool with connq_ := rest }, nextCall := g.nextCall + 1 }
        (.guarded g.nextCall cmd conn)
  | exhausted {cmd : RedisCmd} {o : Opening} (empty : g.pool.connq_ = [])
      (why : g.pool.max_size_ ≤ g.pool.size_ ∨ o.accepted = false) :
      Moves g .idle (.acquire cmd o) { g with nextCall := g.nextCall + 1 } (.guarded g.nextCall cmd none)
  | thrown {cmd : RedisCmd} {o : Opening} (empty : g.pool.connq_ = []) (room : g.pool.size_ < g.pool.max_size_)
      (rejected : o.Rejected) (e : Exception) :
      Moves g .idle (.acquire cmd o)
        { g with net := grown g.net (newContext g.pool o.select), nextCall := g.nextCall + 1,
                 returned := g.returned ++ [⟨g.nextCall, cmd, none, .error e⟩] } .idle
  | opened {cmd : RedisCmd} {o : Opening} (empty : g.pool.connq_ = []) (room : g.pool.size_ < g.pool.max_size_)
      (opens : o.Opens) :
      Moves g .idle (.acquire cmd o)
        { g with pool := { g.pool with size_ := g.pool.size_ + 1,
                                       opened := g.pool.opened ++ [g.net.contexts.length] },
                 net := grown g.net (newContext g.pool o.select), nextCall := g.nextCall + 1 }
        (.guarded g.nextCall cmd (some g.net.contexts.length))
  | unavailable {call : Nat} {cmd : RedisCmd} {fail : Option Str} :
      Moves g (.guarded call cmd none) (.send fail) g
        (.unwinding call cmd none (.error (.ConnectionException (lit "no available redis Connection"))))
  | sent {call : Nat} {cmd : RedisCmd} {c : ConnId} {ctx : Context} (at_c : g.net.contexts[c]? = some ctx)
      (live : ctx.err = none) :
      Moves g (.guarded call cmd (some c)) (.send none)
        { g with net := g.net.put c { ctx with toServer := ctx.toServer ++ [.command call cmd] } }
        (.waiting call cmd c)
  | unsent {call : Nat} {cmd : RedisCmd} {c : ConnId} {ctx : Context} {fail : Option Str} {errstr : Str}
      (at_c : g.net.contexts[c]? = some ctx) (why : ctx.err = some errstr ∨ ctx.err = none ∧ fail = some errstr) :
      Moves g (.guarded call cmd (some c)) (.send fail)
        { g with net := g.net.put c { ctx with err := some errstr } }
        (.unwinding call cmd (some c) (.error (.CommandException errstr)))
  | received {call : Nat} {cmd : RedisCmd} {c : ConnId} {ctx : Context} {a : Answer} {rest : List Answer}
      (at_c : g.net.contexts[c]? = some ctx) (live : ctx.err = none) (next : ctx.toClient = a :: rest) :
      Moves g (.waiting call cmd c) (.receive none)
        { g with net := g.net.put c { ctx with toClient := rest } } (.unwinding call cmd (some c) (.ok a))
  | unanswered {call : Nat} {cmd : RedisCmd} {c : ConnId} {ctx : Context} {fail : Option Str} {errstr : Str}
      (at_c : g.net.contexts[c]? = some ctx) (why : ctx.err = some errstr ∨ ctx.err = none ∧ fail = some errstr) :
      Moves g (.waiting call cmd c) (.receive fail)
        { g with net := g.net.put c { ctx with err := some errstr } }
        (.unwinding call cmd (some c) (.error (.CommandException errstr)))
  | released {call : Nat} {cmd : RedisCmd} {conn : Option ConnId} {result : Except Exception Answer} :
      Moves g (.unwinding call cmd conn result) .release
        { g with pool := release conn g.pool, returned := g.returned ++ [⟨call, cmd, conn, result⟩] } .idle

private theorem acquire_moves {g g' : Shared} {l' : Stage} {cmd : RedisCmd} {o : Opening}
    (moved : own g .idle (.acquire cmd o) = some (g', l')) : Moves g .idle (.acquire cmd o) g' l' := by
  rcases acquire_cases o g.pool g.net with
    ⟨conn, rest, queue, done⟩ | ⟨empty, why, done⟩ | ⟨empty, room, rejected, e, done⟩ | ⟨empty, room, opens, done⟩
  · simp only [own, done, Option.some.injEq, Prod.mk.injEq] at moved
    obtain ⟨rfl, rfl⟩ := moved
    exact .lent queue
  · simp only [own, done, Option.some.injEq, Prod.mk.injEq] at moved
    obtain ⟨rfl, rfl⟩ := moved
    exact .exhausted empty why
  · simp only [own, done, Option.some.injEq, Prod.mk.injEq] at moved
    obtain ⟨rfl, rfl⟩ := moved
    exact .thrown empty room rejected e
  · simp only [own, done, Option.some.injEq, Prod.mk.injEq] at moved
    obtain ⟨rfl, rfl⟩ := moved
    exact .opened empty room opens

private theorem send_moves {g g' : Shared} {l' : Stage} {call : Nat} {cmd : RedisCmd} {conn : Option ConnId}
    {fail : Option Str} (moved : own g (.guarded call cmd conn) (.send fail) = some (g', l')) :
    Moves g (.guarded call cmd conn) (.send fail) g' l' := by
  cases conn with
  | none =>
    simp only [own, Option.some.injEq, Prod.mk.injEq] at moved
    obtain ⟨rfl, rfl⟩ := moved
    exact .unavailable
  | some c =>
    simp only [own] at moved
    cases at_c : g.net.contexts[c]? with
    | none => simp [at_c] at moved
    | some ctx =>
      obtain ⟨host, port, err, toServer, toClient, selected, freed⟩ := ctx
      cases err with
      | some errstr =>
        simp only [at_c, Context.write, Option.some.injEq, Prod.mk.injEq] at moved
        obtain ⟨rfl, rfl⟩ := moved
        exact .unsent at_c (.inl rfl)
      | none =>
        cases fail with
        | some errstr =>
          simp only [at_c, Context.write, Option.some.injEq, Prod.mk.injEq] at moved
          obtain ⟨rfl, rfl⟩ := moved
          exact .unsent at_c (.inr ⟨rfl, rfl⟩)
        | none =>
          simp only [at_c, Context.write, Option.some.injEq, Prod.mk.injEq] at moved
          obtain ⟨rfl, rfl⟩ := moved
          exact .sent at_c rfl

private theorem receive_moves {g g' : Shared} {l' : Stage} {call : Nat} {cmd : RedisCmd} {c : ConnId}
    {fail : Option Str} (moved : own g (.waiting call cmd c) (.receive fail) = some (g', l')) :
    Moves g (.waiting call cmd c) (.receive fail) g' l' := by
  simp only [own] at moved
  cases at_c : g.net.contexts[c]? with
  | none => simp [at_c] at moved
  | some ctx =>
    obtain ⟨host, port, err, toServer, toClient, selected, freed⟩ := ctx
    cases err with
    | some errstr =>
      simp only [at_c, Context.read, Option.some.injEq, Prod.mk.injEq] at moved
      obtain ⟨rfl, rfl⟩ := moved
      exact .unanswered at_c (.inl rfl)
    | none =>
      cases fail with
      | some errstr =>
        simp only [at_c, Context.read, Option.some.injEq, Prod.mk.injEq] at moved
        obtain ⟨rfl, rfl⟩ := moved
        exact .unanswered at_c (.inr ⟨rfl, rfl⟩)
      | none =>
        cases toClient with
        | nil => simp [at_c, Context.read] at moved
        | cons a rest =>
          simp only [at_c, Context.read, Option.some.injEq, Prod.mk.injEq] at moved
          obtain ⟨rfl, rfl⟩ := moved
          exact .received at_c rfl rfl

/-- Every step of a thread is one of `Moves`. -/
theorem own_moves {g g' : Shared} {l l' : Stage} {act : Act} (moved : own g l act = some (g', l')) :
    Moves g l act g' l' := by
  cases l with
  | idle =>
    cases act with
    | acquire cmd o => exact acquire_moves moved
    | _ => simp [own] at moved
  | guarded call cmd conn =>
    cases act with
    | send fail => exact send_moves moved
    | _ => simp [own] at moved
  | waiting call cmd c =>
    cases act with
    | receive fail => exact receive_moves moved
    | _ => simp [own] at moved
  | unwinding call cmd conn result =>
    cases act with
    | release =>
      simp only [own, Option.some.injEq, Prod.mk.injEq] at moved
      obtain ⟨rfl, rfl⟩ := moved
      exact .released
    | _ => simp [own] at moved

/-- What the server does to a connection. -/
theorem serving_cases {g g' : Shared} {e : Serving} (served : serving g e = some g') :
    ∃ ctx request rest, g.net.contexts[e.conn]? = some ctx ∧ ctx.toServer = request :: rest ∧
      g' = { g with net := { g.net.put e.conn { ctx with
        toServer := rest
        toClient := ctx.toClient ++ [⟨request, e.reply⟩]
        selected := ctx.selectedBy request e.switched } with
          executed := g.net.executed ++ [⟨e.conn, request, ctx.selected⟩] } } := by
  simp only [serving, Net.serve] at served
  cases at_c : g.net.contexts[e.conn]? with
  | none => simp [at_c] at served
  | some ctx =>
    cases pending : ctx.toServer with
    | nil => simp [at_c, Context.serve, pending] at served
    | cons request rest =>
      simp only [at_c, Context.serve, pending, Option.some.injEq] at served
      exact ⟨ctx, request, rest, rfl, pending, served.symm⟩

/-- The server leaves the pool and the calls alone. -/
theorem serving_keeps {g g' : Shared} {e : Serving} (served : serving g e = some g') :
    g'.pool = g.pool ∧ g'.nextCall = g.nextCall ∧ g'.returned = g.returned := by
  obtain ⟨ctx, request, rest, _, _, rfl⟩ := serving_cases served
  exact ⟨rfl, rfl, rfl⟩

end CppRedis.Execute

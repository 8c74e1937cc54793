import CppRedis.Lending

/-!
The database of a connection. `initialize` and `acquire` ignore what `select`
returns and push the connection all the same. It is in the database nevertheless
or it is of no use: SELECT was answered by OK and the server has switched, or by
an error and `select` threw before the connection was pushed, or by nothing and
nothing is sent on the context any more (`Selected`).
-/
namespace CppRedis.Database
open CppRedis.Strings CppRedis.Reply CppRedis.Connection CppRedis.Pool CppRedis.Interleaving CppRedis.Execute
open CppRedis.Runs CppRedis.Lending CppRedis.Ledgers

/-- The server answers SELECT with OK exactly if it has switched the database,
    and with an error otherwise. -/
def Honest (o : Opening) : Prop :=
  ∀ r switched, o.select = .reply r switched →
    (r = .status REDIS_STATUS_REPLY_OK ∧ switched = true) ∨ ((∃ str, r = .error str) ∧ switched = false)

/-- A move in which the server is honest. -/
def HonestMove : Move Act Serving → Prop
  | .thread _ (.acquire _ o) => Honest o
  | _ => True

/-- What the server has yet to carry out: no SELECT of another database, and a
    command only on a connection in the database. -/
def PendingOk (db : Int) (ctx : Context) : Request → Prop
  | .select other => other = db
  | .command _ _ => ctx.selected = some db
  | _ => True

structure Selected (db : Int) (p : ConnectionPool) (net : Net) : Prop where
  pool : p.db_ = db
  old : ∀ c ∈ p.opened, c < net.contexts.length
  usable : ∀ c ∈ p.opened, ∀ ctx, net.contexts[c]? = some ctx → ctx.err = none → ctx.selected = some db
  pending : ∀ ctx ∈ net.contexts, ∀ request ∈ ctx.toServer, PendingOk db ctx request
  executed : ∀ ex ∈ net.executed, ∀ call cmd, ex.request = .command call cmd → ex.db = some db

section
variable {db : Int} {p : ConnectionPool} {net : Net}

private theorem newContext_pending (pool : p.db_ = db) (x : Exchange) :
    ∀ request ∈ (newContext p x).toServer, PendingOk db (newContext p x) request := by
  cases x with
  | reply r switched => simp [newContext]
  | noReply errstr => simpa [newContext, PendingOk] using pool

/-- A context that is opened but not pushed. -/
theorem Selected.grown (selected : Selected db p net) (x : Exchange) :
    Selected db p (grown net (newContext p x)) := by
  refine ⟨selected.pool, ?_, ?_, ?_, selected.executed⟩
  · intro c member
    rw [grown_length]
    exact (selected.old c member).trans (Nat.lt_succ_self _)
  · intro c member ctx at_c
    rw [grown_old _ _ (selected.old c member)] at at_c
    exact selected.usable c member ctx at_c
  · intro ctx member
    rcases List.mem_append.mp member with old | new
    · exact selected.pending ctx old
    · rw [List.mem_singleton.mp new]
      exact newContext_pending selected.pool x

/-- The connection that an honest server has let the pool open. -/
theorem Selected.opened (selected : Selected db p net) {o : Opening} (honest : Honest o) (opens : o.Opens)
    {p' : ConnectionPool} (pool : p'.db_ = p.db_) (pushed : p'.opened = p.opened ++ [net.contexts.length]) :
    Selected db p' (Pool.grown net (newContext p o.select)) := by
  have grows := selected.grown o.select
  refine ⟨pool.trans selected.pool, ?_, ?_, grows.pending, grows.executed⟩
  · intro c member
    rw [pushed, List.mem_append, List.mem_singleton] at member
    rcases member with old | rfl
    · exact grows.old c old
    · simp
  · intro c member ctx at_c live
    rw [pushed, List.mem_append, List.mem_singleton] at member
    rcases member with old | rfl
    · exact grows.usable c old ctx at_c live
    · rw [grown_new, Option.some.injEq] at at_c
      subst at_c
      cases done : o.select with
      | noReply errstr => simp [newContext, done] at live
      | reply r switched =>
        rcases honest r switched done with ⟨_, rfl⟩ | ⟨⟨str, rfl⟩, _⟩
        · simp [newContext, selected.pool]
        · exact absurd ⟨opens.1, _, switched, done, id⟩ opens.2

/-- What is pending on a context depends on its database only. -/
private theorem pending_congr {ctx new : Context} (same : new.selected = ctx.selected) {request : Request}
    (ok : PendingOk db ctx request) : PendingOk db new request := by
  cases request with
  | select other => exact ok
  | command call cmd => exact same.trans ok
  | quit | ask cmd => trivial

theorem Selected.put (selected : Selected db p net) {c : ConnId} {ctx new : Context}
    (at_c : net.contexts[c]? = some ctx)
    (usable : c ∈ p.opened → new.err = none → new.selected = some db)
    (pending : ∀ request ∈ new.toServer, PendingOk db new request) : Selected db p (net.put c new) := by
  refine ⟨selected.pool, fun d member => by simpa using selected.old d member, ?_, ?_, selected.executed⟩
  · intro d member found at_d
    by_cases same : d = c
    · subst same
      rw [Net.put_self at_c, Option.some.injEq] at at_d
      exact at_d ▸ usable member
    · rw [Net.put_other _ same] at at_d
      exact selected.usable d member found at_d
  · intro found member
    rcases List.mem_or_eq_of_mem_set member with old | rfl
    · exact selected.pending found old
    · exact pending

/-- A change of the error or of the answers. -/
theorem Selected.keep (selected : Selected db p net) {c : ConnId} {ctx new : Context}
    (at_c : net.contexts[c]? = some ctx) (same : new.selected = ctx.selected) (sent : new.toServer = ctx.toServer)
    (live : new.err = none → ctx.err = none) : Selected db p (net.put c new) := by
  refine selected.put at_c ?_ ?_
  · intro member alive
    rw [same]
    exact selected.usable c member ctx at_c (live alive)
  · intro request member
    rw [sent] at member
    exact pending_congr same (selected.pending ctx (List.mem_of_getElem? at_c) request member)

end

/-- A move of a thread whose guard holds connections of the pool. -/
theorem moves_selected {db : Int} {g g' : Shared} {l l' : Stage} {act : Act} (moves : Moves g l act g' l')
    (selected : Selected db g.pool g.net) (pooled : ∀ c ∈ holds l, c ∈ g.pool.opened)
    (honest : ∀ cmd o, act = .acquire cmd o → Honest o) : Selected db g'.pool g'.net := by
  cases moves with
  | lent queue => exact ⟨selected.pool, selected.old, selected.usable, selected.pending, selected.executed⟩
  | exhausted empty why => exact selected
  | thrown empty room rejected e => exact selected.grown _
  | opened empty room opens => exact selected.opened (honest _ _ rfl) opens rfl rfl
  | unavailable => exact selected
  | @sent call cmd c ctx at_c live =>
    have mine := selected.usable c (pooled c (Multiset.mem_singleton_self c)) ctx at_c live
    refine selected.put at_c (fun _ _ => mine) ?_
    intro request member
    rcases List.mem_append.mp member with old | new
    · exact pending_congr rfl (selected.pending ctx (List.mem_of_getElem? at_c) request old)
    · rw [List.mem_singleton.mp new]
      exact mine
  | unsent at_c why => exact selected.keep at_c rfl rfl (fun live => by cases live)
  | received at_c live next => exact selected.keep at_c rfl rfl id
  | unanswered at_c why => exact selected.keep at_c rfl rfl (fun live => by cases live)
  | released => exact ⟨selected.pool, selected.old, selected.usable, selected.pending, selected.executed⟩

/-- What the server carries out keeps the database. -/
theorem serving_selected {db : Int} {g g' : Shared} {e : Serving} (served : serving g e = some g')
    (selected : Selected db g.pool g.net) : Selected db g'.pool g'.net := by
  obtain ⟨ctx, request, rest, at_c, pending, rfl⟩ := serving_cases served
  have here := selected.pending ctx (List.mem_of_getElem? at_c)
  rw [pending] at here
  have kept : ctx.selected = some db → ctx.selectedBy request e.switched = some db := by
    intro before
    cases request with
    | select other =>
      have same : other = db := here _ List.mem_cons_self
      cases e.switched <;> simp [Context.selectedBy, before, same]
    | quit | command call cmd | ask cmd => exact before
  have changed : Selected db g.pool (g.net.put e.conn { ctx with
      toServer := rest
      toClient := ctx.toClient ++ [⟨request, e.reply⟩]
      selected := ctx.selectedBy request e.switched }) := selected.put at_c
    (fun member live => kept (selected.usable _ member ctx at_c live)) (fun later member => by
      have ok := here later (List.mem_cons_of_mem _ member)
      cases later with
      | select other => exact ok
      | command call cmd => exact kept ok
      | quit | ask cmd => trivial)
  refine ⟨changed.pool, changed.old, changed.usable, changed.pending, ?_⟩
  intro ex member call cmd is
  rcases List.mem_append.mp member with old | new
  · exact selected.executed ex old call cmd is
  · rw [List.mem_singleton.mp new] at is ⊢
    cases is
    exact here _ List.mem_cons_self

theorem step_selected {db : Int} {s s' : System} {m : Move Act Serving} {L : Ledger ConnId} (keeps : Keeps s L)
    (selected : Selected db s.shared.pool s.shared.net) (honest : HonestMove m) (taken : step s m = some s') :
    Selected db s'.shared.pool s'.shared.net := by
  rcases step_cases taken with ⟨i, act, l, l', rfl, at_i, moved, _⟩ | ⟨e, rfl, served, _⟩
  · exact moves_selected (own_moves moved) selected (fun c mine => keeps.pooled at_i mine)
      (fun cmd o is => by subst is; exact honest)
  · exact serving_selected served selected

theorem start_selected (threads : Nat) {env : Nat → Opening} (honest : ∀ j, Honest (env j)) (host : Str)
    (port db size max_size : Int) :
    Selected db (start threads env (fresh host port db size max_size)).shared.pool
      (start threads env (fresh host port db size max_size)).shared.net :=
  initialize_invariant env (Selected db) (fun j _ _ selected _ => selected.grown (env j).select)
    (fun j _ _ selected opens => selected.opened (honest j) opens rfl rfl)
    ⟨rfl, by simp [fresh], by simp [fresh], by simp, by simp⟩

/-- With a server that answers SELECT honestly, every command that it carries
    out is carried out in the pool's database. -/
theorem commands_in_database {threads : Nat} {env : Nat → Opening} {host : Str} {port db size max_size : Int}
    {moves : List (Move Act Serving)} {s : System} (honest : ∀ j, Honest (env j))
    (honestMoves : ∀ m ∈ moves, HonestMove m)
    (runs : run step (start threads env (fresh host port db size max_size)) moves = some s) :
    ∀ ex ∈ s.shared.net.executed, ∀ call cmd, ex.request = .command call cmd → ex.db = some db :=
  (run_kept (fun s => Selected db s.shared.pool s.shared.net) HonestMove
    (fun _ _ _ _ keeps selected here taken => step_selected keeps selected here taken) runs honestMoves
    (start_selected threads honest host port db size max_size)).executed

theorem commands_in_database_two_calls : ∃ s,
    run step (start 2 (fun _ => reachable) (fresh (lit "h") 6379 3 1 1)) twoCalls = some s ∧
      s.shared.net.executed ≠ [] ∧
      ∀ ex ∈ s.shared.net.executed, ∀ call cmd, ex.request = .command call cmd → ex.db = some 3 := by
  have honest : Honest reachable := fun r switched is => by
    cases is
    exact .inl ⟨rfl, rfl⟩
  have done : (run step (start 2 (fun _ => reachable) (fresh (lit "h") 6379 3 1 1)) twoCalls).map
      (fun s => s.shared.net.executed.length) = some 1 := by decide
  obtain ⟨s, runs, count⟩ := Option.map_eq_some_iff.mp done
  refine ⟨s, runs, fun none => by simp [none] at count, commands_in_database (fun _ => honest) ?_ runs⟩
  intro m member
  simp only [twoCalls, List.mem_cons, List.not_mem_nil, or_false] at member
  rcases member with rfl | rfl | rfl | rfl | rfl | rfl | rfl | rfl
  · exact honest
  · exact honest
  all_goals trivial

end CppRedis.Database

import CppRedis.Lending

/-!
`Client` and the pools that it allocates. `connect` deletes the pool that the
client has, allocates another one and fills it. Deleting a pool closes the
connections of its queue; `QUIT` is sent on each, and an exception that its reply
raises ends the program, since it leaves a destructor. Connections that are lent
are not in the queue.
-/
namespace CppRedis.Clients
open CppRedis.Strings CppRedis.Reply CppRedis.Connection CppRedis.Pool CppRedis.Interleaving CppRedis.Execute
open CppRedis.Runs CppRedis.Lending CppRedis.Ledgers
open ConnectionPool

abbrev PoolId := Nat

/-- A pool that was allocated. -/
structure Cell where
  pool : ConnectionPool
  deleted : Bool := false

/-- The client's `pool_`; the pools that it has allocated, in order, and the
    network are its surroundings. -/
structure Client where
  pool_ : Option PoolId := none
  pools : List Cell := []
  net : Net := {}

/-- `delete conn`. -/
def delete_connection (conn : Option ConnId) (x : Exchange) (net : Net) : Except Fault Net :=
  match conn with
  | none => .ok net
  | some c =>
    match net.contexts[c]? with
    | none => .error .undefined
    | some ctx =>
      match disconnect x ctx with
      | (.error _, _) => .error .terminated
      | (.ok _, ctx') => .ok (net.put c ctx')

/-- The loop of `~ConnectionPool`; `quits i` is the exchange of round `i`. -/
def delete_queue (quits : Nat → Exchange) : List (Option ConnId) → Nat → Net → Except Fault Net
  | [], _, net => .ok net
  | conn :: rest, i, net =>
    match delete_connection conn (quits i) net with
    | .error fault => .error fault
    | .ok net => delete_queue quits rest (i + 1) net

/-- What becomes of the exchanges of one `connect`: of QUIT on the connections
    of the old pool, and of the attempts to fill the new one. -/
structure Connecting where
  quits : Nat → Exchange
  openings : Nat → Opening

namespace Client

/-- `if (pool_) delete pool_;`. -/
def delete_pool (quits : Nat → Exchange) (cl : Client) : Except Fault Client :=
  match cl.pool_ with
  | none => .ok cl
  | some id =>
    match cl.pools[id]? with
    | none => .error .undefined
    | some cell =>
      if cell.deleted then .error .undefined
      else
        match delete_queue quits cell.pool.connq_ 0 cl.net with
        | .error fault => .error fault
        | .ok net =>
          .ok { cl with pools := cl.pools.set id ⟨{ cell.pool with connq_ := [] }, true⟩, net := net }

/-- `connect(host, port, db)`. -/
def connect (env : Connecting) (host : Str) (port db : Int) (cl : Client) : Except Fault Int × Client :=
  match cl.delete_pool env.quits with
  | .error fault => (.error fault, cl)
  | .ok cl =>
    match initialize_pool env.openings (fresh host port db default_size default_max_size) cl.net with
    | (result, p, net) =>
      (result.mapError .thrown, { pool_ := some cl.pools.length, pools := cl.pools ++ [⟨p, false⟩], net := net })

/-- Calls of `execute` by some threads, all of which have ended. -/
def calls (threads : Nat) (moves : List (Move Act Serving)) (cl : Client) : Option Client :=
  match cl.pool_ with
  | none => none
  | some id =>
    match cl.pools[id]? with
    | none => none
    | some cell =>
      match run Execute.step ⟨⟨cell.pool, cl.net, 0, []⟩, List.replicate threads .idle⟩ moves with
      | none => none
      | some s =>
        if s.locals.all Stage.isIdle then
          some { cl with pools := cl.pools.set id { cell with pool := s.shared.pool }, net := s.shared.net }
        else none

/-- The address of the pool, while it is not deleted. -/
def address (cl : Client) : Option (Str × Int) :=
  match cl.pool_ with
  | none => none
  | some id =>
    match cl.pools[id]? with
    | none => none
    | some cell => if cell.deleted then none else some (cell.pool.host_, cell.pool.port_)

end Client

/-! ### The pool of a client -/

/-- The client has a pool, whose books are kept while none of its connections
    is lent. -/
structure Owns (cl : Client) (id : PoolId) (cell : Cell) : Prop where
  current : cl.pool_ = some id
  at_id : cl.pools[id]? = some cell
  alive : cell.deleted = false
  books : ∃ L, Books cell.pool cl.net 0 L

def Owned (cl : Client) : Prop := ∃ id cell, Owns cl id cell

theorem Owns.address {cl : Client} {id : PoolId} {cell : Cell} (owns : Owns cl id cell) :
    cl.address = some (cell.pool.host_, cell.pool.port_) := by
  simp [Client.address, owns.current, owns.at_id, owns.alive]

/-! ### Deleting a pool -/

/-- QUIT raises no exception on any connection of a queue. -/
def Closes (quits : Nat → Exchange) (queue : List (Option ConnId)) (net : Net) : Prop :=
  ∀ (i : Nat) c, queue[i]? = some (some c) → ∀ ctx, net.contexts[c]? = some ctx → ctx.err = none → (quits i).Quits

theorem delete_connection_old {conn : Option ConnId} {x : Exchange} {net net' : Net}
    (done : delete_connection conn x net = .ok net') :
    net'.contexts.length = net.contexts.length ∧
      ∀ d, conn ≠ some d → net'.contexts[d]? = net.contexts[d]? := by
  cases conn with
  | none =>
    simp only [delete_connection, Except.ok.injEq] at done
    exact ⟨by rw [done], fun _ _ => by rw [done]⟩
  | some c =>
    simp only [delete_connection] at done
    cases at_c : net.contexts[c]? with
    | none => simp [at_c] at done
    | some ctx =>
      cases closed : disconnect x ctx with
      | mk result ctx' =>
        cases result with
        | error e => simp [at_c, closed] at done
        | ok _ =>
          simp only [at_c, closed, Except.ok.injEq] at done
          subst done
          exact ⟨by simp, fun d other => Net.put_other _ (fun same => other (by rw [same])) _⟩

private theorem delete_connection_returns (conn : Option ConnId) (x : Exchange) (net : Net)
    (inside : ∀ c, conn = some c → c < net.contexts.length) :
    (∃ net', delete_connection conn x net = .ok net') ↔
      ∀ c, conn = some c → ∀ ctx, net.contexts[c]? = some ctx → ctx.err = none → x.Quits := by
  cases conn with
  | none => simp [delete_connection]
  | some c =>
    obtain ⟨ctx, at_c⟩ : ∃ ctx, net.contexts[c]? = some ctx :=
      ⟨_, List.getElem?_eq_getElem (inside c rfl)⟩
    have returns := disconnect_returns x ctx
    simp only [delete_connection, at_c, Option.some.injEq, forall_eq', ← returns]
    cases disconnect x ctx with
    | mk result ctx' => cases result <;> simp

private theorem closes_cons (quits : Nat → Exchange) (n : Nat) (conn : Option ConnId) (rest : List (Option ConnId))
    (net : Net) : Closes (fun i => quits (n + i)) (conn :: rest) net ↔
      (∀ c, conn = some c → ∀ ctx, net.contexts[c]? = some ctx → ctx.err = none → (quits n).Quits) ∧
      Closes (fun i => quits (n + 1 + i)) rest net := by
  constructor
  · intro closes
    refine ⟨fun c is => closes 0 c (by simp [is]), ?_⟩
    intro i c at_i ctx at_c live
    have later : (quits (n + (i + 1))).Quits := closes (i + 1) c (by simpa using at_i) ctx at_c live
    rwa [show n + (i + 1) = n + 1 + i by omega] at later
  · rintro ⟨here, later⟩ i c at_i ctx at_c live
    cases i with
    | zero => exact here c (by simpa using at_i) ctx at_c live
    | succ i =>
      have quits_i : (quits (n + 1 + i)).Quits := later i c (by simpa using at_i) ctx at_c live
      rwa [show n + 1 + i = n + (i + 1) by omega] at quits_i

private theorem delete_queue_from_returns (quits : Nat → Exchange) (queue : List (Option ConnId)) (n : Nat)
    (net : Net) (distinct : queue.reduceOption.Nodup) (inside : ∀ c, some c ∈ queue → c < net.contexts.length) :
    (∃ net', delete_queue quits queue n net = .ok net') ↔ Closes (fun i => quits (n + i)) queue net := by
  induction queue generalizing n net with
  | nil => simp [delete_queue, Closes]
  | cons conn rest ih =>
    have first := delete_connection_returns conn (quits n) net (fun c is => inside c (is ▸ List.mem_cons_self))
    rw [closes_cons, ← first]
    simp only [delete_queue]
    cases deleted : delete_connection conn (quits n) net with
    | error fault => simp
    | ok net' =>
      obtain ⟨length, others⟩ := delete_connection_old deleted
      have apart : ∀ c, some c ∈ rest → conn ≠ some c := by
        rintro c member rfl
        rw [List.reduceOption_cons_of_some, List.nodup_cons] at distinct
        exact distinct.1 (List.reduceOption_mem_iff.mpr member)
      have distinct' : rest.reduceOption.Nodup := by
        cases conn with
        | none => simpa using distinct
        | some c => rw [List.reduceOption_cons_of_some, List.nodup_cons] at distinct; exact distinct.2
      rw [ih (n + 1) net' distinct'
        (fun c member => by rw [length]; exact inside c (List.mem_cons_of_mem _ member))]
      have same : Closes (fun i => quits (n + 1 + i)) rest net' ↔ Closes (fun i => quits (n + 1 + i)) rest net := by
        apply forall_congr'
        intro i
        apply forall_congr'
        intro c
        apply imp_congr_right
        intro at_i
        rw [others c (apart c (List.mem_of_getElem? at_i))]
      simp [same]

/-- A queue of distinct connections is deleted without an exception exactly if
    QUIT raises none. -/
theorem delete_queue_returns (quits : Nat → Exchange) (queue : List (Option ConnId)) (net : Net)
    (distinct : queue.reduceOption.Nodup) (inside : ∀ c, some c ∈ queue → c < net.contexts.length) :
    (∃ net', delete_queue quits queue 0 net = .ok net') ↔ Closes quits queue net := by
  simpa using delete_queue_from_returns quits queue 0 net distinct inside

theorem delete_queue_old {quits : Nat → Exchange} {queue : List (Option ConnId)} {n : Nat} {net net' : Net}
    (done : delete_queue quits queue n net = .ok net') : net'.contexts.length = net.contexts.length := by
  induction queue generalizing n net with
  | nil => cases done; rfl
  | cons conn rest ih =>
    simp only [delete_queue] at done
    cases deleted : delete_connection conn (quits n) net with
    | error fault => simp [deleted] at done
    | ok mid =>
      rw [deleted] at done
      rw [ih done]
      exact (delete_connection_old deleted).1

/-! ### Filling a pool -/

/-- An exception leaves the loop of `initialize` in one of its `n` rounds. -/
def Throws (openings : Nat → Opening) (n : Nat) : Prop :=
  ∃ k < n, (∀ j < k, (openings j).Opens) ∧ (openings k).Rejected

theorem initialize_throws (openings : Nat → Opening) (p : ConnectionPool) (net : Net) :
    (∃ e, (initialize_pool openings p net).1 = .error e) ↔ Throws openings p.size_.toNat := by
  obtain ⟨k, done⟩ := initialize_counts openings p net
  have opens : ∀ j < k, (openings j).Opens := fun j lt => by simpa using done.opens j lt
  have ending := done.ending
  rw [Nat.zero_add] at ending
  constructor
  · rintro ⟨e, thrown⟩
    rcases ending with ⟨_, returned, _⟩ | ⟨_, _, returned, _⟩ | ⟨lt, rejected, _, _⟩
    · rw [thrown] at returned; cases returned
    · rw [thrown] at returned; cases returned
    · exact ⟨k, lt, opens, rejected⟩
  · rintro ⟨k', lt, opens', rejected'⟩
    have le : k' ≤ k := Nat.le_of_not_lt fun later => by
      rcases ending with ⟨full, _, _⟩ | ⟨_, refused, _, _⟩ | ⟨_, rejected, _, _⟩
      · omega
      · exact absurd (opens' k later).1 (by simp [refused])
      · exact (opens' k later).2 rejected
    have ge : k ≤ k' := Nat.le_of_not_lt fun earlier => (opens k' earlier).2 rejected'
    obtain rfl : k' = k := Nat.le_antisymm le ge
    rcases ending with ⟨full, _, _⟩ | ⟨_, refused, _, _⟩ | ⟨_, _, thrown, _⟩
    · omega
    · exact absurd rejected'.1 (by simp [refused])
    · exact thrown

private theorem initialize_address (openings : Nat → Opening) (p : ConnectionPool) (net : Net) :
    (initialize_pool openings p net).2.1.host_ = p.host_ ∧ (initialize_pool openings p net).2.1.port_ = p.port_ :=
  initialize_invariant openings (fun q _ => q.host_ = p.host_ ∧ q.port_ = p.port_)
    (fun _ _ _ same _ => same) (fun _ _ _ same _ => same) ⟨rfl, rfl⟩

private theorem initialize_books (openings : Nat → Opening) (host : Str) (port db size max_size : Int) (net : Net) :
    ∃ L, Books (initialize_pool openings (fresh host port db size max_size) net).2.1
      (initialize_pool openings (fresh host port db size max_size) net).2.2 0 L :=
  initialize_invariant openings (fun p net => ∃ L, Books p net 0 L)
    (fun _ _ _ ⟨L, books⟩ _ => ⟨L, books.frame (by simp)⟩)
    (fun j p _ ⟨_, books⟩ _ =>
      let ⟨L', _, books'⟩ := books_open books (newContext p (openings j).select)
      ⟨L', books'⟩)
    ⟨⟨0, 0, by simp⟩, rfl, rfl, rfl, by simp [fresh]⟩

/-! ### `connect` -/

theorem delete_pool_old {quits : Nat → Exchange} {cl mid : Client} (done : cl.delete_pool quits = .ok mid) :
    mid.pools.length = cl.pools.length ∧ mid.net.contexts.length = cl.net.contexts.length := by
  simp only [Client.delete_pool] at done
  cases current : cl.pool_ with
  | none =>
    simp only [current, Except.ok.injEq] at done
    exact ⟨by rw [done], by rw [done]⟩
  | some id =>
    cases at_id : cl.pools[id]? with
    | none => simp [current, at_id] at done
    | some cell =>
      cases gone : cell.deleted with
      | true => simp [current, at_id, gone] at done
      | false =>
        cases deleted : delete_queue quits cell.pool.connq_ 0 cl.net with
        | error fault => simp [current, at_id, gone, deleted] at done
        | ok net =>
          simp only [current, at_id, gone, deleted, Bool.false_eq_true, ↓reduceIte, Except.ok.injEq] at done
          subst done
          exact ⟨by simp, delete_queue_old deleted⟩

/-- The client that `connect` leaves when the old pool is deleted. -/
theorem connect_deleted {env : Connecting} {host : Str} {port db : Int} {cl mid : Client}
    (deleted : cl.delete_pool env.quits = .ok mid) {result : Except Exception Int} {p : ConnectionPool} {net : Net}
    (filled : initialize_pool env.openings (fresh host port db default_size default_max_size) mid.net =
      (result, p, net)) :
    cl.connect env host port db =
      (result.mapError .thrown, { pool_ := some cl.pools.length, pools := mid.pools ++ [⟨p, false⟩], net := net }) := by
  simp only [Client.connect, deleted, filled, (delete_pool_old deleted).1]

section
variable {env : Connecting} {host : Str} {port db : Int} {cl : Client}

/-- The first `connect` of a client leaves the state in which the runs of
    `execute` start. -/
theorem connect_first (threads : Nat) (env : Connecting) (host : Str) (port db : Int) :
    (({} : Client).connect env host port db).2 =
      let s := start threads env.openings (fresh host port db default_size default_max_size)
      { pool_ := some 0, pools := [⟨s.shared.pool, false⟩], net := s.shared.net } := rfl

/-- Where the old pool is deleted, the client has a new pool at the address, also where
    an exception leaves `initialize`. -/
theorem connect_owned {mid : Client} (deleted : cl.delete_pool env.quits = .ok mid) :
    Owned (cl.connect env host port db).2 ∧ (cl.connect env host port db).2.address = some (host, port) ∧
      (cl.connect env host port db).2.pool_ = some cl.pools.length := by
  have books := initialize_books env.openings host port db default_size default_max_size mid.net
  have addr := initialize_address env.openings (fresh host port db default_size default_max_size) mid.net
  cases filled : initialize_pool env.openings (fresh host port db default_size default_max_size) mid.net with
  | mk result rest =>
    rw [connect_deleted deleted filled]
    rw [filled] at books addr
    have owns : Owns { pool_ := some cl.pools.length, pools := mid.pools ++ [⟨rest.1, false⟩], net := rest.2 }
        cl.pools.length ⟨rest.1, false⟩ :=
      ⟨rfl, by simp [← (delete_pool_old deleted).1], rfl, books⟩
    refine ⟨⟨_, _, owns⟩, ?_, owns.current⟩
    rw [owns.address, addr.1, addr.2]
    rfl

/-- Where `connect` returns, the client has a new pool at the address. -/
theorem connect_gives {n : Int} {cl' : Client} (done : cl.connect env host port db = (.ok n, cl')) :
    Owned cl' ∧ cl'.address = some (host, port) ∧ cl'.pool_ = some cl.pools.length := by
  cases deleted : cl.delete_pool env.quits with
  | error fault => simp [Client.connect, deleted] at done
  | ok mid =>
    have owned : Owned (cl.connect env host port db).2 ∧ _ := connect_owned deleted
    rw [done] at owned
    exact owned

private theorem delete_queue_fault {quits : Nat → Exchange} {queue : List (Option ConnId)} {n : Nat} {net : Net}
    {fault : Fault} (failed : delete_queue quits queue n net = .error fault) : ∀ e, fault ≠ .thrown e := by
  induction queue generalizing n net with
  | nil => cases failed
  | cons conn rest ih =>
    simp only [delete_queue] at failed
    split at failed
    · rename_i other deleted
      obtain rfl := Except.error.inj failed
      unfold delete_connection at deleted
      split at deleted
      · cases deleted
      · split at deleted
        · cases deleted
          exact nofun
        · split at deleted <;> cases deleted
          exact nofun
    · exact ih failed

/-- No exception that the program can catch leaves the deletion of a pool. -/
theorem delete_pool_fault {quits : Nat → Exchange} {fault : Fault} (failed : cl.delete_pool quits = .error fault) :
    ∀ e, fault ≠ .thrown e := by
  unfold Client.delete_pool at failed
  split at failed
  · cases failed
  · split at failed
    · cases failed
      exact nofun
    · split at failed
      · cases failed
        exact nofun
      · split at failed
        · rename_i deleted
          obtain rfl := Except.error.inj failed
          exact delete_queue_fault deleted
        · cases failed

/-- What `connect` does when the old pool's connections are closed. -/
theorem Owns.connect_eq {id : PoolId} {cell : Cell} (owns : Owns cl id cell) {mid net : Net}
    (deleted : delete_queue env.quits cell.pool.connq_ 0 cl.net = .ok mid) {result : Except Exception Int}
    {p : ConnectionPool}
    (filled : initialize_pool env.openings (fresh host port db default_size default_max_size) mid = (result, p, net)) :
    cl.connect env host port db = (result.mapError .thrown,
      { pool_ := some cl.pools.length
        pools := cl.pools.set id ⟨{ cell.pool with connq_ := [] }, true⟩ ++ [⟨p, false⟩]
        net := net }) := by
  have gone : cl.delete_pool env.quits =
      .ok { cl with pools := cl.pools.set id ⟨{ cell.pool with connq_ := [] }, true⟩, net := mid } := by
    simp [Client.delete_pool, owns.current, owns.at_id, owns.alive, deleted]
  rw [connect_deleted gone filled]

/-- An exception of a QUIT ends `connect`. -/
theorem Owns.connect_fault {id : PoolId} {cell : Cell} (owns : Owns cl id cell) {fault : Fault}
    (deleted : delete_queue env.quits cell.pool.connq_ 0 cl.net = .error fault) :
    cl.connect env host port db = (.error fault, cl) := by
  simp [Client.connect, Client.delete_pool, owns.current, owns.at_id, owns.alive, deleted]

/-- `connect` returns exactly if no QUIT on the old pool's idle connections and
    no SELECT on the new pool's connections raises an exception. -/
theorem connect_returns {id : PoolId} {cell : Cell} (owns : Owns cl id cell) :
    (∃ n cl', cl.connect env host port db = (.ok n, cl')) ↔
      Closes env.quits cell.pool.connq_ cl.net ∧ ¬ Throws env.openings default_size.toNat := by
  obtain ⟨L, books⟩ := owns.books
  have queue : (cell.pool.connq_.reduceOption : Multiset ConnId) + L.lent = L.issued := by
    rw [← books.idle, Ledger.issued]
  have distinct : cell.pool.connq_.reduceOption.Nodup := by
    have both := L.distinct
    rw [books.idle] at both
    exact Multiset.coe_nodup.mp (Multiset.nodup_add.mp both).1
  have inside : ∀ c, some c ∈ cell.pool.connq_ → c < cl.net.contexts.length := by
    intro c member
    have entered : c ∈ L.issued := by
      rw [← queue]
      exact Multiset.mem_add.mpr (.inl (Multiset.mem_coe.mpr (List.reduceOption_mem_iff.mpr member)))
    rw [books.issued] at entered
    exact books.old c (Multiset.mem_coe.mp entered)
  rw [← delete_queue_returns env.quits cell.pool.connq_ cl.net distinct inside]
  cases deleted : delete_queue env.quits cell.pool.connq_ 0 cl.net with
  | error fault => simp [owns.connect_fault deleted]
  | ok net =>
    have throws := initialize_throws env.openings (fresh host port db default_size default_max_size) net
    cases filled : initialize_pool env.openings (fresh host port db default_size default_max_size) net with
    | mk result rest =>
      rw [filled] at throws
      have size : (fresh host port db default_size default_max_size).size_.toNat = default_size.toNat := rfl
      rw [owns.connect_eq deleted filled, ← size, ← throws]
      cases result with
      | error e => simp [Except.mapError]
      | ok n => simp [Except.mapError]

end

/-! ### Calls of `execute` -/

theorem moves_address {g g' : Shared} {l l' : Stage} {act : Act} (moves : Moves g l act g' l') :
    g'.pool.host_ = g.pool.host_ ∧ g'.pool.port_ = g.pool.port_ := by
  cases moves <;> exact ⟨rfl, rfl⟩

private theorem step_address {s s' : System} {m : Move Act Serving} (taken : Execute.step s m = some s') :
    s'.shared.pool.host_ = s.shared.pool.host_ ∧ s'.shared.pool.port_ = s.shared.pool.port_ := by
  rcases step_cases taken with ⟨i, act, l, l', rfl, _, moved, _⟩ | ⟨e, rfl, served, _⟩
  · exact moves_address (own_moves moved)
  · rw [(serving_keeps served).1]
    exact ⟨rfl, rfl⟩

/-- Calls keep the pool, its address and its books. -/
theorem calls_keep {threads : Nat} {moves : List (Move Act Serving)} {cl cl' : Client} (owned : Owned cl)
    (done : cl.calls threads moves = some cl') :
    Owned cl' ∧ cl'.address = cl.address ∧ cl'.pool_ = cl.pool_ := by
  obtain ⟨id, cell, owns⟩ := owned
  obtain ⟨L, books⟩ := owns.books
  simp only [Client.calls, owns.current, owns.at_id] at done
  cases runs : run Execute.step ⟨⟨cell.pool, cl.net, 0, []⟩, List.replicate threads .idle⟩ moves with
  | none => simp [runs] at done
  | some s =>
    by_cases ended : s.locals.all Stage.isIdle = true
    · simp only [runs, ended, ↓reduceIte, Option.some.injEq] at done
      have starts := keeps_idle books threads
      obtain ⟨L', _, keeps⟩ := run_simulates (fun _ _ _ _ keeps taken => step_lends keeps taken) runs starts
      have none_held : held holds s.locals = 0 := held_zero holds fun l member => by
        have idle := List.all_eq_true.mp ended l member
        cases l with
        | idle => rfl
        | guarded call cmd conn | waiting call cmd c | unwinding call cmd conn result => cases idle
      have addr := run_relation (R := fun s s' : System => s'.shared.pool.host_ = s.shared.pool.host_ ∧
          s'.shared.pool.port_ = s.shared.pool.port_) (fun _ => ⟨rfl, rfl⟩)
        (fun _ _ _ first second => ⟨second.1.trans first.1, second.2.trans first.2⟩)
        (fun _ _ _ taken => step_address taken) runs
      have inside : id < cl.pools.length := (List.getElem?_eq_some_iff.mp owns.at_id).1
      have owns' : Owns cl' id { cell with pool := s.shared.pool } := by
        rw [← done]
        refine ⟨rfl, by simp [inside], owns.alive, L', ?_⟩
        rw [Keeps, none_held] at keeps
        exact keeps
      refine ⟨⟨_, _, owns'⟩, ?_, owns'.current.trans owns.current.symm⟩
      rw [owns'.address, owns.address, addr.1, addr.2]
    · simp [runs, ended] at done

end CppRedis.Clients

import CppRedis.Database
import CppRedis.Urls

/-!
The three ways from a URL to a connection: `Client::connect`, `Connection::connect`
and `AsyncConnection::connect`. All of them go to the host and port of the URL.
`Client` sends SELECT with the URL's database on every connection of its pool, the
other two send none; so they agree exactly on the URLs of database 0
(`entry_points_agree_iff`).
-/
namespace CppRedis.EntryPoints
open CppRedis.Strings CppRedis.Reply CppRedis.Uri CppRedis.Connection CppRedis.Pool CppRedis.Interleaving CppRedis.Execute
open CppRedis.Runs CppRedis.Lending CppRedis.Ledgers CppRedis.Database CppRedis.Clients CppRedis.Urls
open ConnectionPool

/-- The connections `mine` are to the host and port of the URL, and of the requests that
    the server has carried out on them after the first `n`, the commands were carried out
    in its database. Without a SELECT, that is database 0. -/
structure Arrives (uri : URI) (mine : ConnId → Prop) (command : Request → Prop) (n : Nat) (net : Net) : Prop where
  target : ∀ c ctx, mine c → net.contexts[c]? = some ctx → ctx.host = uri.host ∧ ctx.port = uri.port
  executed : ∀ ex ∈ net.executed.drop n, mine ex.conn → command ex.request → ex.db.getD 0 = uri.db

/-- A command of a client's `execute`. -/
def Called (request : Request) : Prop := ∃ call cmd, request = .command call cmd

/-- A command of the owner of one connection. -/
def Asked (request : Request) : Prop := ∃ cmd, request = .ask cmd

/-- What the owner of a connection does, and the server on any. -/
inductive Talk
  | send (cmd : RedisCmd) (fail : Option Str)
  | receive (fail : Option Str)
  | serve (conn : ConnId) (r : RedisReply) (switched : Bool)

/-- The two halves of `send_command` on the connection `c`, and the server. -/
def talk (c : ConnId) (net : Net) : Talk → Option Net
  | .send cmd fail =>
    match net.contexts[c]? with
    | none => none
    | some ctx => some (net.put c (ctx.write (.ask cmd) fail).2)
  | .receive fail =>
    match net.contexts[c]? with
    | none => none
    | some ctx =>
      match ctx.read fail with
      | none => none
      | some (_, ctx') => some (net.put c ctx')
  | .serve conn r switched => net.serve conn r switched

/-- The connection that the object's current context stands for. `db_` is kept for
    `reconnect`, and nothing is sent. -/
def dial (w : AsyncConnections.World) (net : Net) : Option Net :=
  match w.current with
  | none => none
  | some (_, ctx) => some (net.redisConnect ctx.host ctx.port)

/-- What is sent after a `connect(url)` of each class arrives. A client's pool is new, and
    so are the connections that its threads are lent. -/
structure Agreed (url : Str) (uri : URI) : Prop where
  client : ∀ env cl cl', (∀ j, Honest (env.openings j)) →
    Outcomes.afterwards (Outcomes.connect_url env url cl) = some cl' →
    ∃ id cell, Owns cl' id cell ∧ ∀ threads moves s, (∀ m ∈ moves, HonestMove m) →
      run Execute.step ⟨⟨cell.pool, cl'.net, 0, []⟩, List.replicate threads .idle⟩ moves = some s →
      (∀ l ∈ s.locals, ∀ c ∈ holds l, cl.net.contexts.length ≤ c) ∧
      Arrives uri (cl.net.contexts.length ≤ ·) Called cl'.net.executed.length s.shared.net
  connection : ∀ accepted net c net', connection_connect_url accepted url net = (.ok (some c), net') →
    ∀ acts later, run (talk c) net' acts = some later → Arrives uri (· = c) Asked net'.executed.length later
  async : ∀ err w w' net, async_connect_url err url w = (.ok 0, w') → ∃ net', dial w' net = some net' ∧
    ∀ acts later, run (talk net.contexts.length) net' acts = some later →
      Arrives uri (· = net.contexts.length) Asked net'.executed.length later

/-- The entry points agree on the URL, if it is accepted. -/
def Agree (url : Str) : Prop := ∀ uri, parsed url = .ok (some uri) → Agreed url uri

/-! ### The network since a connect -/

/-- What stands in the place of a context that is older. -/
def blank : Context := ⟨[], 0, none, [], [], none, false⟩

/-- The network from the context `base` on, and what was carried out on it after the
    first `n`. -/
def recent (base n : Nat) (net : Net) : Net :=
  ⟨List.replicate base blank ++ net.contexts.drop base, (net.executed.drop n).filter fun ex => base ≤ ex.conn⟩

section
variable {base n : Nat} {net : Net}

theorem recent_length (grows : base ≤ net.contexts.length) :
    (recent base n net).contexts.length = net.contexts.length := by
  simp only [recent, List.length_append, List.length_replicate, List.length_drop]
  omega

theorem recent_at {c : ConnId} (new : base ≤ c) : (recent base n net).contexts[c]? = net.contexts[c]? := by
  have beyond : (List.replicate base blank).length ≤ c := by simpa using new
  simp only [recent]
  rw [List.getElem?_append_right beyond, List.length_replicate, List.getElem?_drop, Nat.add_sub_cancel' new]

theorem recent_put {c : ConnId} (new : base ≤ c) (ctx : Context) :
    recent base n (net.put c ctx) = (recent base n net).put c ctx := by
  have beyond : (List.replicate base blank).length ≤ c := by simpa using new
  simp only [recent, Net.put]
  rw [List.set_append_right _ _ beyond, List.length_replicate, List.drop_set, if_neg (by omega)]

theorem recent_put_old {c : ConnId} (old : c < base) (ctx : Context) : recent base n (net.put c ctx) = recent base n net := by
  simp only [recent, Net.put, List.drop_set_of_lt old]

theorem recent_grown (grows : base ≤ net.contexts.length) (ctx : Context) :
    recent base n (grown net ctx) = grown (recent base n net) ctx := by
  simp only [recent, grown, List.drop_append_of_le_length grows, List.append_assoc]

end

/-- A pool that has opened nothing older does the same on the recent network. -/
private theorem moves_recent {base n : Nat} {g g' : Shared} {l l' : Stage} {act : Act} (moves : Moves g l act g' l')
    (grows : base ≤ g.net.contexts.length) (new : ∀ c ∈ holds l, base ≤ c) :
    Moves { g with net := recent base n g.net } l act { g' with net := recent base n g'.net } l' := by
  cases moves with
  | lent queue => exact .lent queue
  | exhausted empty why => exact .exhausted empty why
  | thrown empty room rejected e =>
    simp only [recent_grown grows]
    exact .thrown (g := { g with net := recent base n g.net }) empty room rejected e
  | @opened cmd o empty room opens =>
    simp only [recent_grown grows]
    have opened : Moves { g with net := recent base n g.net } .idle (.acquire cmd o) _ _ := .opened empty room opens
    simp only [recent_length grows] at opened
    exact opened
  | unavailable => exact .unavailable
  | @sent call cmd c ctx at_c live =>
    have new_c := new c (Multiset.mem_singleton_self c)
    simp only [recent_put new_c]
    exact .sent ((recent_at new_c).trans at_c) live
  | @unsent call cmd c ctx fail errstr at_c why =>
    have new_c := new c (Multiset.mem_singleton_self c)
    simp only [recent_put new_c]
    exact .unsent ((recent_at new_c).trans at_c) why
  | @received call cmd c ctx a rest at_c live next =>
    have new_c := new c (Multiset.mem_singleton_self c)
    simp only [recent_put new_c]
    exact .received ((recent_at new_c).trans at_c) live next
  | @unanswered call cmd c ctx fail errstr at_c why =>
    have new_c := new c (Multiset.mem_singleton_self c)
    simp only [recent_put new_c]
    exact .unanswered ((recent_at new_c).trans at_c) why
  | released => exact .released

/-- A request carried out on an older connection is none of the recent network's. -/
private theorem served_old {base n : Nat} {g g' : Shared} {e : Serving} (served : serving g e = some g')
    (since : n ≤ g.net.executed.length) (old : e.conn < base) : recent base n g'.net = recent base n g.net := by
  obtain ⟨ctx, request, rest, _, _, rfl⟩ := serving_cases served
  have same : recent base n (g.net.put e.conn { ctx with
      toServer := rest
      toClient := ctx.toClient ++ [⟨request, e.reply⟩]
      selected := ctx.selectedBy request e.switched }) = recent base n g.net := recent_put_old old _
  simp only [recent, Net.put, Net.mk.injEq] at same
  simp only [recent, Net.put, same.1, List.drop_append_of_le_length since, List.filter_append]
  simp [old]

private theorem served_recent {base n : Nat} {g g' : Shared} {e : Serving} (served : serving g e = some g')
    (since : n ≤ g.net.executed.length) (new : base ≤ e.conn) :
    serving { g with net := recent base n g.net } e = some { g' with net := recent base n g'.net } := by
  obtain ⟨ctx, request, rest, at_c, pending, rfl⟩ := serving_cases served
  simp only [serving, Net.serve, recent_at new, at_c, Context.serve, pending, ← recent_put new]
  simp [recent, Net.put, List.drop_append_of_le_length since, new]

/-! ### A client -/

/-- The pool and the contexts that are not older are at the URL's address, and in its
    database as far as `Selected` says. -/
structure Placed (uri : URI) (base n : Nat) (p : ConnectionPool) (net : Net) : Prop where
  selected : Selected uri.db p (recent base n net)
  address : p.host_ = uri.host ∧ p.port_ = uri.port
  new : ∀ c ∈ p.opened, base ≤ c
  grows : base ≤ net.contexts.length
  target : ∀ c ctx, base ≤ c → net.contexts[c]? = some ctx → ctx.host = uri.host ∧ ctx.port = uri.port
  since : n ≤ net.executed.length

/-- A context keeps its address, and a new one has that of the pool. -/
def Addressed (p : ConnectionPool) (net net' : Net) : Prop :=
  ∀ (c : ConnId) (ctx : Context), net'.contexts[c]? = some ctx →
    (∃ before : Context, net.contexts[c]? = some before ∧ ctx.host = before.host ∧ ctx.port = before.port) ∨
    (ctx.host = p.host_ ∧ ctx.port = p.port_)

private theorem addressed_rfl (p : ConnectionPool) (net : Net) : Addressed p net net :=
  fun _ ctx at_c => .inl ⟨ctx, at_c, rfl, rfl⟩

private theorem addressed_put (p : ConnectionPool) {net net' : Net} {c : ConnId} {ctx new : Context}
    (at_c : net.contexts[c]? = some ctx) (put : net'.contexts = (net.put c new).contexts) (host : new.host = ctx.host)
    (port : new.port = ctx.port) : Addressed p net net' := by
  intro d found at_d
  rw [put] at at_d
  by_cases same : d = c
  · subst same
    rw [Net.put_self at_c, Option.some.injEq] at at_d
    exact .inl ⟨ctx, at_c, at_d ▸ host, at_d ▸ port⟩
  · rw [Net.put_other _ same] at at_d
    exact .inl ⟨found, at_d, rfl, rfl⟩

private theorem addressed_grown (p : ConnectionPool) (net : Net) (x : Exchange) :
    Addressed p net (grown net (newContext p x)) := by
  intro c ctx at_c
  have inside := (List.getElem?_eq_some_iff.mp at_c).1
  rw [grown_length] at inside
  by_cases before : c < net.contexts.length
  · rw [grown_old _ _ before] at at_c
    exact .inl ⟨ctx, at_c, rfl, rfl⟩
  · obtain rfl : c = net.contexts.length := Nat.le_antisymm (Nat.le_of_lt_succ inside) (Nat.le_of_not_lt before)
    rw [grown_new, Option.some.injEq] at at_c
    subst at_c
    cases x with
    | reply r switched => exact .inr ⟨rfl, rfl⟩
    | noReply errstr => exact .inr ⟨rfl, rfl⟩

/-- What a thread's move makes of the network, and what the pool has opened after it. -/
private theorem moves_addressed {g g' : Shared} {l l' : Stage} {act : Act} (moves : Moves g l act g' l') :
    Addressed g.pool g.net g'.net ∧ g.net.contexts.length ≤ g'.net.contexts.length ∧
      g'.net.executed = g.net.executed ∧ ∀ c ∈ g'.pool.opened, c ∈ g.pool.opened ∨ c = g.net.contexts.length := by
  cases moves with
  | lent queue => exact ⟨addressed_rfl _ _, le_rfl, rfl, fun c => .inl⟩
  | exhausted empty why => exact ⟨addressed_rfl _ _, le_rfl, rfl, fun c => .inl⟩
  | thrown empty room rejected e => exact ⟨addressed_grown _ _ _, by simp, rfl, fun c => .inl⟩
  | opened empty room opens =>
    refine ⟨addressed_grown _ _ _, by simp, rfl, ?_⟩
    intro c member
    exact (List.mem_append.mp member).imp_right List.mem_singleton.mp
  | unavailable => exact ⟨addressed_rfl _ _, le_rfl, rfl, fun c => .inl⟩
  | sent at_c live => exact ⟨addressed_put _ at_c rfl rfl rfl, by simp, rfl, fun c => .inl⟩
  | unsent at_c why => exact ⟨addressed_put _ at_c rfl rfl rfl, by simp, rfl, fun c => .inl⟩
  | received at_c live next => exact ⟨addressed_put _ at_c rfl rfl rfl, by simp, rfl, fun c => .inl⟩
  | unanswered at_c why => exact ⟨addressed_put _ at_c rfl rfl rfl, by simp, rfl, fun c => .inl⟩
  | released => exact ⟨addressed_rfl _ _, le_rfl, rfl, fun c => .inl⟩

section
variable {uri : URI} {base n : Nat} {p : ConnectionPool} {net : Net}

private theorem Placed.target_of (placed : Placed uri base n p net) {net' : Net} (addressed : Addressed p net net') :
    ∀ c ctx, base ≤ c → net'.contexts[c]? = some ctx → ctx.host = uri.host ∧ ctx.port = uri.port := by
  intro c ctx new at_c
  rcases addressed c ctx at_c with ⟨before, was, host, port⟩ | ⟨host, port⟩
  · have there := placed.target c before new was
    exact ⟨host.trans there.1, port.trans there.2⟩
  · exact ⟨host.trans placed.address.1, port.trans placed.address.2⟩

/-- A pool that is filled after the context `base`. -/
private theorem initialize_placed {openings : Nat → Opening} (honest : ∀ j, Honest (openings j)) (uri : URI) (net : Net) :
    let out := (initialize_pool openings (fresh uri.host uri.port uri.db default_size default_max_size) net).2
    Placed uri net.contexts.length net.executed.length out.1 out.2 ∧ out.2.executed = net.executed := by
  refine initialize_invariant openings
    (fun p net' => Placed uri net.contexts.length net.executed.length p net' ∧ net'.executed = net.executed) ?_ ?_ ?_
  · rintro j p net' ⟨placed, same⟩ _
    have grows := (recent_grown (n := net.executed.length) placed.grows (newContext p (openings j).select)).symm
    refine ⟨⟨grows ▸ placed.selected.grown _, placed.address, placed.new, ?_,
      placed.target_of (addressed_grown p net' _), placed.since⟩, same⟩
    rw [grown_length]
    exact placed.grows.trans (Nat.le_succ _)
  · rintro j p net' ⟨placed, same⟩ opens
    have grows := (recent_grown (n := net.executed.length) placed.grows (newContext p (openings j).select)).symm
    have last : (p.push net'.contexts.length).opened =
        p.opened ++ [(recent net.contexts.length net.executed.length net').contexts.length] := by
      rw [recent_length placed.grows]
      rfl
    refine ⟨⟨grows ▸ placed.selected.opened (honest j) opens rfl last, placed.address, ?_, ?_,
      placed.target_of (addressed_grown p net' _), placed.since⟩, same⟩
    · intro c member
      rcases List.mem_append.mp member with before | new
      · exact placed.new c before
      · exact List.mem_singleton.mp new ▸ placed.grows
    · rw [grown_length]
      exact placed.grows.trans (Nat.le_succ _)
  · refine ⟨⟨⟨rfl, by simp [fresh], by simp [fresh], ?_, ?_⟩, ⟨rfl, rfl⟩, by simp [fresh], le_rfl, ?_, le_rfl⟩, rfl⟩
    · intro ctx member request pending
      simp only [recent, List.drop_length, List.append_nil] at member
      rw [List.eq_of_mem_replicate member] at pending
      cases pending
    · simp [recent]
    · intro c ctx new at_c
      exact absurd (List.getElem?_eq_some_iff.mp at_c).1 (by omega)

end

private theorem step_placed {uri : URI} {base n : Nat} {s s' : System} {m : Move Act Serving} {L : Ledger ConnId}
    (keeps : Keeps s L) (placed : Placed uri base n s.shared.pool s.shared.net) (honest : HonestMove m)
    (taken : Execute.step s m = some s') : Placed uri base n s'.shared.pool s'.shared.net := by
  rcases step_cases taken with ⟨i, act, l, l', rfl, at_i, moved, _⟩ | ⟨e, rfl, served, _⟩
  · have moves := own_moves moved
    have pooled : ∀ c ∈ holds l, c ∈ s.shared.pool.opened := fun c mine => keeps.pooled at_i mine
    obtain ⟨addressed, grows, same, opened⟩ := moves_addressed moves
    have address := moves_address moves
    refine ⟨?_, ⟨address.1.trans placed.address.1, address.2.trans placed.address.2⟩, ?_,
      placed.grows.trans grows, placed.target_of addressed, same ▸ placed.since⟩
    · exact moves_selected (moves_recent moves placed.grows fun c mine => placed.new c (pooled c mine)) placed.selected
        pooled fun cmd o is => by subst is; exact honest
    · intro c member
      rcases opened c member with before | rfl
      · exact placed.new c before
      · exact placed.grows
  · have pool := (serving_keeps served).1
    obtain ⟨ctx, request, rest, at_c, pending, is⟩ := serving_cases served
    have addressed : Addressed s.shared.pool s.shared.net s'.shared.net := by
      rw [is]
      exact addressed_put _ at_c rfl rfl rfl
    have selected : Selected uri.db s'.shared.pool (recent base n s'.shared.net) := by
      by_cases old : e.conn < base
      · rw [pool, served_old served placed.since old]
        exact placed.selected
      · exact serving_selected (served_recent served placed.since (Nat.le_of_not_lt old)) placed.selected
    refine ⟨selected, pool ▸ placed.address, pool ▸ placed.new, ?_, placed.target_of addressed, ?_⟩
    · rw [is]
      exact placed.grows.trans (by simp)
    · rw [is]
      exact placed.since.trans (by simp)

private theorem Placed.arrives {uri : URI} {base n : Nat} {p : ConnectionPool} {net : Net}
    (placed : Placed uri base n p net) : Arrives uri (base ≤ ·) Called n net := by
  refine ⟨placed.target, ?_⟩
  intro ex member new called
  obtain ⟨call, cmd, is⟩ := called
  have kept : ex ∈ (recent base n net).executed := List.mem_filter.mpr ⟨member, by simpa using new⟩
  rw [placed.selected.executed ex kept call cmd is]
  rfl

/-- What is sent after `Client::connect(url)` arrives, whatever the connect returns. -/
private theorem client_arrives {url : Str} {uri : URI} (accepted : parsed url = .ok (some uri)) (env : Connecting)
    (cl cl' : Client) (honest : ∀ j, Honest (env.openings j))
    (after : Outcomes.afterwards (Outcomes.connect_url env url cl) = some cl') :
    ∃ id cell, Owns cl' id cell ∧ ∀ threads moves s, (∀ m ∈ moves, HonestMove m) →
      run Execute.step ⟨⟨cell.pool, cl'.net, 0, []⟩, List.replicate threads .idle⟩ moves = some s →
      (∀ l ∈ s.locals, ∀ c ∈ holds l, cl.net.contexts.length ≤ c) ∧
      Arrives uri (cl.net.contexts.length ≤ ·) Called cl'.net.executed.length s.shared.net := by
  simp only [Outcomes.connect_url, accepted] at after
  obtain ⟨rfl, goes⟩ := Outcomes.afterwards_some after
  obtain ⟨mid, deleted⟩ := Outcomes.connect_deletes goes
  obtain ⟨length, contexts⟩ := delete_pool_old deleted
  obtain ⟨placed, same⟩ := initialize_placed honest uri mid.net
  have owned : Owned (cl.connect env uri.host uri.port uri.db).2 := (connect_owned deleted).1
  obtain ⟨id, cell, owns⟩ := owned
  cases filled : initialize_pool env.openings (fresh uri.host uri.port uri.db default_size default_max_size) mid.net with
  | mk result rest =>
    rw [filled] at placed same
    rw [connect_deleted deleted filled] at owns ⊢
    obtain rfl : cl.pools.length = id := Option.some.inj owns.current
    have at_id := owns.at_id
    rw [← length, List.getElem?_concat_length, Option.some.injEq] at at_id
    subst at_id
    refine ⟨_, _, owns, ?_⟩
    intro threads moves s honestMoves runs
    obtain ⟨L, books⟩ := owns.books
    obtain ⟨⟨L', keeps⟩, placed'⟩ := run_kept_from _ HonestMove
      (fun _ _ _ _ keeps placed here taken => step_placed keeps placed here taken) runs honestMoves
      (keeps_idle books threads) placed
    rw [← contexts, same]
    refine ⟨?_, placed'.arrives⟩
    intro l member c mine
    obtain ⟨i, at_i⟩ := List.getElem?_of_mem member
    exact placed'.new c (keeps.pooled at_i mine)

/-! ### One connection -/

/-- The context at `c` is to the URL's address, has chosen no database and is sent commands
    only; nor was any request carried out on it in a chosen database. -/
structure Spoken (uri : URI) (c : ConnId) (n : Nat) (net : Net) : Prop where
  here : ∃ ctx, net.contexts[c]? = some ctx ∧ ctx.host = uri.host ∧ ctx.port = uri.port ∧ ctx.selected = none ∧
    ∀ request ∈ ctx.toServer, Asked request
  since : n ≤ net.executed.length
  executed : ∀ ex ∈ net.executed.drop n, ex.conn = c → ex.db = none

private theorem redisConnect_spoken (uri : URI) (net : Net) :
    Spoken uri net.contexts.length (net.redisConnect uri.host uri.port).executed.length
      (net.redisConnect uri.host uri.port) := by
  refine ⟨⟨_, Net.redisConnect_new net uri.host uri.port, rfl, rfl, rfl, fun request member => by cases member⟩, le_rfl, ?_⟩
  simp

private theorem Spoken.put {uri : URI} {c : ConnId} {n : Nat} {net : Net} (spoken : Spoken uri c n net) {ctx new : Context}
    (at_c : net.contexts[c]? = some ctx) (same : new.host = ctx.host ∧ new.port = ctx.port ∧ new.selected = ctx.selected)
    (sent : ∀ request ∈ new.toServer, request ∈ ctx.toServer ∨ Asked request) : Spoken uri c n (net.put c new) := by
  obtain ⟨found, at_c', host, port, selected, asked⟩ := spoken.here
  obtain rfl := Option.some.inj (at_c'.symm.trans at_c)
  refine ⟨⟨new, Net.put_self at_c new, same.1.trans host, same.2.1.trans port, same.2.2.trans selected,
    fun request member => (sent request member).elim (asked request) id⟩, spoken.since, spoken.executed⟩

private theorem Spoken.put_other {uri : URI} {c : ConnId} {n : Nat} {net : Net} (spoken : Spoken uri c n net) {conn : ConnId}
    (other : c ≠ conn) (new : Context) : Spoken uri c n (net.put conn new) := by
  obtain ⟨ctx, at_c, is⟩ := spoken.here
  exact ⟨⟨ctx, (Net.put_other net other new).trans at_c, is⟩, spoken.since, spoken.executed⟩

private theorem write_keeps (request : Request) (fail : Option Str) (ctx : Context) :
    let new := (ctx.write request fail).2
    (new.host = ctx.host ∧ new.port = ctx.port ∧ new.selected = ctx.selected) ∧
      ∀ r ∈ new.toServer, r ∈ ctx.toServer ∨ r = request := by
  obtain ⟨host, port, err, toServer, toClient, selected, freed⟩ := ctx
  cases err with
  | some errstr => exact ⟨⟨rfl, rfl, rfl⟩, fun r => .inl⟩
  | none =>
    cases fail with
    | some errstr => exact ⟨⟨rfl, rfl, rfl⟩, fun r => .inl⟩
    | none => exact ⟨⟨rfl, rfl, rfl⟩, fun r member => (List.mem_append.mp member).imp_right List.mem_singleton.mp⟩

private theorem read_keeps {fail : Option Str} {ctx new : Context} {out : Except Str Answer}
    (read : ctx.read fail = some (out, new)) :
    (new.host = ctx.host ∧ new.port = ctx.port ∧ new.selected = ctx.selected) ∧ new.toServer = ctx.toServer := by
  obtain ⟨host, port, err, toServer, toClient, selected, freed⟩ := ctx
  cases err with
  | some errstr =>
    cases read
    exact ⟨⟨rfl, rfl, rfl⟩, rfl⟩
  | none =>
    cases fail with
    | some errstr =>
      cases read
      exact ⟨⟨rfl, rfl, rfl⟩, rfl⟩
    | none =>
      cases toClient with
      | nil => cases read
      | cons a rest =>
        cases read
        exact ⟨⟨rfl, rfl, rfl⟩, rfl⟩

private theorem serve_spoken {uri : URI} {c : ConnId} {n : Nat} {net net' : Net} (spoken : Spoken uri c n net)
    {conn : ConnId} {r : RedisReply} {switched : Bool} (served : net.serve conn r switched = some net') :
    Spoken uri c n net' := by
  obtain ⟨ctx, at_c, host, port, selected, asked⟩ := spoken.here
  simp only [Net.serve] at served
  cases at_conn : net.contexts[conn]? with
  | none => simp [at_conn] at served
  | some other =>
    cases pending : other.toServer with
    | nil => simp [at_conn, Context.serve, pending] at served
    | cons request rest =>
      simp only [at_conn, Context.serve, pending, Option.some.injEq] at served
      subst served
      have mine : c = conn → other = ctx := fun same => Option.some.inj (at_conn.symm.trans (same ▸ at_c))
      have put : Spoken uri c n (net.put conn { other with
          toServer := rest
          toClient := other.toClient ++ [⟨request, r⟩]
          selected := other.selectedBy request switched }) := by
        by_cases same : c = conn
        · subst same
          obtain rfl := mine rfl
          obtain ⟨cmd, rfl⟩ := asked request (pending ▸ List.mem_cons_self)
          -- a command chooses no database
          exact spoken.put at_c ⟨rfl, rfl, rfl⟩ fun later member => .inl (pending ▸ List.mem_cons_of_mem _ member)
        · exact spoken.put_other same _
      refine ⟨put.here, put.since.trans (by simp [Net.put]), ?_⟩
      intro ex member at_ex
      have member' : ex ∈ net.executed.drop n ++ [⟨conn, request, other.selected⟩] := by
        rwa [← List.drop_append_of_le_length spoken.since]
      rcases List.mem_append.mp member' with before | new
      · exact spoken.executed ex before at_ex
      · obtain rfl := List.mem_singleton.mp new
        obtain rfl := mine at_ex.symm
        exact selected

private theorem talk_spoken {uri : URI} {c : ConnId} {n : Nat} {net net' : Net} {act : Talk} (spoken : Spoken uri c n net)
    (taken : talk c net act = some net') : Spoken uri c n net' := by
  obtain ⟨ctx, at_c, -⟩ := spoken.here
  cases act with
  | send cmd fail =>
    simp only [talk, at_c, Option.some.injEq] at taken
    obtain ⟨same, sent⟩ := write_keeps (.ask cmd) fail ctx
    exact taken ▸ spoken.put at_c same fun request member => (sent request member).imp_right fun is => ⟨cmd, is⟩
  | receive fail =>
    simp only [talk, at_c] at taken
    cases read : ctx.read fail with
    | none => simp [read] at taken
    | some out =>
      simp only [read, Option.some.injEq] at taken
      obtain ⟨same, sent⟩ := read_keeps read
      exact taken ▸ spoken.put at_c same fun request member => .inl (sent ▸ member)
  | serve conn r switched => exact serve_spoken spoken taken

/-- On a connection without a SELECT, commands arrive where the URL's database is 0. -/
private theorem talk_arrives {uri : URI} (zero : uri.db = 0) (net : Net) {acts : List Talk} {later : Net}
    (runs : run (talk net.contexts.length) (net.redisConnect uri.host uri.port) acts = some later) :
    Arrives uri (· = net.contexts.length) Asked (net.redisConnect uri.host uri.port).executed.length later := by
  have spoken := run_invariant (Spoken uri net.contexts.length (net.redisConnect uri.host uri.port).executed.length)
    (fun _ _ _ spoken taken => talk_spoken spoken taken) runs (redisConnect_spoken uri net)
  refine ⟨?_, ?_⟩
  · rintro c ctx rfl at_c
    obtain ⟨found, at_c', host, port, -⟩ := spoken.here
    obtain rfl := Option.some.inj (at_c'.symm.trans at_c)
    exact ⟨host, port⟩
  · intro ex member mine _
    rw [spoken.executed ex member mine, zero]
    rfl

/-! ### The entry points -/

private theorem dial_connect (w : AsyncConnections.World) (net : Net) (host : Str) (port db : Int) :
    dial (w.connect host port db false) net = some (net.redisConnect host port) := by
  simp [dial, AsyncConnections.World.current, AsyncConnections.World.connect]

/-- The command is sent, and the server carries it out. -/
def ping : List Talk := [.send [lit "PING"] none, .serve 0 (.status (lit "PONG")) false]

/-- A plain connection shows the database that it is in. -/
private theorem agreed_zero {url : Str} {uri : URI} (accepted : parsed url = .ok (some uri)) (agreed : Agreed url uri) :
    uri.db = 0 := by
  have opened : connection_connect_url true url {} = (.ok (some 0), ({} : Net).redisConnect uri.host uri.port) := by
    simp only [connection_connect_url, accepted]
    rfl
  have arrives := agreed.connection true {} 0 _ opened ping _ rfl
  exact (arrives.executed ⟨0, .ask [lit "PING"], none⟩ (List.mem_singleton.mpr rfl) rfl ⟨_, rfl⟩).symm

/-- The entry points agree on a URL exactly if its database is 0, in case it is accepted. -/
theorem entry_points_agree_iff (url : Str) : Agree url ↔ ∀ uri, parsed url = .ok (some uri) → uri.db = 0 := by
  apply forall_congr'
  intro uri
  apply imp_congr_right
  intro accepted
  constructor
  · exact agreed_zero accepted
  · intro zero
    refine ⟨client_arrives accepted, ?_, ?_⟩
    · intro accept net c net' done acts later runs
      simp only [connection_connect_url, accepted, Connection.connect] at done
      cases accept with
      | false => cases done
      | true =>
        cases done
        exact talk_arrives zero net runs
    · intro err w w' net done
      simp only [async_connect_url, accepted] at done
      cases err with
      | true => cases done
      | false =>
        cases done
        exact ⟨_, dial_connect w net uri.host uri.port 0, fun acts later runs => talk_arrives zero net runs⟩

/-- The client's commands go to database 5, those of a plain connection to database 0. -/
theorem database_left_out : ¬ ∀ url, Agree url := by
  intro all
  have accepted : parsed (lit "redis://h:1/5") = .ok (some ⟨[], lit "h", 1, 5⟩) := by decide
  exact absurd (agreed_zero accepted (all (lit "redis://h:1/5") _ accepted)) (by decide)

end CppRedis.EntryPoints

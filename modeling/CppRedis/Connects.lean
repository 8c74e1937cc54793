import CppRedis.Outcomes

/-!
What `connect` returns and what it leaves of the client. A URL that is not accepted
leaves the client alone; every other connect deletes the old pool first, so that one
that fails leaves the new pool, with what was opened until then (`failed_connect`).
The overload for sentinels returns 1 for success and 0 for failure
(`one_meaning_iff`).
-/
namespace CppRedis.Connects
open CppRedis.Strings CppRedis.Reply CppRedis.Uri CppRedis.Connection CppRedis.Pool CppRedis.Clients CppRedis.Sentinels
open CppRedis.Outcomes CppRedis.Runs
open ConnectionPool

/-! ### Closing and filling -/

def Freed (net : Net) (c : ConnId) : Prop := ∃ ctx, net.contexts[c]? = some ctx ∧ ctx.freed = true

private theorem delete_connection_freed {conn : Option ConnId} {x : Exchange} {net net' : Net}
    (done : delete_connection conn x net = .ok net') :
    (∀ c, Freed net c → Freed net' c) ∧ ∀ c, conn = some c → Freed net' c := by
  obtain ⟨_, others⟩ := delete_connection_old done
  have closes : ∀ c, conn = some c → Freed net' c := by
    rintro c rfl
    simp only [delete_connection] at done
    cases at_c : net.contexts[c]? with
    | none => simp [at_c] at done
    | some ctx =>
      cases closed : quit x ctx with
      | mk result ctx' =>
        cases result with
        | error e => simp [at_c, disconnect, closed] at done
        | ok _ =>
          simp only [at_c, disconnect, closed, Except.ok.injEq] at done
          exact done ▸ ⟨_, Net.put_self at_c _, rfl⟩
  refine ⟨?_, closes⟩
  intro c freed
  by_cases here : conn = some c
  · exact closes c here
  · obtain ⟨ctx, at_c, is⟩ := freed
    exact ⟨ctx, (others c here).trans at_c, is⟩

/-- The connections of a deleted queue are closed. -/
theorem delete_queue_freed {quits : Nat → Exchange} {queue : List (Option ConnId)} {i : Nat} {net net' : Net}
    (done : delete_queue quits queue i net = .ok net') :
    (∀ c, Freed net c → Freed net' c) ∧ ∀ c, some c ∈ queue → Freed net' c := by
  induction queue generalizing i net with
  | nil =>
    cases done
    exact ⟨fun _ freed => freed, fun c member => by cases member⟩
  | cons conn rest ih =>
    simp only [delete_queue] at done
    cases deleted : delete_connection conn (quits i) net with
    | error fault => simp [deleted] at done
    | ok mid =>
      rw [deleted] at done
      obtain ⟨first, here⟩ := delete_connection_freed deleted
      obtain ⟨later, others⟩ := ih done
      refine ⟨fun c freed => later c (first c freed), ?_⟩
      intro c member
      rcases List.mem_cons.mp member with same | member
      · exact later c (here c same.symm)
      · exact others c member

/-- What `initialize` makes of a new pool: its queue holds the connections that it has
    opened, in order, all of them new. -/
structure Filled (start : ConnectionPool) (net : Net) (p : ConnectionPool) (net' : Net) : Prop where
  target : p.host_ = start.host_ ∧ p.port_ = start.port_ ∧ p.db_ = start.db_
  queue : p.connq_ = p.opened.map some
  opened : ∀ c ∈ p.opened, net.contexts.length ≤ c
  old : ∀ c < net.contexts.length, net'.contexts[c]? = net.contexts[c]?
  grows : net.contexts.length ≤ net'.contexts.length

private theorem initialize_fills (openings : Nat → Opening) {start : ConnectionPool} (empty : start.connq_ = [])
    (unopened : start.opened = []) (net : Net) :
    Filled start net (initialize_pool openings start net).2.1 (initialize_pool openings start net).2.2 := by
  refine initialize_invariant openings (Filled start net) ?_ ?_ ?_
  · intro j p net' filled _
    refine ⟨filled.target, filled.queue, filled.opened, ?_, ?_⟩
    · intro c lt
      rw [grown_old net' _ (lt.trans_le filled.grows)]
      exact filled.old c lt
    · rw [grown_length]
      exact filled.grows.trans (Nat.le_succ _)
  · intro j p net' filled _
    refine ⟨filled.target, ?_, ?_, ?_, ?_⟩
    · simp [push, filled.queue]
    · intro c member
      rcases List.mem_append.mp member with before | new
      · exact filled.opened c before
      · exact List.mem_singleton.mp new ▸ filled.grows
    · intro c lt
      rw [grown_old net' _ (lt.trans_le filled.grows)]
      exact filled.old c lt
    · rw [grown_length]
      exact filled.grows.trans (Nat.le_succ _)
  · refine ⟨⟨rfl, rfl, rfl⟩, by rw [empty, unopened, List.map_nil], ?_, fun _ _ => rfl, le_rfl⟩
    intro c member
    rw [unopened] at member
    cases member

/-! ### A connect that fails -/

/-- The call does not succeed: it returns -1, or an exception leaves it. -/
def Failed (out : Except Fault Int × Client) : Prop := out.1 = .ok (-1) ∨ ∃ e, out.1 = .error (.thrown e)

/-- Commands are served by the client's pool, whatever they meet: it stays the client's,
    and a command gets its reply where the connection that is lent can be used. -/
structure Serves (cl : Client) : Prop where
  stays : ∀ a cmd, Owned (execute a cmd cl).2 ∧ (execute a cmd cl).2.pool_ = cl.pool_
  ends : ∀ a cmd, Ends a cmd (Lends a.opening cl) (Usable a.opening cl) (execute a cmd cl).1

/-- The old pool is deleted, its idle connections are closed, and the client has a new pool
    for the address. Idle in it are the connections opened before the attempt that failed. -/
structure Replaced (env : Connecting) (host : Str) (port db : Int) (cl cl' : Client) : Prop where
  current : cl'.pool_ = some cl.pools.length
  deleted : ∀ id cell, Owns cl id cell → cl'.pools[id]? = some ⟨{ cell.pool with connq_ := [] }, true⟩
  closed : ∀ id cell, Owns cl id cell → ∀ c, some c ∈ cell.pool.connq_ → Freed cl'.net c
  pool : ∃ p, cl'.pools[cl.pools.length]? = some ⟨p, false⟩ ∧ (p.host_ = host ∧ p.port_ = port ∧ p.db_ = db) ∧
    p.connq_ = p.opened.map some ∧ (∀ c ∈ p.opened, cl.net.contexts.length ≤ c) ∧
    p.opened.length < default_size.toNat ∧ (∀ j < p.opened.length, (env.openings j).Opens) ∧
    ¬ (env.openings p.opened.length).Opens
  serves : Serves cl'

private theorem execute_pool (a : Attempt) (cmd : RedisCmd) (cl : Client) : (execute a cmd cl).2.pool_ = cl.pool_ := by
  unfold execute
  cases current : cl.pool_ with
  | none => exact current
  | some id =>
    simp only
    split
    · exact current
    · split
      · exact current
      · split
        · rfl
        · rfl

private theorem owned_serves {cl : Client} (owned : Owned cl) : Serves cl :=
  ⟨fun a cmd => ⟨(execute_ends a cmd owned).1, execute_pool a cmd cl⟩, fun a cmd => (execute_ends a cmd owned).2⟩

/-- A connect that fails did not fail in closing the old connections. -/
private theorem Failed.deleted {env : Connecting} {host : Str} {port db : Int} {cl : Client}
    (failed : Failed (cl.connect env host port db)) : ∃ mid, cl.delete_pool env.quits = .ok mid := by
  apply connect_deletes
  intro fault is
  rcases failed with returned | ⟨e, thrown⟩
  · cases is.symm.trans returned
  · exact ⟨e, Except.error.inj (is.symm.trans thrown)⟩

/-- The attempts of `initialize` where it does not return 0. -/
private theorem initialize_stops {openings : Nat → Opening} {p : ConnectionPool} {net : Net} (empty : p.opened = [])
    (stopped : (initialize_pool openings p net).1 ≠ .ok 0) :
    (initialize_pool openings p net).2.1.opened.length < p.size_.toNat ∧
      (∀ j < (initialize_pool openings p net).2.1.opened.length, (openings j).Opens) ∧
      ¬ (openings (initialize_pool openings p net).2.1.opened.length).Opens := by
  obtain ⟨k, done⟩ := initialize_counts openings p net
  have opened : (initialize_pool openings p net).2.1.opened.length = k := by
    rw [done.opened, empty, List.length_nil, Nat.zero_add]
  have opens : ∀ j < k, (openings j).Opens := fun j lt => by simpa using done.opens j lt
  have ending := done.ending
  rw [Nat.zero_add] at ending
  rw [opened]
  rcases ending with ⟨_, returned, _⟩ | ⟨lt, refused, _⟩ | ⟨lt, rejected, _⟩
  · exact absurd returned stopped
  · exact ⟨lt, opens, fun opens => absurd opens.1 (by simp [refused])⟩
  · exact ⟨lt, opens, fun opens => opens.2 rejected⟩

private theorem connect_replaces {env : Connecting} {host : Str} {port db : Int} {cl : Client} (owned : Owned cl)
    (failed : Failed (cl.connect env host port db)) : Replaced env host port db cl (cl.connect env host port db).2 := by
  obtain ⟨mid, deleted⟩ := failed.deleted
  have owned' : Owned (cl.connect env host port db).2 := (connect_owned deleted).1
  obtain ⟨id, cell, owns⟩ := owned
  have only : ∀ id' cell', Owns cl id' cell' → id = id' ∧ cell = cell' := by
    intro id' cell' other
    obtain rfl := Option.some.inj (owns.current.symm.trans other.current)
    exact ⟨rfl, Option.some.inj (owns.at_id.symm.trans other.at_id)⟩
  have inside : id < cl.pools.length := (List.getElem?_eq_some_iff.mp owns.at_id).1
  cases closes : delete_queue env.quits cell.pool.connq_ 0 cl.net with
  | error fault => simp [Client.delete_pool, owns.current, owns.at_id, owns.alive, closes] at deleted
  | ok net =>
    have length := delete_queue_old closes
    let start := fresh host port db default_size default_max_size
    have filled : Filled start net (initialize_pool env.openings start net).2.1 (initialize_pool env.openings start net).2.2 :=
      initialize_fills env.openings rfl rfl net
    have stops : (initialize_pool env.openings start net).1 ≠ .ok 0 → _ := initialize_stops rfl
    cases filled_is : initialize_pool env.openings start net with
    | mk result rest =>
      obtain ⟨p, net'⟩ := rest
      have out := owns.connect_eq closes filled_is
      rw [filled_is] at filled stops
      have stopped : result ≠ .ok 0 := by
        rintro rfl
        rcases failed with returned | ⟨e, thrown⟩
        · rw [out] at returned
          cases returned
        · rw [out] at thrown
          cases thrown
      have old : ∀ c, Freed net c → Freed net' c := by
        rintro c ⟨ctx, at_c, is⟩
        exact ⟨ctx, (filled.old c (List.getElem?_eq_some_iff.mp at_c).1).trans at_c, is⟩
      have serves := owned_serves owned'
      rw [out] at serves ⊢
      refine ⟨rfl, ?_, ?_, ⟨p, ?_, filled.target, filled.queue, ?_, stops stopped⟩, serves⟩
      · intro id' cell' other
        obtain ⟨rfl, rfl⟩ := only id' cell' other
        exact (List.getElem?_append_left (by rwa [List.length_set])).trans (List.getElem?_set_self inside)
      · intro id' cell' other c member
        obtain ⟨rfl, rfl⟩ := only id' cell' other
        exact old c ((delete_queue_freed closes).2 c member)
      · simp
      · exact fun c member => length ▸ filled.opened c member

/-- A connect to a URL that is not accepted fails, and leaves the client alone. Every other
    connect that fails has deleted the old pool, and leaves the new one. -/
theorem failed_connect {cl : Client} (owned : Owned cl) :
    (∀ env url, (∀ uri, parsed url ≠ .ok (some uri)) →
      Failed (connect_url env url cl) ∧ (connect_url env url cl).2 = cl ∧ Serves cl) ∧
    (∀ env url uri, parsed url = .ok (some uri) → Failed (connect_url env url cl) →
      Replaced env uri.host uri.port uri.db cl (connect_url env url cl).2) ∧
    ∀ env host port db, Failed (cl.connect env host port db) →
      Replaced env host port db cl (cl.connect env host port db).2 := by
  refine ⟨?_, ?_, ?_⟩
  · intro env url refused
    unfold connect_url
    cases is : parsed url with
    | error e => exact ⟨.inr ⟨e, rfl⟩, rfl, owned_serves owned⟩
    | ok found =>
      cases found with
      | none => exact ⟨.inl rfl, rfl, owned_serves owned⟩
      | some uri => exact absurd is (refused uri)
  · intro env url uri accepted failed
    simp only [connect_url, accepted] at failed ⊢
    exact connect_replaces owned failed
  · intro env host port db failed
    exact connect_replaces owned failed

/-- QUIT is answered well, and every connection is refused. -/
def refusing : Connecting := ⟨fun _ => .reply (.status (lit "OK")) false, fun _ => ⟨false, .noReply []⟩⟩

/-- A client that has connected. -/
private def connected : Client := (({} : Client).connect accepting (lit "h") 6379 0).2

private theorem connected_owned : Owned connected := by
  have deleted : ({} : Client).delete_pool accepting.quits = .ok {} := rfl
  exact (connect_owned deleted).1

theorem failed_connect_refused : Replaced refusing (lit "g") 6379 0 connected (connected.connect refusing (lit "g") 6379 0).2 :=
  (failed_connect connected_owned).2.2 refusing (lit "g") 6379 0 (.inl rfl)

/-- The connect is refused at the first connection, and the old pool is gone. -/
theorem refused_connect_replaces :
    ¬ ∀ cl env host port db, Owned cl → Failed (cl.connect env host port db) →
      (cl.connect env host port db).2.pool_ = cl.pool_ := by
  intro all
  have same := all connected refusing (lit "g") 6379 0 connected_owned (.inl rfl)
  have new : (connected.connect refusing (lit "g") 6379 0).2.pool_ = some 1 := rfl
  rw [new] at same
  exact absurd same (by decide)

/-! ### The value that `connect` returns -/

/-- A call of one of the three overloads. -/
inductive Overload
  | address (env : Connecting) (host : Str) (port db : Int)
  | url (env : Connecting) (text : Str)
  | sentinels (t : Tick) (sentinel_urls : List Str) (master_name : Str) (db : Int)

def Overload.connect (cl : Client) : Overload → Except Fault Int × Client
  | .address env host port db => cl.connect env host port db
  | .url env text => connect_url env text cl
  | .sentinels t sentinel_urls master_name db => connect_sentinels t sentinel_urls master_name db cl

/-- The client has a pool whose `initialize` opened all its initial connections: each
    connection that `acquire` opens later is counted by `size_`, so that none is missing. -/
def Complete (cl : Client) : Prop :=
  ∃ id p, cl.pool_ = some id ∧ cl.pools[id]? = some ⟨p, false⟩ ∧ (p.opened.length : Int) = p.size_

private theorem complete_iff {cl : Client} {id : PoolId} {p : ConnectionPool} (current : cl.pool_ = some id)
    (at_id : cl.pools[id]? = some ⟨p, false⟩) : Complete cl ↔ (p.opened.length : Int) = p.size_ := by
  constructor
  · rintro ⟨id', p', current', at_id', all⟩
    obtain rfl := Option.some.inj (current.symm.trans current')
    cases at_id.symm.trans at_id'
    exact all
  · exact fun all => ⟨id, p, current, at_id, all⟩

private theorem acquire_missing (o : Opening) (p : ConnectionPool) (net : Net) :
    ((acquire o p net).2.1.opened.length : Int) = (acquire o p net).2.1.size_ ↔ (p.opened.length : Int) = p.size_ := by
  rcases acquire_cases o p net with ⟨_, _, _, done⟩ | ⟨_, _, done⟩ | ⟨_, _, _, _, done⟩ | ⟨_, _, _, done⟩
  · rw [done]
  · rw [done]
  · rw [done]
  · rw [done]
    simp

/-- A command leaves a complete pool complete, and an incomplete one incomplete. -/
theorem execute_complete (a : Attempt) (cmd : RedisCmd) (cl : Client) : Complete (execute a cmd cl).2 ↔ Complete cl := by
  cases current : cl.pool_ with
  | none => simp only [execute, current]
  | some id =>
    cases at_id : cl.pools[id]? with
    | none => simp only [execute, current, at_id]
    | some cell =>
      obtain ⟨p, deleted⟩ := cell
      cases deleted with
      | true => simp only [execute, current, at_id, ↓reduceIte]
      | false =>
        have inside : id < cl.pools.length := (List.getElem?_eq_some_iff.mp at_id).1
        have missing := acquire_missing a.opening p cl.net
        rw [complete_iff current at_id, ← missing]
        simp only [execute, current, at_id, Bool.false_eq_true, ↓reduceIte]
        cases acquire a.opening p cl.net with
        | mk result rest =>
          obtain ⟨p', net⟩ := rest
          cases result with
          | error e => exact complete_iff rfl (List.getElem?_set_self inside)
          | ok conn => exact complete_iff (p := release conn p') rfl (List.getElem?_set_self inside)

/-- The call, if it returns, returns 0 where the client then has such a pool, and a
    negative value everywhere else. -/
def OneMeaning (call : Overload) (cl : Client) : Prop :=
  ∀ n cl', call.connect cl = (.ok n, cl') → (n = 0 ↔ Complete cl') ∧ (n ≠ 0 → n < 0)

/-- No exception leaves the deletion of the old pool. -/
def Closing (quits : Nat → Exchange) (cl : Client) : Prop :=
  ∀ id cell, Owns cl id cell → Closes quits cell.pool.connq_ cl.net

/-- No attempt of the discovery fails to return, and no exception leaves the connect to the
    address that it finds. -/
structure Undisturbed (t : Tick) (sentinel_urls : List Str) (cl : Client) : Prop where
  sound : Sound sentinel_urls t.probes
  connects : ∀ url addr, First sentinel_urls t.probes url addr →
    Closing t.connecting.quits cl ∧ ¬ Throws t.connecting.openings default_size.toNat

/-- A URL that `parse` refuses meets a client without a complete pool. A call through
    sentinels does not return, or finds no master for a client that has a complete pool. -/
def Uniform (cl : Client) : Overload → Prop
  | .address .. => True
  | .url _ text => parsed text = .ok none → ¬ Complete cl
  | .sentinels t sentinel_urls _ _ => Undisturbed t sentinel_urls cl → Dark sentinel_urls t.probes ∧ Complete cl

private theorem connect_meaning {env : Connecting} {host : Str} {port db n : Int} {cl cl' : Client}
    (done : cl.connect env host port db = (.ok n, cl')) : (n = 0 ↔ Complete cl') ∧ (n ≠ 0 → n < 0) := by
  cases deleted : cl.delete_pool env.quits with
  | error fault => simp [Client.connect, deleted] at done
  | ok mid =>
    have length := (delete_pool_old deleted).1
    let start := fresh host port db default_size default_max_size
    obtain ⟨k, counts⟩ := initialize_counts env.openings start mid.net
    cases filled : initialize_pool env.openings start mid.net with
    | mk result rest =>
      obtain ⟨p, net⟩ := rest
      rw [connect_deleted deleted filled] at done
      rw [filled] at counts
      obtain ⟨returned, rfl⟩ := Prod.mk.inj done
      have opened : p.opened.length = 0 + k := counts.opened
      have size : p.size_ = default_size := counts.size
      have at_new : (mid.pools ++ [Cell.mk p false])[cl.pools.length]? = some ⟨p, false⟩ := by
        rw [← length, List.getElem?_concat_length]
      have complete : Complete { pool_ := some cl.pools.length, pools := mid.pools ++ [⟨p, false⟩], net := net } ↔
          k = default_size.toNat := by
        rw [complete_iff rfl at_new, opened, size]
        simp [default_size]
        omega
      rw [complete]
      rcases counts.ending with ⟨full, zero, _⟩ | ⟨few, _, negative, _⟩ | ⟨_, _, ⟨e, thrown⟩, _⟩
      · obtain rfl : result = .ok 0 := zero
        cases returned
        exact ⟨iff_of_true rfl full, fun other => absurd rfl other⟩
      · obtain rfl : result = .ok (-1) := negative
        cases returned
        exact ⟨iff_of_false (by decide) (Nat.ne_of_lt few), fun _ => by decide⟩
      · obtain rfl : result = .error e := thrown
        cases returned

/-- `connect` returns where no exception leaves it. -/
private theorem connect_returns_iff {env : Connecting} {host : Str} {port db : Int} {cl : Client} (sane : Sane cl) :
    (∃ n cl', cl.connect env host port db = (.ok n, cl')) ↔ Closing env.quits cl ∧ ¬ Throws env.openings default_size.toNat := by
  rcases sane with none | ⟨id, cell, owns⟩
  · have deleted : cl.delete_pool env.quits = .ok cl := by simp only [Client.delete_pool, none]
    have closing : Closing env.quits cl := fun id cell owns => absurd owns.current (by simp [none])
    have throws := initialize_throws env.openings (fresh host port db default_size default_max_size) cl.net
    have size : (fresh host port db default_size default_max_size).size_.toNat = default_size.toNat := rfl
    rw [and_iff_right closing, ← size, ← throws]
    cases filled : initialize_pool env.openings (fresh host port db default_size default_max_size) cl.net with
    | mk result rest =>
      rw [connect_deleted deleted filled]
      cases result <;> simp [Except.mapError]
  · rw [connect_returns owns]
    refine and_congr_left fun _ => ⟨?_, fun closing => closing id cell owns⟩
    intro closes id' cell' other
    obtain rfl := Option.some.inj (owns.current.symm.trans other.current)
    obtain rfl := Option.some.inj (owns.at_id.symm.trans other.at_id)
    exact closes

/-- The subscription to the sentinel that answered returns. -/
private theorem subscribe_returns_first {urls : List Str} {probes : Nat → Probe} {url : Str} {addr : Str × Int}
    (first : First urls probes url addr) (asyncFails : Bool) (se : Sentinel) :
    ∃ se', se.subscribe_sentinel_notification asyncFails url = (.ok (), se') := by
  obtain ⟨_, _, _, ⟨⟨uri, parses⟩, _⟩, _⟩ := first
  simp only [Sentinel.subscribe_sentinel_notification, Subscriber.connect, parses]
  cases asyncFails <;> exact ⟨_, rfl⟩

/-- What the call through sentinels comes to. -/
private theorem connect_sentinels_cases (t : Tick) (sentinel_urls : List Str) (master_name : Str) (db : Int) (cl : Client) :
    (¬ Sound sentinel_urls t.probes ∧ ∃ fault, (connect_sentinels t sentinel_urls master_name db cl).1 = .error fault) ∨
    (Sound sentinel_urls t.probes ∧ Dark sentinel_urls t.probes ∧
      connect_sentinels t sentinel_urls master_name db cl = (.ok 0, cl)) ∨
    (Sound sentinel_urls t.probes ∧ ∃ url addr, First sentinel_urls t.probes url addr ∧
      connect_sentinels t sentinel_urls master_name db cl =
        ((cl.connect t.connecting addr.1 addr.2 db).1.map fun n => if n = 0 then 1 else 0,
          (cl.connect t.connecting addr.1 addr.2 db).2)) := by
  unfold connect_sentinels Sentinel.start_client_connect
  rcases Sentinel.discover_master_cases t.probes { urls_ := sentinel_urls, master_name_ := master_name, db_ := db } with
    ⟨sound, addr, url, urls, first, found⟩ | ⟨sound, dark, nothing⟩ | ⟨unsound, fault, addr, url, failed⟩
  · refine .inr (.inr ⟨sound, url, addr, first, ?_⟩)
    simp only [found]
    cases cl.connect t.connecting addr.1 addr.2 db with
    | mk result cl' =>
      cases result with
      | error fault => rfl
      | ok n =>
        by_cases zero : n = 0
        · obtain ⟨se', subscribed⟩ := subscribe_returns_first first t.asyncFails
            { urls_ := urls, master_name_ := master_name, sentinel_url_ := url, master_ip_ := addr.1,
              master_port_ := addr.2, db_ := db }
          simp only [zero, ↓reduceIte, subscribed]
          rfl
        · simp only [zero, ↓reduceIte, Except.map]
          rfl
  · refine .inr (.inl ⟨sound, dark, ?_⟩)
    simp only [nothing]
    rfl
  · refine .inl ⟨unsound, fault, ?_⟩
    simp only [failed]
    rfl

private theorem sentinels_meaning_iff (t : Tick) (sentinel_urls : List Str) (master_name : Str) (db : Int) {cl : Client}
    (sane : Sane cl) :
    OneMeaning (.sentinels t sentinel_urls master_name db) cl ↔
      (Undisturbed t sentinel_urls cl → Dark sentinel_urls t.probes ∧ Complete cl) := by
  show (∀ n cl', connect_sentinels t sentinel_urls master_name db cl = (.ok n, cl') → _) ↔ _
  rcases connect_sentinels_cases t sentinel_urls master_name db cl with
    ⟨unsound, fault, failed⟩ | ⟨sound, dark, nothing⟩ | ⟨sound, url, addr, first, out⟩
  · refine iff_of_true ?_ fun undisturbed => absurd undisturbed.sound unsound
    intro n cl' returned
    rw [returned] at failed
    cases failed
  · -- 0 is returned for failure, and the client stays as it was
    have undisturbed : Undisturbed t sentinel_urls cl := ⟨sound, fun url addr first => absurd dark first.not_dark⟩
    constructor
    · exact fun meaning _ => ⟨dark, (meaning 0 cl nothing).1.mp rfl⟩
    · intro uniform n cl' returned
      cases nothing.symm.trans returned
      exact ⟨iff_of_true rfl (uniform undisturbed).2, fun other => absurd rfl other⟩
  · have returns : (∃ n cl', cl.connect t.connecting addr.1 addr.2 db = (.ok n, cl')) ↔ _ := connect_returns_iff sane
    have undisturbed_iff : Undisturbed t sentinel_urls cl ↔ ∃ n cl', cl.connect t.connecting addr.1 addr.2 db = (.ok n, cl') := by
      rw [returns]
      constructor
      · exact fun undisturbed => undisturbed.connects url addr first
      · exact fun connects => ⟨sound, fun _ _ _ => connects⟩
    have found : ¬ (Dark sentinel_urls t.probes ∧ Complete cl) := fun both => first.not_dark both.1
    rw [imp_iff_not found, undisturbed_iff]
    cases result : cl.connect t.connecting addr.1 addr.2 db with
    | mk result' cl' =>
      rw [result] at out
      cases result' with
      | error fault =>
        refine iff_of_true ?_ ?_
        · intro n cl'' returned
          cases out.symm.trans returned
        · rintro ⟨n, cl'', is⟩
          cases is
      | ok n =>
        refine iff_of_false ?_ (not_not_intro ⟨n, cl', rfl⟩)
        intro meaning
        have value : ((if n = 0 then 1 else 0 : Int) = 0 ↔ Complete cl') ∧
            ((if n = 0 then 1 else 0 : Int) ≠ 0 → (if n = 0 then 1 else 0 : Int) < 0) := meaning _ cl' out
        by_cases zero : n = 0
        · -- 1 is returned for success
          rw [if_pos zero] at value
          exact absurd (value.2 (by decide)) (by decide)
        · rw [if_neg zero] at value
          exact zero ((connect_meaning result).1.mpr (value.1.mp rfl))

/-- The value has one meaning for every call to an address, and to a URL but for one that
    is refused while the client has a complete pool. A call through sentinels that returns
    has it only by accident. -/
theorem one_meaning_iff {cl : Client} (reached : Reached cl) (call : Overload) : OneMeaning call cl ↔ Uniform cl call := by
  cases call with
  | address env host port db => exact iff_of_true (fun n cl' done => connect_meaning done) trivial
  | url env text =>
    show (∀ n cl', connect_url env text cl = (.ok n, cl') → _) ↔ (parsed text = .ok none → ¬ Complete cl)
    unfold connect_url
    cases is : parsed text with
    | error e => exact iff_of_true (fun n cl' done => by cases done) fun refused => by cases refused
    | ok found =>
      cases found with
      | some uri => exact iff_of_true (fun n cl' done => connect_meaning done) fun refused => by cases refused
      | none =>
        constructor
        · intro meaning _ complete
          exact absurd ((meaning (-1) cl rfl).1.mpr complete) (by decide)
        · intro incomplete n cl' done
          cases done
          exact ⟨iff_of_false (by decide) (incomplete rfl), fun _ => by decide⟩
  | sentinels t sentinel_urls master_name db => exact sentinels_meaning_iff t sentinel_urls master_name db reached.sane

theorem one_meaning_iff_address : OneMeaning (.address accepting (lit "h") 6379 0) {} :=
  (one_meaning_iff ⟨[], rfl⟩ (.address accepting (lit "h") 6379 0)).mpr trivial

/-- Without sentinels, 0 is returned, and there is no pool. -/
theorem no_sentinels_returns_zero : ¬ ∀ cl call, Reached cl → OneMeaning call cl := by
  intro all
  have meaning := all {} (.sentinels ⟨fun _ => ⟨false, .noReply [], .noReply []⟩, accepting, false⟩ [] (lit "mymaster") 0)
    ⟨[], rfl⟩
  obtain ⟨id, p, current, _⟩ := (meaning 0 {} rfl).1.mp rfl
  cases current

end CppRedis.Connects

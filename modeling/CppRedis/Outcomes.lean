import CppRedis.Methods
import CppRedis.Sentinels

/-!
How the calls of a Client end. A client is any that a program can have after a
sequence of connects, commands and closes, however these end without ending the
program itself (`Reached`). `perform_ends_well_iff` says which commands end in a
value or a `RedisException`.
-/
namespace CppRedis.Outcomes
open CppRedis.Strings CppRedis.Reply CppRedis.Uri CppRedis.Connection CppRedis.Pool CppRedis.Lending CppRedis.Runs
open CppRedis.Clients CppRedis.Sentinels CppRedis.Decoders CppRedis.Methods CppRedis.Requests
open ConnectionPool

/-- What becomes of one call: of the attempt to open a connection, if the pool makes
    one, and of the command on the connection that is lent. -/
structure Attempt where
  opening : Opening
  exchange : Exchange

/-- The part of `execute` between the guard's construction and its end. -/
def served (a : Attempt) (cmd : RedisCmd) (conn : Option ConnId) (net : Net) : Except Fault RedisReply × Net :=
  match conn with
  | none => (.error (.thrown (.ConnectionException (lit "no available redis Connection"))), net)
  | some c =>
    match net.contexts[c]? with
    | none => (.error .undefined, net)
    | some ctx =>
      match unsent cmd with
      -- `redisCommandArgv` returns NULL before it writes anything
      | some fault => (.error fault, net.put c ctx.outOfMemory)
      | none =>
        match send_command cmd a.exchange ctx with
        | (result, ctx') => (result.mapError .thrown, net.put c ctx')

/-- `execute`; `acquire` of a NULL pool is undefined, and so is the use of a pool that
    was deleted. -/
def execute (a : Attempt) (cmd : RedisCmd) (cl : Client) : Except Fault RedisReply × Client :=
  match cl.pool_ with
  | none => (.error .undefined, cl)
  | some id =>
    match cl.pools[id]? with
    | none => (.error .undefined, cl)
    | some cell =>
      if cell.deleted then (.error .undefined, cl)
      else
        match acquire a.opening cell.pool cl.net with
        | (.error e, pool, net) =>
          (.error (.thrown e), { cl with pools := cl.pools.set id ⟨pool, false⟩, net := net })
        | (.ok conn, pool, net) =>
          match served a cmd conn net with
          | (result, net) => (result, { cl with pools := cl.pools.set id ⟨release conn pool, false⟩, net := net })

/-- A call of a method. -/
def perform (a : Attempt) (m : Command) (cl : Client) : Except Fault Value × Client :=
  match m.call with
  | .returns v => (.ok v, cl)
  | .undefined => (.error .undefined, cl)
  | .throws e => (.error (.thrown e), cl)
  | .sends cmd decoder =>
    match execute a cmd cl with
    | (.error fault, cl) => (.error fault, cl)
    | (.ok reply, cl) => (decoder.decode reply, cl)

/-- `connect(url)`. -/
def connect_url (env : Connecting) (url : Str) (cl : Client) : Except Fault Int × Client :=
  match parsed url with
  | .error e => (.error (.thrown e), cl)
  | .ok none => (.ok (-1), cl)
  | .ok (some uri) => cl.connect env uri.host uri.port uri.db

/-- `connect(sentinel_urls, master_name, db)`. -/
def connect_sentinels (t : Tick) (sentinel_urls : List Str) (master_name : Str) (db : Int) (cl : Client) :
    Except Fault Int × Client :=
  match Sentinel.start_client_connect t { urls_ := sentinel_urls, master_name_ := master_name, db_ := db } cl with
  | (result, _, cl) => (result.map fun started => if started then 1 else 0, cl)

inductive Act
  | connect (env : Connecting) (host : Str) (port db : Int)
  | connect_url (env : Connecting) (url : Str)
  | connect_sentinels (t : Tick) (sentinel_urls : List Str) (master_name : Str) (db : Int)
  | close
  | command (a : Attempt) (m : Command)

/-- The client after a call that returns or throws; there is none after one that ends
    the program or is undefined. -/
def afterwards {α : Type} : Except Fault α × Client → Option Client
  | (.ok _, cl) => some cl
  | (.error (.thrown _), cl) => some cl
  | (.error .terminated, _) => none
  | (.error .undefined, _) => none

def step (cl : Client) : Act → Option Client
  | .connect env host port db => afterwards (cl.connect env host port db)
  | .connect_url env url => afterwards (connect_url env url cl)
  | .connect_sentinels t sentinel_urls master_name db => afterwards (connect_sentinels t sentinel_urls master_name db cl)
  | .close => some cl
  | .command a m => afterwards (perform a m cl)

/-- The program can have the client. -/
def Reached (cl : Client) : Prop := ∃ acts, run step {} acts = some cl

/-! ### What `execute` does -/

/-- `acquire` lends a connection. -/
def Lends (o : Opening) (cl : Client) : Prop :=
  ∃ id cell, cl.pool_ = some id ∧ cl.pools[id]? = some cell ∧
    ((∃ c rest, cell.pool.connq_ = some c :: rest) ∨
     (cell.pool.connq_ = [] ∧ cell.pool.size_ < cell.pool.max_size_ ∧ o.Opens))

/-- The connection that `acquire` lends has not failed. -/
def Usable (o : Opening) (cl : Client) : Prop :=
  ∃ id cell, cl.pool_ = some id ∧ cl.pools[id]? = some cell ∧
    ((∃ c rest ctx, cell.pool.connq_ = some c :: rest ∧ cl.net.contexts[c]? = some ctx ∧ ctx.err = none) ∨
     (cell.pool.connq_ = [] ∧ cell.pool.size_ < cell.pool.max_size_ ∧ o.Opens ∧
      ∃ r switched, o.select = .reply r switched))

private theorem select_throws {db : Int} {c : ConnId} {x : Exchange} {net net' : Net} {e : Exception}
    (thrown : Connection.select db c x net = (.error e, net')) : e.isRedis = true := by
  simp only [Connection.select] at thrown
  split at thrown
  · cases thrown
  · split at thrown
    · cases thrown
    · rw [(recv_ok_reply_throws (Prod.mk.inj thrown).1).2]
      exact throw_redis_exception_isRedis _

private theorem open_one_throws {o : Opening} {p p' : ConnectionPool} {net net' : Net} {e : Exception}
    (thrown : open_one o p net = (.error e, p', net')) : e.isRedis = true := by
  simp only [open_one] at thrown
  split at thrown
  · cases thrown
  · split at thrown
    · rename_i selected
      cases thrown
      exact select_throws selected
    · cases thrown

private theorem acquire_throws {o : Opening} {p p' : ConnectionPool} {net net' : Net} {e : Exception}
    (thrown : acquire o p net = (.error e, p', net')) : e.isRedis = true := by
  simp only [acquire] at thrown
  split at thrown
  · split at thrown
    · split at thrown
      · rename_i opened
        cases thrown
        exact open_one_throws opened
      · cases thrown
      · cases thrown
    · cases thrown
  · cases thrown

/-- How a call of `execute` ends: in the reply that a usable connection gets, in a
    `RedisException`, or where hiredis overruns its memory for the command. -/
inductive Ends (a : Attempt) (cmd : RedisCmd) (lends usable : Prop) : Except Fault RedisReply → Prop
  | reply {r : RedisReply} {switched : Bool} (replied : a.exchange = .reply r switched) (live : usable) (sendable : Sendable cmd) :
      Ends a cmd lends usable (.ok r)
  | throws {e : Exception} (redis : e.isRedis = true) (defined : lends → unsent cmd ≠ some .undefined)
      (other : ¬ (usable ∧ Sendable cmd ∧ ∃ r switched, a.exchange = .reply r switched)) :
      Ends a cmd lends usable (.error (.thrown e))
  | undefined (lent : lends) (overruns : unsent cmd = some .undefined) : Ends a cmd lends usable (.error .undefined)

/-- The exchange on a lent connection gives its reply, or throws. -/
private theorem served_ends (a : Attempt) (cmd : RedisCmd) {c : ConnId} {ctx : Context} {net : Net}
    (at_c : net.contexts[c]? = some ctx) :
    (served a cmd (some c) net).2.contexts.length = net.contexts.length ∧
      Ends a cmd True (ctx.err = none) (served a cmd (some c) net).1 := by
  simp only [served, at_c, send_command]
  rcases unsent_cases cmd with ⟨sendable, goes⟩ | ⟨unsendable, _, goes⟩ | ⟨_, _, goes⟩
  · have defined : True → unsent cmd ≠ some .undefined := fun _ => by rw [goes]; exact (Option.some_ne_none _).symm
    rw [goes]
    refine ⟨by simp, ?_⟩
    cases err : ctx.err with
    | some errstr =>
      simp only [Context.redisCommand, err, Except.mapError]
      exact .throws rfl defined fun all => by cases all.1
    | none =>
      cases replied : a.exchange with
      | reply r switched =>
        simp only [Context.redisCommand, err, Except.mapError]
        exact .reply replied trivial sendable
      | noReply errstr =>
        simp only [Context.redisCommand, err, Except.mapError]
        refine .throws rfl defined ?_
        rintro ⟨_, _, r, switched, is⟩
        cases replied.symm.trans is
  · rw [goes]
    refine ⟨by simp, .throws rfl (fun _ => ?_) fun all => unsendable all.2.1⟩
    rw [goes]
    exact fun is => by cases is
  · rw [goes]
    exact ⟨by simp, .undefined trivial goes⟩

/-- The client has one pool. -/
private theorem only_pool {cl : Client} {id : PoolId} {cell : Cell} (owns : Owns cl id cell) {P : Cell → Prop} :
    (∃ id cell, cl.pool_ = some id ∧ cl.pools[id]? = some cell ∧ P cell) ↔ P cell := by
  constructor
  · rintro ⟨id', cell', current, at_id, holds⟩
    obtain rfl : id = id' := Option.some.inj (owns.current.symm.trans current)
    obtain rfl : cell = cell' := Option.some.inj (owns.at_id.symm.trans at_id)
    exact holds
  · exact fun holds => ⟨id, cell, owns.current, owns.at_id, holds⟩

private theorem lends_iff {o : Opening} {cl : Client} {id : PoolId} {cell : Cell} (owns : Owns cl id cell) :
    Lends o cl ↔ (∃ c rest, cell.pool.connq_ = some c :: rest) ∨
      (cell.pool.connq_ = [] ∧ cell.pool.size_ < cell.pool.max_size_ ∧ o.Opens) := only_pool owns

private theorem usable_iff {o : Opening} {cl : Client} {id : PoolId} {cell : Cell} (owns : Owns cl id cell) :
    Usable o cl ↔
      (∃ c rest ctx, cell.pool.connq_ = some c :: rest ∧ cl.net.contexts[c]? = some ctx ∧ ctx.err = none) ∨
      (cell.pool.connq_ = [] ∧ cell.pool.size_ < cell.pool.max_size_ ∧ o.Opens ∧
        ∃ r switched, o.select = .reply r switched) := only_pool owns

/-- The client after a call to which `acquire` gave an answer. -/
private theorem execute_lends {a : Attempt} {cmd : RedisCmd} {cl : Client} {id : PoolId} {cell : Cell}
    (owns : Owns cl id cell) {conn : Option ConnId} {pool : ConnectionPool} {net : Net}
    (acquired : acquire a.opening cell.pool cl.net = (.ok conn, pool, net)) :
    execute a cmd cl = ((served a cmd conn net).1,
      { cl with pools := cl.pools.set id ⟨release conn pool, false⟩, net := (served a cmd conn net).2 }) := by
  simp only [execute, owns.current, owns.at_id, owns.alive, acquired, Bool.false_eq_true, ↓reduceIte]

/-- The client still has the pool when its books are in order. -/
private theorem owned_set {cl : Client} {id : PoolId} {cell : Cell} (owns : Owns cl id cell) {pool : ConnectionPool}
    {net : Net} {L : Ledgers.Ledger ConnId} (books : Books pool net 0 L) :
    Owned { cl with pools := cl.pools.set id ⟨pool, false⟩, net := net } := by
  have inside : id < cl.pools.length := (List.getElem?_eq_some_iff.mp owns.at_id).1
  exact ⟨id, ⟨pool, false⟩, owns.current, by simp [inside], rfl, L, books⟩

private theorem Ends.congr {a : Attempt} {cmd : RedisCmd} {lends lends' usable usable' : Prop} {result : Except Fault RedisReply}
    (ends : Ends a cmd lends usable result) (lent : lends ↔ lends') (live : usable ↔ usable') : Ends a cmd lends' usable' result := by
  rwa [propext lent, propext live] at ends

/-- A connection that is lent is used and given back. -/
private theorem lent_ends (a : Attempt) (cmd : RedisCmd) {cl : Client} {id : PoolId} {cell : Cell} (owns : Owns cl id cell)
    {c : ConnId} {ctx : Context} {pool : ConnectionPool} {net : Net} {L : Ledgers.Ledger ConnId}
    (acquired : acquire a.opening cell.pool cl.net = (.ok (some c), pool, net)) (at_c : net.contexts[c]? = some ctx)
    (lent : Books pool net {c} L) :
    Owned (execute a cmd cl).2 ∧ Ends a cmd True (ctx.err = none) (execute a cmd cl).1 := by
  obtain ⟨length, outcome⟩ := served_ends a cmd at_c
  have framed : Books pool (served a cmd (some c) net).2 (c ::ₘ 0) L := lent.frame length.ge
  obtain ⟨L', _, back⟩ := books_release framed
  rw [execute_lends owns acquired]
  exact ⟨owned_set owns back, outcome⟩

/-- A call of `execute` on a client with a pool keeps the pool, and ends in the reply
    that a usable connection gets, in a `RedisException`, or undefined. -/
theorem execute_ends (a : Attempt) (cmd : RedisCmd) {cl : Client} (owned : Owned cl) :
    Owned (execute a cmd cl).2 ∧ Ends a cmd (Lends a.opening cl) (Usable a.opening cl) (execute a cmd cl).1 := by
  obtain ⟨id, cell, owns⟩ := owned
  obtain ⟨L, books⟩ := owns.books
  rw [propext (usable_iff owns), propext (lends_iff owns)]
  rcases acquire_cases a.opening cell.pool cl.net with
    ⟨conn, rest, queue, acquired⟩ | ⟨empty, why, acquired⟩ | ⟨empty, room, rejected, e, acquired⟩ |
    ⟨empty, room, opens, acquired⟩
  · cases conn with
    | none =>
      rw [execute_lends owns acquired, queue]
      refine ⟨owned_set owns (books_release_null (books_pop_null books queue)), .throws rfl ?_ (by simp)⟩
      rintro (⟨_, _, some⟩ | ⟨none, _⟩)
      · cases some
      · cases none
    | some c =>
      obtain ⟨L', _, lent⟩ := books_lend books queue
      have old : c < cl.net.contexts.length := by
        apply books.old
        rw [← Multiset.mem_coe, ← books.issued, Ledgers.Ledger.issued, books.idle, queue]
        simp
      have at_c := List.getElem?_eq_getElem old
      obtain ⟨kept, ends⟩ := lent_ends a cmd owns acquired at_c lent
      refine ⟨kept, ends.congr ⟨fun _ => .inl ⟨c, rest, queue⟩, fun _ => trivial⟩ ?_⟩
      constructor
      · intro live
        exact .inl ⟨c, rest, _, queue, at_c, live⟩
      · rintro (⟨c', rest', ctx', same, at_c', live⟩ | ⟨none, _⟩)
        · cases queue.symm.trans same
          obtain rfl := Option.some.inj (at_c.symm.trans at_c')
          exact live
        · cases queue.symm.trans none
  · have unlent : ¬ (cell.pool.size_ < cell.pool.max_size_ ∧ a.opening.Opens) := by
      rintro ⟨room, opens⟩
      rcases why with full | refused
      · omega
      · exact absurd opens.1 (by simp [refused])
    rw [execute_lends owns acquired]
    refine ⟨owned_set owns (books_release_null books), .throws rfl ?_ ?_⟩
    · rintro (⟨_, _, some⟩ | ⟨_, lent⟩)
      · cases empty.symm.trans some
      · exact absurd lent unlent
    · rintro ⟨⟨_, _, _, some, _⟩ | ⟨_, room, opens, _⟩, _⟩
      · cases empty.symm.trans some
      · exact unlent ⟨room, opens⟩
  · have out : execute a cmd cl = (.error (.thrown e), { cl with
        pools := cl.pools.set id ⟨cell.pool, false⟩, net := grown cl.net (newContext cell.pool a.opening.select) }) := by
      simp only [execute, owns.current, owns.at_id, owns.alive, acquired, Bool.false_eq_true, ↓reduceIte]
    rw [out]
    refine ⟨owned_set owns (books.frame (by simp)), .throws (acquire_throws acquired) ?_ ?_⟩
    · rintro (⟨_, _, some⟩ | ⟨_, _, opens⟩)
      · cases empty.symm.trans some
      · exact absurd rejected opens.2
    · rintro ⟨⟨_, _, _, some, _⟩ | ⟨_, _, opens, _⟩, _⟩
      · cases empty.symm.trans some
      · exact opens.2 rejected
  · obtain ⟨L', _, lent⟩ := books_open_lend books empty (cell.pool.size_ + 1) (newContext cell.pool a.opening.select)
    have at_new := grown_new cl.net (newContext cell.pool a.opening.select)
    obtain ⟨kept, ends⟩ := lent_ends a cmd owns acquired at_new lent
    have live : (newContext cell.pool a.opening.select).err = none ↔ ∃ r switched, a.opening.select = .reply r switched := by
      cases a.opening.select <;> simp [newContext]
    refine ⟨kept, ends.congr ⟨fun _ => .inr ⟨empty, room, opens⟩, fun _ => trivial⟩ (live.trans ?_)⟩
    constructor
    · intro selected
      exact .inr ⟨empty, room, opens, selected⟩
    · rintro (⟨_, _, _, some, _⟩ | ⟨_, _, _, selected⟩)
      · cases empty.symm.trans some
      · exact selected

/-- A method that sends a command decodes the reply, or ends as `execute` does. -/
theorem perform_sends {a : Attempt} {m : Command} {cl : Client} {cmd : RedisCmd} {decoder : Decoder}
    (sends : m.call = .sends cmd decoder) :
    perform a m cl = ((execute a cmd cl).1.bind (decoder.decode ·), (execute a cmd cl).2) := by
  simp only [perform, sends]
  cases execute a cmd cl with
  | mk result last => cases result <;> rfl

/-- On a usable connection a method whose command can be sent returns or throws what its
    decoder makes of the reply. -/
theorem perform_decodes {a : Attempt} {m : Command} {cl : Client} {cmd : RedisCmd} {decoder : Decoder}
    (owned : Owned cl) (sends : m.call = .sends cmd decoder) (sendable : Sendable cmd) {r : RedisReply} {switched : Bool}
    (replied : a.exchange = .reply r switched) (usable : Usable a.opening cl) : (perform a m cl).1 = decoder.decode r := by
  rw [perform_sends sends]
  have ends := (execute_ends a cmd owned).2
  generalize (execute a cmd cl).1 = result at ends ⊢
  cases ends with
  | reply replied' =>
    cases replied.symm.trans replied'
    rfl
  | throws redis defined other => exact absurd ⟨usable, sendable, r, switched, replied⟩ other
  | undefined lent overruns => cases (unsent_none.mpr sendable).symm.trans overruns

/-! ### How a call ends -/

/-- The command sends nothing, or it can be handed over, the client has a pool, hiredis
    formats the command or refuses it, if a connection is lent, and the decoder can take
    the reply that a usable connection gets. -/
def Fine (a : Attempt) (m : Command) (cl : Client) : Prop :=
  match m.call with
  | .returns _ => True
  | .undefined => False
  | .throws e => e.isRedis = true
  | .sends cmd decoder =>
    cl.pool_ ≠ none ∧ (Lends a.opening cl → redisFormatCommandArgv (pointed cmd) ≠ .undefined) ∧
      ∀ r switched, a.exchange = .reply r switched → Usable a.opening cl → Sendable cmd → decoder.Fits r

/-- The client has no pool yet, or one that was not deleted. -/
def Sane (cl : Client) : Prop := cl.pool_ = none ∨ Owned cl

private theorem perform_ends_well (a : Attempt) (m : Command) {cl : Client} (sane : Sane cl) :
    EndsWell (perform a m cl).1 ↔ Fine a m cl := by
  unfold Fine
  cases call : m.call with
  | returns v =>
    simp only [perform, call]
    exact iff_of_true trivial trivial
  | undefined =>
    simp only [perform, call]
    exact iff_of_false id id
  | throws e =>
    simp only [perform, call]
    exact Iff.rfl
  | sends cmd decoder =>
    rw [perform_sends call]
    rcases sane with none | owned
    · have out : execute a cmd cl = (.error .undefined, cl) := by simp only [execute, none]
      rw [out]
      exact iff_of_false not_false fun fine => fine.1 none
    · obtain ⟨id, cell, owns⟩ := id owned
      have some : cl.pool_ ≠ none := by
        rw [owns.current]
        exact Option.some_ne_none id
      have ends := (execute_ends a cmd owned).2
      have undefined_iff := @unsent_undefined cmd
      generalize (execute a cmd cl).1 = result at ends ⊢
      cases ends with
      | @reply r switched replied usable sendable =>
        show EndsWell (decoder.decode r) ↔ _
        rw [decode_ends_well]
        constructor
        · intro fits
          refine ⟨some, fun _ => ?_, ?_⟩
          · rw [format_sendable sendable]
            exact fun is => by cases is
          · intro r' switched' replied' _ _
            cases replied.symm.trans replied'
            exact fits
        · exact fun fine => fine.2.2 r switched replied usable sendable
      | throws redis defined other =>
        refine iff_of_true redis ⟨some, fun lent is => defined lent (undefined_iff.mpr is), ?_⟩
        intro r switched replied usable sendable
        exact absurd ⟨usable, sendable, r, switched, replied⟩ other
      | undefined lent overruns => exact iff_of_false not_false fun fine => fine.2.1 lent (undefined_iff.mp overruns)

theorem afterwards_some {α : Type} {out : Except Fault α × Client} {cl' : Client}
    (done : afterwards out = some cl') : out.2 = cl' ∧ ∀ fault, out.1 = .error fault → ∃ e, fault = .thrown e := by
  obtain ⟨result, cl⟩ := out
  cases result with
  | ok v => exact ⟨Option.some.inj done, nofun⟩
  | error fault =>
    cases fault with
    | thrown e => exact ⟨Option.some.inj done, fun _ is => ⟨e, (Except.error.inj is).symm⟩⟩
    | terminated | undefined => cases done

section
variable {env : Connecting} {host : Str} {port db : Int} {cl : Client}

/-- Where `connect` does not end the program, it has deleted the old pool. -/
theorem connect_deletes (goes : ∀ fault, (cl.connect env host port db).1 = .error fault → ∃ e, fault = .thrown e) :
    ∃ mid, cl.delete_pool env.quits = .ok mid := by
  cases deleted : cl.delete_pool env.quits with
  | error fault =>
    obtain ⟨e, is⟩ := goes fault (by simp [Client.connect, deleted])
    exact absurd is (delete_pool_fault deleted e)
  | ok mid => exact ⟨mid, rfl⟩

/-- Then the client has a pool. -/
private theorem connect_sane (goes : ∀ fault, (cl.connect env host port db).1 = .error fault → ∃ e, fault = .thrown e) :
    Owned (cl.connect env host port db).2 := by
  obtain ⟨mid, deleted⟩ := connect_deletes goes
  exact (connect_owned deleted).1

end

/-- The client after a start through sentinels is as before, or has connected. -/
private theorem start_client (t : Tick) (se : Sentinel) (cl : Client) :
    (se.start_client_connect t cl).2.2 = cl ∨ ∃ host port db,
      (se.start_client_connect t cl).2.2 = (cl.connect t.connecting host port db).2 ∧
      ∀ fault, (cl.connect t.connecting host port db).1 = .error fault → (se.start_client_connect t cl).1 = .error fault := by
  simp only [Sentinel.start_client_connect]
  split
  · exact .inl rfl
  · exact .inl rfl
  · rename_i addr url se' _
    refine .inr ⟨addr.1, addr.2, se'.db_, ?_⟩
    cases cl.connect t.connecting addr.1 addr.2 se'.db_ with
    | mk result last =>
      cases result with
      | error fault =>
        refine ⟨rfl, ?_⟩
        intro other is
        obtain rfl := Except.error.inj is
        rfl
      | ok n =>
        by_cases zero : n = 0
        · simp only [zero, ↓reduceIte]
          split <;> exact ⟨rfl, nofun⟩
        · simp only [zero, ↓reduceIte]
          exact ⟨trivial, nofun⟩

theorem step_sane {cl cl' : Client} {act : Act} (sane : Sane cl) (taken : step cl act = some cl') : Sane cl' := by
  cases act with
  | connect env host port db =>
    obtain ⟨rfl, goes⟩ := afterwards_some taken
    exact .inr (connect_sane goes)
  | connect_url env url =>
    obtain ⟨rfl, goes⟩ := afterwards_some taken
    unfold connect_url at goes ⊢
    cases parses : parsed url with
    | error e => exact sane
    | ok found =>
      cases found with
      | none => exact sane
      | some uri =>
        rw [parses] at goes
        exact .inr (connect_sane goes)
  | connect_sentinels t sentinel_urls master_name db =>
    obtain ⟨rfl, goes⟩ := afterwards_some taken
    rcases start_client t { urls_ := sentinel_urls, master_name_ := master_name, db_ := db } cl with
      same | ⟨host, port, db, same, faults⟩
    · have out : (connect_sentinels t sentinel_urls master_name db cl).2 = cl := same
      rw [out]
      exact sane
    · refine .inr (same ▸ connect_sane fun fault failed => goes fault ?_)
      simp only [connect_sentinels, faults fault failed]
      rfl
  | close => exact Option.some.inj taken ▸ sane
  | command a m =>
    obtain ⟨rfl, goes⟩ := afterwards_some taken
    cases call : m.call with
    | returns v =>
      simp only [perform, call]
      exact sane
    | undefined =>
      simp only [perform, call]
      exact sane
    | throws e =>
      simp only [perform, call]
      exact sane
    | sends cmd decoder =>
      rw [perform_sends call]
      rcases sane with none | owned
      · have out : execute a cmd cl = (.error .undefined, cl) := by simp only [execute, none]
        rw [out]
        exact .inl none
      · exact .inr (execute_ends a cmd owned).1

theorem Reached.sane {cl : Client} (reached : Reached cl) : Sane cl := by
  obtain ⟨acts, runs⟩ := reached
  exact run_invariant Sane (fun _ _ _ sane taken => step_sane sane taken) runs (.inl rfl)

/-- A connect whose SELECTs are all answered well, and a command with its reply. -/
def replied (r : RedisReply) : Attempt := ⟨reachable, .reply r false⟩

def accepting : Connecting := ⟨fun _ => .reply (.status (lit "OK")) false, fun _ => reachable⟩

/-- On a client that a program can have, and a connection that can be used, the server
    replies so to the method's command. -/
structure Answered (r : RedisReply) (a : Attempt) (m : Command) (decoder : Decoder) (cl : Client) : Prop where
  reached : Reached cl
  sends : ∃ cmd, m.call = .sends cmd decoder ∧ Sendable cmd
  replied : ∃ switched, a.exchange = .reply r switched
  usable : Usable a.opening cl

/-- The method returns or throws what the decoder makes of the reply. -/
theorem Answered.decodes {r : RedisReply} {a : Attempt} {m : Command} {decoder : Decoder} {cl : Client}
    (answered : Answered r a m decoder cl) : (perform a m cl).1 = decoder.decode r := by
  obtain ⟨reached, ⟨cmd, sends, sendable⟩, ⟨switched, replied⟩, usable⟩ := answered
  have owned : Owned cl := by
    rcases reached.sane with none | owned
    · obtain ⟨id, cell, current, -⟩ := usable
      cases none.symm.trans current
    · exact owned
  exact perform_decodes owned sends sendable replied usable

/-- Every reply can be one to a command that can be sent. -/
theorem accepted_answers {m : Command} {cmd : RedisCmd} {decoder : Decoder} (sends : m.call = .sends cmd decoder)
    (sendable : Sendable cmd) (r : RedisReply) : ∃ cl, Answered r (replied r) m decoder cl := by
  refine ⟨_, ⟨[.connect accepting (lit "h") 6379 0], rfl⟩, ⟨cmd, sends, sendable⟩, ⟨false, rfl⟩, ?_⟩
  exact ⟨0, _, rfl, rfl, .inl ⟨0, _, _, rfl, rfl, rfl⟩⟩

private theorem get_sends (key value : Str) : (Command.get key value).call = .sends [lit "GET", key] (.string value) :=
  send_eq (by simp)

end CppRedis.Outcomes

import CppRedis.Connection

/-!
`ConnectionPool`. The queue holds `Connection*`, so an entry may be NULL. How
each attempt to open a connection ends is an argument (`Opening`); an attempt
in which SELECT is answered by something that is no status throws, after the
connection has been opened (`Opening.Rejected`). `open_one_cases` and
`acquire_cases` say all that an attempt and `acquire` can do.
-/
namespace CppRedis.Pool
open CppRedis.Strings CppRedis.Reply CppRedis.Connection

/-- `opened` is no field of the class: it records the connections that the pool
    has opened and pushed. -/
structure ConnectionPool where
  connq_ : List (Option ConnId) := []
  host_ : Str
  port_ : Int
  db_ : Int
  size_ : Int
  max_size_ : Int
  opened : List ConnId := []

/-- The default arguments of the constructor. -/
def default_size : Int := 5
def default_max_size : Int := 10

/-- How an attempt to open a connection ends: whether it is accepted, and what
    becomes of the SELECT sent on it then. -/
structure Opening where
  accepted : Bool
  select : Exchange

namespace ConnectionPool

/-- A new connection goes into the queue. -/
def push (p : ConnectionPool) (c : ConnId) : ConnectionPool :=
  { p with connq_ := p.connq_ ++ [some c], opened := p.opened ++ [c] }

/-- A new `Connection` is connected, SELECT is sent on it, and it is pushed; the
    connection object is dropped where it is refused or `select` throws. -/
def open_one (o : Opening) (p : ConnectionPool) (net : Net) : Except Exception Bool × ConnectionPool × Net :=
  match connect p.host_ p.port_ o.accepted net with
  | (none, net) => (.ok false, p, net)
  | (some c, net) =>
    match Connection.select p.db_ c o.select net with
    | (.error e, net) => (.error e, p, net)
    | (.ok _, net) => (.ok true, p.push c, net)

/-- The loop of `initialize` with `n` rounds to go; `env i` is the attempt of
    round `i`. -/
def initialize_from (env : Nat → Opening) : Nat → Nat → ConnectionPool → Net →
    Except Exception Int × ConnectionPool × Net
  | 0, _, p, net => (.ok 0, p, net)
  | n + 1, i, p, net =>
    match open_one (env i) p net with
    | (.error e, p, net) => (.error e, p, net)
    | (.ok false, p, net) => (.ok (-1), p, net)
    | (.ok true, p, net) => initialize_from env n (i + 1) p net

/-- `initialize()`. -/
def initialize_pool (env : Nat → Opening) (p : ConnectionPool) (net : Net) :
    Except Exception Int × ConnectionPool × Net :=
  initialize_from env p.size_.toNat 0 p net

/-- `connq_.front()` and `connq_.pop()`. -/
def pop (p : ConnectionPool) : Option ConnId × ConnectionPool :=
  (p.connq_.head?.join, { p with connq_ := p.connq_.tail })

def acquire (o : Opening) (p : ConnectionPool) (net : Net) :
    Except Exception (Option ConnId) × ConnectionPool × Net :=
  if p.connq_ = [] then
    if p.size_ < p.max_size_ then
      match open_one o p net with
      | (.error e, p, net) => (.error e, p, net)
      | (.ok false, p, net) => (.ok none, p, net)
      | (.ok true, p, net) =>
        let (conn, p) := { p with size_ := p.size_ + 1 }.pop
        (.ok conn, p, net)
    else (.ok none, p, net)
  else
    let (conn, p) := p.pop
    (.ok conn, p, net)

def release (conn : Option ConnId) (p : ConnectionPool) : ConnectionPool :=
  { p with connq_ := p.connq_ ++ [conn] }

end ConnectionPool

open ConnectionPool

/-! ### Opening a connection -/

/-- The attempt opens a connection and throws. -/
def Opening.Rejected (o : Opening) : Prop :=
  o.accepted = true ∧ ∃ r switched, o.select = .reply r switched ∧ ¬ r.IsStatus

/-- The attempt opens a connection and pushes it. -/
def Opening.Opens (o : Opening) : Prop := o.accepted = true ∧ ¬ o.Rejected

/-- A new context after the SELECT that the pool sends on it. -/
def newContext (p : ConnectionPool) : Exchange → Context
  | .reply _ switched => ⟨p.host_, p.port_, none, [], [], if switched then some p.db_ else none, false⟩
  | .noReply errstr => ⟨p.host_, p.port_, some errstr, [.select p.db_], [], none, false⟩

/-- A context is added after all others. -/
def grown (net : Net) (ctx : Context) : Net := { net with contexts := net.contexts ++ [ctx] }

@[simp] theorem grown_length (net : Net) (ctx : Context) :
    (grown net ctx).contexts.length = net.contexts.length + 1 := by simp [grown]

theorem grown_old (net : Net) (ctx : Context) {c : ConnId} (old : c < net.contexts.length) :
    (grown net ctx).contexts[c]? = net.contexts[c]? := by
  simp [grown, List.getElem?_append_left old]

theorem grown_new (net : Net) (ctx : Context) : (grown net ctx).contexts[net.contexts.length]? = some ctx := by
  simp [grown]

/-- SELECT on the connection that was opened last. -/
private theorem select_new (p : ConnectionPool) (x : Exchange) (net : Net) :
    Connection.select p.db_ net.contexts.length x (net.redisConnect p.host_ p.port_) =
      (match x with
        | .reply r _ => recv_ok_reply r
        | .noReply _ => .ok false, grown net (newContext p x)) := by
  simp only [Connection.select, Net.redisConnect_new]
  cases x with
  | reply r switched =>
    cases switched <;> simp [Context.redisCommand, Context.selectedBy, newContext, grown, Net.put, Net.redisConnect]
  | noReply errstr => simp [Context.redisCommand, newContext, grown, Net.put, Net.redisConnect]

/-- All that an attempt can do. -/
theorem open_one_cases (o : Opening) (p : ConnectionPool) (net : Net) :
    (o.accepted = false ∧ open_one o p net = (.ok false, p, net)) ∨
    (o.Rejected ∧ ∃ e, open_one o p net = (.error e, p, grown net (newContext p o.select))) ∨
    (o.Opens ∧ open_one o p net =
      (.ok true, p.push net.contexts.length, grown net (newContext p o.select))) := by
  obtain ⟨accepted, x⟩ := o
  cases accepted with
  | false => exact .inl ⟨rfl, by simp [open_one, connect]⟩
  | true =>
    right
    simp only [open_one, connect, ↓reduceIte, select_new]
    cases x with
    | noReply errstr => exact .inr ⟨⟨rfl, by simp [Opening.Rejected]⟩, rfl⟩
    | reply r switched =>
      by_cases status : r.IsStatus
      · obtain ⟨ok, returned⟩ := (recv_ok_reply_returns r).mpr status
        exact .inr ⟨⟨rfl, by simp [Opening.Rejected, status]⟩, by simp [returned]⟩
      · cases thrown : recv_ok_reply r with
        | ok ok => exact absurd ((recv_ok_reply_returns r).mp ⟨ok, thrown⟩) status
        | error e => exact .inl ⟨⟨rfl, r, switched, rfl, status⟩, e, by simp [thrown]⟩

/-! ### `acquire` -/

/-- All that `acquire` can do: lend the first entry of the queue, give up
    because the pool is exhausted or the connection is refused, throw after
    opening a connection, or open one and lend it. -/
theorem acquire_cases (o : Opening) (p : ConnectionPool) (net : Net) :
    (∃ conn rest, p.connq_ = conn :: rest ∧ acquire o p net = (.ok conn, { p with connq_ := rest }, net)) ∨
    (p.connq_ = [] ∧ (p.max_size_ ≤ p.size_ ∨ o.accepted = false) ∧ acquire o p net = (.ok none, p, net)) ∨
    (p.connq_ = [] ∧ p.size_ < p.max_size_ ∧ o.Rejected ∧
      ∃ e, acquire o p net = (.error e, p, grown net (newContext p o.select))) ∨
    (p.connq_ = [] ∧ p.size_ < p.max_size_ ∧ o.Opens ∧
      acquire o p net = (.ok (some net.contexts.length),
        { p with size_ := p.size_ + 1, opened := p.opened ++ [net.contexts.length] },
        grown net (newContext p o.select))) := by
  cases queue : p.connq_ with
  | cons conn rest =>
    refine .inl ⟨conn, rest, rfl, ?_⟩
    simp [acquire, pop, queue]
  | nil =>
    right
    by_cases room : p.size_ < p.max_size_
    · rcases open_one_cases o p net with ⟨refused, done⟩ | ⟨rejected, e, done⟩ | ⟨opens, done⟩
      · exact .inl ⟨rfl, .inr refused, by simp [acquire, queue, room, done]⟩
      · exact .inr (.inl ⟨rfl, room, rejected, e, by simp [acquire, queue, room, done]⟩)
      · refine .inr (.inr ⟨rfl, room, opens, ?_⟩)
        simp [acquire, queue, room, done, push, pop]
    · exact .inl ⟨rfl, .inl (by omega), by simp [acquire, queue, room]⟩

/-! ### `initialize` -/

/-- What an attempt that throws and an attempt that opens a connection both
    keep, `initialize` keeps. -/
theorem initialize_invariant (env : Nat → Opening) (Q : ConnectionPool → Net → Prop)
    (rejected : ∀ j p net, Q p net → (env j).Rejected → Q p (grown net (newContext p (env j).select)))
    (opened : ∀ j p net, Q p net → (env j).Opens →
      Q (p.push net.contexts.length) (grown net (newContext p (env j).select)))
    {p : ConnectionPool} {net : Net} (holds : Q p net) :
    Q (initialize_pool env p net).2.1 (initialize_pool env p net).2.2 := by
  have loop : ∀ n i p net, Q p net → Q (initialize_from env n i p net).2.1 (initialize_from env n i p net).2.2 := by
    intro n
    induction n with
    | zero => exact fun _ _ _ holds => holds
    | succ n ih =>
      intro i p net holds
      rcases open_one_cases (env i) p net with ⟨_, done⟩ | ⟨threw, e, done⟩ | ⟨opens, done⟩
      · simpa only [initialize_from, done] using holds
      · simpa only [initialize_from, done] using rejected i p net holds threw
      · simpa only [initialize_from, done] using ih (i + 1) _ _ (opened i p net holds opens)
  exact loop _ 0 p net holds

/-- What `n` rounds from round `i` on have done: they have opened `k` connections,
    then all rounds were done, or an attempt was refused or threw. -/
structure Initialized (env : Nat → Opening) (i n : Nat) (p : ConnectionPool) (net : Net)
    (out : Except Exception Int × ConnectionPool × Net) (k : Nat) : Prop where
  le : k ≤ n
  opens : ∀ j < k, (env (i + j)).Opens
  opened : out.2.1.opened.length = p.opened.length + k
  size : out.2.1.size_ = p.size_
  max_size : out.2.1.max_size_ = p.max_size_
  ending : (k = n ∧ out.1 = .ok 0 ∧ out.2.2.contexts.length = net.contexts.length + k) ∨
    (k < n ∧ (env (i + k)).accepted = false ∧ out.1 = .ok (-1) ∧
      out.2.2.contexts.length = net.contexts.length + k) ∨
    (k < n ∧ (env (i + k)).Rejected ∧ (∃ e, out.1 = .error e) ∧
      out.2.2.contexts.length = net.contexts.length + k + 1)

private theorem initialize_from_counts (env : Nat → Opening) (n i : Nat) (p : ConnectionPool) (net : Net) :
    ∃ k, Initialized env i n p net (initialize_from env n i p net) k := by
  induction n generalizing i p net with
  | zero => exact ⟨0, le_rfl, by simp, rfl, rfl, rfl, .inl ⟨rfl, rfl, rfl⟩⟩
  | succ n ih =>
    rcases open_one_cases (env i) p net with ⟨refused, done⟩ | ⟨threw, e, done⟩ | ⟨opens, done⟩
    · have out : initialize_from env (n + 1) i p net = (.ok (-1), p, net) := by simp only [initialize_from, done]
      rw [out]
      exact ⟨0, by omega, by simp, rfl, rfl, rfl, .inr (.inl ⟨by omega, refused, rfl, rfl⟩)⟩
    · have out : initialize_from env (n + 1) i p net = (.error e, p, grown net (newContext p (env i).select)) := by
        simp only [initialize_from, done]
      rw [out]
      exact ⟨0, by omega, by simp, rfl, rfl, rfl, .inr (.inr ⟨by omega, threw, ⟨e, rfl⟩, by simp⟩)⟩
    · have out : initialize_from env (n + 1) i p net =
          initialize_from env n (i + 1) (p.push net.contexts.length) (grown net (newContext p (env i).select)) := by
        simp only [initialize_from, done]
      rw [out]
      obtain ⟨k, later⟩ := ih (i + 1) (p.push net.contexts.length) (grown net (newContext p (env i).select))
      have shift : ∀ j, i + 1 + j = i + (j + 1) := fun j => by omega
      have pushed : (p.push net.contexts.length).opened.length = p.opened.length + 1 := by simp [push]
      have ending := later.ending
      rw [shift, grown_length] at ending
      refine ⟨k + 1, by have := later.le; omega, ?_, by rw [later.opened, pushed]; omega, later.size,
        later.max_size, ?_⟩
      · intro j lt
        cases j with
        | zero => exact opens
        | succ j => exact shift j ▸ later.opens j (by omega)
      · rcases ending with ⟨full, ended, count⟩ | ⟨lt, refused, ended, count⟩ | ⟨lt, threw, ended, count⟩
        · exact .inl ⟨by omega, ended, by omega⟩
        · exact .inr (.inl ⟨by omega, refused, ended, by omega⟩)
        · exact .inr (.inr ⟨by omega, threw, ended, by omega⟩)

theorem initialize_counts (env : Nat → Opening) (p : ConnectionPool) (net : Net) :
    ∃ k, Initialized env 0 p.size_.toNat p net (initialize_pool env p net) k :=
  initialize_from_counts env p.size_.toNat 0 p net

/-- What a pool is built with. -/
def fresh (host : Str) (port db size max_size : Int) : ConnectionPool :=
  ⟨[], host, port, db, size, max_size, []⟩

end CppRedis.Pool

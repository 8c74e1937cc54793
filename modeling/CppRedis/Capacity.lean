import CppRedis.Exhaustion

/-!
The number of connections. `size_` starts as a target, `initialize` opens up to
that many, and `acquire` adds one for each connection that it opens. A SELECT
answered by something that is no status throws between opening a connection and
recording it: that connection is lost (`bounded_iff_no_leak`). An `initialize`
that stops early leaves `size_` above the number of its connections for ever
(`capacity_kept`).
-/
namespace CppRedis.Capacity
open CppRedis.Strings CppRedis.Reply CppRedis.Connection CppRedis.Pool CppRedis.Interleaving CppRedis.Execute
open CppRedis.Runs CppRedis.Lending CppRedis.Exhaustion CppRedis.Ledgers

/-- The contexts that have been opened and not freed. -/
def openContexts (net : Net) : List Context := net.contexts.filter fun ctx => !ctx.freed

/-- Every open connection is in the queue or held by a guard, and there are at
    most `max_size_`. -/
structure Bounded (s : System) : Prop where
  found : ∀ c ctx, s.shared.net.contexts[c]? = some ctx → ctx.freed = false →
    some c ∈ s.shared.pool.connq_ ∨ c ∈ held holds s.locals
  bound : ((openContexts s.shared.net).length : Int) ≤ s.shared.pool.max_size_

/-- The step of a thread attempts to open a connection, and the attempt ends as
    `ends` says. -/
def AttemptAt (ends : Opening → Prop) (g : Shared) (l : Stage) (act : Act) : Prop :=
  l = .idle ∧ ∃ cmd o, act = .acquire cmd o ∧ g.pool.connq_ = [] ∧ g.pool.size_ < g.pool.max_size_ ∧ ends o

def Attempt (ends : Opening → Prop) (s : System) (m : Move Act Serving) : Prop :=
  ∃ (i : Nat) (act : Act) (l : Stage), m = .thread i act ∧ s.locals[i]? = some l ∧ AttemptAt ends s.shared l act

/-- A move in which a new connection's SELECT is answered by no status. -/
def Leaks : System → Move Act Serving → Prop := Attempt Opening.Rejected

/-- A move that opens a connection though the pool has `max_size_` already. -/
def Overgrows (s : System) (m : Move Act Serving) : Prop :=
  s.shared.pool.max_size_ ≤ s.shared.pool.opened.length ∧ Attempt Opening.Opens s m

theorem attempt_iff {ends : Opening → Prop} {s : System} {i : Nat} {act : Act} {l : Stage}
    (at_i : s.locals[i]? = some l) : Attempt ends s (.thread i act) ↔ AttemptAt ends s.shared l act := by
  constructor
  · rintro ⟨_, _, k, same, at_j, attempt⟩
    cases same
    rw [at_i, Option.some.injEq] at at_j
    exact at_j ▸ attempt
  · exact fun attempt => ⟨i, act, l, rfl, at_i, attempt⟩

/-! ### What a move counts -/

/-- A step of a thread opens no connection, opens one and throws, or opens one and
    counts it. -/
theorem moves_counts {g g' : Shared} {l l' : Stage} {act : Act} (moves : Moves g l act g' l') :
    (¬ AttemptAt Opening.Rejected g l act ∧ ¬ AttemptAt Opening.Opens g l act ∧
      g'.pool.opened = g.pool.opened ∧ g'.pool.size_ = g.pool.size_ ∧
      g'.net.contexts.length = g.net.contexts.length) ∨
    (AttemptAt Opening.Rejected g l act ∧ g'.pool = g.pool ∧
      g'.net.contexts.length = g.net.contexts.length + 1) ∨
    (AttemptAt Opening.Opens g l act ∧ ¬ AttemptAt Opening.Rejected g l act ∧
      g'.pool.opened.length = g.pool.opened.length + 1 ∧
      g'.pool.size_ = g.pool.size_ + 1 ∧ g'.net.contexts.length = g.net.contexts.length + 1) := by
  have none {ends : Opening → Prop} {k : Stage} {a : Act} (busy : k ≠ .idle) : ¬ AttemptAt ends g k a :=
    fun attempt => busy attempt.1
  cases moves with
  | lent queue =>
    have none {ends : Opening → Prop} {a : Act} : ¬ AttemptAt ends g .idle a := by
      rintro ⟨_, _, _, _, empty, _⟩
      rw [empty] at queue
      cases queue
    exact .inl ⟨none, none, rfl, rfl, rfl⟩
  | @exhausted cmd o empty why =>
    have none {ends : Opening → Prop} (accepts : ∀ o, ends o → o.accepted = true) :
        ¬ AttemptAt ends g .idle (.acquire cmd o) := by
      rintro ⟨_, _, _, same, _, room, ended⟩
      cases same
      rcases why with full | refused
      · omega
      · exact absurd (accepts o ended) (by simp [refused])
    exact .inl ⟨none fun _ rejected => rejected.1, none fun _ opens => opens.1, rfl, rfl, rfl⟩
  | thrown empty room rejected e => exact .inr (.inl ⟨⟨rfl, _, _, rfl, empty, room, rejected⟩, rfl, by simp⟩)
  | opened empty room opens =>
    refine .inr (.inr ⟨⟨rfl, _, _, rfl, empty, room, opens⟩, ?_, by simp, rfl, by simp⟩)
    rintro ⟨_, _, _, same, _, _, rejected⟩
    cases same
    exact opens.2 rejected
  | unavailable => exact .inl ⟨none nofun, none nofun, rfl, rfl, rfl⟩
  | sent at_c live => exact .inl ⟨none nofun, none nofun, rfl, rfl, by simp⟩
  | unsent at_c why => exact .inl ⟨none nofun, none nofun, rfl, rfl, by simp⟩
  | received at_c live next => exact .inl ⟨none nofun, none nofun, rfl, rfl, by simp⟩
  | unanswered at_c why => exact .inl ⟨none nofun, none nofun, rfl, rfl, by simp⟩
  | released => exact .inl ⟨none nofun, none nofun, rfl, rfl, rfl⟩

theorem moves_max_size {g g' : Shared} {l l' : Stage} {act : Act} (moves : Moves g l act g' l') :
    g'.pool.max_size_ = g.pool.max_size_ := by
  cases moves <;> rfl

private theorem put_freed {net : Net} {c : ConnId} {ctx ctx' : Context} (at_c : net.contexts[c]? = some ctx)
    (same : ctx'.freed = ctx.freed) (open_all : ∀ ctx ∈ net.contexts, ctx.freed = false) :
    ∀ ctx ∈ (net.put c ctx').contexts, ctx.freed = false := by
  intro other member
  rcases List.mem_or_eq_of_mem_set member with old | rfl
  · exact open_all other old
  · rw [same]
    exact open_all ctx (List.mem_of_getElem? at_c)

private theorem newContext_freed (p : ConnectionPool) (x : Exchange) : (newContext p x).freed = false := by
  cases x <;> rfl

private theorem grown_freed {net : Net} {ctx : Context} (new : ctx.freed = false)
    (open_all : ∀ ctx ∈ net.contexts, ctx.freed = false) :
    ∀ other ∈ (grown net ctx).contexts, other.freed = false := by
  intro other member
  rcases List.mem_append.mp member with old | last
  · exact open_all other old
  · exact List.mem_singleton.mp last ▸ new

/-- Nothing that a thread does closes a connection. -/
theorem moves_open {g g' : Shared} {l l' : Stage} {act : Act} (moves : Moves g l act g' l')
    (open_all : ∀ ctx ∈ g.net.contexts, ctx.freed = false) : ∀ ctx ∈ g'.net.contexts, ctx.freed = false := by
  cases moves with
  | lent queue => exact open_all
  | exhausted empty why => exact open_all
  | thrown empty room rejected e => exact grown_freed (newContext_freed _ _) open_all
  | opened empty room opens => exact grown_freed (newContext_freed _ _) open_all
  | unavailable => exact open_all
  | sent at_c live => exact put_freed at_c rfl open_all
  | unsent at_c why => exact put_freed at_c rfl open_all
  | received at_c live next => exact put_freed at_c rfl open_all
  | unanswered at_c why => exact put_freed at_c rfl open_all
  | released => exact open_all

/-! ### Lost connections -/

/-- What holds in every run of a pool. -/
structure Counts (s : System) : Prop where
  books : ∃ L, Keeps s L
  open_all : ∀ ctx ∈ s.shared.net.contexts, ctx.freed = false

theorem openContexts_all {net : Net} (open_all : ∀ ctx ∈ net.contexts, ctx.freed = false) :
    openContexts net = net.contexts :=
  List.filter_eq_self.mpr fun ctx member => by simp [open_all ctx member]

/-- The pool's connections are among all that were opened. -/
theorem opened_le {s : System} {L : Ledger ConnId} (keeps : Keeps s L) :
    s.shared.pool.opened.Nodup ∧ s.shared.pool.opened ⊆ List.range s.shared.net.contexts.length := by
  have distinct : L.issued.Nodup := L.distinct
  rw [keeps.issued] at distinct
  exact ⟨Multiset.coe_nodup.mp distinct, fun c member => List.mem_range.mpr (keeps.old c member)⟩

/-- A pool is bounded exactly if all connections that were opened are its own, and
    these are not too many. -/
theorem bounded_iff {s : System} (counts : Counts s) :
    Bounded s ↔ s.shared.net.contexts.length = s.shared.pool.opened.length ∧
      (s.shared.pool.opened.length : Int) ≤ s.shared.pool.max_size_ := by
  obtain ⟨⟨L, keeps⟩, open_all⟩ := counts
  obtain ⟨distinct, below⟩ := opened_le keeps
  have few : s.shared.pool.opened.length ≤ s.shared.net.contexts.length := by
    simpa using (distinct.subperm below).length_le
  have place (c : ConnId) : (some c ∈ s.shared.pool.connq_ ∨ c ∈ held holds s.locals) ↔ c ∈ s.shared.pool.opened := by
    have entered : c ∈ s.shared.pool.opened ↔ c ∈ L.issued := by rw [keeps.issued, Multiset.mem_coe]
    rw [entered, Ledger.issued, Multiset.mem_add, keeps.idle, keeps.lent, Multiset.mem_coe,
      List.reduceOption_mem_iff]
  constructor
  · intro bounded
    have all : List.range s.shared.net.contexts.length ⊆ s.shared.pool.opened := by
      intro c member
      have inside := List.mem_range.mp member
      have at_c := List.getElem?_eq_getElem inside
      exact (place c).mp (bounded.found c _ at_c (open_all _ (List.getElem_mem inside)))
    have many := (List.nodup_range.subperm all).length_le
    rw [List.length_range] at many
    have bound := bounded.bound
    rw [openContexts_all open_all] at bound
    exact ⟨by omega, by omega⟩
  · rintro ⟨same, bound⟩
    refine ⟨fun c ctx at_c _ => (place c).mpr ?_, ?_⟩
    · have inside := (List.getElem?_eq_some_iff.mp at_c).1
      have perm : s.shared.pool.opened.Perm (List.range s.shared.net.contexts.length) :=
        (distinct.subperm below).perm_of_length_le (by rw [List.length_range]; omega)
      exact perm.mem_iff.mpr (List.mem_range.mpr inside)
    · rw [openContexts_all open_all, same]
      exact bound

theorem step_open {s s' : System} {m : Move Act Serving} (taken : step s m = some s')
    (open_all : ∀ ctx ∈ s.shared.net.contexts, ctx.freed = false) :
    ∀ ctx ∈ s'.shared.net.contexts, ctx.freed = false := by
  rcases step_cases taken with ⟨i, act, l, l', rfl, at_i, moved, locals⟩ | ⟨e, rfl, served, locals⟩
  · exact moves_open (own_moves moved) open_all
  · obtain ⟨ctx, request, rest, at_e, _, same⟩ := serving_cases served
    rw [same]
    exact put_freed at_e rfl open_all

theorem step_counts {s s' : System} {m : Move Act Serving} (counts : Counts s) (taken : step s m = some s') :
    Counts s' := by
  obtain ⟨⟨L, keeps⟩, open_all⟩ := counts
  obtain ⟨L', _, keeps'⟩ := step_lends keeps taken
  exact ⟨⟨L', keeps'⟩, step_open taken open_all⟩

/-- A bounded pool stays so exactly if a move neither loses a connection nor opens
    one too many. -/
theorem step_bounded {s s' : System} {m : Move Act Serving} (counts : Counts s) (bounded : Bounded s)
    (taken : step s m = some s') : Bounded s' ↔ ¬ Leaks s m ∧ ¬ Overgrows s m := by
  rw [bounded_iff (step_counts counts taken)]
  rw [bounded_iff counts] at bounded
  rcases step_cases taken with ⟨i, act, l, l', rfl, at_i, moved, locals⟩ | ⟨e, rfl, served, locals⟩
  · have moves := own_moves moved
    rw [Leaks, Overgrows, attempt_iff at_i, attempt_iff at_i, moves_max_size moves]
    rcases moves_counts moves with ⟨spared, small, opened, _, count⟩ | ⟨leaks, pool, count⟩ |
      ⟨grows, spared, opened, _, count⟩
    · rw [opened, count]
      exact iff_of_true bounded ⟨spared, fun excess => small excess.2⟩
    · rw [pool, count]
      refine iff_of_false ?_ fun fine => fine.1 leaks
      intro same
      omega
    · rw [opened, count]
      constructor
      · rintro ⟨_, bound⟩
        refine ⟨spared, ?_⟩
        rintro ⟨full, _⟩
        push_cast at bound
        omega
      · intro fine
        have room : ¬ s.shared.pool.max_size_ ≤ s.shared.pool.opened.length := fun full => fine.2 ⟨full, grows⟩
        constructor
        · omega
        · push_cast
          omega
  · obtain ⟨ctx, request, rest, _, _, same⟩ := serving_cases served
    have none {ends : Opening → Prop} : ¬ Attempt ends s (.outside e) := by
      rintro ⟨_, _, _, wrong, _⟩
      cases wrong
    exact iff_of_true (by rw [same]; simpa using bounded) ⟨none, fun excess => none excess.2⟩

/-- No attempt that `initialize` comes to has its SELECT answered by no status. -/
def InitializeSpared (env : Nat → Opening) (size : Int) : Prop :=
  ∀ k < size.toNat, (∀ j < k, (env j).Opens) → ¬ (env k).Rejected

theorem start_counts (threads : Nat) (env : Nat → Opening) (host : Str) (port db size max_size : Int) :
    Counts (start threads env (fresh host port db size max_size)) :=
  ⟨start_lends threads env host port db size max_size,
    initialize_invariant env (fun _ net => ∀ ctx ∈ net.contexts, ctx.freed = false)
      (fun _ _ _ open_all _ => grown_freed (newContext_freed _ _) open_all)
      (fun _ _ _ open_all _ => grown_freed (newContext_freed _ _) open_all)
      (p := fresh host port db size max_size) (fun ctx (member : ctx ∈ ({} : Net).contexts) => by cases member)⟩

theorem start_bounded (threads : Nat) (env : Nat → Opening) (host : Str) (port db : Int) {size max_size : Int}
    (limit : size ≤ max_size) :
    Bounded (start threads env (fresh host port db size max_size)) ↔ 0 ≤ max_size ∧ InitializeSpared env size := by
  rw [bounded_iff (start_counts threads env host port db size max_size), and_comm]
  obtain ⟨k, done⟩ := initialize_counts env (fresh host port db size max_size) {}
  have opened : (start threads env (fresh host port db size max_size)).shared.pool.opened.length = 0 + k :=
    done.opened
  have most : (start threads env (fresh host port db size max_size)).shared.pool.max_size_ = max_size :=
    done.max_size
  have le : k ≤ size.toNat := done.le
  have opens : ∀ j < k, (env j).Opens := fun j lt => by simpa using done.opens j lt
  have ending := done.ending
  rw [Nat.zero_add] at ending
  rw [opened, most]
  apply and_congr
  · omega
  rcases ending with ⟨full, _, count⟩ | ⟨lt, refused, _, count⟩ | ⟨lt, threw, _, count⟩
  · refine iff_of_true (by exact count) (fun j lt _ => (opens j ?_).2)
    rw [full]
    exact lt
  · refine iff_of_true (by exact count) ?_
    intro j _ before rejected
    rcases Nat.lt_trichotomy j k with less | same | more
    · exact (opens j less).2 rejected
    · have accepted := rejected.1
      rw [same, refused] at accepted
      cases accepted
    · have accepted := (before k more).1
      rw [refused] at accepted
      cases accepted
  · refine iff_of_false ?_ (fun spared => spared k lt opens threw)
    have count : (start threads env (fresh host port db size max_size)).shared.net.contexts.length = 0 + k + 1 :=
      count
    rw [count]
    omega

/-- For a pool built with a size of at most `max_size`: along a run no connection
    is lost, and never are more than `max_size` open, exactly if no SELECT on a
    new connection is answered by something that is no status and no connection is
    opened beside `max_size` others. -/
theorem bounded_iff_no_leak (threads : Nat) (env : Nat → Opening) (host : Str) (port db : Int)
    {size max_size : Int} (limit : size ≤ max_size) (moves : List (Move Act Serving)) :
    Along step Bounded (start threads env (fresh host port db size max_size)) moves ↔
      (0 ≤ max_size ∧ InitializeSpared env size) ∧
        Meets step (fun s m => ¬ Leaks s m ∧ ¬ Overgrows s m)
          (start threads env (fresh host port db size max_size)) moves := by
  have counts := start_counts threads env host port db size max_size
  have exactly (starts : Bounded (start threads env (fresh host port db size max_size))) :
      Along step Bounded (start threads env (fresh host port db size max_size)) moves ↔
        Meets step (fun s m => ¬ Leaks s m ∧ ¬ Overgrows s m)
          (start threads env (fresh host port db size max_size)) moves :=
    along_iff_each Counts (fun _ _ _ counts taken => step_counts counts taken)
      (fun _ _ _ counts bounded taken => step_bounded counts bounded taken) counts starts moves
  rw [← start_bounded threads env host port db limit]
  constructor
  · intro along
    exact ⟨along.1, (exactly along.1).mp along⟩
  · rintro ⟨starts, met⟩
    exact (exactly starts).mpr met

theorem bounded_iff_no_leak_two_calls :
    Along step Bounded (start 2 (fun _ => reachable) (fresh (lit "h") 6379 0 1 1)) twoCalls ↔
      ((0 : Int) ≤ 1 ∧ InitializeSpared (fun _ => reachable) 1) ∧
        Meets step (fun s m => ¬ Leaks s m ∧ ¬ Overgrows s m)
          (start 2 (fun _ => reachable) (fresh (lit "h") 6379 0 1 1)) twoCalls :=
  bounded_iff_no_leak 2 (fun _ => reachable) (lit "h") 6379 0 (by decide) twoCalls

/-- A connection that is accepted and whose SELECT is answered by an error. -/
def misplaced : Opening := ⟨true, .reply (.error (lit "ERR invalid DB index")) false⟩

/-- Two calls that throw leave two connections open that the pool of at most one
    connection does not know. -/
theorem misplaced_leaks : ∃ s,
    run step (start 1 (fun _ => reachable) (fresh (lit "h") 6379 99 0 1))
      [.thread 0 (.acquire [lit "GET"] misplaced), .thread 0 (.acquire [lit "GET"] misplaced)] = some s ∧
      s.shared.pool.connq_ = [] ∧ held holds s.locals = 0 ∧ (openContexts s.shared.net).length = 2 ∧
      ¬ Bounded s := by
  have ends : (run step (start 1 (fun _ => reachable) (fresh (lit "h") 6379 99 0 1))
      [.thread 0 (.acquire [lit "GET"] misplaced), .thread 0 (.acquire [lit "GET"] misplaced)]).map
        (fun s => (s.shared.pool.connq_, held holds s.locals, (openContexts s.shared.net).length,
          s.shared.pool.max_size_)) = some ([], 0, 2, 1) := by decide
  obtain ⟨s, runs, is⟩ := Option.map_eq_some_iff.mp ends
  simp only [Prod.mk.injEq] at is
  obtain ⟨queue, lent, count, most⟩ := is
  refine ⟨s, runs, queue, lent, count, ?_⟩
  intro bounded
  have bound := bounded.bound
  rw [count, most] at bound
  omega

/-! ### The counter -/

/-- `size_` is the number of connections that are idle or lent. -/
def Counted (s : System) : Prop :=
  s.shared.pool.size_ = s.shared.pool.connq_.reduceOption.length + (held holds s.locals).card

/-- The counter is right; an `acquire` that finds no idle connection while fewer
    than `max_size_` are open opens one when it is accepted; and with a server
    that accepts, `max_size_` callers can hold connections together. -/
structure Capacious (s : System) : Prop where
  counted : Counted s
  tries : NoIdle s.shared.pool → ((openContexts s.shared.net).length : Int) < s.shared.pool.max_size_ →
    ∀ x, (ConnectionPool.acquire ⟨true, x⟩ s.shared.pool s.shared.net).2.2.contexts.length =
      s.shared.net.contexts.length + 1
  fills : ∃ more moves s', (∀ m ∈ moves, ∃ i cmd, m = .thread i (.acquire cmd reachable)) ∧
    run step ⟨s.shared, s.locals ++ List.replicate more .idle⟩ moves = some s' ∧
    ((held holds s'.locals).card : Int) = s.shared.pool.max_size_

/-- All attempts of `initialize` open a connection. -/
def AllOpen (env : Nat → Opening) (size : Int) : Prop := ∀ j < size.toNat, (env j).Opens

theorem counted_iff {s : System} {L : Ledger ConnId} (keeps : Keeps s L) :
    Counted s ↔ s.shared.pool.size_ = s.shared.pool.opened.length := by
  have total : s.shared.pool.opened.length =
      s.shared.pool.connq_.reduceOption.length + (held holds s.locals).card := by
    rw [← Multiset.coe_card, ← keeps.issued, Ledger.issued, Multiset.card_add, keeps.idle, keeps.lent,
      Multiset.coe_card]
  rw [Counted, total]
  push_cast
  rfl

/-- No move changes by how much `size_` exceeds the number of connections. -/
theorem step_gap {s s' : System} {m : Move Act Serving} (taken : step s m = some s') :
    s'.shared.pool.size_ - s'.shared.pool.opened.length = s.shared.pool.size_ - s.shared.pool.opened.length ∧
      s'.shared.pool.max_size_ = s.shared.pool.max_size_ := by
  rcases step_cases taken with ⟨i, act, l, l', rfl, at_i, moved, locals⟩ | ⟨e, rfl, served, locals⟩
  · have moves := own_moves moved
    refine ⟨?_, moves_max_size moves⟩
    rcases moves_counts moves with ⟨_, _, opened, size, _⟩ | ⟨_, pool, _⟩ | ⟨_, _, opened, size, _⟩
    · rw [opened, size]
    · rw [pool]
    · rw [opened, size]
      push_cast
      omega
  · rw [(serving_keeps served).1]
    exact ⟨rfl, rfl⟩

/-- A pool that is built with a size of at least 0 never opens a connection too
    many. -/
theorem never_overgrows {threads : Nat} {env : Nat → Opening} {host : Str} {port db size max_size : Int}
    (positive : 0 ≤ size) {moves : List (Move Act Serving)} {s : System}
    (runs : run step (start threads env (fresh host port db size max_size)) moves = some s)
    (m : Move Act Serving) : ¬ Overgrows s m := by
  obtain ⟨k, done⟩ := initialize_counts env (fresh host port db size max_size) {}
  have opened : (start threads env (fresh host port db size max_size)).shared.pool.opened.length = 0 + k :=
    done.opened
  have same : (start threads env (fresh host port db size max_size)).shared.pool.size_ = size := done.size
  have le : k ≤ size.toNat := done.le
  have counted : (s.shared.pool.opened.length : Int) ≤ s.shared.pool.size_ :=
    run_invariant (fun s : System => (s.shared.pool.opened.length : Int) ≤ s.shared.pool.size_)
      (fun _ _ _ counted taken => by have := (step_gap taken).1; omega) runs (by rw [opened, same]; omega)
  rintro ⟨full, _, _, _, _, _, _, _, _, _, _, room, _⟩
  omega

theorem step_counted {s s' : System} {m : Move Act Serving} {L : Ledger ConnId} (keeps : Keeps s L)
    (taken : step s m = some s') : Counted s' ↔ Counted s := by
  obtain ⟨L', _, keeps'⟩ := step_lends keeps taken
  have gap := (step_gap taken).1
  rw [counted_iff keeps, counted_iff keeps']
  omega

theorem start_counted (threads : Nat) (env : Nat → Opening) (host : Str) (port db size max_size : Int) :
    Counted (start threads env (fresh host port db size max_size)) ↔ 0 ≤ size ∧ AllOpen env size := by
  obtain ⟨L, keeps⟩ := start_lends threads env host port db size max_size
  rw [counted_iff keeps]
  obtain ⟨k, done⟩ := initialize_counts env (fresh host port db size max_size) {}
  have opened : (start threads env (fresh host port db size max_size)).shared.pool.opened.length = 0 + k :=
    done.opened
  have same : (start threads env (fresh host port db size max_size)).shared.pool.size_ = size := done.size
  have opens : ∀ j < k, (env j).Opens := fun j lt => by simpa using done.opens j lt
  have le : k ≤ size.toNat := done.le
  rw [opened, same]
  constructor
  · intro counted
    have full : size.toNat = k := by omega
    exact ⟨by omega, fun j lt => opens j (full ▸ lt)⟩
  · rintro ⟨positive, all⟩
    have ending := done.ending
    rw [Nat.zero_add] at ending
    rcases ending with ⟨full, _⟩ | ⟨lt, refused, _⟩ | ⟨lt, threw, _⟩
    · have full : k = size.toNat := full
      omega
    · have accepted := (all k lt).1
      rw [refused] at accepted
      cases accepted
    · exact absurd threw (all k lt).2

/-- `size_` is right along every run exactly if `initialize` opened all its
    connections. -/
theorem along_counted (threads : Nat) (env : Nat → Opening) (host : Str) (port db size max_size : Int)
    (moves : List (Move Act Serving)) :
    Along step Counted (start threads env (fresh host port db size max_size)) moves ↔ 0 ≤ size ∧ AllOpen env size := by
  rw [← start_counted threads env host port db size max_size]
  constructor
  · exact And.left
  intro starts
  refine along_invariant (fun s => (∃ L, Keeps s L) ∧ Counted s) ?_ (fun _ both => both.2) ⟨start_lends .., starts⟩ moves
  intro s m s' both taken
  obtain ⟨⟨L, keeps⟩, counted⟩ := both
  obtain ⟨L', _, keeps'⟩ := step_lends keeps taken
  exact ⟨⟨L', keeps'⟩, (step_counted keeps taken).mpr counted⟩

/-! ### No capacity is lost -/

/-- The state of a pool that has lost no capacity. -/
structure Full (s : System) : Prop where
  books : ∃ L, Keeps s L
  open_all : ∀ ctx ∈ s.shared.net.contexts, ctx.freed = false
  counted : Counted s
  limit : s.shared.pool.size_ ≤ s.shared.pool.max_size_
  clean : none ∉ s.shared.pool.connq_

theorem step_limit {s s' : System} {m : Move Act Serving} (taken : step s m = some s')
    (limit : s.shared.pool.size_ ≤ s.shared.pool.max_size_) : s'.shared.pool.size_ ≤ s'.shared.pool.max_size_ := by
  rcases step_cases taken with ⟨i, act, l, l', rfl, at_i, moved, locals⟩ | ⟨e, rfl, served, locals⟩
  · have moves := own_moves moved
    rw [moves_max_size moves]
    rcases moves_counts moves with ⟨_, _, _, size, _⟩ | ⟨_, pool, _⟩ | ⟨⟨_, _, _, _, _, room, _⟩, _, _, size, _⟩
    · rw [size]
      exact limit
    · rw [pool]
      exact limit
    · rw [size]
      omega
  · rw [(serving_keeps served).1]
    exact limit

theorem step_full {s s' : System} {m : Move Act Serving} (full : Full s) (spared : ¬ ReleasesNull s m)
    (taken : step s m = some s') : Full s' := by
  obtain ⟨L, keeps⟩ := full.books
  obtain ⟨L', _, keeps'⟩ := step_lends keeps taken
  exact ⟨⟨L', keeps'⟩, step_open taken full.open_all, (step_counted keeps taken).mpr full.counted,
    step_limit taken full.limit, (step_null full.clean taken).mpr spared⟩

/-- One more thread that has not begun changes nothing. -/
theorem full_idle {s : System} (full : Full s) : Full ⟨s.shared, s.locals ++ [.idle]⟩ := by
  have same : held holds (s.locals ++ [.idle]) = held holds s.locals := by simp [held_append, holds]
  obtain ⟨L, keeps⟩ := full.books
  refine ⟨⟨L, ?_⟩, full.open_all, ?_, full.limit, full.clean⟩
  · rw [Keeps, same]
    exact keeps
  · rw [Counted, same]
    exact full.counted

theorem reachable_opens : reachable.Opens := by
  refine ⟨rfl, ?_⟩
  rintro ⟨_, r, switched, is, notStatus⟩
  cases is
  exact notStatus trivial

/-- While fewer than `max_size_` are lent, a caller gets a connection. -/
private theorem acquire_some {s : System} (full : Full s)
    (fewer : ((held holds s.locals).card : Int) < s.shared.pool.max_size_) (cmd : RedisCmd) :
    ∃ g' c, own s.shared .idle (.acquire cmd reachable) = some (g', .guarded s.shared.nextCall cmd (some c)) := by
  rcases acquire_cases reachable s.shared.pool s.shared.net with
    ⟨conn, rest, queue, done⟩ | ⟨empty, why, done⟩ | ⟨_, _, rejected, _⟩ | ⟨_, _, _, done⟩
  · cases conn with
    | none => exact absurd (queue ▸ List.mem_cons_self) full.clean
    | some c => exact ⟨_, c, by simp only [own, done]; rfl⟩
  · have counted := full.counted
    rw [Counted, empty, List.reduceOption_nil, List.length_nil, Nat.cast_zero, zero_add] at counted
    rcases why with at_limit | refused
    · omega
    · exact absurd refused (by decide)
  · exact absurd rejected reachable_opens.2
  · exact ⟨_, _, by simp only [own, done]; rfl⟩

private theorem fill (d : Nat) {s : System} (full : Full s)
    (room : ((held holds s.locals).card : Int) + d = s.shared.pool.max_size_) :
    ∃ moves s', (∀ m ∈ moves, ∃ i cmd, m = .thread i (.acquire cmd reachable)) ∧
      run step ⟨s.shared, s.locals ++ List.replicate d .idle⟩ moves = some s' ∧
      ((held holds s'.locals).card : Int) = s.shared.pool.max_size_ := by
  induction d generalizing s with
  | zero => exact ⟨[], s, by simp, by simp, by simpa using room⟩
  | succ d ih =>
    obtain ⟨g', c, acquired⟩ := acquire_some full (by omega) [lit "PING"]
    -- thread `s.locals.length` is the first of the new ones; it takes the next connection
    have single : step ⟨s.shared, s.locals ++ [.idle]⟩ (.thread s.locals.length (.acquire [lit "PING"] reachable)) =
        some ⟨g', s.locals ++ [.guarded s.shared.nextCall [lit "PING"] (some c)]⟩ := by
      rw [Execute.step, step_thread (l := .idle) (by simp) acquired]
      simp
    have first : step ⟨s.shared, s.locals ++ List.replicate (d + 1) .idle⟩
        (.thread s.locals.length (.acquire [lit "PING"] reachable)) =
        some ⟨g', s.locals ++ [.guarded s.shared.nextCall [lit "PING"] (some c)] ++ List.replicate d .idle⟩ := by
      rw [Execute.step, step_thread (l := .idle) (by simp) acquired]
      simp [List.replicate_succ]
    have spared : ¬ ReleasesNull ⟨s.shared, s.locals ++ [.idle]⟩
        (.thread s.locals.length (.acquire [lit "PING"] reachable)) := by
      rintro ⟨_, _, _, _, wrong, _⟩
      cases wrong
    have full' := step_full (full_idle full) spared single
    have most : g'.pool.max_size_ = s.shared.pool.max_size_ := (step_gap single).2
    have more : ((held holds (s.locals ++ [.guarded s.shared.nextCall [lit "PING"] (some c)])).card : Int) =
        (held holds s.locals).card + 1 := by simp [held_append, holds]
    obtain ⟨moves, s', acquires, runs, count⟩ := ih full' (by rw [more, most]; push_cast at room; omega)
    refine ⟨_ :: moves, s', ?_, run_cons_some.mpr ⟨_, first, runs⟩, by rw [count, most]⟩
    intro m member
    rcases List.mem_cons.mp member with rfl | later
    · exact ⟨_, _, rfl⟩
    · exact acquires m later

theorem full_capacious {s : System} (full : Full s) : Capacious s := by
  obtain ⟨L, keeps⟩ := full.books
  have counted := full.counted
  refine ⟨counted, ?_, ?_⟩
  · intro noIdle few x
    have empty : s.shared.pool.connq_ = [] := by
      apply List.eq_nil_iff_forall_not_mem.mpr
      intro conn member
      cases conn with
      | none => exact full.clean member
      | some c => exact noIdle c member
    obtain ⟨distinct, below⟩ := opened_le keeps
    have within : s.shared.pool.opened.length ≤ s.shared.net.contexts.length := by
      simpa using (distinct.subperm below).length_le
    rw [openContexts_all full.open_all] at few
    rw [counted_iff keeps] at counted
    rcases acquire_cases ⟨true, x⟩ s.shared.pool s.shared.net with
      ⟨_, _, queue, _⟩ | ⟨_, why, _⟩ | ⟨_, _, _, _, done⟩ | ⟨_, _, _, done⟩
    · rw [empty] at queue; cases queue
    · rcases why with at_limit | refused
      · omega
      · cases refused
    · rw [done, grown_length]
    · rw [done, grown_length]
  · have room : ((held holds s.locals).card : Int) ≤ s.shared.pool.max_size_ := by
      have limit := full.limit
      rw [Counted] at counted
      omega
    obtain ⟨d, enough⟩ := Int.eq_ofNat_of_zero_le (Int.sub_nonneg.mpr room)
    obtain ⟨moves, s', acquires, runs, count⟩ := fill d full (by omega)
    exact ⟨d, moves, s', acquires, runs, count⟩

/-- For a pool built with a size of at most `max_size`: `size_` is right along a
    run exactly if the size is not negative and `initialize` opened all its
    connections; and then no capacity is lost along a run in which no guard that
    holds NULL is destroyed. -/
theorem capacity_kept (threads : Nat) (env : Nat → Opening) (host : Str) (port db : Int) {size max_size : Int}
    (limit : size ≤ max_size) (moves : List (Move Act Serving)) :
    (Along step Counted (start threads env (fresh host port db size max_size)) moves ↔
      0 ≤ size ∧ AllOpen env size) ∧
    (0 ≤ size → AllOpen env size →
      Meets step (fun s m => ¬ ReleasesNull s m) (start threads env (fresh host port db size max_size)) moves →
      Along step Capacious (start threads env (fresh host port db size max_size)) moves) := by
  refine ⟨along_counted threads env host port db size max_size moves, ?_⟩
  intro positive all met
  obtain ⟨books, open_all⟩ := start_counts threads env host port db size max_size
  obtain ⟨k, done⟩ := initialize_counts env (fresh host port db size max_size) {}
  have within : (start threads env (fresh host port db size max_size)).shared.pool.size_ ≤
      (start threads env (fresh host port db size max_size)).shared.pool.max_size_ := by
    have same : (start threads env (fresh host port db size max_size)).shared.pool.size_ = size := done.size
    have most : (start threads env (fresh host port db size max_size)).shared.pool.max_size_ = max_size :=
      done.max_size
    rw [same, most]
    exact limit
  have full : Full (start threads env (fresh host port db size max_size)) :=
    ⟨books, open_all, (start_counted threads env host port db size max_size).mpr ⟨positive, all⟩, within,
      start_clean threads env host port db size max_size⟩
  exact along_of_each Full (fun _ _ _ full spared taken => step_full full spared taken)
    (fun _ full => full_capacious full) full moves met

/-- Two calls at a pool of at most two connections: the second one opens its own. -/
def grownCalls : List (Move Act Serving) :=
  [.thread 0 (.acquire [lit "GET"] reachable), .thread 1 (.acquire [lit "PING"] reachable),
   .thread 1 (.send none), .thread 0 (.send none), .outside ⟨1, .status (lit "PONG"), false⟩, .thread 1 (.receive none),
   .thread 1 .release, .outside ⟨0, .string (lit "v"), false⟩, .thread 0 (.receive none), .thread 0 .release]

theorem capacity_kept_grown_calls :
    (∃ s, run step (start 2 (fun _ => reachable) (fresh (lit "h") 6379 0 1 2)) grownCalls = some s ∧
      s.shared.pool.connq_ = [some 1, some 0] ∧ s.shared.pool.size_ = 2) ∧
    Along step Counted (start 2 (fun _ => reachable) (fresh (lit "h") 6379 0 1 2)) grownCalls ∧
    Along step Capacious (start 2 (fun _ => reachable) (fresh (lit "h") 6379 0 1 2)) grownCalls := by
  have all : AllOpen (fun _ => reachable) 1 := fun _ _ => reachable_opens
  have unexhausted :
      Meets step (fun s m => ¬ ReleasesNull s m) (start 2 (fun _ => reachable) (fresh (lit "h") 6379 0 1 2)) grownCalls := by
    decide
  have kept := capacity_kept 2 (fun _ => reachable) (lit "h") 6379 0 (show (1 : Int) ≤ 2 by decide) grownCalls
  have ends : (run step (start 2 (fun _ => reachable) (fresh (lit "h") 6379 0 1 2)) grownCalls).map
      (fun s => (s.shared.pool.connq_, s.shared.pool.size_)) = some ([some 1, some 0], 2) := by decide
  obtain ⟨s, runs, is⟩ := Option.map_eq_some_iff.mp ends
  rw [Prod.mk.injEq] at is
  exact ⟨⟨s, runs, is⟩, kept.1.mpr ⟨by decide, all⟩, kept.2 (by decide) all unexhausted⟩

/-- An attempt that is refused. -/
def refusing : Opening := ⟨false, .noReply []⟩

/-- A pool of two whose second attempt was refused: with one connection open and
    lent, the next call is told that the pool is exhausted. -/
theorem refused_start_loses_capacity : ∃ s,
    run step (start 2 (fun i => if i = 0 then reachable else refusing) (fresh (lit "h") 6379 0 2 2))
      [.thread 0 (.acquire [lit "GET"] reachable)] = some s ∧ ¬ Counted s ∧
      (openContexts s.shared.net).length = 1 ∧ s.shared.pool.max_size_ = 2 ∧ NoIdle s.shared.pool ∧
      ∀ o, ConnectionPool.acquire o s.shared.pool s.shared.net = (.ok none, s.shared.pool, s.shared.net) := by
  have ends : (run step (start 2 (fun i => if i = 0 then reachable else refusing) (fresh (lit "h") 6379 0 2 2))
      [.thread 0 (.acquire [lit "GET"] reachable)]).map
        (fun s => (s.shared.pool.connq_, held holds s.locals, (openContexts s.shared.net).length,
          s.shared.pool.size_, s.shared.pool.max_size_)) = some ([], {0}, 1, 2, 2) := by decide
  obtain ⟨s, runs, is⟩ := Option.map_eq_some_iff.mp ends
  simp only [Prod.mk.injEq] at is
  obtain ⟨queue, lent, count, size, most⟩ := is
  refine ⟨s, runs, ?_, count, most, ?_, ?_⟩
  · rw [Counted, queue, lent, size]
    decide
  · intro c member
    simp [queue] at member
  · intro o
    simp [ConnectionPool.acquire, queue, size, most]

end CppRedis.Capacity

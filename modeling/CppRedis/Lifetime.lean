import CppRedis.Monitor

/-!
Application threads beside the monitor. A thread in `execute` keeps the pool
that `pool_` pointed to when its guard was built, and `connect`, called by a tick
on the event thread, deletes that pool without asking. `uses` records every
`acquire` and `release`, and whether the pool was deleted then. No deleted pool
is used while every deletion waits until no thread is in `execute` and no thread
begins between the deletion and the assignment of `pool_`
(`uses_alive_while_calm`). The small steps of the monitor make up `connect`
(`connect_undisturbed`).
-/
namespace CppRedis.Lifetime
open CppRedis.Strings CppRedis.Reply CppRedis.Connection CppRedis.Pool CppRedis.Interleaving CppRedis.Execute
open CppRedis.Runs CppRedis.Lending CppRedis.Clients CppRedis.Sentinels CppRedis.Monitor
open ConnectionPool

/-- What is done to a pool; an `acquire` that throws gets no connection. -/
inductive Op
  | acquire (conn : Option ConnId)
  | release (conn : Option ConnId)
  deriving DecidableEq

structure Use where
  op : Op
  pool : PoolId
  deleted : Bool
  deriving DecidableEq

/-- Where the event thread is: between ticks, or in `connect` and there before or
    in the deletion, before the allocation or in `initialize`; it is `failed` when
    an exception has left `initialize`. -/
inductive Phase
  | watching
  | connecting (addr : Str × Int)
  | deleting (addr : Str × Int) (p : PoolId)
  | allocating (addr : Str × Int)
  | filling (p : PoolId) (i : Nat)
  | failed

structure Shared where
  client : Client
  nextCall : Nat := 0
  returned : List Returned := []
  master : Str × Int
  db : Int
  phase : Phase := .watching
  uses : List Use := []

/-- Where a thread is: outside of `execute`, or in it with a guard on a pool; the
    guard's `acquire` has not begun while the stage is idle. -/
inductive Frame
  | outside
  | within (p : PoolId) (stage : Stage)

inductive Act
  | enter
  | move (act : Execute.Act)

/-- What the event thread and the servers do; `tick` ends a discovery. -/
inductive Event
  | tick (addr : Str × Int)
  | remove
  | close (x : Exchange)
  | freed
  | allocate
  | fill (o : Opening)
  | filled
  | serve (e : Serving)

/-- The connection that the guard holds. -/
def lentTo : Stage → Option ConnId
  | .idle => none
  | .guarded _ _ conn => conn
  | .waiting _ _ c => some c
  | .unwinding _ _ conn _ => conn

/-- What a step of a thread does to its pool. -/
def usesOf (p : PoolId) (deleted : Bool) (before after : Stage) : Execute.Act → List Use
  | .acquire _ _ => [⟨.acquire (lentTo after), p, deleted⟩]
  | .release => [⟨.release (lentTo before), p, deleted⟩]
  | _ => []

def frameOf (p : PoolId) : Stage → Frame
  | .idle => .outside
  | stage => .within p stage

def own : Shared → Frame → Act → Option (Shared × Frame)
  | g, .outside, .enter =>
    match g.client.pool_ with
    | none => none
    | some p => some (g, .within p .idle)
  | g, .within p stage, .move act =>
    match g.client.pools[p]? with
    | none => none
    | some cell =>
      match Execute.own ⟨cell.pool, g.client.net, g.nextCall, g.returned⟩ stage act with
      | none => none
      | some (e, stage') =>
        some ({ g with
          client := { g.client with pools := g.client.pools.set p { cell with pool := e.pool }, net := e.net }
          nextCall := e.nextCall
          returned := e.returned
          uses := g.uses ++ usesOf p cell.deleted stage stage' act }, frameOf p stage')
  | _, _, _ => none

/-- A pool of the client and the network after a step on it. -/
def Shared.put (g : Shared) (p : PoolId) (cell : Cell) (net : Net) (phase : Phase) : Shared :=
  { g with client := { g.client with pools := g.client.pools.set p cell, net := net }, phase := phase }

/-- `delete pool_` begins: the object's lifetime ends. -/
def remove (addr : Str × Int) (g : Shared) : Option Shared :=
  match g.client.pool_ with
  | none => some { g with phase := .allocating addr }
  | some p =>
    match g.client.pools[p]? with
    | none => none
    | some cell =>
      if cell.deleted then none
      else some (g.put p { cell with deleted := true } g.client.net (.deleting addr p))

/-- A round of the loop of `~ConnectionPool`; no step when the program ends. -/
def close (addr : Str × Int) (p : PoolId) (x : Exchange) (g : Shared) : Option Shared :=
  match g.client.pools[p]? with
  | none => none
  | some cell =>
    match cell.pool.connq_ with
    | [] => none
    | conn :: rest =>
      match delete_connection conn x g.client.net with
      | .error _ => none
      | .ok net => some (g.put p { cell with pool := { cell.pool with connq_ := rest } } net (.deleting addr p))

/-- `pool_ = new ConnectionPool(host, port, db)`. -/
def allocate (addr : Str × Int) (g : Shared) : Shared :=
  { g with
    client := { g.client with
      pool_ := some g.client.pools.length
      pools := g.client.pools ++ [⟨fresh addr.1 addr.2 g.db default_size default_max_size, false⟩] }
    phase := .filling g.client.pools.length 0 }

/-- A round of the loop of `initialize`. -/
def fill (p : PoolId) (i : Nat) (o : Opening) (cell : Cell) (g : Shared) : Shared :=
  match open_one o cell.pool g.client.net with
  | (.error _, pool, net) => g.put p { cell with pool := pool } net .failed
  | (.ok false, pool, net) => g.put p { cell with pool := pool } net .watching
  | (.ok true, pool, net) => g.put p { cell with pool := pool } net (.filling p (i + 1))

def outer (g : Shared) : Event → Option Shared
  | .tick addr =>
    match g.phase with
    | .watching => some { g with phase := if addr ≠ g.master then .connecting addr else .watching }
    | _ => none
  | .remove =>
    match g.phase with
    | .connecting addr => remove addr g
    | _ => none
  | .close x =>
    match g.phase with
    | .deleting addr p => close addr p x g
    | _ => none
  | .freed =>
    match g.phase with
    | .deleting addr p =>
      match g.client.pools[p]? with
      | none => none
      | some cell => if cell.pool.connq_ = [] then some { g with phase := .allocating addr } else none
    | _ => none
  | .allocate =>
    match g.phase with
    | .allocating addr => some (allocate addr g)
    | _ => none
  | .fill o =>
    match g.phase with
    | .filling p i =>
      match g.client.pools[p]? with
      | none => none
      | some cell => if (i : Int) < cell.pool.size_ then some (fill p i o cell g) else none
    | _ => none
  | .filled =>
    match g.phase with
    | .filling p i =>
      match g.client.pools[p]? with
      | none => none
      | some cell => if (i : Int) < cell.pool.size_ then none else some { g with phase := .watching }
    | _ => none
  | .serve e =>
    match g.client.net.serve e.conn e.reply e.switched with
    | none => none
    | some net => some { g with client := { g.client with net := net } }

abbrev System := Config Shared Frame

def step : System → Move Act Event → Option System := Interleaving.step own outer

/-- The threads of a program whose client a started sentinel has connected. -/
def start (threads : Nat) (site : Site) : System :=
  ⟨{ client := site.client, master := site.sentinel.master, db := site.sentinel.db_ },
    List.replicate threads .outside⟩

/-! ### What keeps a pool alive -/

/-- The pool was allocated and is not deleted. -/
def Alive (g : Shared) (p : PoolId) : Prop := ∃ cell, g.client.pools[p]? = some cell ∧ cell.deleted = false

/-- A step on one pool that does not delete it. -/
private theorem alive_set {g g' : Shared} {p : PoolId} {cell : Cell} (at_p : g.client.pools[p]? = some cell)
    (pool : ConnectionPool) (pools : g'.client.pools = g.client.pools.set p ⟨pool, cell.deleted⟩) {q : PoolId}
    (alive : Alive g q) : Alive g' q := by
  obtain ⟨other, at_q, lives⟩ := alive
  have inside := (List.getElem?_eq_some_iff.mp at_p).1
  by_cases here : p = q
  · subst here
    rw [at_p, Option.some.injEq] at at_q
    exact ⟨⟨pool, cell.deleted⟩, by rw [pools, List.getElem?_set_self inside], by rw [at_q]; exact lives⟩
  · exact ⟨other, by rw [pools, List.getElem?_set_ne here, at_q], lives⟩

private theorem remove_alive {g g' : Shared} {addr : Str × Int} (moved : remove addr g = some g') :
    g'.uses = g.uses ∧ ∀ q, g.client.pool_ ≠ some q → Alive g q → Alive g' q := by
  simp only [remove] at moved
  cases current : g.client.pool_ with
  | none =>
    simp only [current, Option.some.injEq] at moved
    subst moved
    exact ⟨rfl, fun _ _ alive => alive⟩
  | some p =>
    cases at_p : g.client.pools[p]? with
    | none => simp [current, at_p] at moved
    | some cell =>
      by_cases gone : cell.deleted = true
      · simp [current, at_p, gone] at moved
      · simp only [current, at_p, gone, Bool.false_eq_true, ↓reduceIte, Option.some.injEq] at moved
        subst moved
        refine ⟨rfl, fun q other ⟨found, at_q, lives⟩ => ⟨found, ?_, lives⟩⟩
        have apart : p ≠ q := fun same => other (by rw [same])
        simp [Shared.put, List.getElem?_set_ne apart, at_q]

private theorem close_alive {g g' : Shared} {addr : Str × Int} {p : PoolId} {x : Exchange}
    (moved : close addr p x g = some g') : g'.uses = g.uses ∧ ∀ q, Alive g q → Alive g' q := by
  simp only [close] at moved
  cases at_p : g.client.pools[p]? with
  | none => simp [at_p] at moved
  | some cell =>
    cases queue : cell.pool.connq_ with
    | nil => simp [at_p, queue] at moved
    | cons conn rest =>
      cases deleted : delete_connection conn x g.client.net with
      | error fault => simp [at_p, queue, deleted] at moved
      | ok net =>
        simp only [at_p, queue, deleted, Option.some.injEq] at moved
        subst moved
        exact ⟨rfl, fun q alive => alive_set at_p _ rfl alive⟩

private theorem fill_alive {g : Shared} {p : PoolId} {i : Nat} {o : Opening} {cell : Cell}
    (at_p : g.client.pools[p]? = some cell) :
    (fill p i o cell g).uses = g.uses ∧ ∀ q, Alive g q → Alive (fill p i o cell g) q := by
  simp only [fill]
  split <;> exact ⟨rfl, fun q alive => alive_set at_p _ rfl alive⟩

/-- All that the event thread and the servers can do. -/
private theorem outer_cases {g g' : Shared} {event : Event} (moved : outer g event = some g') :
    (g'.uses = g.uses ∧ g'.client.pools = g.client.pools) ∨
    (event = .remove ∧ ∃ addr, remove addr g = some g') ∨
    (∃ addr p x, close addr p x g = some g') ∨
    (∃ addr, g' = allocate addr g) ∨
    (∃ p i o cell, g.client.pools[p]? = some cell ∧ g' = fill p i o cell g) := by
  cases event with
  | tick addr =>
    simp only [outer] at moved
    split at moved
    · obtain rfl := Option.some.inj moved
      exact .inl ⟨rfl, rfl⟩
    · cases moved
  | serve e =>
    simp only [outer] at moved
    split at moved
    · cases moved
    · obtain rfl := Option.some.inj moved
      exact .inl ⟨rfl, rfl⟩
  | freed =>
    simp only [outer] at moved
    split at moved
    · split at moved
      · cases moved
      · split at moved
        · obtain rfl := Option.some.inj moved
          exact .inl ⟨rfl, rfl⟩
        · cases moved
    · cases moved
  | filled =>
    simp only [outer] at moved
    split at moved
    · split at moved
      · cases moved
      · split at moved
        · cases moved
        · obtain rfl := Option.some.inj moved
          exact .inl ⟨rfl, rfl⟩
    · cases moved
  | remove =>
    simp only [outer] at moved
    split at moved
    · exact .inr (.inl ⟨rfl, _, moved⟩)
    · cases moved
  | close x =>
    simp only [outer] at moved
    split at moved
    · exact .inr (.inr (.inl ⟨_, _, _, moved⟩))
    · cases moved
  | allocate =>
    simp only [outer] at moved
    split at moved
    · exact .inr (.inr (.inr (.inl ⟨_, (Option.some.inj moved).symm⟩)))
    · cases moved
  | fill o =>
    simp only [outer] at moved
    split at moved
    · split at moved
      · cases moved
      · rename_i cell at_p
        split at moved
        · exact .inr (.inr (.inr (.inr ⟨_, _, _, cell, at_p, (Option.some.inj moved).symm⟩)))
        · cases moved
    · cases moved

/-- The monitor and the servers use no pool through a guard, and delete none but
    the client's. -/
theorem outer_alive {g g' : Shared} {event : Event} (moved : outer g event = some g') :
    g'.uses = g.uses ∧ ∀ q, (event = .remove → g.client.pool_ ≠ some q) → Alive g q → Alive g' q := by
  rcases outer_cases moved with
    ⟨uses, pools⟩ | ⟨rfl, addr, removed⟩ | ⟨addr, p, x, closed⟩ | ⟨addr, rfl⟩ | ⟨p, i, o, cell, at_p, rfl⟩
  · exact ⟨uses, fun q _ ⟨cell, at_q, lives⟩ => ⟨cell, pools ▸ at_q, lives⟩⟩
  · obtain ⟨uses, kept⟩ := remove_alive removed
    exact ⟨uses, fun q other alive => kept q (other rfl) alive⟩
  · obtain ⟨uses, kept⟩ := close_alive closed
    exact ⟨uses, fun q _ alive => kept q alive⟩
  · refine ⟨rfl, fun q _ ⟨cell, at_q, lives⟩ => ⟨cell, ?_, lives⟩⟩
    have inside := (List.getElem?_eq_some_iff.mp at_q).1
    simp [allocate, List.getElem?_append_left inside, at_q]
  · obtain ⟨uses, kept⟩ := fill_alive at_p
    exact ⟨uses, fun q _ alive => kept q alive⟩

/-! ### Uses of live pools -/

/-- The pool that a thread has a guard on. -/
def Frame.guards : Frame → Option PoolId
  | .outside => none
  | .within p _ => some p

/-- A pool is deleted only while no thread is in `execute` on it, and no thread
    begins while `pool_` points to a deleted pool. -/
def Calm (s : System) : Move Act Event → Prop
  | .thread _ .enter => s.shared.client.address.isSome = true
  | .outside .remove => ∀ l ∈ s.locals, l.guards = none ∨ l.guards ≠ s.shared.client.pool_
  | _ => True

instance (s : System) : (m : Move Act Event) → Decidable (Calm s m)
  | .thread _ .enter => inferInstanceAs (Decidable (_ = true))
  | .outside .remove => inferInstanceAs (Decidable (∀ l ∈ s.locals, l.guards = none ∨ l.guards ≠ s.shared.client.pool_))
  | .thread _ (.move _) | .outside (.tick _) | .outside (.close _) | .outside .freed | .outside .allocate
  | .outside (.fill _) | .outside .filled | .outside (.serve _) => .isTrue trivial

private theorem address_alive {g : Shared} {p : PoolId} (current : g.client.pool_ = some p)
    (address : g.client.address.isSome = true) : Alive g p := by
  cases at_p : g.client.pools[p]? with
  | none => simp [Client.address, current, at_p] at address
  | some cell =>
    cases gone : cell.deleted with
    | true => simp [Client.address, current, at_p, gone] at address
    | false => exact ⟨cell, at_p, gone⟩

/-- No pool was deleted when it was used, and what was given back to a pool had
    been lent by it. -/
def Safe (s : System) : Prop :=
  ∀ u ∈ s.shared.uses, u.deleted = false ∧
    ∀ c, u.op = .release (some c) → ⟨.acquire (some c), u.pool, false⟩ ∈ s.shared.uses

/-- What is known of a thread's place. -/
def FrameOk (g : Shared) : Frame → Prop
  | .outside => True
  | .within p stage => Alive g p ∧ ∀ c, lentTo stage = some c → ⟨.acquire (some c), p, false⟩ ∈ g.uses

structure Lives (s : System) : Prop where
  safe : Safe s
  frames : ∀ (i : Nat) l, s.locals[i]? = some l → FrameOk s.shared l

/-- A guard's connection changes when it acquires and when it is destroyed. -/
private theorem moves_lentTo {g g' : Execute.Shared} {l l' : Stage} {act : Execute.Act} (moves : Moves g l act g' l') :
    (∃ cmd o, act = .acquire cmd o) ∨ (act = .release ∧ l' = .idle) ∨
      ((∃ x, act = .send x ∨ act = .receive x) ∧ lentTo l' = lentTo l) := by
  cases moves with
  | lent queue | exhausted empty why | thrown empty room rejected e | opened empty room opens => exact .inl ⟨_, _, rfl⟩
  | unavailable | sent at_c live | unsent at_c why => exact .inr (.inr ⟨⟨_, .inl rfl⟩, rfl⟩)
  | received at_c live next | unanswered at_c why => exact .inr (.inr ⟨⟨_, .inr rfl⟩, rfl⟩)
  | released => exact .inr (.inl ⟨rfl, rfl⟩)

/-- A thread's step in a pool that is alive. -/
private theorem within_cases {g g' : Shared} {p : PoolId} {stage : Stage} {act : Execute.Act} {l' : Frame}
    (moved : own g (.within p stage) (.move act) = some (g', l')) (alive : Alive g p) :
    (∀ q, Alive g q → Alive g' q) ∧ ∃ stage', l' = frameOf p stage' ∧
      g'.uses = g.uses ++ usesOf p false stage stage' act ∧
      ((∃ cmd o, act = .acquire cmd o) ∨ (act = .release ∧ stage' = .idle) ∨
        ((∃ x, act = .send x ∨ act = .receive x) ∧ lentTo stage' = lentTo stage)) := by
  obtain ⟨cell, at_p, lives⟩ := alive
  simp only [own, at_p] at moved
  cases done : Execute.own ⟨cell.pool, g.client.net, g.nextCall, g.returned⟩ stage act with
  | none => simp [done] at moved
  | some target =>
    obtain ⟨e, stage'⟩ := target
    simp only [done, Option.some.injEq, Prod.mk.injEq] at moved
    obtain ⟨rfl, rfl⟩ := moved
    exact ⟨fun q alive => alive_set at_p _ rfl alive, stage', rfl, by rw [lives],
      moves_lentTo (own_moves done)⟩

private theorem frameOk_mono {g g' : Shared} {l : Frame} (ok : FrameOk g l)
    (alive : ∀ p stage, l = .within p stage → Alive g p → Alive g' p) (uses : g.uses ⊆ g'.uses) : FrameOk g' l := by
  cases l with
  | outside => trivial
  | within p stage => exact ⟨alive p stage rfl ok.1, fun c lent => uses (ok.2 c lent)⟩

private theorem frameOf_ok {g : Shared} {p : PoolId} {stage : Stage} (ok : FrameOk g (.within p stage)) :
    FrameOk g (frameOf p stage) := by
  cases stage with
  | idle => trivial
  | guarded call cmd conn | waiting call cmd c | unwinding call cmd conn result => exact ok

/-- What a step of a thread on a pool adds to the uses is safe. -/
private theorem new_use_safe {uses : List Use} {p : PoolId} {stage stage' : Stage} {act : Execute.Act}
    (lent : ∀ c, lentTo stage = some c → ⟨.acquire (some c), p, false⟩ ∈ uses) :
    ∀ u ∈ usesOf p false stage stage' act, u.deleted = false ∧
      ∀ c, u.op = .release (some c) → ⟨.acquire (some c), u.pool, false⟩ ∈ uses := by
  intro u member
  cases act with
  | acquire cmd o =>
    obtain rfl := List.mem_singleton.mp member
    exact ⟨rfl, fun c is => by cases is⟩
  | release =>
    obtain rfl := List.mem_singleton.mp member
    exact ⟨rfl, fun c is => lent c (Op.release.inj is)⟩
  | send fail | receive fail => cases member

theorem step_lives {s s' : System} {m : Move Act Event} (lives : Lives s) (calm : Calm s m)
    (taken : step s m = some s') : Lives s' := by
  rcases step_cases taken with ⟨i, act, l, l', rfl, at_i, moved, locals⟩ | ⟨event, rfl, moved, locals⟩
  · have mine := lives.frames i l at_i
    cases l with
    | outside =>
      cases act with
      | move a => simp [own] at moved
      | enter =>
        cases current : s.shared.client.pool_ with
        | none => simp [own, current] at moved
        | some p =>
          simp only [own, current, Option.some.injEq, Prod.mk.injEq] at moved
          obtain ⟨same, rfl⟩ := moved
          have entered : FrameOk s.shared (.within p .idle) := ⟨address_alive current calm, fun c lent => by cases lent⟩
          refine ⟨by rw [Safe, ← same]; exact lives.safe, ?_⟩
          intro j k at_j
          rw [locals] at at_j
          rw [← same]
          exact locals_set entered (fun j k _ at_j => lives.frames j k at_j) at_j
    | within p stage =>
      cases act with
      | enter => simp [own] at moved
      | move a =>
        obtain ⟨alive, stage', rfl, uses, changes⟩ := within_cases moved mine.1
        have grows : s.shared.uses ⊆ s'.shared.uses := by rw [uses]; exact List.subset_append_left _ _
        constructor
        · intro u member
          have safe : u.deleted = false ∧
              ∀ c, u.op = .release (some c) → ⟨.acquire (some c), u.pool, false⟩ ∈ s.shared.uses := by
            rw [uses] at member
            rcases List.mem_append.mp member with old | new
            · exact lives.safe u old
            · exact new_use_safe mine.2 u new
          exact ⟨safe.1, fun c is => grows (safe.2 c is)⟩
        · intro j k at_j
          rw [locals] at at_j
          refine locals_set (P := FrameOk s'.shared) (frameOf_ok ⟨alive p mine.1, fun c lent => ?_⟩)
            (fun j k _ at_j => frameOk_mono (lives.frames j k at_j) (fun q _ _ => alive q) grows) at_j
          rcases changes with ⟨cmd, o, rfl⟩ | ⟨rfl, rfl⟩ | ⟨_, same⟩
          · rw [uses, usesOf, lent]
            exact List.mem_append_right _ (List.mem_singleton_self _)
          · cases lent
          · exact grows (mine.2 c (same ▸ lent))
  · obtain ⟨uses, alive⟩ := outer_alive moved
    refine ⟨by rw [Safe, uses]; exact lives.safe, ?_⟩
    intro j k at_j
    rw [locals] at at_j
    refine frameOk_mono (lives.frames j k at_j) (fun p stage is => alive p ?_) (by rw [uses]; exact List.Subset.refl _)
    rintro rfl current
    subst is
    rcases calm _ (List.mem_of_getElem? at_j) with none | other
    · cases none
    · exact other current.symm

/-- In every run whose deletions wait for the calls of `execute` and whose calls
    wait for the assignment of `pool_`, every `acquire` and `release` is performed
    on a pool that is not deleted, and a connection is given back to the pool that
    lent it. -/
theorem uses_alive_while_calm (threads : Nat) (site : Site) (moves : List (Move Act Event))
    (calm : Meets step Calm (start threads site) moves) : Along step Safe (start threads site) moves := by
  refine along_of_each Lives (fun _ _ _ lives here taken => step_lives lives here taken) (fun _ lives => lives.safe)
    ?_ moves calm
  constructor
  · intro u member
    cases member
  · intro i l at_i
    have outside := List.eq_of_mem_replicate (List.mem_of_getElem? at_i)
    subst outside
    trivial

/-- A tick that finds b instead of a: `idle` connections are closed, and five are
    opened. -/
def replacement (idle : Nat) : List (Move Act Event) :=
  [.outside (.tick (lit "b", 6379)), .outside .remove] ++ List.replicate idle (.outside (.close fine)) ++
    [.outside .freed, .outside .allocate] ++ List.replicate 5 (.outside (.fill reachable)) ++ [.outside .filled]

/-- A call begins and is lent a connection. -/
def callBegins : List (Move Act Event) := [.thread 0 .enter, .thread 0 (.move (.acquire [lit "PING"] reachable))]

/-- The connection breaks, and the call ends. -/
def callEnds : List (Move Act Event) := [.thread 0 (.move (.send (some (lit "reset")))), .thread 0 (.move .release)]

theorem uses_alive_while_calm_replacement : ∃ site s, Started site ∧
    run step (start 1 site) (callBegins ++ callEnds ++ replacement 5 ++ callBegins) = some s ∧
    s.shared.client.pool_ = some 1 ∧
    Along step Safe (start 1 site) (callBegins ++ callEnds ++ replacement 5 ++ callBegins) := by
  have runs : ((startedAt "a").bind fun site =>
      (run step (start 1 site) (callBegins ++ callEnds ++ replacement 5 ++ callBegins)).map fun s =>
        (s.shared.client.pool_,
          decide (Meets step Calm (start 1 site) (callBegins ++ callEnds ++ replacement 5 ++ callBegins)))) =
      some (some 1, true) := by decide
  obtain ⟨site, starts, runs⟩ := Option.bind_eq_some_iff.mp runs
  obtain ⟨s, runs, is⟩ := Option.map_eq_some_iff.mp runs
  rw [Prod.mk.injEq, decide_eq_true_eq] at is
  exact ⟨site, s, startedAt_started starts, runs, is.1, uses_alive_while_calm 1 site _ is.2⟩

/-- A tick replaces the pool while a call is under way; the call gives its
    connection back to the deleted pool. -/
theorem pool_deleted_under_call : ∃ site s, Started site ∧
    run step (start 1 site) (callBegins ++ replacement 4 ++ callEnds) = some s ∧
    s.shared.uses = [⟨.acquire (some 0), 0, false⟩, ⟨.release (some 0), 0, true⟩] ∧ ¬ Safe s := by
  have runs : ((startedAt "a").bind fun site =>
      (run step (start 1 site) (callBegins ++ replacement 4 ++ callEnds)).map fun s => s.shared.uses) =
      some [⟨.acquire (some 0), 0, false⟩, ⟨.release (some 0), 0, true⟩] := by decide
  obtain ⟨site, starts, runs⟩ := Option.bind_eq_some_iff.mp runs
  obtain ⟨s, runs, is⟩ := Option.map_eq_some_iff.mp runs
  refine ⟨site, s, startedAt_started starts, runs, is, ?_⟩
  intro safe
  have last := (safe ⟨.release (some 0), 0, true⟩ (by rw [is]; decide)).1
  cases last

/-! ### The steps of `connect` -/

private theorem put_same {g : Shared} {p : PoolId} {cell : Cell} (at_p : g.client.pools[p]? = some cell)
    (phase : Phase) : g.put p cell g.client.net phase = { g with phase := phase } := by
  obtain ⟨inside, is⟩ := List.getElem?_eq_some_iff.mp at_p
  rw [Shared.put, ← is, List.set_getElem_self inside]

private theorem put_put (g : Shared) (p : PoolId) (cell cell' : Cell) (net net' : Net) (phase phase' : Phase) :
    (g.put p cell net phase).put p cell' net' phase' = g.put p cell' net' phase' := by
  simp [Shared.put]

private theorem put_at {g : Shared} {p : PoolId} {cell : Cell} (at_p : g.client.pools[p]? = some cell) (new : Cell)
    (net : Net) (phase : Phase) : (g.put p new net phase).client.pools[p]? = some new := by
  simp [Shared.put, (List.getElem?_eq_some_iff.mp at_p).1]

/-- The rounds of the deletion. -/
private theorem close_all {quits : Nat → Exchange} {addr : Str × Int} {p : PoolId} {queue : List (Option ConnId)}
    {i : Nat} {g : Shared} {net : Net} (pool : ConnectionPool) (deleting : g.phase = .deleting addr p)
    (at_p : g.client.pools[p]? = some ⟨{ pool with connq_ := queue }, true⟩)
    (done : delete_queue quits queue i g.client.net = .ok net) :
    ∃ events, run outer g events = some (g.put p ⟨{ pool with connq_ := [] }, true⟩ net (.allocating addr)) := by
  induction queue generalizing i g with
  | nil =>
    cases done
    refine ⟨[.freed], run_cons_some.mpr ⟨_, ?_, run_nil _⟩⟩
    rw [put_same at_p]
    simp [outer, deleting, at_p]
  | cons conn rest ih =>
    simp only [delete_queue] at done
    cases closed : delete_connection conn (quits i) g.client.net with
    | error fault => simp [closed] at done
    | ok mid =>
      rw [closed] at done
      have taken : outer g (.close (quits i)) =
          some (g.put p ⟨{ pool with connq_ := rest }, true⟩ mid (.deleting addr p)) := by
        simp [outer, deleting, close, at_p, closed]
      obtain ⟨events, runs⟩ := ih rfl (put_at at_p _ _ _) done
      rw [put_put] at runs
      exact ⟨.close (quits i) :: events, run_cons_some.mpr ⟨_, taken, runs⟩⟩

/-- The rounds of `initialize`. -/
private theorem fill_all {openings : Nat → Opening} {p : PoolId} {n i : Nat} {g : Shared} {pool pool' : ConnectionPool}
    {net : Net} {r : Int} (filling : g.phase = .filling p i) (at_p : g.client.pools[p]? = some ⟨pool, false⟩)
    (size : pool.size_ = i + n) (done : initialize_from openings n i pool g.client.net = (.ok r, pool', net)) :
    ∃ events, run outer g events = some (g.put p ⟨pool', false⟩ net .watching) := by
  induction n generalizing i g pool with
  | zero =>
    simp only [initialize_from, Prod.mk.injEq] at done
    obtain ⟨_, rfl, rfl⟩ := done
    have full : ¬ (i : Int) < pool.size_ := by omega
    refine ⟨[.filled], run_cons_some.mpr ⟨_, ?_, run_nil _⟩⟩
    rw [put_same at_p]
    simp [outer, filling, at_p, full]
  | succ n ih =>
    have room : (i : Int) < pool.size_ := by omega
    have taken : outer g (.fill (openings i)) = some (fill p i (openings i) ⟨pool, false⟩ g) := by
      simp [outer, filling, at_p, room]
    simp only [initialize_from] at done
    rcases open_one_cases (openings i) pool g.client.net with
      ⟨_, opened⟩ | ⟨_, e, opened⟩ | ⟨_, opened⟩
    · simp only [opened, Prod.mk.injEq] at done
      obtain ⟨_, rfl, rfl⟩ := done
      refine ⟨[.fill (openings i)], run_cons_some.mpr ⟨_, taken, ?_⟩⟩
      simp [fill, opened]
    · simp [opened] at done
    · simp only [opened] at done
      simp only [fill, opened] at taken
      obtain ⟨events, runs⟩ := ih rfl (put_at at_p _ _ _) (by simp only [push]; omega) done
      rw [put_put] at runs
      exact ⟨.fill (openings i) :: events, run_cons_some.mpr ⟨_, taken, runs⟩⟩

/-- Undisturbed, the steps of the event thread from a call of `connect` on do what
    `connect` does. -/
theorem connect_undisturbed {g : Shared} {addr : Str × Int} (connecting : g.phase = .connecting addr)
    (owned : Owned g.client) {env : Connecting} {n : Int} {cl : Client}
    (done : g.client.connect env addr.1 addr.2 g.db = (.ok n, cl)) (frames : List Frame) :
    ∃ events : List Event,
      run step ⟨g, frames⟩ (events.map .outside) = some ⟨{ g with client := cl, phase := .watching }, frames⟩ := by
  obtain ⟨id, cell, owns⟩ := owned
  have removed : outer g .remove =
      some (g.put id { cell with deleted := true } g.client.net (.deleting addr id)) := by
    simp [outer, connecting, remove, owns.current, owns.at_id, owns.alive]
  cases deleted : delete_queue env.quits cell.pool.connq_ 0 g.client.net with
  | error fault => simp [owns.connect_fault deleted] at done
  | ok mid =>
    obtain ⟨closing, closed⟩ := close_all (g := g.put id { cell with deleted := true } g.client.net (.deleting addr id))
      cell.pool rfl (put_at owns.at_id _ _ _) deleted
    rw [put_put] at closed
    cases filled : initialize_pool env.openings (fresh addr.1 addr.2 g.db default_size default_max_size) mid with
    | mk result rest =>
      rw [owns.connect_eq deleted filled, Prod.mk.injEq] at done
      obtain ⟨returned, rfl⟩ := done
      cases result with
      | error e => simp [Except.mapError] at returned
      | ok r =>
        let g₂ := allocate addr (g.put id ⟨{ cell.pool with connq_ := [] }, true⟩ mid (.allocating addr))
        obtain ⟨filling, fills⟩ := fill_all (g := g₂) (p := g.client.pools.length) (n := default_size.toNat) (i := 0)
          (by simp [g₂, allocate, Shared.put]) (by simp [g₂, allocate, Shared.put]) rfl filled
        refine ⟨.remove :: (closing ++ .allocate :: filling), run_outside ?_ frames⟩
        refine run_cons_some.mpr ⟨_, removed, run_append_some.mpr ⟨_, closed, run_cons_some.mpr ⟨g₂, rfl, ?_⟩⟩⟩
        rw [fills]
        simp [g₂, allocate, Shared.put]

end CppRedis.Lifetime

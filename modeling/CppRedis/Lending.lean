import Mathlib.Data.List.ReduceOption
import CppRedis.Execute
import CppRedis.Ledger

/-!
The pool lends its connections: the queue and the guards refine a ledger of
distinct connections (`step_lends`, `run_lends`), whatever NULL entries the queue
holds. So no two guards share a connection, and the reply that a thread reads is
the answer to the command that it wrote (`Paired`, `run_paired`).
-/
namespace CppRedis.Lending
open CppRedis.Strings CppRedis.Reply CppRedis.Connection CppRedis.Pool CppRedis.Interleaving CppRedis.Execute
open CppRedis.Ledgers CppRedis.Runs Relation

/-- A pool, its contexts and the connections that guards hold, as a ledger. -/
structure Books (p : ConnectionPool) (net : Net) (lent : Multiset ConnId) (L : Ledger ConnId) : Prop where
  idle : L.idle = (p.connq_.reduceOption : Multiset ConnId)
  lent : L.lent = lent
  issued : L.issued = (p.opened : Multiset ConnId)
  old : ∀ c ∈ p.opened, c < net.contexts.length

/-- The books of a system. -/
def Keeps (s : System) (L : Ledger ConnId) : Prop :=
  Books s.shared.pool s.shared.net (held holds s.locals) L

theorem count_reduceOption (c : ConnId) (queue : List (Option ConnId)) :
    queue.reduceOption.count c = queue.count (some c) := by
  induction queue with
  | nil => rfl
  | cons conn rest ih =>
    cases conn with
    | none => simpa using ih
    | some d => by_cases same : d = c <;> simp [same, ih]

section
variable {p : ConnectionPool} {net : Net} {lent : Multiset ConnId} {L : Ledger ConnId}

/-- A change of the contexts that frees no place keeps the books. -/
theorem Books.frame (books : Books p net lent L) {net' : Net} (same : net.contexts.length ≤ net'.contexts.length) :
    Books p net' lent L :=
  ⟨books.idle, books.lent, books.issued, fun c member => (books.old c member).trans_le same⟩

theorem Books.next_fresh (books : Books p net lent L) : net.contexts.length ∉ L.issued := by
  intro member
  rw [books.issued, Multiset.mem_coe] at member
  exact lt_irrefl _ (books.old _ member)

theorem books_pop_null (books : Books p net lent L) {rest : List (Option ConnId)} (queue : p.connq_ = none :: rest) :
    Books { p with connq_ := rest } net lent L := by
  refine ⟨?_, books.lent, books.issued, books.old⟩
  rw [books.idle, queue, List.reduceOption_cons_of_none]

theorem books_lend (books : Books p net lent L) {c : ConnId} {rest : List (Option ConnId)}
    (queue : p.connq_ = some c :: rest) :
    ∃ L', Ledger.Step L L' ∧ Books { p with connq_ := rest } net (c ::ₘ lent) L' := by
  have idle : L.idle = c ::ₘ (rest.reduceOption : Multiset ConnId) := by
    rw [books.idle, queue, List.reduceOption_cons_of_some, Multiset.cons_coe]
  have free : c ∈ L.idle := by rw [idle]; exact Multiset.mem_cons_self c _
  refine ⟨L.lend c free, .lend free, ?_, ?_, ?_, books.old⟩
  · simp only [Ledger.lend, idle, Multiset.erase_cons_head]
  · simp only [Ledger.lend, books.lent]
  · rw [Ledger.issued_lend, books.issued]

theorem books_open (books : Books p net lent L) (ctx : Context) :
    ∃ L', Ledger.Step L L' ∧ Books (p.push net.contexts.length) (grown net ctx) lent L' := by
  refine ⟨L.issue net.contexts.length books.next_fresh, .issue _, ?_, books.lent, ?_, ?_⟩
  · simp only [Ledger.issue, ConnectionPool.push, books.idle, List.reduceOption_append,
      List.reduceOption_singleton, Option.toList_some, ← Multiset.coe_add, Multiset.coe_singleton]
    rw [add_comm, Multiset.singleton_add]
  · rw [Ledger.issued_issue, books.issued]
    simp only [ConnectionPool.push, ← Multiset.coe_add, Multiset.coe_singleton]
    rw [add_comm, Multiset.singleton_add]
  · intro c member
    simp only [ConnectionPool.push, List.mem_append, List.mem_singleton] at member
    rw [grown_length]
    rcases member with old | rfl
    · exact (books.old c old).trans (Nat.lt_succ_self _)
    · exact Nat.lt_succ_self _

/-- A connection that is opened and lent at once. -/
theorem books_open_lend (books : Books p net lent L) (empty : p.connq_ = []) (size : Int) (ctx : Context) :
    ∃ L', ReflTransGen Ledger.Step L L' ∧
      Books { p with size_ := size, opened := p.opened ++ [net.contexts.length] } (grown net ctx)
        (net.contexts.length ::ₘ lent) L' := by
  obtain ⟨L₁, issued, books₁⟩ := books_open books ctx
  have queue : (p.push net.contexts.length).connq_ = some net.contexts.length :: [] := by
    simp [ConnectionPool.push, empty]
  obtain ⟨L₂, lends, books₂⟩ := books_lend books₁ queue
  refine ⟨L₂, (ReflTransGen.single issued).tail lends, ?_⟩
  obtain ⟨idle, lentIs, issuedIs, old⟩ := books₂
  refine ⟨?_, lentIs, issuedIs, old⟩
  rw [idle]
  simp [empty]

theorem books_release_null (books : Books p net lent L) : Books (ConnectionPool.release none p) net lent L := by
  refine ⟨?_, books.lent, books.issued, books.old⟩
  rw [books.idle, ConnectionPool.release, List.reduceOption_append]
  simp

theorem books_release {c : ConnId} (books : Books p net (c ::ₘ lent) L) :
    ∃ L', Ledger.Step L L' ∧ Books (ConnectionPool.release (some c) p) net lent L' := by
  have out : c ∈ L.lent := by rw [books.lent]; exact Multiset.mem_cons_self c _
  refine ⟨L.giveBack c out, .giveBack out, ?_, ?_, ?_, books.old⟩
  · simp only [Ledger.giveBack, ConnectionPool.release, books.idle, List.reduceOption_append,
      List.reduceOption_singleton, Option.toList_some, ← Multiset.coe_add, Multiset.coe_singleton]
    rw [add_comm, Multiset.singleton_add]
  · simp only [Ledger.giveBack, books.lent, Multiset.erase_cons_head]
  · rw [Ledger.issued_giveBack, books.issued]; rfl

end

/-- A move of a thread that holds what `holds l` says, next to others that hold
    `rest`. -/
theorem moves_lend {g g' : Shared} {l l' : Stage} {act : Act} (moves : Moves g l act g' l')
    {rest : Multiset ConnId} {L : Ledger ConnId} (books : Books g.pool g.net (holds l + rest) L) :
    ∃ L', ReflTransGen Ledger.Step L L' ∧ Books g'.pool g'.net (holds l' + rest) L' := by
  cases moves with
  | @lent _ _ conn _ queue =>
    simp only [holds, zero_add] at books
    cases conn with
    | none => exact ⟨L, .refl, by simpa [holds] using books_pop_null books queue⟩
    | some c =>
      obtain ⟨L', lends, books'⟩ := books_lend books queue
      exact ⟨L', .single lends, by simpa [holds, Multiset.singleton_add] using books'⟩
  | exhausted empty why => exact ⟨L, .refl, by simpa [holds] using books⟩
  | thrown empty room rejected e =>
    exact ⟨L, .refl, books.frame (by simp)⟩
  | @opened _ o empty room opens =>
    simp only [holds, zero_add] at books
    obtain ⟨L', lends, books'⟩ :=
      books_open_lend books empty (g.pool.size_ + 1) (newContext g.pool o.select)
    exact ⟨L', lends, by simpa [holds, Multiset.singleton_add] using books'⟩
  | unavailable => exact ⟨L, .refl, by simpa [holds] using books⟩
  | sent at_c live => exact ⟨L, .refl, Books.frame (by simpa [holds] using books) (by simp)⟩
  | unsent at_c why => exact ⟨L, .refl, Books.frame (by simpa [holds] using books) (by simp)⟩
  | received at_c live next => exact ⟨L, .refl, Books.frame (by simpa [holds] using books) (by simp)⟩
  | unanswered at_c why => exact ⟨L, .refl, Books.frame (by simpa [holds] using books) (by simp)⟩
  | @released _ _ conn _ =>
    cases conn with
    | none => exact ⟨L, .refl, books_release_null (by simpa [holds] using books)⟩
    | some c =>
      obtain ⟨L', back, books'⟩ := books_release
        (show Books g.pool g.net (c ::ₘ rest) L by simpa [holds, Multiset.singleton_add] using books)
      exact ⟨L', .single back, by simpa [holds] using books'⟩

/-- One move of the system is matched by steps of the ledger. -/
theorem step_lends {s s' : System} {m : Move Act Serving} {L : Ledger ConnId} (keeps : Keeps s L)
    (taken : step s m = some s') : ∃ L', ReflTransGen Ledger.Step L L' ∧ Keeps s' L' := by
  rcases step_cases taken with ⟨i, act, l, l', rfl, at_i, moved, locals⟩ | ⟨e, rfl, served, locals⟩
  · obtain ⟨rest, total, changed, _⟩ := held_split holds at_i
    have books : Books s.shared.pool s.shared.net (holds l + rest) L := total ▸ keeps
    obtain ⟨L', steps, books'⟩ := moves_lend (own_moves moved) books
    exact ⟨L', steps, by rw [Keeps, locals, changed]; exact books'⟩
  · obtain ⟨ctx, request, rest, _, _, same⟩ := serving_cases served
    refine ⟨L, .refl, ?_⟩
    rw [Keeps, locals, same]
    exact Books.frame keeps (by simp)

/-- The books of a pool are those of a system in which no thread has begun. -/
theorem keeps_idle {p : ConnectionPool} {net : Net} {L : Ledger ConnId} (books : Books p net 0 L) (threads : Nat) :
    Keeps ⟨⟨p, net, 0, []⟩, List.replicate threads .idle⟩ L := by
  rw [Keeps, held_replicate holds rfl]
  exact books

/-- The books of a pool that `initialize` has filled. -/
theorem start_lends (threads : Nat) (env : Nat → Opening) (host : Str) (port db size max_size : Int) :
    ∃ L, Keeps (start threads env (fresh host port db size max_size)) L := by
  have empty : Books (fresh host port db size max_size) {} 0 ⟨0, 0, by simp⟩ :=
    ⟨rfl, rfl, rfl, by simp [fresh]⟩
  obtain ⟨L, books⟩ := initialize_invariant env (fun p net => ∃ L, Books p net 0 L)
    (fun _ _ _ ⟨L, books⟩ _ => ⟨L, books.frame (by simp)⟩)
    (fun j p _ ⟨_, books⟩ _ =>
      let ⟨L', _, books'⟩ := books_open books (newContext p (env j).select)
      ⟨L', books'⟩) ⟨_, empty⟩
  exact ⟨L, keeps_idle books threads⟩

theorem run_lends {threads : Nat} {env : Nat → Opening} {host : Str} {port db size max_size : Int}
    {moves : List (Move Act Serving)} {s : System}
    (runs : run step (start threads env (fresh host port db size max_size)) moves = some s) : ∃ L, Keeps s L := by
  obtain ⟨L, starts⟩ := start_lends threads env host port db size max_size
  obtain ⟨L', _, keeps⟩ := run_simulates (fun _ _ _ _ keeps taken => step_lends keeps taken) runs starts
  exact ⟨L', keeps⟩

/-- What a guard holds is the pool's. -/
theorem Keeps.pooled {s : System} {L : Ledger ConnId} (keeps : Keeps s L) {i : Nat} {l : Stage}
    (at_i : s.locals[i]? = some l) {c : ConnId} (mine : c ∈ holds l) : c ∈ s.shared.pool.opened := by
  have lent : c ∈ held holds s.locals := Multiset.mem_of_le (le_held_of_mem holds (List.mem_of_getElem? at_i)) mine
  have entered : c ∈ L.issued := Multiset.mem_add.mpr (.inr (by rw [keeps.lent]; exact lent))
  rw [keeps.issued] at entered
  exact Multiset.mem_coe.mp entered

/-- What the steps of a run keep in a system whose books are kept, the run keeps. -/
theorem run_kept_from (Inv : System → Prop) (ok : Move Act Serving → Prop)
    (kept : ∀ s m s' L, Keeps s L → Inv s → ok m → step s m = some s' → Inv s') {s s' : System} {L : Ledger ConnId}
    {moves : List (Move Act Serving)} (runs : run step s moves = some s') (all : ∀ m ∈ moves, ok m) (keeps : Keeps s L)
    (starts : Inv s) : (∃ L, Keeps s' L) ∧ Inv s' :=
  run_invariant_of (fun s => (∃ L, Keeps s L) ∧ Inv s)
    (fun s m s' ⟨⟨L, keeps⟩, inv⟩ here taken =>
      let ⟨L', _, keeps'⟩ := step_lends keeps taken
      ⟨⟨L', keeps'⟩, kept s m s' L keeps inv here taken⟩)
    runs all ⟨⟨L, keeps⟩, starts⟩

theorem run_kept (Inv : System → Prop) (ok : Move Act Serving → Prop)
    (kept : ∀ s m s' L, Keeps s L → Inv s → ok m → step s m = some s' → Inv s')
    {threads : Nat} {env : Nat → Opening} {host : Str} {port db size max_size : Int}
    {moves : List (Move Act Serving)} {s : System}
    (runs : run step (start threads env (fresh host port db size max_size)) moves = some s)
    (all : ∀ m ∈ moves, ok m) (starts : Inv (start threads env (fresh host port db size max_size))) : Inv s := by
  obtain ⟨L, keeps⟩ := start_lends threads env host port db size max_size
  exact (run_kept_from Inv ok kept runs all keeps starts).2

/-! ### Exclusive use -/

/-- A move of a thread leaves the connections alone that its guard does not hold. -/
theorem moves_frame {g g' : Shared} {l l' : Stage} {act : Act} (moves : Moves g l act g' l') {c : ConnId}
    (old : c < g.net.contexts.length) (free : c ∉ holds l) : g'.net.contexts[c]? = g.net.contexts[c]? := by
  cases moves with
  | lent queue => rfl
  | exhausted empty why => rfl
  | thrown empty room rejected e => exact grown_old _ _ old
  | opened empty room opens => exact grown_old _ _ old
  | unavailable => rfl
  | sent at_c live => exact Net.put_other _ (by simpa [holds] using free) _
  | unsent at_c why => exact Net.put_other _ (by simpa [holds] using free) _
  | received at_c live next => exact Net.put_other _ (by simpa [holds] using free) _
  | unanswered at_c why => exact Net.put_other _ (by simpa [holds] using free) _
  | released => rfl

/-- What another thread's guard holds, or what is queued, is not what thread `i`
    holds. -/
theorem keeps_apart {s : System} {L : Ledger ConnId} (keeps : Keeps s L) {i : Nat} {l : Stage}
    (at_i : s.locals[i]? = some l) :
    (∀ c, some c ∈ s.shared.pool.connq_ → c < s.shared.net.contexts.length ∧ c ∉ holds l) ∧
    (∀ j k, j ≠ i → s.locals[j]? = some k → ∀ c ∈ holds k, c < s.shared.net.contexts.length ∧ c ∉ holds l) := by
  obtain ⟨rest, total, _, others⟩ := held_split holds at_i
  have entered : ∀ c ∈ L.issued, c < s.shared.net.contexts.length := by
    intro c member
    rw [keeps.issued, Multiset.mem_coe] at member
    exact keeps.old c member
  constructor
  · intro c queued
    have idle : c ∈ L.idle := by rw [keeps.idle, Multiset.mem_coe, List.reduceOption_mem_iff]; exact queued
    refine ⟨entered c (Multiset.mem_add.mpr (.inl idle)), fun mine => L.idle_not_lent idle ?_⟩
    rw [keeps.lent, total]
    exact Multiset.mem_add.mpr (.inl mine)
  · intro j k other at_j c member
    obtain ⟨rest', split⟩ := Multiset.le_iff_exists_add.mp (others j k other at_j)
    have lent : L.lent = holds k + (holds l + rest') := by
      rw [keeps.lent, total, split, add_left_comm]
    refine ⟨entered c (Multiset.mem_add.mpr (.inr ?_)), L.lent_apart lent member⟩
    rw [lent]
    exact Multiset.mem_add.mpr (.inl member)

/-! ### Pairing of commands and replies -/

/-- The context at `c` has nothing outstanding, unless it has failed. -/
def QuietAt (net : Net) (c : ConnId) : Prop := ∀ ctx, net.contexts[c]? = some ctx → ctx.Quiet

/-- Unless it has failed, the context has one request outstanding: the server
    has it, or its answer is on the way. -/
def Awaits (ctx : Context) (request : Request) : Prop :=
  ctx.err = none → (ctx.toServer = [request] ∧ ctx.toClient = []) ∨
    (ctx.toServer = [] ∧ ∃ r, ctx.toClient = [⟨request, r⟩])

/-- What holds of the connection of a thread, by its stage. -/
def StageOk (net : Net) : Stage → Prop
  | .idle => True
  | .guarded _ _ conn => ∀ c ∈ conn, QuietAt net c
  | .waiting call cmd c => ∀ ctx, net.contexts[c]? = some ctx → Awaits ctx (.command call cmd)
  | .unwinding call cmd conn result =>
    (∀ c ∈ conn, QuietAt net c) ∧ ∀ a, result = .ok a → a.request = .command call cmd

structure Paired (s : System) : Prop where
  queued : ∀ c, some c ∈ s.shared.pool.connq_ → QuietAt s.shared.net c
  stages : ∀ (i : Nat) l, s.locals[i]? = some l → StageOk s.shared.net l
  answered : ∀ ret ∈ s.shared.returned, ∀ a, ret.result = .ok a → a.request = .command ret.call ret.cmd

theorem quietAt_frame {net net' : Net} {c : ConnId} (same : net'.contexts[c]? = net.contexts[c]?)
    (quiet : QuietAt net c) : QuietAt net' c := fun ctx at_c => quiet ctx (same ▸ at_c)

/-- A stage depends on the connection that it holds only. -/
theorem stageOk_frame {net net' : Net} {l : Stage}
    (same : ∀ c ∈ holds l, net'.contexts[c]? = net.contexts[c]?) (ok : StageOk net l) : StageOk net' l := by
  cases l with
  | idle => trivial
  | guarded call cmd conn =>
    cases conn with
    | none => exact fun d at_d => by simp at at_d
    | some c => exact fun d at_d => quietAt_frame (same d (by simpa [holds, eq_comm] using at_d)) (ok d at_d)
  | waiting call cmd c =>
    have at_c := same c (by simp [holds])
    exact fun ctx found => ok ctx (at_c ▸ found)
  | unwinding call cmd conn result =>
    refine ⟨?_, ok.2⟩
    cases conn with
    | none => exact fun d at_d => by simp at at_d
    | some c => exact fun d at_d => quietAt_frame (same d (by simpa [holds, eq_comm] using at_d)) (ok.1 d at_d)

theorem newContext_quiet (p : ConnectionPool) (x : Exchange) : (newContext p x).Quiet := by
  cases x with
  | reply r switched => exact fun _ => ⟨rfl, rfl⟩
  | noReply errstr => exact fun live => by simp [newContext] at live

private theorem failed_quiet {net : Net} {c : ConnId} {ctx : Context} (at_c : net.contexts[c]? = some ctx)
    (errstr : Str) : QuietAt (net.put c { ctx with err := some errstr }) c := by
  intro ctx' found
  rw [Net.put_self at_c, Option.some.injEq] at found
  subst found
  exact fun live => by simp at live

/-- The moving thread's own connection. -/
theorem moves_paired {g g' : Shared} {l l' : Stage} {act : Act} (moves : Moves g l act g' l')
    (queued : ∀ c, some c ∈ g.pool.connq_ → QuietAt g.net c) (ok : StageOk g.net l) : StageOk g'.net l' := by
  cases moves with
  | lent queue =>
    intro c at_c
    obtain rfl : _ = some c := at_c
    exact queued c (by rw [queue]; exact List.mem_cons_self)
  | exhausted empty why => exact fun c at_c => by simp at at_c
  | thrown empty room rejected e => trivial
  | opened empty room opens =>
    intro c at_c
    obtain rfl : g.net.contexts.length = c := by simpa using at_c
    intro ctx found
    rw [grown_new, Option.some.injEq] at found
    exact found ▸ newContext_quiet _ _
  | unavailable =>
    constructor
    · simp
    · simp
  | @sent call cmd c ctx at_c live =>
    intro ctx' found
    rw [Net.put_self at_c, Option.some.injEq] at found
    subst found
    obtain ⟨noRequest, noReply⟩ := ok c rfl ctx at_c live
    exact fun _ => .inl ⟨by simp [noRequest], noReply⟩
  | unsent at_c why =>
    constructor
    · intro d at_d
      obtain rfl : _ = d := by simpa using at_d
      exact failed_quiet at_c _
    · simp
  | @received call cmd c ctx a rest at_c live next =>
    rcases ok ctx at_c live with ⟨_, nothing⟩ | ⟨noRequest, r, one⟩
    · rw [next] at nothing; cases nothing
    · rw [next] at one
      obtain ⟨rfl, rfl⟩ := List.cons.inj one
      constructor
      · intro d at_d
        obtain rfl : c = d := by simpa using at_d
        intro ctx' found
        rw [Net.put_self at_c, Option.some.injEq] at found
        subst found
        exact fun _ => ⟨noRequest, rfl⟩
      · intro b ended
        cases ended
        rfl
  | unanswered at_c why =>
    constructor
    · intro d at_d
      obtain rfl : _ = d := by simpa using at_d
      exact failed_quiet at_c _
    · simp
  | released => trivial

/-- What the queue holds after a thread's move was queued before, or is what the
    thread's guard gave back. -/
theorem moves_queue {g g' : Shared} {l l' : Stage} {act : Act} (moves : Moves g l act g' l') {c : ConnId}
    (queued : some c ∈ g'.pool.connq_) :
    some c ∈ g.pool.connq_ ∨ ∃ call cmd result, l = .unwinding call cmd (some c) result ∧ g'.net = g.net := by
  cases moves with
  | lent queue => exact .inl (by rw [queue]; exact List.mem_cons_of_mem _ queued)
  | exhausted empty why => exact .inl queued
  | thrown empty room rejected e => exact .inl queued
  | opened empty room opens => exact .inl queued
  | unavailable => exact .inl queued
  | sent at_c live => exact .inl queued
  | unsent at_c why => exact .inl queued
  | received at_c live next => exact .inl queued
  | unanswered at_c why => exact .inl queued
  | @released call cmd conn result =>
    rcases List.mem_append.mp queued with old | new
    · exact .inl old
    · obtain rfl := List.mem_singleton.mp new
      exact .inr ⟨call, cmd, result, rfl, rfl⟩

/-- What a thread's move adds to the calls that have ended. -/
theorem moves_returned {g g' : Shared} {l l' : Stage} {act : Act} (moves : Moves g l act g' l') {ret : Returned}
    (member : ret ∈ g'.returned) :
    ret ∈ g.returned ∨ (∃ e, ret.result = .error e ∧ ret.conn = none ∧ ret.call = g.nextCall) ∨
      l = .unwinding ret.call ret.cmd ret.conn ret.result := by
  cases moves with
  | lent queue => exact .inl member
  | exhausted empty why => exact .inl member
  | thrown empty room rejected e =>
    rcases List.mem_append.mp member with old | new
    · exact .inl old
    · obtain rfl := List.mem_singleton.mp new
      exact .inr (.inl ⟨e, rfl, rfl, rfl⟩)
  | opened empty room opens => exact .inl member
  | unavailable => exact .inl member
  | sent at_c live => exact .inl member
  | unsent at_c why => exact .inl member
  | received at_c live next => exact .inl member
  | unanswered at_c why => exact .inl member
  | released =>
    rcases List.mem_append.mp member with old | new
    · exact .inl old
    · obtain rfl := List.mem_singleton.mp new
      exact .inr (.inr rfl)

/-- Carrying out a request keeps what is quiet quiet and what waits waiting. -/
private theorem served_ok {ctx : Context} {request : Request} {rest : List Request}
    (pending : ctx.toServer = request :: rest) (r : RedisReply) (selected : Option Int) :
    let ctx' := { ctx with toServer := rest, toClient := ctx.toClient ++ [⟨request, r⟩], selected := selected }
    (ctx.Quiet → ctx'.Quiet) ∧ ∀ req, Awaits ctx req → Awaits ctx' req := by
  constructor
  · intro quiet live
    have := (quiet live).1
    rw [pending] at this
    cases this
  · intro req awaits live
    rcases awaits live with ⟨one, nothing⟩ | ⟨none, _⟩
    · rw [pending] at one
      obtain ⟨rfl, rfl⟩ := List.cons.inj one
      exact .inr ⟨rfl, r, by simp [nothing]⟩
    · rw [pending] at none; cases none

theorem step_paired {s s' : System} {m : Move Act Serving} {L : Ledger ConnId} (keeps : Keeps s L)
    (paired : Paired s) (taken : step s m = some s') : Paired s' := by
  rcases step_cases taken with ⟨i, act, l, l', rfl, at_i, moved, locals⟩ | ⟨e, rfl, served, locals⟩
  · have moves := own_moves moved
    obtain ⟨queueApart, othersApart⟩ := keeps_apart keeps at_i
    have mine := moves_paired moves paired.queued (paired.stages i l at_i)
    constructor
    · intro c queued
      rcases moves_queue moves queued with old | ⟨call, cmd, result, rfl, same⟩
      · obtain ⟨inside, free⟩ := queueApart c old
        exact quietAt_frame (moves_frame moves inside free) (paired.queued c old)
      · rw [same]
        exact (paired.stages i _ at_i).1 c rfl
    · intro j k at_j
      rw [locals] at at_j
      refine locals_set mine ?_ at_j
      intro j k other at_j
      apply stageOk_frame _ (paired.stages j k at_j)
      intro c member
      obtain ⟨inside, free⟩ := othersApart j k other at_j c member
      exact moves_frame moves inside free
    · intro ret member a ended
      rcases moves_returned moves member with old | ⟨e, failed, _⟩ | rfl
      · exact paired.answered ret old a ended
      · rw [failed] at ended; cases ended
      · exact (paired.stages i _ at_i).2 a ended
  · obtain ⟨ctx, request, rest, at_e, pending, same⟩ := serving_cases served
    have ok := served_ok pending e.reply (ctx.selectedBy request e.switched)
    have quiet : ∀ (c : ConnId), QuietAt s.shared.net c → QuietAt s'.shared.net c := by
      intro c before ctx' found
      rw [same] at found
      by_cases here : c = e.conn
      · subst here
        rw [Net.put_self at_e, Option.some.injEq] at found
        exact found ▸ ok.1 (before ctx at_e)
      · rw [Net.put_other _ here] at found
        exact before ctx' found
    have awaits : ∀ (c : ConnId) req, (∀ ctx, s.shared.net.contexts[c]? = some ctx → Awaits ctx req) →
        ∀ ctx, s'.shared.net.contexts[c]? = some ctx → Awaits ctx req := by
      intro c req before ctx' found
      rw [same] at found
      by_cases here : c = e.conn
      · subst here
        rw [Net.put_self at_e, Option.some.injEq] at found
        exact found ▸ ok.2 req (before ctx at_e)
      · rw [Net.put_other _ here] at found
        exact before ctx' found
    constructor
    · intro c queued
      rw [same] at queued
      exact quiet c (paired.queued c queued)
    · intro j k at_j
      rw [locals] at at_j
      have before := paired.stages j k at_j
      cases k with
      | idle => trivial
      | guarded call cmd conn => exact fun c at_c => quiet c (before c at_c)
      | waiting call cmd c => exact awaits c _ before
      | unwinding call cmd conn result => exact ⟨fun c at_c => quiet c (before.1 c at_c), before.2⟩
    · intro ret member
      rw [same] at member
      exact paired.answered ret member

theorem start_paired (threads : Nat) (env : Nat → Opening) (host : Str) (port db size max_size : Int) :
    Paired (start threads env (fresh host port db size max_size)) := by
  have more : ∀ (j : Nat) (p : ConnectionPool) (net : Net), (∀ ctx ∈ net.contexts, ctx.Quiet) →
      ∀ ctx ∈ (grown net (newContext p (env j).select)).contexts, ctx.Quiet := by
    intro j p net quiet ctx member
    rcases List.mem_append.mp member with old | new
    · exact quiet ctx old
    · exact List.mem_singleton.mp new ▸ newContext_quiet p (env j).select
  have quiet := initialize_invariant env (fun _ net => ∀ ctx ∈ net.contexts, ctx.Quiet)
    (fun j p net quiet _ => more j p net quiet) (fun j p net quiet _ => more j p net quiet)
    (p := fresh host port db size max_size) (fun ctx (member : ctx ∈ ({} : Net).contexts) => by cases member)
  constructor
  · intro c _ ctx at_c
    exact quiet ctx (List.mem_of_getElem? at_c)
  · intro i l at_i
    have idle : l = .idle := List.eq_of_mem_replicate (List.mem_of_getElem? at_i)
    subst idle
    trivial
  · intro ret member
    cases member

theorem run_paired {threads : Nat} {env : Nat → Opening} {host : Str} {port db size max_size : Int}
    {moves : List (Move Act Serving)} {s : System}
    (runs : run step (start threads env (fresh host port db size max_size)) moves = some s) : Paired s := by
  exact run_kept Paired (fun _ => True) (fun _ _ _ _ keeps paired _ taken => step_paired keeps paired taken)
    runs (fun _ _ => trivial) (start_paired threads env host port db size max_size)

/-! ### Numbers of calls -/

/-- The numbers of the calls that have ended or are under way. -/
def numbers (s : System) : Multiset Nat := s.shared.returned.map Returned.call + held calling s.locals

/-- A call number is used once. -/
def Numbered (s : System) : Prop := (numbers s).Nodup ∧ ∀ n ∈ numbers s, n < s.shared.nextCall

/-- A thread's move takes the next number or none. -/
private theorem moves_numbers {g g' : Shared} {l l' : Stage} {act : Act} (moves : Moves g l act g' l') :
    ((g'.returned.map Returned.call : Multiset Nat) + calling l' =
        g.nextCall ::ₘ ((g.returned.map Returned.call : Multiset Nat) + calling l) ∧ g'.nextCall = g.nextCall + 1) ∨
    ((g'.returned.map Returned.call : Multiset Nat) + calling l' =
        (g.returned.map Returned.call : Multiset Nat) + calling l ∧ g'.nextCall = g.nextCall) := by
  have added (call : Nat) (calls : List Nat) :
      ((calls ++ [call] : List Nat) : Multiset Nat) = call ::ₘ (calls : Multiset Nat) := by
    rw [← Multiset.coe_add, Multiset.coe_singleton, add_comm, Multiset.singleton_add]
  have beside (call : Nat) (calls : Multiset Nat) : calls + {call} = call ::ₘ calls := by
    rw [add_comm, Multiset.singleton_add]
  cases moves with
  | lent queue => exact .inl ⟨by simp [calling, beside], rfl⟩
  | exhausted empty why => exact .inl ⟨by simp [calling, beside], rfl⟩
  | thrown empty room rejected e => exact .inl ⟨by simp [calling, added], rfl⟩
  | opened empty room opens => exact .inl ⟨by simp [calling, beside], rfl⟩
  | unavailable => exact .inr ⟨rfl, rfl⟩
  | sent at_c live => exact .inr ⟨rfl, rfl⟩
  | unsent at_c why => exact .inr ⟨rfl, rfl⟩
  | received at_c live next => exact .inr ⟨rfl, rfl⟩
  | unanswered at_c why => exact .inr ⟨rfl, rfl⟩
  | released => exact .inr ⟨by simp [calling, added, beside], rfl⟩

theorem step_numbered {s s' : System} {m : Move Act Serving} (numbered : Numbered s) (taken : step s m = some s') :
    Numbered s' := by
  rcases step_cases taken with ⟨i, act, l, l', rfl, at_i, moved, locals⟩ | ⟨e, rfl, served, locals⟩
  · obtain ⟨rest, total, changed, _⟩ := held_split calling at_i
    have before : numbers s = s.shared.returned.map Returned.call + calling l + rest := by
      rw [numbers, total, add_assoc]
    have after : numbers s' = s'.shared.returned.map Returned.call + calling l' + rest := by
      rw [numbers, locals, changed, add_assoc]
    rcases moves_numbers (own_moves moved) with ⟨grows, next⟩ | ⟨same, next⟩
    · have now : numbers s' = s.shared.nextCall ::ₘ numbers s := by rw [after, grows, before, Multiset.cons_add]
      refine ⟨?_, ?_⟩
      · rw [now]
        exact Multiset.nodup_cons.mpr ⟨fun used => lt_irrefl _ (numbered.2 _ used), numbered.1⟩
      · intro n member
        rw [now, Multiset.mem_cons] at member
        rw [next]
        rcases member with rfl | old
        · exact Nat.lt_succ_self _
        · exact (numbered.2 n old).trans (Nat.lt_succ_self _)
    · have now : numbers s' = numbers s := by rw [after, same, before]
      exact ⟨now ▸ numbered.1, fun n member => next ▸ numbered.2 n (now ▸ member)⟩
  · obtain ⟨_, next, returned⟩ := serving_keeps served
    have now : numbers s' = numbers s := by rw [numbers, numbers, locals, returned]
    exact ⟨now ▸ numbered.1, fun n member => next ▸ numbered.2 n (now ▸ member)⟩

theorem run_numbered {threads : Nat} {env : Nat → Opening} {p : ConnectionPool} {moves : List (Move Act Serving)}
    {s : System} (runs : run step (start threads env p) moves = some s) : Numbered s := by
  refine run_invariant Numbered (fun s m s' numbered taken => step_numbered numbered taken) runs ?_
  have none : numbers (start threads env p) = 0 := by
    simp [numbers, start, held_replicate calling (l := .idle) rfl]
  exact ⟨none ▸ Multiset.nodup_zero, fun n member => by rw [none] at member; simp at member⟩

/-! ### Exclusive lending and reply pairing -/

/-- In every state that any interleaving reaches, a connection that the pool has
    opened and pushed is in one place: it is in the queue once, or one guard
    holds it. A reply that a call returns is the server's answer to the request
    that this call sent, and no other call has its number. -/
theorem lending_exclusive {threads : Nat} {env : Nat → Opening} {host : Str} {port db size max_size : Int}
    {moves : List (Move Act Serving)} {s : System}
    (runs : run step (start threads env (fresh host port db size max_size)) moves = some s) :
    (∀ c ∈ s.shared.pool.opened,
      s.shared.pool.connq_.count (some c) + (held holds s.locals).count c = 1) ∧
    (∀ ret ∈ s.shared.returned, ∀ a, ret.result = .ok a → a.request = .command ret.call ret.cmd) ∧
    (s.shared.returned.map Returned.call).Nodup := by
  refine ⟨?_, (run_paired runs).answered, ?_⟩
  · intro c member
    obtain ⟨L, keeps⟩ := run_lends runs
    have entered : c ∈ L.issued := by rw [keeps.issued]; exact member
    have place := L.in_one_place entered
    rw [keeps.idle, keeps.lent, Multiset.coe_count] at place
    have queue : s.shared.pool.connq_.reduceOption.count c = s.shared.pool.connq_.count (some c) :=
      count_reduceOption c _
    rw [← queue]
    exact place
  · have distinct := (Multiset.nodup_add.mp (run_numbered runs).1).1
    exact Multiset.coe_nodup.mp distinct

/-- A connection that is accepted and switched to its database. -/
def reachable : Opening := ⟨true, .reply (.status (lit "OK")) true⟩

/-- Two calls at a pool of one connection: the second finds it exhausted and
    ends while the first one waits for its reply. -/
def twoCalls : List (Move Act Serving) :=
  [.thread 0 (.acquire [lit "GET"] reachable), .thread 1 (.acquire [lit "PING"] reachable),
   .thread 1 (.send none), .thread 0 (.send none), .thread 1 .release,
   .outside ⟨0, .string (lit "v"), false⟩, .thread 0 (.receive none), .thread 0 .release]

theorem lending_exclusive_two_calls : ∃ s,
    run step (start 2 (fun _ => reachable) (fresh (lit "h") 6379 0 1 1)) twoCalls = some s ∧
      (∀ c ∈ s.shared.pool.opened,
        s.shared.pool.connq_.count (some c) + (held holds s.locals).count c = 1) ∧
      (∀ ret ∈ s.shared.returned, ∀ a, ret.result = .ok a → a.request = .command ret.call ret.cmd) ∧
      (s.shared.returned.map Returned.call).Nodup := by
  obtain ⟨s, runs⟩ := Option.isSome_iff_exists.mp (show Option.isSome
    (run step (start 2 (fun _ => reachable) (fresh (lit "h") 6379 0 1 1)) twoCalls) = true by decide)
  exact ⟨s, runs, lending_exclusive runs⟩

end CppRedis.Lending

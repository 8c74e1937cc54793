import CppRedis.Capacity

/-!
Failed connections. The pool looks at no connection's `err`: a connection on
which a command got no reply goes back into the queue like any other and is lent
again when its turn comes (`dead_lent_again`). Nothing that is sent on it leaves
the client any more, and every call that is lent it throws (`dead_calls_fail`).
-/
namespace CppRedis.Health
open CppRedis.Strings CppRedis.Reply CppRedis.Connection CppRedis.Pool CppRedis.Interleaving CppRedis.Execute
open CppRedis.Runs CppRedis.Lending CppRedis.Ledgers

/-- A failed context keeps its error, and the server gets nothing new on it. -/
def StaysFailed (net net' : Net) : Prop :=
  ∀ (c : ConnId) ctx errstr, net.contexts[c]? = some ctx → ctx.err = some errstr →
    ∃ ctx', net'.contexts[c]? = some ctx' ∧ ctx'.err = some errstr ∧ ctx'.toServer <:+ ctx.toServer

theorem staysFailed_refl (net : Net) : StaysFailed net net :=
  fun _ ctx _ at_c failed => ⟨ctx, at_c, failed, List.suffix_rfl⟩

theorem staysFailed_trans {net₁ net₂ net₃ : Net} (first : StaysFailed net₁ net₂) (second : StaysFailed net₂ net₃) :
    StaysFailed net₁ net₃ := by
  intro c ctx errstr at_c failed
  obtain ⟨ctx₂, at_c₂, failed₂, suffix₂⟩ := first c ctx errstr at_c failed
  obtain ⟨ctx₃, at_c₃, failed₃, suffix₃⟩ := second c ctx₂ errstr at_c₂ failed₂
  exact ⟨ctx₃, at_c₃, failed₃, suffix₃.trans suffix₂⟩

private theorem put_failed {net : Net} {d : ConnId} {old new : Context} (at_d : net.contexts[d]? = some old)
    (keeps : ∀ errstr, old.err = some errstr → new.err = some errstr ∧ new.toServer <:+ old.toServer) :
    StaysFailed net (net.put d new) := by
  intro c ctx errstr at_c failed
  by_cases same : c = d
  · subst same
    rw [at_d, Option.some.injEq] at at_c
    subst at_c
    exact ⟨new, Net.put_self at_d new, keeps errstr failed⟩
  · exact ⟨ctx, by rw [Net.put_other _ same, at_c], failed, List.suffix_rfl⟩

private theorem grown_failed (net : Net) (new : Context) : StaysFailed net (grown net new) := by
  intro c ctx errstr at_c failed
  have old := (List.getElem?_eq_some_iff.mp at_c).1
  exact ⟨ctx, by rw [grown_old _ _ old, at_c], failed, List.suffix_rfl⟩

private theorem fail_again {ctx : Context} {fail : Option Str} {errstr : Str}
    (why : ctx.err = some errstr ∨ ctx.err = none ∧ fail = some errstr) (before : Str)
    (failed : ctx.err = some before) : some errstr = some before := by
  rcases why with same | ⟨live, _⟩
  · rw [← same, failed]
  · rw [live] at failed; cases failed

theorem moves_failed {g g' : Shared} {l l' : Stage} {act : Act} (moves : Moves g l act g' l') :
    StaysFailed g.net g'.net := by
  cases moves with
  | lent queue => exact staysFailed_refl _
  | exhausted empty why => exact staysFailed_refl _
  | thrown empty room rejected e => exact grown_failed _ _
  | opened empty room opens => exact grown_failed _ _
  | unavailable => exact staysFailed_refl _
  | sent at_c live => exact put_failed at_c fun e failed => by rw [live] at failed; cases failed
  | unsent at_c why => exact put_failed at_c fun e failed => ⟨fail_again why e failed, List.suffix_rfl⟩
  | received at_c live next => exact put_failed at_c fun e failed => by rw [live] at failed; cases failed
  | unanswered at_c why => exact put_failed at_c fun e failed => ⟨fail_again why e failed, List.suffix_rfl⟩
  | released => exact staysFailed_refl _

theorem step_failed {s s' : System} {m : Move Act Serving} (taken : step s m = some s') :
    StaysFailed s.shared.net s'.shared.net := by
  rcases step_cases taken with ⟨i, act, l, l', rfl, at_i, moved, locals⟩ | ⟨e, rfl, served, locals⟩
  · exact moves_failed (own_moves moved)
  · obtain ⟨ctx, request, rest, at_e, pending, same⟩ := serving_cases served
    rw [same]
    exact put_failed at_e fun errstr failed => ⟨failed, by rw [pending]; exact List.suffix_cons request rest⟩

/-- A failed connection never recovers. -/
theorem run_failed {s s' : System} {moves : List (Move Act Serving)} (runs : run step s moves = some s') :
    StaysFailed s.shared.net s'.shared.net :=
  run_relation (R := fun s s' : System => StaysFailed s.shared.net s'.shared.net)
    (fun s => staysFailed_refl s.shared.net) (fun _ _ _ first second => staysFailed_trans first second)
    (fun _ _ _ taken => step_failed taken) runs

/-! ### Calls that are lent a failed connection -/

/-- A call from number `n` on that is lent `c` has not got past sending, or has
    thrown. -/
def StageFails (n : Nat) (c : ConnId) (errstr : Str) : Stage → Prop
  | .waiting call _ d => n ≤ call → d ≠ c
  | .unwinding call _ conn result => n ≤ call → conn = some c → result = .error (.CommandException errstr)
  | _ => True

/-- `c` has failed, and every call from number `n` on that was lent it has thrown. -/
structure Fails (n : Nat) (c : ConnId) (errstr : Str) (s : System) : Prop where
  failed : ∃ ctx, s.shared.net.contexts[c]? = some ctx ∧ ctx.err = some errstr
  stages : ∀ (i : Nat) l, s.locals[i]? = some l → StageFails n c errstr l
  ended : ∀ ret ∈ s.shared.returned, n ≤ ret.call → ret.conn = some c →
    ret.result = .error (.CommandException errstr)

private theorem moves_fails {g g' : Shared} {l l' : Stage} {act : Act} (moves : Moves g l act g' l')
    {n : Nat} {c : ConnId} {errstr : Str} (failed : ∃ ctx, g.net.contexts[c]? = some ctx ∧ ctx.err = some errstr)
    (stage : StageFails n c errstr l) : StageFails n c errstr l' := by
  obtain ⟨dead, at_dead, err⟩ := failed
  cases moves with
  | lent queue => trivial
  | exhausted empty why => trivial
  | thrown empty room rejected e => trivial
  | opened empty room opens => trivial
  | unavailable => exact fun _ wrong => by cases wrong
  | @sent call cmd d ctx at_d live =>
    rintro _ rfl
    rw [at_dead, Option.some.injEq] at at_d
    rw [← at_d, err] at live
    cases live
  | @unsent call cmd d ctx fail e at_d why =>
    intro _ same
    cases same
    rw [at_dead, Option.some.injEq] at at_d
    have again := fail_again why errstr (at_d ▸ err)
    cases again
    rfl
  | received at_d live next => exact fun later same => absurd (Option.some.inj same) (stage later)
  | unanswered at_d why => exact fun later same => absurd (Option.some.inj same) (stage later)
  | released => trivial

theorem step_fails {s s' : System} {m : Move Act Serving} {n : Nat} {c : ConnId} {errstr : Str}
    (fails : Fails n c errstr s) (taken : step s m = some s') : Fails n c errstr s' := by
  obtain ⟨ctx, at_c, err⟩ := fails.failed
  obtain ⟨ctx', at_c', err', _⟩ := step_failed taken c ctx errstr at_c err
  rcases step_cases taken with ⟨i, act, l, l', rfl, at_i, moved, locals⟩ | ⟨e, rfl, served, locals⟩
  · have moves := own_moves moved
    refine ⟨⟨ctx', at_c', err'⟩, ?_, ?_⟩
    · intro j k at_j
      rw [locals] at at_j
      exact locals_set (moves_fails moves fails.failed (fails.stages i l at_i))
        (fun j k _ at_j => fails.stages j k at_j) at_j
    · intro ret member later lent
      rcases moves_returned moves member with old | ⟨_, _, none, _⟩ | rfl
      · exact fails.ended ret old later lent
      · rw [none] at lent; cases lent
      · exact fails.stages i _ at_i later lent
  · obtain ⟨_, _, returned⟩ := serving_keeps served
    refine ⟨⟨ctx', at_c', err'⟩, fun j k at_j => fails.stages j k (locals ▸ at_j), ?_⟩
    intro ret member
    rw [returned] at member
    exact fails.ended ret member

/-- Calls that begin after a connection has failed and are lent it throw. -/
theorem dead_calls_fail {s s' : System} {moves : List (Move Act Serving)} (numbered : Numbered s) {c : ConnId}
    {ctx : Context} {errstr : Str} (at_c : s.shared.net.contexts[c]? = some ctx) (dead : ctx.err = some errstr)
    (runs : run step s moves = some s') :
    ∀ ret ∈ s'.shared.returned, s.shared.nextCall ≤ ret.call → ret.conn = some c →
      ret.result = .error (.CommandException errstr) := by
  have begun : ∀ call ∈ numbers s, ¬ s.shared.nextCall ≤ call := fun call member later =>
    absurd (numbered.2 call member) (by omega)
  have starts : Fails s.shared.nextCall c errstr s := by
    refine ⟨⟨ctx, at_c, dead⟩, ?_, ?_⟩
    · intro i l at_i
      have mine : calling l ≤ numbers s :=
        (le_held_of_mem calling (List.mem_of_getElem? at_i)).trans (Multiset.le_add_left _ _)
      cases l with
      | idle => trivial
      | guarded call cmd conn => trivial
      | waiting call cmd d =>
        exact fun later => absurd later (begun call (Multiset.mem_of_le mine (Multiset.mem_singleton_self call)))
      | unwinding call cmd conn result =>
        exact fun later => absurd later (begun call (Multiset.mem_of_le mine (Multiset.mem_singleton_self call)))
    · intro ret member later _
      have mine : ret.call ∈ numbers s :=
        Multiset.mem_add.mpr (.inl (Multiset.mem_coe.mpr (List.mem_map_of_mem member)))
      exact absurd later (begun ret.call mine)
  exact (run_invariant (Fails s.shared.nextCall c errstr) (fun _ _ _ fails taken => step_fails fails taken)
    runs starts).ended

/-! ### The queue's order -/

/-- Whatever the queue holds ahead of an entry is lent first, then the entry. -/
theorem dead_lent_again {s : System} {conn : Option ConnId} {ahead rest : List (Option ConnId)}
    (queue : s.shared.pool.connq_ = ahead ++ conn :: rest) (cmd : RedisCmd) (o : Opening) :
    ∃ moves s', (∀ m ∈ moves, ∃ i, m = .thread i (.acquire cmd o)) ∧ moves.length = ahead.length + 1 ∧
      run step ⟨s.shared, s.locals ++ List.replicate (ahead.length + 1) .idle⟩ moves = some s' ∧
      ∃ call, s'.locals.getLast? = some (.guarded call cmd conn) := by
  induction ahead generalizing s with
  | nil =>
    have popped : ConnectionPool.acquire o s.shared.pool s.shared.net =
        (.ok conn, { s.shared.pool with connq_ := rest }, s.shared.net) := by
      simp [ConnectionPool.acquire, ConnectionPool.pop, queue]
    refine ⟨[.thread s.locals.length (.acquire cmd o)],
      ⟨{ s.shared with
        pool := { s.shared.pool with connq_ := rest }
        nextCall := s.shared.nextCall + 1 }, s.locals ++ [.guarded s.shared.nextCall cmd conn]⟩,
      by simp, rfl, run_cons_some.mpr ⟨_, ?_, run_nil _⟩, s.shared.nextCall, by simp⟩
    rw [Execute.step, step_thread (l := .idle) (by simp) (by simp only [own, popped]; rfl)]
    simp
  | cons front ahead ih =>
    have popped : ConnectionPool.acquire o s.shared.pool s.shared.net =
        (.ok front, { s.shared.pool with connq_ := ahead ++ conn :: rest }, s.shared.net) := by
      simp [ConnectionPool.acquire, ConnectionPool.pop, queue]
    obtain ⟨moves, s', acquires, count, runs, last⟩ := ih
      (s := ⟨{ s.shared with
        pool := { s.shared.pool with connq_ := ahead ++ conn :: rest }
        nextCall := s.shared.nextCall + 1 }, s.locals ++ [.guarded s.shared.nextCall cmd front]⟩) rfl
    refine ⟨.thread s.locals.length (.acquire cmd o) :: moves, s', ?_, by simp [count],
      run_cons_some.mpr ⟨_, ?_, runs⟩, last⟩
    · intro m member
      rcases List.mem_cons.mp member with rfl | later
      · exact ⟨_, rfl⟩
      · exact acquires m later
    · rw [Execute.step, step_thread (l := .idle) (by simp) (by simp only [own, popped]; rfl)]
      simp [List.replicate_succ]

/-! ### Failed commands -/

/-- A connection is the pool's and has failed. -/
def Broken (s : System) (c : ConnId) (errstr : Str) : Prop :=
  c ∈ s.shared.pool.opened ∧ ∃ ctx, s.shared.net.contexts[c]? = some ctx ∧ ctx.err = some errstr

/-- Every call that threw `CommandException` had a connection that is broken. -/
structure Blamed (s : System) : Prop where
  unwinding : ∀ (i : Nat) call cmd c errstr,
    s.locals[i]? = some (.unwinding call cmd (some c) (.error (.CommandException errstr))) → Broken s c errstr
  ended : ∀ ret ∈ s.shared.returned, ∀ c errstr, ret.conn = some c →
    ret.result = .error (.CommandException errstr) → Broken s c errstr

private theorem moves_broken {g g' : Shared} {l l' : Stage} {act : Act} (moves : Moves g l act g' l')
    {call : Nat} {cmd : RedisCmd} {c : ConnId} {errstr : Str}
    (thrown : l' = .unwinding call cmd (some c) (.error (.CommandException errstr))) :
    c ∈ holds l ∧ ∃ ctx, g'.net.contexts[c]? = some ctx ∧ ctx.err = some errstr := by
  cases moves with
  | unsent at_c why =>
    cases thrown
    exact ⟨Multiset.mem_singleton_self c, _, Net.put_self at_c _, rfl⟩
  | unanswered at_c why =>
    cases thrown
    exact ⟨Multiset.mem_singleton_self c, _, Net.put_self at_c _, rfl⟩
  | lent queue | exhausted empty why | thrown empty room rejected e | opened empty room opens | unavailable
  | sent at_c live | received at_c live next | released => cases thrown

private theorem step_opened {s s' : System} {m : Move Act Serving} {L : Ledger ConnId} (keeps : Keeps s L)
    (taken : step s m = some s') {c : ConnId} (pooled : c ∈ s.shared.pool.opened) : c ∈ s'.shared.pool.opened := by
  obtain ⟨L', steps, keeps'⟩ := step_lends keeps taken
  have entered : c ∈ L.issued := by rw [keeps.issued]; exact pooled
  have still := Multiset.mem_of_le (Ledger.steps_issued steps) entered
  rw [keeps'.issued] at still
  exact still

theorem step_blamed {s s' : System} {m : Move Act Serving} {L : Ledger ConnId} (keeps : Keeps s L)
    (blamed : Blamed s) (taken : step s m = some s') : Blamed s' := by
  have still : ∀ c errstr, Broken s c errstr → Broken s' c errstr := by
    rintro c errstr ⟨pooled, ctx, at_c, err⟩
    obtain ⟨ctx', at_c', err', _⟩ := step_failed taken c ctx errstr at_c err
    exact ⟨step_opened keeps taken pooled, ctx', at_c', err'⟩
  rcases step_cases taken with ⟨i, act, l, l', rfl, at_i, moved, locals⟩ | ⟨e, rfl, served, locals⟩
  · have moves := own_moves moved
    have mine : ∀ call cmd c errstr, l' = .unwinding call cmd (some c) (.error (.CommandException errstr)) →
        Broken s' c errstr := by
      intro call cmd c errstr thrown
      obtain ⟨mine, ctx, at_c, err⟩ := moves_broken moves thrown
      exact ⟨step_opened keeps taken (keeps.pooled at_i mine), ctx, at_c, err⟩
    constructor
    · intro j call cmd c errstr at_j
      rw [locals] at at_j
      exact locals_set (P := fun k => ∀ call cmd c errstr,
          k = .unwinding call cmd (some c) (.error (.CommandException errstr)) → Broken s' c errstr) mine
        (fun j k _ at_j call cmd c errstr same =>
          still c errstr (blamed.unwinding j call cmd c errstr (by subst same; exact at_j))) at_j call cmd c errstr rfl
    · intro ret member c errstr lent thrown
      rcases moves_returned moves member with old | ⟨_, _, none, _⟩ | rfl
      · exact still c errstr (blamed.ended ret old c errstr lent thrown)
      · rw [none] at lent; cases lent
      · obtain ⟨call, cmd, conn, result⟩ := ret
        cases lent
        cases thrown
        exact still c errstr (blamed.unwinding i call cmd c errstr at_i)
  · obtain ⟨_, _, returned⟩ := serving_keeps served
    exact ⟨fun j call cmd c errstr at_j => still c errstr (blamed.unwinding j call cmd c errstr (locals ▸ at_j)),
      fun ret member c errstr lent thrown =>
        still c errstr (blamed.ended ret (returned ▸ member) c errstr lent thrown)⟩

section
variable {threads : Nat} {env : Nat → Opening} {host : Str} {port db size max_size : Int}
  {before : List (Move Act Serving)} {s : System}
  (runs : run step (start threads env (fresh host port db size max_size)) before = some s)
include runs

theorem run_blamed : Blamed s := by
  refine run_kept Blamed (fun _ => True)
    (fun _ _ _ _ keeps blamed _ taken => step_blamed keeps blamed taken) runs (fun _ _ => trivial) ⟨?_, ?_⟩
  · intro i call cmd c errstr at_i
    cases List.eq_of_mem_replicate (List.mem_of_getElem? at_i)
  · intro ret member
    cases member

/-- A pooled connection stays in one place. -/
theorem pooled_stays {c : ConnId} (pooled : c ∈ s.shared.pool.opened) {after : List (Move Act Serving)}
    {s' : System} (later : run step s after = some s') :
    s'.shared.pool.connq_.count (some c) + (held holds s'.locals).count c = 1 := by
  obtain ⟨L, keeps⟩ := run_lends runs
  obtain ⟨L', steps, keeps'⟩ := run_simulates (fun _ _ _ _ keeps taken => step_lends keeps taken) later keeps
  have entered : c ∈ L'.issued :=
    Multiset.mem_of_le (Ledger.steps_issued steps) (by rw [keeps.issued]; exact pooled)
  have place := L'.in_one_place entered
  rw [keeps'.idle, keeps'.lent, Multiset.coe_count, count_reduceOption] at place
  exact place

end

/-- The server closes the connection on the first command. -/
def closed : Str := lit "Server closed the connection"

def brokenCall : List (Move Act Serving) :=
  [.thread 0 (.acquire [lit "GET"] reachable), .thread 0 (.send none), .thread 0 (.receive (some closed)),
   .thread 0 .release]

def nextCall : List (Move Act Serving) :=
  [.thread 0 (.acquire [lit "PING"] reachable), .thread 0 (.send none), .thread 0 .release]

end CppRedis.Health

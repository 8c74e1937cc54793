import CppRedis.Lending

/-!
What a failed `acquire` leaves behind. Where `acquire` returns NULL, `execute`
throws and the guard's destructor hands the NULL to `release`, which queues it;
a later call is then lent the NULL though connections are idle. The queue stays
free of NULL entries along a run exactly if no guard that holds NULL is destroyed
in it (`undamaged_iff_no_null_released`).
-/
namespace CppRedis.Exhaustion
open CppRedis.Strings CppRedis.Reply CppRedis.Connection CppRedis.Pool CppRedis.Interleaving CppRedis.Execute
open CppRedis.Runs CppRedis.Lending

/-- No connection is in the queue. -/
def NoIdle (p : ConnectionPool) : Prop := ∀ c, some c ∉ p.connq_

/-- A new call throws ConnectionException: it builds its guard, is lent NULL and
    throws when it would send. -/
def NewCallFails (g : Shared) (o : Opening) : Prop :=
  ∃ cmd g₁ l₁ fail g₂ call conn err, own g .idle (.acquire cmd o) = some (g₁, l₁) ∧
    own g₁ l₁ (.send fail) = some (g₂, .unwinding call cmd conn (.error (.ConnectionException err)))

/-- The queue holds no NULL, and a new call throws ConnectionException only if
    no connection is idle and the pool is at its limit or cannot open one more. -/
def Undamaged (s : System) : Prop :=
  none ∉ s.shared.pool.connq_ ∧ ∀ o, NewCallFails s.shared o →
    NoIdle s.shared.pool ∧ (s.shared.pool.max_size_ ≤ s.shared.pool.size_ ∨ o.accepted = false)

/-- The move destroys a guard that holds NULL. -/
def ReleasesNull (s : System) (m : Move Act Serving) : Prop :=
  ∃ (i : Nat) (call : Nat) (cmd : RedisCmd) (result : Except Exception Answer),
    m = .thread i .release ∧ s.locals[i]? = some (.unwinding call cmd none result)

instance (s : System) : (m : Move Act Serving) → Decidable (ReleasesNull s m)
  | .thread i .release =>
    match at_i : s.locals[i]? with
    | some (.unwinding call cmd none result) => .isTrue ⟨i, call, cmd, result, rfl, at_i⟩
    | some (.unwinding _ _ (some c) _) => .isFalse fun ⟨_, _, _, _, same, is⟩ => by
      cases same
      cases at_i.symm.trans is
    | some .idle | some (.guarded ..) | some (.waiting ..) | none => .isFalse fun ⟨_, _, _, _, same, is⟩ => by
      cases same
      cases at_i.symm.trans is
  | .thread _ (.acquire ..) | .thread _ (.send _) | .thread _ (.receive _) | .outside _ =>
    .isFalse fun ⟨_, _, _, _, same, _⟩ => by cases same

/-- Only a call that is lent NULL throws ConnectionException. -/
private theorem fails_lent_null {g g' : Shared} {l : Stage} {fail : Option Str} {call : Nat} {cmd : RedisCmd}
    {conn : Option ConnId} {err : Str}
    (sent : own g l (.send fail) = some (g', .unwinding call cmd conn (.error (.ConnectionException err)))) :
    l = .guarded call cmd none := by
  cases own_moves sent with
  | unavailable => rfl

theorem newCallFails_cases {g : Shared} {o : Opening} (fails : NewCallFails g o) :
    (∃ rest, g.pool.connq_ = none :: rest) ∨
    (g.pool.connq_ = [] ∧ (g.pool.max_size_ ≤ g.pool.size_ ∨ o.accepted = false)) := by
  obtain ⟨cmd, g₁, l₁, fail, g₂, call, conn, err, acquired, sent⟩ := fails
  have null := fails_lent_null sent
  subst null
  cases own_moves acquired with
  | lent queue => exact .inl ⟨_, queue⟩
  | exhausted empty why => exact .inr ⟨empty, why⟩

theorem undamaged_iff (s : System) : Undamaged s ↔ none ∉ s.shared.pool.connq_ := by
  constructor
  · exact And.left
  · intro clean
    refine ⟨clean, ?_⟩
    intro o fails
    rcases newCallFails_cases fails with ⟨rest, queue⟩ | ⟨empty, why⟩
    · exact absurd (queue ▸ List.mem_cons_self) clean
    · refine ⟨?_, why⟩
      intro c member
      simp [empty] at member

/-- What the queue holds after a thread's move. -/
private theorem moves_null {g g' : Shared} {l l' : Stage} {act : Act} (moves : Moves g l act g' l')
    (clean : none ∉ g.pool.connq_) :
    none ∉ g'.pool.connq_ ↔ ¬ (act = .release ∧ ∃ call cmd result, l = .unwinding call cmd none result) := by
  cases moves with
  | lent queue =>
    refine iff_of_true (fun member => clean ?_) (by simp)
    rw [queue]
    exact List.mem_cons_of_mem _ member
  | exhausted empty why => exact iff_of_true clean (by simp)
  | thrown empty room rejected e => exact iff_of_true clean (by simp)
  | opened empty room opens => exact iff_of_true clean (by simp)
  | unavailable => exact iff_of_true clean (by simp)
  | sent at_c live => exact iff_of_true clean (by simp)
  | unsent at_c why => exact iff_of_true clean (by simp)
  | received at_c live next => exact iff_of_true clean (by simp)
  | unanswered at_c why => exact iff_of_true clean (by simp)
  | @released call cmd conn result =>
    cases conn with
    | none =>
      refine iff_of_false (fun absent => absent ?_) (fun spared => spared ⟨rfl, call, cmd, result, rfl⟩)
      exact List.mem_append_right _ List.mem_cons_self
    | some c =>
      refine iff_of_true ?_ (by simp)
      intro member
      rcases List.mem_append.mp member with old | new
      · exact clean old
      · simp at new

/-- A move puts NULL into a clean queue exactly if it destroys a guard that
    holds NULL. -/
theorem step_null {s s' : System} {m : Move Act Serving} (clean : none ∉ s.shared.pool.connq_)
    (taken : step s m = some s') : none ∉ s'.shared.pool.connq_ ↔ ¬ ReleasesNull s m := by
  rcases step_cases taken with ⟨i, act, l, l', rfl, at_i, moved, locals⟩ | ⟨e, rfl, served, locals⟩
  · rw [moves_null (own_moves moved) clean]
    refine not_congr ⟨?_, ?_⟩
    · rintro ⟨rfl, call, cmd, result, rfl⟩
      exact ⟨i, call, cmd, result, rfl, at_i⟩
    · rintro ⟨j, call, cmd, result, same, at_j⟩
      cases same
      rw [at_i, Option.some.injEq] at at_j
      exact ⟨rfl, call, cmd, result, at_j⟩
  · refine iff_of_true (by rw [(serving_keeps served).1]; exact clean) ?_
    rintro ⟨_, _, _, _, wrong, _⟩
    cases wrong

theorem start_clean (threads : Nat) (env : Nat → Opening) (host : Str) (port db size max_size : Int) :
    none ∉ (start threads env (fresh host port db size max_size)).shared.pool.connq_ :=
  initialize_invariant env (fun p _ => none ∉ p.connq_) (fun _ _ _ clean _ => clean)
    (fun _ _ _ clean _ member => by
      rcases List.mem_append.mp member with old | new
      · exact clean old
      · simp at new)
    (by simp [fresh])

/-- A failed acquire does no damage along a run exactly if no guard that holds
    NULL is destroyed in it. -/
theorem undamaged_iff_no_null_released (threads : Nat) (env : Nat → Opening) (host : Str)
    (port db size max_size : Int) (moves : List (Move Act Serving)) :
    Along step Undamaged (start threads env (fresh host port db size max_size)) moves ↔
      Meets step (fun s m => ¬ ReleasesNull s m) (start threads env (fresh host port db size max_size)) moves := by
  refine along_iff_each (fun _ => True) (fun _ _ _ _ _ => trivial) ?_ trivial ?_ moves
  · intro s m s' _ undamaged taken
    rw [undamaged_iff]
    exact step_null ((undamaged_iff s).mp undamaged) taken
  · exact (undamaged_iff _).mpr (start_clean threads env host port db size max_size)

/-- After the second of `twoCalls` has failed and both have ended, the queue
    begins with NULL: a new call throws though a connection is idle. -/
theorem twoCalls_damage : ∃ s,
    run step (start 2 (fun _ => reachable) (fresh (lit "h") 6379 0 1 1)) twoCalls = some s ∧
      s.shared.pool.connq_ = [none, some 0] ∧ NewCallFails s.shared reachable ∧ ¬ NoIdle s.shared.pool := by
  have queue : (run step (start 2 (fun _ => reachable) (fresh (lit "h") 6379 0 1 1)) twoCalls).map
      (fun s => s.shared.pool.connq_) = some [none, some 0] := by decide
  obtain ⟨s, runs, is⟩ := Option.map_eq_some_iff.mp queue
  refine ⟨s, runs, is, ?_, fun noIdle => noIdle 0 (by simp [is])⟩
  have acquired : ConnectionPool.acquire reachable s.shared.pool s.shared.net =
      (.ok none, { s.shared.pool with connq_ := [some 0] }, s.shared.net) := by
    simp [ConnectionPool.acquire, ConnectionPool.pop, is]
  exact ⟨[lit "GET"], _, _, none, _, _, _, _, by simp only [own, acquired]; rfl, rfl⟩

end CppRedis.Exhaustion

import CppRedis.Capacity
import CppRedis.Connects
import CppRedis.Discovery

/-!
What the destructors do that close connections: that of a pool, with the connections it
tries to close and those it has closed, and that of the connection of a round of
discovery. An exception that QUIT raises ends the program: `closing_iff` says when none
does.
-/
namespace CppRedis.Destructors
open CppRedis.Strings CppRedis.Reply CppRedis.Uri CppRedis.Connection CppRedis.Pool CppRedis.Interleaving CppRedis.Execute
open CppRedis.Runs CppRedis.Lending CppRedis.Ledgers CppRedis.Capacity CppRedis.Clients CppRedis.Sentinels CppRedis.Connects
open CppRedis.Discovery (Passed contacts discover_master_course)

/-! ### The pool -/

/-- The connections that are disconnected and those whose context is freed, in order,
    and how the destructor ends. -/
structure Course where
  attempted : List ConnId
  freed : List ConnId
  result : Except Fault Net

/-- The loop of `~ConnectionPool`; a NULL entry has no destructor. -/
def tracing (quits : Nat → Exchange) : List (Option ConnId) → Nat → Net → Course
  | [], _, net => ⟨[], [], .ok net⟩
  | conn :: rest, i, net =>
    match delete_connection conn (quits i) net with
    | .error fault => ⟨conn.toList, [], .error fault⟩
    | .ok net =>
      let later := tracing quits rest (i + 1) net
      ⟨conn.toList ++ later.attempted, conn.toList ++ later.freed, later.result⟩

theorem tracing_result (quits : Nat → Exchange) (queue : List (Option ConnId)) (i : Nat) (net : Net) :
    (tracing quits queue i net).result = delete_queue quits queue i net := by
  induction queue generalizing i net with
  | nil => rfl
  | cons conn rest ih =>
    rw [tracing, delete_queue]
    cases delete_connection conn (quits i) net with
    | error fault => rfl
    | ok mid => exact ih (i + 1) mid

/-- Where the destructor returns, it has closed every connection of the queue. -/
private theorem tracing_all {quits : Nat → Exchange} {queue : List (Option ConnId)} {i : Nat} {net net' : Net}
    (returned : (tracing quits queue i net).result = .ok net') :
    (tracing quits queue i net).attempted = queue.reduceOption ∧ (tracing quits queue i net).freed = queue.reduceOption := by
  induction queue generalizing i net with
  | nil => exact ⟨rfl, rfl⟩
  | cons conn rest ih =>
    rw [tracing] at returned ⊢
    cases deleted : delete_connection conn (quits i) net with
    | error fault =>
      rw [deleted] at returned
      cases returned
    | ok mid =>
      rw [deleted] at returned
      obtain ⟨attempted, freed⟩ := ih returned
      simp only [attempted, freed]
      cases conn with
      | none => exact ⟨rfl, rfl⟩
      | some c => exact ⟨rfl, rfl⟩

/-- The destructor returns, has tried all connections of the queue in their order, and
    has closed each of them once. -/
structure ClosesAll (quits : Nat → Exchange) (queue : List (Option ConnId)) (net : Net) : Prop where
  returns : ∃ net', (tracing quits queue 0 net).result = .ok net' ∧ ∀ c, some c ∈ queue → Freed net' c
  attempted : (tracing quits queue 0 net).attempted = queue.reduceOption
  once : ∀ c, some c ∈ queue → ¬ Freed net c ∧ (tracing quits queue 0 net).freed.count c = 1

/-- In every run of a pool. -/
private theorem run_counts {threads : Nat} {env : Nat → Opening} {host : Str} {port db size max_size : Int}
    {moves : List (Move Act Serving)} {s : System}
    (runs : run step (start threads env (fresh host port db size max_size)) moves = some s) : Counts s :=
  run_invariant Counts (fun _ _ _ counts taken => step_counts counts taken) runs
    (start_counts threads env host port db size max_size)

private theorem closesAll_iff {s : System} (counts : Counts s) (quits : Nat → Exchange) :
    ClosesAll quits s.shared.pool.connq_ s.shared.net ↔ Closes quits s.shared.pool.connq_ s.shared.net := by
  obtain ⟨⟨L, keeps⟩, open_all⟩ := counts
  have idle : (s.shared.pool.connq_.reduceOption : Multiset ConnId) ≤ L.issued := by
    rw [← keeps.idle]
    exact Multiset.le_add_right _ _
  have distinct : s.shared.pool.connq_.reduceOption.Nodup := Multiset.coe_nodup.mp (Multiset.nodup_of_le idle L.distinct)
  have inside : ∀ c, some c ∈ s.shared.pool.connq_ → c < s.shared.net.contexts.length := by
    intro c member
    have issued : c ∈ L.issued := Multiset.mem_of_le idle (Multiset.mem_coe.mpr (List.reduceOption_mem_iff.mpr member))
    rw [keeps.issued, Multiset.mem_coe] at issued
    exact keeps.old c issued
  rw [← delete_queue_returns quits _ _ distinct inside]
  constructor
  · rintro ⟨⟨net', returned, _⟩, _, _⟩
    rw [tracing_result] at returned
    exact ⟨net', returned⟩
  · rintro ⟨net', deleted⟩
    have returned := (tracing_result quits s.shared.pool.connq_ 0 s.shared.net).trans deleted
    obtain ⟨attempted, freed⟩ := tracing_all returned
    refine ⟨⟨net', returned, (delete_queue_freed deleted).2⟩, attempted, ?_⟩
    intro c member
    constructor
    · rintro ⟨ctx, at_c, closed⟩
      rw [open_all ctx (List.mem_of_getElem? at_c)] at closed
      cases closed
    · rw [freed]
      exact List.count_eq_one_of_mem distinct (List.reduceOption_mem_iff.mpr member)

/-! ### The connection of a round of discovery -/

/-- The context that a round makes. -/
abbrev made (uri : URI) : Context := ⟨uri.host, uri.port, none, [], [], none, false⟩

/-- Whatever comes of asking for the address, unless that is undefined, the round's
    connection is closed, and this is what comes of the round. -/
def TemporaryCloses (master_name url : Str) (pr : Probe) : Prop :=
  ∀ uri result ctx, parsed url = .ok (some uri) → pr.accepted = true →
    get_master_address master_name pr.answer (made uri) = (result, ctx) → result ≠ .error .undefined →
    ctx.freed = false ∧ (∃ ctx', disconnect pr.quit ctx = (.ok (), ctx') ∧ ctx'.freed = true) ∧
    probe master_name url pr = result

/-- The round comes to QUIT on a connection that has not failed. -/
def AsksQuit (url : Str) (pr : Probe) : Prop :=
  Reached url pr ∧ ∃ r switched, pr.answer = .reply r switched ∧ named r ≠ .error .undefined

private theorem disconnect_freed {x : Exchange} {ctx ctx' : Context} (closed : disconnect x ctx = (.ok (), ctx')) :
    ctx'.freed = true := by
  simp only [disconnect] at closed
  split at closed
  · cases closed
  · cases closed
    rfl

/-- What comes of a round whose connection is closed. -/
private theorem probe_closed {master_name url : Str} {pr : Probe} {uri : URI} {result : Except Fault (Option (Str × Int))}
    {ctx ctx' : Context} (parses : parsed url = .ok (some uri)) (accepted : pr.accepted = true)
    (asked : get_master_address master_name pr.answer (made uri) = (result, ctx)) (other : result ≠ .error .undefined)
    (closed : disconnect pr.quit ctx = (.ok (), ctx')) : probe master_name url pr = result := by
  simp only [probe, parses, accepted, ↓reduceIte, asked]
  cases result with
  | ok found => simp only [closed]
  | error fault =>
    cases fault with
    | undefined => exact absurd rfl other
    | thrown e => simp only [closed]
    | terminated => simp only [closed]

/-- A connection on which nothing was answered has failed. -/
private theorem get_master_address_silent (master_name errstr : Str) (uri : URI) :
    get_master_address master_name (.noReply errstr) (made uri) =
      (.error (.thrown (.CommandException errstr)),
        { made uri with
          err := some errstr, toServer := [.ask [lit "SENTINEL", lit "get-master-addr-by-name", master_name]] }) := by
  simp [get_master_address, send_command, Context.redisCommand]

theorem temporaryCloses_iff (master_name url : Str) (pr : Probe) :
    TemporaryCloses master_name url pr ↔ (AsksQuit url pr → pr.quit.Quits) := by
  constructor
  · rintro closes ⟨⟨⟨uri, parses⟩, accepted⟩, r, switched, answer, inside⟩
    have asked := get_master_address_reply master_name r switched (made uri) rfl
    rw [← answer] at asked
    obtain ⟨_, ⟨ctx', closed, _⟩, _⟩ := closes uri _ _ parses accepted asked inside
    exact (disconnect_returns pr.quit (made uri)).mp ⟨ctx', closed⟩ rfl
  · intro fine uri result ctx parses accepted asked other
    have closed : ctx.freed = false ∧ ∃ ctx', disconnect pr.quit ctx = (.ok (), ctx') := by
      cases answer : pr.answer with
      | noReply errstr =>
        rw [answer, get_master_address_silent] at asked
        cases asked
        refine ⟨rfl, (disconnect_returns _ _).mpr ?_⟩
        intro live
        cases live
      | reply r switched =>
        rw [answer, get_master_address_reply master_name r switched (made uri) rfl] at asked
        obtain ⟨is, rfl⟩ := Prod.mk.inj asked
        refine ⟨rfl, (disconnect_returns _ _).mpr fun _ => fine ⟨⟨⟨uri, parses⟩, accepted⟩, r, switched, answer, ?_⟩⟩
        rw [is]
        exact other
    obtain ⟨fresh, ctx', closed⟩ := closed
    exact ⟨fresh, ⟨ctx', closed, disconnect_freed closed⟩, probe_closed parses accepted asked other closed⟩

private theorem get_master_address_kept (master_name : Str) (x : Exchange) (uri : URI) :
    (get_master_address master_name x (made uri)).1 ≠ .error .terminated := by
  cases x with
  | noReply errstr =>
    rw [get_master_address_silent]
    simp
  | reply r switched =>
    rw [get_master_address_reply master_name r switched (made uri) rfl]
    cases r with
    | hollow elements some =>
      rcases hollowFault_cases .length_error elements with is | is <;> simp [named, is]
    | array element =>
      simp only [named]
      split <;> simp
    | status str | error str | integer n | nil | string str => simp [named]

theorem TemporaryCloses.kept {master_name url : Str} {pr : Probe} (closes : TemporaryCloses master_name url pr) :
    probe master_name url pr ≠ .error .terminated := by
  cases parses : parsed url with
  | error e => simp [probe, parses]
  | ok found =>
    cases found with
    | none => simp [probe, parses]
    | some uri =>
      by_cases accepted : pr.accepted = true
      · have alive := get_master_address_kept master_name pr.answer uri
        cases asked : get_master_address master_name pr.answer (made uri) with
        | mk result ctx =>
          rw [asked] at alive
          by_cases outside : result = .error .undefined
          · subst outside
            simp [probe, parses, accepted, asked]
          · rw [(closes uri result ctx parses accepted asked outside).2.2]
            exact alive
      · simp [probe, parses, accepted]

/-- The loop comes to the URL: those before it yield no address, and the attempts at
    them return. -/
def Tried (urls : List Str) (probes : Nat → Probe) (i : Nat) : Prop :=
  Silent urls probes i ∧ ∀ (j : Nat) url, j < i → urls[j]? = some url → ¬ Faulty url (probes j)

/-- No exception leaves a destructor, and each connection that is made is closed. -/
structure DiscoveryCloses (probes : Nat → Probe) (se : Sentinel) : Prop where
  kept : (se.discover_master probes).1 ≠ .error .terminated
  closed : ∀ (i : Nat) url, se.urls_[i]? = some url → Tried se.urls_ probes i →
    TemporaryCloses se.master_name_ url (probes i)

/-- No QUIT of discovery is refused. -/
def DiscoveryQuits (probes : Nat → Probe) (urls : List Str) : Prop :=
  ∀ (i : Nat) url, urls[i]? = some url → Tried urls probes i → AsksQuit url (probes i) → (probes i).quit.Quits

/-- The loop comes to the URL behind those that it has passed. -/
private theorem tried_next {master_name : Str} {probes : Nat → Probe} {front back : List Str} {it : Str}
    (passed : Passed master_name probes front) : Tried (front ++ it :: back) probes front.length := by
  have silent : ∀ (j : Nat) url, j < front.length → (front ++ it :: back)[j]? = some url →
      probe master_name url (probes j) = .ok none := by
    intro j url before at_j
    rw [List.getElem?_append_left before] at at_j
    exact passed j url at_j
  constructor
  · intro j url before at_j addr answers
    have found := (probe_answers master_name url (probes j) addr).mpr answers
    rw [silent j url before at_j] at found
    cases found
  · intro j url before at_j faulty
    obtain ⟨fault, failed⟩ := (probe_faults master_name url (probes j)).mpr faulty
    rw [silent j url before at_j] at failed
    cases failed

theorem discoveryCloses_iff (probes : Nat → Probe) (se : Sentinel) :
    DiscoveryCloses probes se ↔ DiscoveryQuits probes se.urls_ := by
  constructor
  · intro closes i url at_i tried
    exact (temporaryCloses_iff se.master_name_ url (probes i)).mp (closes.closed i url at_i tried)
  · intro fine
    have closed : ∀ (i : Nat) url, se.urls_[i]? = some url → Tried se.urls_ probes i →
        TemporaryCloses se.master_name_ url (probes i) :=
      fun i url at_i tried => (temporaryCloses_iff se.master_name_ url (probes i)).mpr (fine i url at_i tried)
    refine ⟨?_, closed⟩
    intro ended
    obtain ⟨out, course, is⟩ := discover_master_course probes se
    rw [is] at ended
    generalize contacts probes se = contacted at course
    generalize se.urls_ = urls at course closed
    cases course with
    | found passed answered => cases ended
    | dark passed => cases ended
    | @faulted front back it fault passed failed =>
      have at_it : (front ++ it :: back)[front.length]? = some it := by simp
      obtain rfl : fault = .terminated := Except.error.inj ended
      exact (closed front.length it at_it (tried_next passed)).kept failed

/-- A server that answers QUIT by an OK, and a sentinel that knows no master. -/
private def polite : Exchange := .reply (.status (lit "OK")) false

private def unknowing : Probe := ⟨true, .reply .nil false, polite⟩

/-- A call that fails. -/
private def failing : List (Move Act Serving) :=
  [.thread 0 (.acquire [lit "PING"] reachable), .thread 0 (.send (some (lit "EPIPE"))), .thread 0 .release]

end CppRedis.Destructors

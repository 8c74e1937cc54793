import CppRedis.Sentinels

/-!
The monitor of a started sentinel. A tick compares the reported address and the
sentinel's URL with what `start_client_connect` recorded, and neither record is
written again (`step_watching`).
-/
namespace CppRedis.Monitor
open CppRedis.Strings CppRedis.Reply CppRedis.Uri CppRedis.Connection CppRedis.Pool CppRedis.Interleaving
open CppRedis.Execute CppRedis.Runs CppRedis.Lending CppRedis.Clients CppRedis.Sentinels

/-- A sentinel and its client. -/
structure Site where
  sentinel : Sentinel
  client : Client

/-- A tick of the timer, or calls of `execute` between two ticks. -/
inductive Event
  | tick (t : Tick)
  | calls (threads : Nat) (moves : List (Move Act Serving))

/-- There is no step from a tick that does not return. -/
def step (s : Site) : Event → Option Site
  | .tick t =>
    match s.sentinel.check_master t s.client with
    | (.ok _, se, cl) => some ⟨se, cl⟩
    | (.error _, _, _) => none
  | .calls threads moves => (s.client.calls threads moves).map fun cl => { s with client := cl }

/-- `start_client_connect` has returned true. -/
def Started (s : Site) : Prop :=
  ∃ (t : Tick) (se : Sentinel) (cl : Client), se.start_client_connect t cl = (.ok true, s.sentinel, s.client)

/-- The address and the URL with which discovery succeeds in a tick. -/
def discovered (s : Site) (t : Tick) : Option ((Str × Int) × Str) :=
  match s.sentinel.discover_master t.probes with
  | (.ok true, addr, url, _) => some (addr, url)
  | _ => none

/-! A start and ticks with one sentinel, which names a master on port 6379. -/

def fine : Exchange := .reply (.status (lit "OK")) false

def healthy : Connecting := ⟨fun _ => fine, fun _ => reachable⟩

def naming (ip : String) : Tick :=
  ⟨fun _ => ⟨true, .reply (.array [.string (lit ip), .string (lit "6379")]) false, fine⟩, healthy, false⟩

/-- The sentinel refuses the connection. -/
def refusedTick : Tick := ⟨fun _ => ⟨false, fine, fine⟩, healthy, false⟩

/-- The site after a start in which the sentinel names `ip`. -/
def startedAt (ip : String) : Option Site :=
  match Sentinel.start_client_connect (naming ip)
      { urls_ := [lit "redis://s:26379"], master_name_ := lit "m", db_ := 0 } {} with
  | (.ok true, se, cl) => some ⟨se, cl⟩
  | _ => none

theorem startedAt_started {ip : String} {s : Site} (starts : startedAt ip = some s) : Started s := by
  simp only [startedAt] at starts
  split at starts
  · rename_i se cl done
    obtain rfl := Option.some.inj starts
    exact ⟨_, _, _, done⟩
  · cases starts

/-! ### What a tick does -/

/-- The client's part of a tick that yields `addr`. -/
def Reconnects (t : Tick) (s : Site) (addr : Str × Int) (cl : Client) : Prop :=
  (addr = s.sentinel.master ∧ cl = s.client) ∨
  (addr ≠ s.sentinel.master ∧ ∃ n, s.client.connect t.connecting addr.1 addr.2 s.sentinel.db_ = (.ok n, cl))

/-- The subscriber's part of a tick that ends at `url`. -/
def Resubscribes (s : Site) (url : Str) (sub : Subscriber) : Prop :=
  (url = s.sentinel.sentinel_url_ ∧ sub = s.sentinel.sentinel_subscriber_) ∨
  (url ≠ s.sentinel.sentinel_url_ ∧ sub.async_conn_.isSome = true ∧
    sub.listener_ = s.sentinel.sentinel_subscriber_.listener_ + 1)

private theorem master_differs (addr : Str × Int) (se : Sentinel) :
    (addr.1 ≠ se.master_ip_ ∨ addr.2 ≠ se.master_port_) ↔ addr ≠ se.master := by
  rw [← not_and_or, not_iff_not, Sentinel.master, Prod.ext_iff]

/-- What follows discovery in a tick that returns. -/
private theorem tick_discovered {t : Tick} {s s' : Site} (taken : step s (.tick t) = some s') {found : Bool}
    {addr : Str × Int} {url : Str} {urls : List Str}
    (outcome : s.sentinel.discover_master t.probes = (.ok found, addr, url, { s.sentinel with urls_ := urls })) :
    Reconnects t s addr s'.client ∧ ∃ sub, Resubscribes s url sub ∧
      s'.sentinel = { s.sentinel with urls_ := urls, sentinel_subscriber_ := sub } := by
  simp only [step, Sentinel.check_master, outcome] at taken
  cases reconnected : Sentinel.reconnect_client t addr { s.sentinel with urls_ := urls } s.client with
  | mk result cl =>
    have reconnects : ∀ n, result = .ok n → Reconnects t s addr cl := by
      rintro n rfl
      simp only [Sentinel.reconnect_client] at reconnected
      split at reconnected
      · rename_i differs
        exact .inr ⟨(master_differs addr s.sentinel).mp differs, n, reconnected⟩
      · rename_i same
        cases reconnected
        exact .inl ⟨not_not.mp fun differs => same ((master_differs addr s.sentinel).mpr differs), rfl⟩
    cases result with
    | error fault => simp [reconnected] at taken
    | ok n =>
      cases resubscribed : Sentinel.resubscribe t url { s.sentinel with urls_ := urls } with
      | mk result se =>
        cases result with
        | error fault => simp [reconnected, resubscribed] at taken
        | ok u =>
          simp only [reconnected, resubscribed, Option.some.injEq] at taken
          subst taken
          refine ⟨reconnects n rfl, ?_⟩
          simp only [Sentinel.resubscribe] at resubscribed
          split at resubscribed
          · rename_i differs
            obtain ⟨sub, is, subscribed, listener⟩ := Sentinel.subscribe_gives resubscribed
            exact ⟨sub, .inr ⟨differs, subscribed, listener⟩, is⟩
          · rename_i same
            cases resubscribed
            exact ⟨s.sentinel.sentinel_subscriber_, .inl ⟨not_not.mp same, rfl⟩, rfl⟩

/-- All that a tick can do where it returns: it acts on what discovery found, or on
    the empty host, port 0 and the last URL. -/
theorem tick_cases {t : Tick} {s s' : Site} (taken : step s (.tick t) = some s') :
    ∃ addr url urls sub, Reconnects t s addr s'.client ∧ Resubscribes s url sub ∧
      s'.sentinel = { s.sentinel with urls_ := urls, sentinel_subscriber_ := sub } ∧
      ((discovered s t = some (addr, url)) ∨
       (discovered s t = none ∧ addr = ([], 0) ∧ url = s.sentinel.urls_.getLastD [])) := by
  rcases s.sentinel.discover_master_cases t.probes with
    ⟨_, addr, url, urls, _, outcome⟩ | ⟨_, _, outcome⟩ | ⟨_, fault, addr, url, outcome⟩
  · obtain ⟨reconnects, sub, resubscribes, is⟩ := tick_discovered taken outcome
    exact ⟨addr, url, urls, sub, reconnects, resubscribes, is, .inl (by simp [discovered, outcome])⟩
  · obtain ⟨reconnects, sub, resubscribes, is⟩ := tick_discovered taken outcome
    exact ⟨_, _, _, sub, reconnects, resubscribes, is, .inr ⟨by simp [discovered, outcome], rfl, rfl⟩⟩
  · simp [step, Sentinel.check_master, outcome] at taken

/-! ### What a run of the monitor keeps -/

/-- The records are those of the start; the client has a pool and the sentinel a
    subscription. -/
structure Watching (addr : Str × Int) (url : Str) (s : Site) : Prop where
  master : s.sentinel.master = addr
  sentinel_url : s.sentinel.sentinel_url_ = url
  owned : Owned s.client
  subscribed : s.sentinel.sentinel_subscriber_.async_conn_.isSome = true

theorem Reconnects.owned {t : Tick} {s : Site} {addr : Str × Int} {cl : Client} (reconnects : Reconnects t s addr cl)
    (owned : Owned s.client) : Owned cl := by
  rcases reconnects with ⟨_, same⟩ | ⟨_, n, connected⟩
  · exact same ▸ owned
  · exact (connect_gives connected).1

theorem step_watching {addr : Str × Int} {url : Str} {s s' : Site} {ev : Event} (watching : Watching addr url s)
    (taken : step s ev = some s') : Watching addr url s' := by
  cases ev with
  | tick t =>
    obtain ⟨_, _, _, sub, reconnects, resubscribes, is, _⟩ := tick_cases taken
    refine ⟨by rw [is]; exact watching.master, by rw [is]; exact watching.sentinel_url,
      reconnects.owned watching.owned, ?_⟩
    rw [is]
    rcases resubscribes with ⟨_, same⟩ | ⟨_, subscribed, _⟩
    · rw [same]; exact watching.subscribed
    · exact subscribed
  | calls threads moves =>
    simp only [step, Option.map_eq_some_iff] at taken
    obtain ⟨cl, called, rfl⟩ := taken
    exact ⟨watching.master, watching.sentinel_url, (calls_keep watching.owned called).1, watching.subscribed⟩

/-- A started sentinel has recorded the address that its client is connected to. -/
theorem started_watching {s : Site} (started : Started s) :
    Watching s.sentinel.master s.sentinel.sentinel_url_ s ∧ s.client.address = some s.sentinel.master := by
  obtain ⟨sentinel, client⟩ := s
  obtain ⟨t, se, cl, done⟩ := started
  simp only [Sentinel.start_client_connect] at done
  rcases se.discover_master_cases t.probes with
    ⟨_, addr, url, urls, _, outcome⟩ | ⟨_, _, outcome⟩ | ⟨_, fault, addr, url, outcome⟩
  · cases connected : cl.connect t.connecting addr.1 addr.2 se.db_ with
    | mk result cl' =>
      cases result with
      | error fault => simp [outcome, connected] at done
      | ok n =>
        by_cases zero : n = 0
        · cases subscribed : Sentinel.subscribe_sentinel_notification t.asyncFails url
              { se with urls_ := urls, master_ip_ := addr.1, master_port_ := addr.2, sentinel_url_ := url } with
          | mk result se' =>
            cases result with
            | error fault => simp [outcome, connected, zero, subscribed] at done
            | ok u =>
              simp only [outcome, connected, zero, ↓reduceIte, subscribed, Prod.mk.injEq, true_and] at done
              obtain ⟨sub, is, some_conn, _⟩ := Sentinel.subscribe_gives subscribed
              obtain ⟨owned, address, _⟩ := connect_gives connected
              obtain ⟨rfl, rfl⟩ := done
              subst is
              exact ⟨⟨rfl, rfl, owned, some_conn⟩, address⟩
        · simp [outcome, connected, zero] at done
  · simp [outcome] at done
  · simp [outcome] at done

theorem run_watching {s s' : Site} (started : Started s) {events : List Event} (runs : run step s events = some s') :
    Watching s.sentinel.master s.sentinel.sentinel_url_ s' :=
  run_invariant (Watching s.sentinel.master s.sentinel.sentinel_url_)
    (fun _ _ _ watching taken => step_watching watching taken) runs (started_watching started).1

/-! ### Tracking the master -/

/-- After every tick in which discovery succeeded, the client's pool is connected
    to the address that it found. -/
def Tracks : Site → List Event → Prop :=
  Each step fun s ev s' => ∀ t addr url, ev = .tick t → discovered s t = some (addr, url) →
    s'.client.address = some addr

/-- What the ticks of a run report, none where discovery failed. -/
def reports : Site → List Event → List (Option (Str × Int))
  | _, [] => []
  | s, ev :: rest =>
    match step s ev, ev with
    | none, _ => []
    | some s', .tick t => (discovered s t).map Prod.fst :: reports s' rest
    | some s', .calls _ _ => reports s' rest

/-- `later` is not the address `home`, unless `earlier` was too. -/
def NoReturn (home : Str × Int) (earlier later : Option (Str × Int)) : Prop :=
  later = some home → earlier.getD ([], 0) = home

/-- The address at which a report leaves a client that was connected to `here`. -/
def moved (home here : Str × Int) (report : Option (Str × Int)) : Str × Int :=
  if report.getD ([], 0) = home then here else report.getD ([], 0)

private theorem noReturn_cons (home here : Str × Int) (report : Option (Str × Int)) (rest : List (Option (Str × Int))) :
    (some here :: report :: rest).Pairwise (NoReturn home) ↔
      (report = some home → here = home) ∧ (some (moved home here report) :: rest).Pairwise (NoReturn home) := by
  simp only [List.pairwise_cons, List.mem_cons, forall_eq_or_imp, NoReturn, Option.getD_some, moved]
  by_cases back : report.getD ([], 0) = home
  · simp only [if_pos back]
    constructor
    · rintro ⟨⟨first, others⟩, _, pairs⟩
      exact ⟨first, others, pairs⟩
    · rintro ⟨first, others, pairs⟩
      exact ⟨⟨first, others⟩, fun _ _ _ => back, pairs⟩
  · have away : report ≠ some home := fun is => back (by rw [is]; rfl)
    simp only [if_neg back]
    constructor
    · rintro ⟨_, others, pairs⟩
      exact ⟨fun is => absurd is away, others, pairs⟩
    · rintro ⟨first, others, pairs⟩
      refine ⟨⟨first, ?_⟩, others, pairs⟩
      intro later member is
      exact absurd (others later member is) back

/-- A tick moves the client exactly if it yields another address than the one
    recorded. -/
private theorem tick_address {home : Str × Int} {url : Str} {t : Tick} {s s' : Site} (watching : Watching home url s)
    (taken : step s (.tick t) = some s') {here : Str × Int} (at_here : s.client.address = some here) :
    s'.client.address = some (moved home here ((discovered s t).map Prod.fst)) := by
  obtain ⟨addr, url, urls, sub, reconnects, _, _, outcome⟩ := tick_cases taken
  have yields : ((discovered s t).map Prod.fst).getD ([], 0) = addr := by
    rcases outcome with found | ⟨failed, is, _⟩
    · simp [found]
    · simp [failed, is]
  rw [moved, yields]
  rcases reconnects with ⟨same, kept⟩ | ⟨differs, n, connected⟩
  · rw [if_pos (same.trans watching.master), kept, at_here]
  · rw [if_neg (fun same => differs (same.trans watching.master.symm)), (connect_gives connected).2.1]

private theorem tracks_from {home : Str × Int} {url : Str} {s : Site} (watching : Watching home url s)
    {here : Str × Int} (at_here : s.client.address = some here) (events : List Event) :
    Tracks s events ↔ (some here :: reports s events).Pairwise (NoReturn home) := by
  induction events generalizing s here with
  | nil => simp [Tracks, Each, reports]
  | cons ev rest ih =>
    cases taken : step s ev with
    | none => simp [Tracks, Each, reports, taken]
    | some s' =>
      have watching' := step_watching watching taken
      have unfolded : Tracks s (ev :: rest) ↔ (∀ t addr url, ev = .tick t → discovered s t = some (addr, url) →
          s'.client.address = some addr) ∧ Tracks s' rest := by
        simp [Tracks, Each, taken]
      rw [unfolded]
      cases ev with
      | calls threads moves =>
        have called := taken
        simp only [step, Option.map_eq_some_iff] at called
        obtain ⟨cl, called, rfl⟩ := called
        have at_here' := (calls_keep watching.owned called).2.1.trans at_here
        simp only [reports, taken, reduceCtorEq, false_implies, implies_true, true_and]
        exact ih watching' at_here'
      | tick t =>
        have at_here' := tick_address watching taken at_here
        simp only [reports, taken, Event.tick.injEq, noReturn_cons, ← ih watching' at_here']
        apply and_congr_left
        intro _
        constructor
        · intro tracks is
          obtain ⟨⟨addr, url'⟩, found, rfl⟩ := Option.map_eq_some_iff.mp is
          have now := tracks t _ _ rfl found
          rw [at_here', is] at now
          simpa [moved] using now
        · rintro keeps t' addr url' rfl found
          rw [at_here', found]
          by_cases back : addr = home
          · simp [moved, back, keeps (by simp [found, back])]
          · simp [moved, back]

/-- The client's pool is connected to what each successful tick finds exactly if
    no tick finds the address of the start after a tick that yielded another
    one, or none. -/
theorem tracks_iff_no_return {s : Site} (started : Started s) (events : List Event) :
    Tracks s events ↔ (reports s events).Pairwise (NoReturn s.sentinel.master) := by
  obtain ⟨watching, home⟩ := started_watching started
  rw [tracks_from watching home events, List.pairwise_cons]
  exact and_iff_right fun _ _ _ => rfl

theorem tracks_iff_no_return_two_masters : ∃ s, Started s ∧ Tracks s [.tick (naming "b"), .tick (naming "c")] := by
  have found : (startedAt "a").map (fun s => (s.sentinel.master, reports s [.tick (naming "b"), .tick (naming "c")])) =
      some ((lit "a", 6379), [some (lit "b", 6379), some (lit "c", 6379)]) := by decide
  obtain ⟨s, starts, is⟩ := Option.map_eq_some_iff.mp found
  rw [Prod.mk.injEq] at is
  have started := startedAt_started starts
  refine ⟨s, started, (tracks_iff_no_return started _).mpr ?_⟩
  rw [is.1, is.2]
  simp [NoReturn, lit]

/-- The master moves from a to b and back, every connect succeeds, and the client
    stays with b. -/
theorem returning_master_lost : ∃ s mid s', Started s ∧ step s (.tick (naming "b")) = some mid ∧
    step mid (.tick (naming "a")) = some s' ∧
    discovered mid (naming "a") = some ((lit "a", 6379), lit "redis://s:26379") ∧
    (s.client.connect healthy (lit "b") 6379 0).1.toOption = some 0 ∧
    s'.client.address = some (lit "b", 6379) ∧ ¬ Tracks s [.tick (naming "b"), .tick (naming "a")] := by
  have runs : ((startedAt "a").bind fun s => (step s (.tick (naming "b"))).bind fun mid =>
      (step mid (.tick (naming "a"))).map fun s' => (discovered mid (naming "a"), s'.client.address)) =
      some (some ((lit "a", 6379), lit "redis://s:26379"), some (lit "b", 6379)) := by decide
  have connects : (startedAt "a").map (fun s => (s.client.connect healthy (lit "b") 6379 0).1.toOption) =
      some (some 0) := by decide
  obtain ⟨s, starts, runs⟩ := Option.bind_eq_some_iff.mp runs
  obtain ⟨mid, first, runs⟩ := Option.bind_eq_some_iff.mp runs
  obtain ⟨s', second, is⟩ := Option.map_eq_some_iff.mp runs
  rw [Prod.mk.injEq] at is
  obtain ⟨found, address⟩ := is
  rw [starts, Option.map_some, Option.some.injEq] at connects
  refine ⟨s, mid, s', startedAt_started starts, first, second, found, connects, address, ?_⟩
  intro tracks
  have now := ((tracks mid first).2 s' second).1 _ _ _ rfl found
  rw [address] at now
  exact absurd now (by decide)

/-! ### Ticks that change nothing -/

theorem Reconnects.same_iff {t : Tick} {s : Site} {addr : Str × Int} {cl : Client} (reconnects : Reconnects t s addr cl)
    (owned : Owned s.client) : cl = s.client ↔ addr = s.sentinel.master := by
  rcases reconnects with ⟨home, same⟩ | ⟨away, n, connected⟩
  · exact iff_of_true same home
  · refine iff_of_false ?_ away
    rintro rfl
    obtain ⟨id, cell, owns⟩ := owned
    have renewed := (connect_gives connected).2.2
    rw [owns.current, Option.some.injEq] at renewed
    exact absurd renewed (Nat.ne_of_lt (List.getElem?_eq_some_iff.mp owns.at_id).1)

theorem Resubscribes.same_iff {s : Site} {url : Str} {sub : Subscriber} (resubscribes : Resubscribes s url sub) :
    sub = s.sentinel.sentinel_subscriber_ ↔ url = s.sentinel.sentinel_url_ := by
  rcases resubscribes with ⟨home, same⟩ | ⟨away, _, renewed⟩
  · exact iff_of_true same home
  · refine iff_of_false ?_ away
    rintro rfl
    omega

/-! ### When a tick returns -/

/-- The client can be connected anew: no QUIT on an idle connection and no SELECT
    on a new one raises an exception. -/
def Reconnectable (t : Tick) (cl : Client) : Prop :=
  (∀ id cell, cl.pool_ = some id → cl.pools[id]? = some cell → Closes t.connecting.quits cell.pool.connq_ cl.net) ∧
    ¬ Throws t.connecting.openings default_size.toNat

private theorem reconnectable_iff {t : Tick} {cl : Client} (owned : Owned cl) (host : Str) (port db : Int) :
    (∃ n cl', cl.connect t.connecting host port db = (.ok n, cl')) ↔ Reconnectable t cl := by
  obtain ⟨id, cell, owns⟩ := owned
  rw [connect_returns owns, Reconnectable]
  apply and_congr_left
  intro _
  constructor
  · intro closes id' cell' current at_id
    rw [owns.current, Option.some.injEq] at current
    subst current
    rw [owns.at_id, Option.some.injEq] at at_id
    exact at_id ▸ closes
  · intro closes
    exact closes id cell owns.current owns.at_id

/-- When a tick returns, after discovery has. -/
private theorem tick_returns {addr : Str × Int} {url : Str} {s : Site} (watching : Watching addr url s) {t : Tick}
    {found : Bool} {addr' : Str × Int} {url' : Str} {urls : List Str}
    (outcome : s.sentinel.discover_master t.probes = (.ok found, addr', url', { s.sentinel with urls_ := urls }))
    (parses : ∀ e, parsed url' ≠ .error e) :
    (∃ s', step s (.tick t) = some s') ↔ addr' = addr ∨ Reconnectable t s.client := by
  have subscribes : ∃ se', Sentinel.resubscribe t url' { s.sentinel with urls_ := urls } = (.ok (), se') := by
    simp only [Sentinel.resubscribe]
    split
    · exact Sentinel.subscribe_returns t.asyncFails parses watching.subscribed
    · exact ⟨_, rfl⟩
  obtain ⟨se', subscribes⟩ := subscribes
  have differs := master_differs addr' s.sentinel
  rw [watching.master] at differs
  by_cases home : addr' = addr
  · have kept : Sentinel.reconnect_client t addr' { s.sentinel with urls_ := urls } s.client = (.ok 0, s.client) :=
      if_neg fun away => differs.mp away home
    exact iff_of_true ⟨_, by simp [step, Sentinel.check_master, outcome, kept, subscribes]; rfl⟩ (.inl home)
  · rw [or_iff_right home, ← reconnectable_iff watching.owned addr'.1 addr'.2 s.sentinel.db_]
    have renewed : Sentinel.reconnect_client t addr' { s.sentinel with urls_ := urls } s.client =
        s.client.connect t.connecting addr'.1 addr'.2 s.sentinel.db_ := if_pos (differs.mpr home)
    cases connected : s.client.connect t.connecting addr'.1 addr'.2 s.sentinel.db_ with
    | mk result cl' =>
      rw [connected] at renewed
      cases result with
      | error fault => simp [step, Sentinel.check_master, outcome, renewed]
      | ok n => simp [step, Sentinel.check_master, outcome, renewed, subscribes]

/-- A tick that finds an address has come to the first URL that yields one. -/
private theorem discovered_first {s : Site} {t : Tick} {addr : Str × Int} {url : Str}
    (found : discovered s t = some (addr, url)) : ∃ urls,
    s.sentinel.discover_master t.probes = (.ok true, addr, url, { s.sentinel with urls_ := urls }) ∧
      Sound s.sentinel.urls_ t.probes ∧ First s.sentinel.urls_ t.probes url addr := by
  rcases s.sentinel.discover_master_cases t.probes with
    ⟨sound, addr', url', urls, first, outcome⟩ | ⟨_, _, outcome⟩ | ⟨_, fault, addr', url', outcome⟩
  · simp only [discovered, outcome, Option.some.injEq, Prod.mk.injEq] at found
    obtain ⟨rfl, rfl⟩ := found
    exact ⟨urls, outcome, sound, first⟩
  · simp [discovered, outcome] at found
  · simp [discovered, outcome] at found

/-! ### A stable master -/

/-- A tick returns and has neither connected the client nor subscribed. -/
def Unchurned (s : Site) (t : Tick) : Prop :=
  ∃ s', step s (.tick t) = some s' ∧ s'.client = s.client ∧
    s'.sentinel.sentinel_subscriber_ = s.sentinel.sentinel_subscriber_

/-- A tick of a started sentinel that finds an address leaves the client's pool and
    the subscription alone exactly if it finds what the start recorded, whatever
    the ticks before it found. -/
theorem unchurned_iff_recorded {s : Site} (started : Started s) {history : List Event} {s₁ : Site}
    (runs : run step s history = some s₁) {t : Tick} {addr : Str × Int} {url : Str}
    (found : discovered s₁ t = some (addr, url)) :
    Unchurned s₁ t ↔ addr = s.sentinel.master ∧ url = s.sentinel.sentinel_url_ := by
  have watching := run_watching started runs
  have kept : ∀ s₂, step s₁ (.tick t) = some s₂ → (s₂.client = s₁.client ∧
      s₂.sentinel.sentinel_subscriber_ = s₁.sentinel.sentinel_subscriber_ ↔
        addr = s.sentinel.master ∧ url = s.sentinel.sentinel_url_) := by
    intro s₂ taken
    obtain ⟨addr', url', urls, sub, reconnects, resubscribes, is, same | ⟨failed, _⟩⟩ := tick_cases taken
    · rw [found, Option.some.injEq, Prod.mk.injEq] at same
      obtain ⟨rfl, rfl⟩ := same
      rw [is, reconnects.same_iff watching.owned, resubscribes.same_iff, watching.master, watching.sentinel_url]
    · rw [found] at failed; cases failed
  constructor
  · rintro ⟨s₂, taken, same⟩
    exact (kept s₂ taken).mp same
  · intro recorded
    obtain ⟨urls, outcome, _, first⟩ := discovered_first found
    obtain ⟨s₂, taken⟩ := (tick_returns watching outcome first.parses).mpr (.inl recorded.1)
    exact ⟨s₂, taken, (kept s₂ taken).mpr recorded⟩

theorem unchurned_iff_recorded_same_master : ∃ s, Started s ∧ Unchurned s (naming "a") := by
  have runs : (startedAt "a").map (fun s => (discovered s (naming "a"), s.sentinel.master, s.sentinel.sentinel_url_)) =
      some (some ((lit "a", 6379), lit "redis://s:26379"), (lit "a", 6379), lit "redis://s:26379") := by decide
  obtain ⟨s, starts, is⟩ := Option.map_eq_some_iff.mp runs
  simp only [Prod.mk.injEq] at is
  obtain ⟨found, master, url⟩ := is
  have started := startedAt_started starts
  exact ⟨s, started, (unchurned_iff_recorded started (run_nil s) found).mpr ⟨master.symm, url.symm⟩⟩

/-- After a move from a to b the client is connected anew in every tick, though
    the master is b in all of them and every connect succeeds. -/
theorem stable_master_churns : ∃ s s₁ s₂, Started s ∧ step s (.tick (naming "b")) = some s₁ ∧
    step s₁ (.tick (naming "b")) = some s₂ ∧
    discovered s (naming "b") = some ((lit "b", 6379), lit "redis://s:26379") ∧
    discovered s₁ (naming "b") = discovered s (naming "b") ∧
    (s.client.connect healthy (lit "b") 6379 0).1.toOption = some 0 ∧
    s₁.client.address = some (lit "b", 6379) ∧ s₁.client.pool_ = some 1 ∧ s₂.client.pool_ = some 2 ∧
    ¬ Unchurned s₁ (naming "b") := by
  have runs : ((startedAt "a").bind fun s => (step s (.tick (naming "b"))).bind fun s₁ =>
      (step s₁ (.tick (naming "b"))).map fun s₂ => (s₁.client.address, s₁.client.pool_, s₂.client.pool_)) =
      some (some (lit "b", 6379), some 1, some 2) := by decide
  have finds : ((startedAt "a").bind fun s => (step s (.tick (naming "b"))).map fun s₁ =>
      (discovered s (naming "b"), discovered s₁ (naming "b"))) =
      some (some ((lit "b", 6379), lit "redis://s:26379"), some ((lit "b", 6379), lit "redis://s:26379")) := rfl
  have connects : (startedAt "a").map (fun s => (s.client.connect healthy (lit "b") 6379 0).1.toOption) =
      some (some 0) := by decide
  obtain ⟨s, starts, runs⟩ := Option.bind_eq_some_iff.mp runs
  obtain ⟨s₁, first, runs⟩ := Option.bind_eq_some_iff.mp runs
  obtain ⟨s₂, second, is⟩ := Option.map_eq_some_iff.mp runs
  rw [Prod.mk.injEq, Prod.mk.injEq] at is
  obtain ⟨address, before, after⟩ := is
  rw [starts, Option.bind_some, first, Option.map_some, Option.some.injEq, Prod.mk.injEq] at finds
  rw [starts, Option.map_some, Option.some.injEq] at connects
  obtain ⟨found, again⟩ := finds
  refine ⟨s, s₁, s₂, startedAt_started starts, first, second, found, again.trans found.symm, connects, address, before,
    after, ?_⟩
  rintro ⟨s', taken, same, _⟩
  rw [second, Option.some.injEq] at taken
  rw [taken, same, before] at after
  cases after

/-! ### Ticks without an address -/

/-- `check_master` returns, and if no sentinel yields an address, the client's
    pool, the recorded address and the subscription are as before. -/
def Steady (s : Site) (t : Tick) : Prop :=
  ∃ s', step s (.tick t) = some s' ∧ (Dark s.sentinel.urls_ t.probes →
    s'.client = s.client ∧ s'.sentinel.master = s.sentinel.master ∧
      s'.sentinel.sentinel_subscriber_ = s.sentinel.sentinel_subscriber_)

theorem steady_iff {s : Site} (started : Started s) {history : List Event} {s₁ : Site}
    (runs : run step s history = some s₁) (t : Tick) :
    Steady s₁ t ↔
      Sound s₁.sentinel.urls_ t.probes ∧
      (∀ url addr, First s₁.sentinel.urls_ t.probes url addr →
        addr = s.sentinel.master ∨ Reconnectable t s₁.client) ∧
      (Dark s₁.sentinel.urls_ t.probes →
        s.sentinel.master = ([], 0) ∧ s.sentinel.sentinel_url_ = s₁.sentinel.urls_.getLastD []) := by
  have watching := run_watching started runs
  rcases s₁.sentinel.discover_master_cases t.probes with
    ⟨sound, addr, url, urls, first, outcome⟩ | ⟨sound, dark, outcome⟩ | ⟨unsound, fault, addr, url, outcome⟩
  · have returns := tick_returns watching outcome first.parses
    have steady : Steady s₁ t ↔ ∃ s', step s₁ (.tick t) = some s' :=
      exists_congr fun s' => and_iff_left fun dark => absurd dark first.not_dark
    rw [steady, returns]
    constructor
    · intro good
      refine ⟨sound, ?_, fun dark => absurd dark first.not_dark⟩
      intro url' addr' first'
      exact (first_unique first first').2 ▸ good
    · exact fun ⟨_, good, _⟩ => good url addr first
  · have returns := tick_returns watching outcome (dark_parses sound dark)
    have found_none : discovered s₁ t = none := by simp [discovered, outcome]
    have kept : ∀ s', step s₁ (.tick t) = some s' → (s'.client = s₁.client ∧
        s'.sentinel.master = s₁.sentinel.master ∧
        s'.sentinel.sentinel_subscriber_ = s₁.sentinel.sentinel_subscriber_ ↔
          s.sentinel.master = ([], 0) ∧ s.sentinel.sentinel_url_ = s₁.sentinel.urls_.getLastD []) := by
      intro s' taken
      obtain ⟨addr, url, urls, sub, reconnects, resubscribes, is, found | ⟨_, rfl, rfl⟩⟩ := tick_cases taken
      · rw [found_none] at found; cases found
      · have master : s'.sentinel.master = s₁.sentinel.master := by rw [is]; rfl
        have subscriber : s'.sentinel.sentinel_subscriber_ = sub := by rw [is]
        rw [reconnects.same_iff watching.owned, subscriber, resubscribes.same_iff, watching.master,
          watching.sentinel_url]
        exact ⟨fun ⟨home, _, url⟩ => ⟨home.symm, url.symm⟩,
          fun ⟨home, url⟩ => ⟨home.symm, master.trans watching.master, url.symm⟩⟩
    constructor
    · rintro ⟨s', taken, same⟩
      exact ⟨sound, fun url addr first => absurd dark first.not_dark, fun _ => (kept s' taken).mp (same dark)⟩
    · rintro ⟨_, _, records⟩
      obtain ⟨s', taken⟩ := returns.mpr (.inl (records dark).1.symm)
      exact ⟨s', taken, fun _ => (kept s' taken).mpr (records dark)⟩
  · have faults : ¬ Steady s₁ t := by
      rintro ⟨s', taken, _⟩
      simp [step, Sentinel.check_master, outcome] at taken
    exact iff_of_false faults fun ⟨sound, _⟩ => unsound sound

theorem steady_iff_same_master : ∃ s, Started s ∧ Steady s (naming "a") := by
  have runs : (startedAt "a").map (fun s => (discovered s (naming "a"), s.sentinel.master)) =
      some (some ((lit "a", 6379), lit "redis://s:26379"), (lit "a", 6379)) := by decide
  obtain ⟨s, starts, is⟩ := Option.map_eq_some_iff.mp runs
  rw [Prod.mk.injEq] at is
  obtain ⟨found, master⟩ := is
  have started := startedAt_started starts
  obtain ⟨_, _, sound, first⟩ := discovered_first found
  exact ⟨s, started, (steady_iff started (run_nil s) (naming "a")).mpr
    ⟨sound, fun url addr other => .inl ((first_unique other first).2.trans master.symm),
      fun dark => absurd dark first.not_dark⟩⟩

/-- The only sentinel refuses the connection once: the client's pool is deleted,
    and the new one is for the empty host and port 0. -/
theorem failed_discovery_reconnects : ∃ s s', Started s ∧ step s (.tick refusedTick) = some s' ∧
    Dark s.sentinel.urls_ refusedTick.probes ∧ s.client.address = some (lit "a", 6379) ∧
    s'.client.address = some ([], 0) ∧ s.client.pool_ = some 0 ∧ s'.client.pool_ = some 1 := by
  have runs : ((startedAt "a").bind fun s => (step s (.tick refusedTick)).map fun s' =>
      (s.client.address, s'.client.address, s.client.pool_, s'.client.pool_)) =
      some (some (lit "a", 6379), some ([], 0), some 0, some 1) := by decide
  obtain ⟨s, starts, runs⟩ := Option.bind_eq_some_iff.mp runs
  obtain ⟨s', taken, is⟩ := Option.map_eq_some_iff.mp runs
  simp only [Prod.mk.injEq] at is
  obtain ⟨before, after, old, new⟩ := is
  refine ⟨s, s', startedAt_started starts, taken, ?_, before, after, old, new⟩
  rintro j url _ _ addr ⟨⟨_, accepted⟩, _⟩
  cases accepted

end CppRedis.Monitor

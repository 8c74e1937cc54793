import CppRedis.Clients

/-!
`Sentinel`: discovery of the master, the first connect, and the monitor's tick.
What the sentinels do is given by the tick: whether each connection is accepted
and what becomes of the command and of QUIT on it. `probe_answers` and
`probe_faults` say when a URL yields an address and when the attempt fails to
return; `discover_master_cases` lists the outcomes of discovery.
-/
namespace CppRedis.Sentinels
open CppRedis.Strings CppRedis.Reply CppRedis.Uri CppRedis.Connection CppRedis.Clients

/-- The object of an asynchronous connection; its fields are set when the
    connection has been begun. -/
structure AsyncConnection where
  host_ : Str := []
  port_ : Int := 0
  db_ : Int := 0
  attached : Bool := false
  sent : List RedisCmd := []

/-- `async_conn_` is none while it is not set; the listeners are numbered as they
    are built. -/
structure Subscriber where
  async_conn_ : Option AsyncConnection := none
  listener_ : Nat := 0

/-- `timers` counts the monitor timers that were started. -/
structure Sentinel where
  urls_ : List Str
  master_name_ : Str
  sentinel_url_ : Str := []
  master_ip_ : Str := []
  master_port_ : Int := 0
  db_ : Int
  sentinel_subscriber_ : Subscriber := {}
  timers : Nat := 0

/-- What becomes of a URL that discovery tries. -/
structure Probe where
  accepted : Bool
  answer : Exchange
  quit : Exchange

/-- The surroundings of one discovery and what follows it; `asyncFails` where
    `redisAsyncConnect` reports an error. -/
structure Tick where
  probes : Nat → Probe
  connecting : Connecting
  asyncFails : Bool

/-! ### Discovery -/

/-- `get_master_address`; the address is none where it returns false. -/
def get_master_address (master_name : Str) (x : Exchange) (ctx : Context) :
    Except Fault (Option (Str × Int)) × Context :=
  match send_command [lit "SENTINEL", lit "get-master-addr-by-name", master_name] x ctx with
  | (.error e, ctx) => (.error (.thrown e), ctx)
  | (.ok reply, ctx) =>
    match recv_string_array_reply reply [] with
    | (.error (.thrown e), _) => if e.isRedis then (.ok none, ctx) else (.error (.thrown e), ctx)
    | (.error fault, _) => (.error fault, ctx)
    | (.ok _, ip :: port :: _) => (.ok (some (ip, atoi port)), ctx)
    -- `address[0]` or `address[1]` is outside of the vector
    | (.ok _, _) => (.error .undefined, ctx)

/-- A round of the loop of `discover_master`; the connection is closed when the
    round is left, also by an exception. -/
def probe (master_name url : Str) (pr : Probe) : Except Fault (Option (Str × Int)) :=
  match parsed url with
  | .error e => .error (.thrown e)
  | .ok none => .ok none
  | .ok (some uri) =>
    if pr.accepted then
      match get_master_address master_name pr.answer ⟨uri.host, uri.port, none, [], [], none, false⟩ with
      | (.error .undefined, _) => .error .undefined
      | (result, ctx) =>
        match disconnect pr.quit ctx with
        | (.error _, _) => .error .terminated
        | (.ok _, _) => result
    else .ok none

/-- The loop from round `i` on, after the URLs in `tried`: whether an address was
    found, the address, the URL tried last, and `urls_` with the replying one in
    front. -/
def discover_from (master_name : Str) (probes : Nat → Probe) : List Str → List Str → Nat → Str →
    Except Fault Bool × (Str × Int) × Str × List Str
  | tried, [], _, url => (.ok false, ([], 0), url, tried)
  | tried, it :: rest, i, _ =>
    match probe master_name it (probes i) with
    | .error fault => (.error fault, ([], 0), it, tried ++ it :: rest)
    | .ok (some addr) => (.ok true, addr, it, it :: (tried ++ rest))
    | .ok none => discover_from master_name probes (tried ++ [it]) rest (i + 1) it

/-! ### Notifications -/

/-- `Subscriber::connect`. -/
def Subscriber.connect (asyncFails : Bool) (url : Str) (sub : Subscriber) : Except Exception Int × Subscriber :=
  match parsed url with
  | .error e => (.error e, sub)
  | .ok none => (.ok (-1), sub)
  | .ok (some uri) =>
    if asyncFails then (.ok (-1), { sub with async_conn_ := some {} })
    else (.ok 0, { sub with async_conn_ := some ⟨uri.host, uri.port, uri.db, true, []⟩ })

/-- `Subscriber::psubscribe`. -/
def Subscriber.psubscribe (patterns : List Str) (sub : Subscriber) : Except Fault Subscriber :=
  match sub.async_conn_ with
  | none => .error .undefined
  | some conn =>
    .ok { sub with async_conn_ := some { conn with sent := conn.sent ++ [lit "PSUBSCRIBE" :: patterns] } }

namespace Sentinel

def discover_master (probes : Nat → Probe) (se : Sentinel) : Except Fault Bool × (Str × Int) × Str × Sentinel :=
  match discover_from se.master_name_ probes [] se.urls_ 0 [] with
  | (result, addr, url, urls) => (result, addr, url, { se with urls_ := urls })

def subscribe_sentinel_notification (asyncFails : Bool) (url : Str) (se : Sentinel) : Except Fault Unit × Sentinel :=
  let sub := { se.sentinel_subscriber_ with listener_ := se.sentinel_subscriber_.listener_ + 1 }
  match sub.connect asyncFails url with
  | (.error e, sub) => (.error (.thrown e), { se with sentinel_subscriber_ := sub })
  | (.ok _, sub) =>
    match sub.psubscribe [lit "*"] with
    | .error fault => (.error fault, { se with sentinel_subscriber_ := sub })
    | .ok sub => (.ok (), { se with sentinel_subscriber_ := sub })

def start_monitor_timer (se : Sentinel) : Sentinel := { se with timers := se.timers + 1 }

def start_client_connect (t : Tick) (se : Sentinel) (cl : Client) : Except Fault Bool × Sentinel × Client :=
  match se.discover_master t.probes with
  | (.error fault, _, _, se) => (.error fault, se, cl)
  | (.ok false, _, _, se) => (.ok false, se, cl)
  | (.ok true, addr, url, se) =>
    match cl.connect t.connecting addr.1 addr.2 se.db_ with
    | (.error fault, cl) => (.error fault, se, cl)
    | (.ok n, cl) =>
      if n = 0 then
        let se := { se with master_ip_ := addr.1, master_port_ := addr.2, sentinel_url_ := url }
        match se.subscribe_sentinel_notification t.asyncFails url with
        | (.error fault, se) => (.error fault, se, cl)
        | (.ok _, se) => (.ok true, se.start_monitor_timer, cl)
      else (.ok false, se, cl)

/-- The first comparison of `check_master`. -/
def reconnect_client (t : Tick) (addr : Str × Int) (se : Sentinel) (cl : Client) : Except Fault Int × Client :=
  if addr.1 ≠ se.master_ip_ ∨ addr.2 ≠ se.master_port_ then cl.connect t.connecting addr.1 addr.2 se.db_
  else (.ok 0, cl)

/-- The second comparison of `check_master`. -/
def resubscribe (t : Tick) (url : Str) (se : Sentinel) : Except Fault Unit × Sentinel :=
  if url ≠ se.sentinel_url_ then se.subscribe_sentinel_notification t.asyncFails url else (.ok (), se)

/-- `check_master`; whether discovery succeeded is not looked at. -/
def check_master (t : Tick) (se : Sentinel) (cl : Client) : Except Fault Unit × Sentinel × Client :=
  match se.discover_master t.probes with
  | (.error fault, _, _, se) => (.error fault, se, cl)
  | (.ok _, addr, url, se) =>
    match se.reconnect_client t addr cl with
    | (.error fault, cl) => (.error fault, se, cl)
    | (.ok _, cl) =>
      match se.resubscribe t url with
      | (result, se) => (result, se, cl)

end Sentinel

/-! ### What an attempt at a URL does -/

/-- The URL is one of a server, and the connection to it is accepted. -/
def Reached (url : Str) (pr : Probe) : Prop := (∃ uri, parsed url = .ok (some uri)) ∧ pr.accepted = true

/-- The sentinel names an address, and its connection is closed well. -/
def Answers (url : Str) (pr : Probe) (addr : Str × Int) : Prop :=
  Reached url pr ∧ pr.quit.Quits ∧ ∃ element switched ip port rest, pr.answer = .reply (.array element) switched ∧
    stringsOf element = ip :: port :: rest ∧ addr = (ip, atoi port)

/-- The attempt does not return: the URL's numbers do not parse, the command gets
    no reply or an array that is too short or without its elements, or QUIT is
    refused. -/
def Faulty (url : Str) (pr : Probe) : Prop :=
  (∃ e, parsed url = .error e) ∨ Reached url pr ∧
    ((∃ errstr, pr.answer = .noReply errstr) ∨
     (∃ element switched, pr.answer = .reply (.array element) switched ∧ (stringsOf element).length < 2) ∨
     (∃ elements some switched, pr.answer = .reply (.hollow elements some) switched) ∨
     ((∃ r switched, pr.answer = .reply r switched) ∧ ¬ pr.quit.Quits))

/-- What `get_master_address` makes of a reply. -/
def named : RedisReply → Except Fault (Option (Str × Int))
  | .array element =>
    match stringsOf element with
    | ip :: port :: _ => .ok (some (ip, atoi port))
    | _ => .error .undefined
  | .hollow elements _ => .error (hollowFault .length_error elements)
  | _ => .ok none

theorem hollowFault_cases (reserve : Exception) (elements : Nat) :
    hollowFault reserve elements = .thrown reserve ∨ hollowFault reserve elements = .undefined := by
  unfold hollowFault
  split
  · exact .inl rfl
  · exact .inr rfl

theorem get_master_address_reply (master_name : Str) (r : RedisReply) (switched : Bool) (ctx : Context)
    (live : ctx.err = none) : get_master_address master_name (.reply r switched) ctx = (named r, ctx) := by
  have sent : send_command [lit "SENTINEL", lit "get-master-addr-by-name", master_name] (.reply r switched) ctx =
      (.ok r, ctx) := by
    obtain ⟨host, port, err, toServer, toClient, selected, freed⟩ := ctx
    obtain rfl : err = none := live
    simp [send_command, Context.redisCommand, Context.selectedBy]
  simp only [get_master_address, sent]
  cases r with
  | array element =>
    simp only [recv_string_array_reply_array, named]
    split <;> simp_all
  | hollow elements some =>
    rcases hollowFault_cases .length_error elements with is | is <;>
      simp [recv_string_array_reply, named, is, Exception.isRedis]
  | status str | error str | integer n | nil | string str =>
    simp [recv_string_array_reply, named, throw_redis_exception_isRedis]

/-- What an attempt at a URL comes to when its connection is accepted. -/
private theorem probe_reached (master_name : Str) {url : Str} {pr : Probe} (reached : Reached url pr) :
    probe master_name url pr =
      match pr.answer with
      | .noReply errstr => .error (.thrown (.CommandException errstr))
      | .reply r _ =>
        match named r with
        | .error .undefined => .error .undefined
        | result => if pr.quit.Quits then result else .error .terminated := by
  obtain ⟨⟨uri, parses⟩, accepted⟩ := reached
  simp only [probe, parses, accepted, ↓reduceIte]
  cases pr.answer with
  | noReply errstr =>
    simp [get_master_address, send_command, Context.redisCommand, disconnect, quit]
  | reply r switched =>
    have asked := get_master_address_reply master_name r switched ⟨uri.host, uri.port, none, [], [], none, false⟩ rfl
    simp only [asked]
    have returns := disconnect_returns pr.quit ⟨uri.host, uri.port, none, [], [], none, false⟩
    by_cases quits : pr.quit.Quits
    · obtain ⟨ctx', closed⟩ := returns.mpr fun _ => quits
      rcases named r with (e | _ | _) | found <;> simp [closed, quits]
    · cases closed : disconnect pr.quit ⟨uri.host, uri.port, none, [], [], none, false⟩ with
      | mk result ctx' =>
        cases result with
        | ok _ => exact absurd (returns.mp ⟨ctx', closed⟩ rfl) quits
        | error e => rcases named r with (e | _ | _) | found <;> simp [closed, quits]

private theorem named_found (r : RedisReply) (addr : Str × Int) :
    named r = .ok (some addr) ↔
      ∃ element ip port rest, r = .array element ∧ stringsOf element = ip :: port :: rest ∧ addr = (ip, atoi port) := by
  cases r with
  | array element =>
    cases strings : stringsOf element with
    | nil => simp [named, strings]
    | cons ip tail =>
      cases tail with
      | nil => simp [named, strings]
      | cons port rest => simp [named, strings, eq_comm]
  | status str | error str | integer n | nil | string str | hollow m some => simp [named]

private theorem named_error (r : RedisReply) :
    (∃ fault, named r = .error fault) ↔
      (∃ element, r = .array element ∧ (stringsOf element).length < 2) ∨ ∃ elements some, r = .hollow elements some := by
  cases r with
  | array element =>
    cases strings : stringsOf element with
    | nil => simp [named, strings]
    | cons ip tail => cases tail <;> simp [named, strings]
  | hollow elements some => exact iff_of_true ⟨_, rfl⟩ (.inr ⟨elements, some, rfl⟩)
  | status str | error str | integer n | nil | string str => simp [named]

/-- What an attempt comes to when no connection is made. -/
private theorem probe_unreached (master_name : Str) {url : Str} {pr : Probe} (unreached : ¬ Reached url pr) :
    probe master_name url pr =
      match parsed url with
      | .error e => .error (.thrown e)
      | .ok _ => .ok none := by
  cases parses : parsed url with
  | error e => simp [probe, parses]
  | ok found =>
    cases found with
    | none => simp [probe, parses]
    | some uri =>
      have refused : pr.accepted = false := by
        by_contra accepted
        exact unreached ⟨⟨uri, parses⟩, by simpa using accepted⟩
      simp [probe, parses, refused]

theorem probe_answers (master_name url : Str) (pr : Probe) (addr : Str × Int) :
    probe master_name url pr = .ok (some addr) ↔ Answers url pr addr := by
  by_cases reached : Reached url pr
  · rw [probe_reached master_name reached]
    cases answer : pr.answer with
    | noReply errstr => simp [Answers, answer]
    | reply r switched =>
      have answers : Answers url pr addr ↔ pr.quit.Quits ∧ named r = .ok (some addr) := by
        rw [named_found, Answers, answer]
        simp [reached]
      rw [answers]
      rcases found : named r with (e | _ | _) | found' <;> by_cases quits : pr.quit.Quits <;> simp [quits, found]
  · rw [probe_unreached master_name reached]
    cases parsed url <;> simp [Answers, reached]

theorem probe_faults (master_name url : Str) (pr : Probe) :
    (∃ fault, probe master_name url pr = .error fault) ↔ Faulty url pr := by
  by_cases reached : Reached url pr
  · rw [probe_reached master_name reached]
    obtain ⟨⟨uri, parses⟩, _⟩ := id reached
    cases answer : pr.answer with
    | noReply errstr => simp [Faulty, answer, reached]
    | reply r switched =>
      have faulty : Faulty url pr ↔ (∃ fault, named r = .error fault) ∨ ¬ pr.quit.Quits := by
        rw [named_error, Faulty, answer]
        simp [reached, parses, or_assoc]
      rw [faulty]
      rcases found : named r with (e | _ | _) | found' <;> by_cases quits : pr.quit.Quits <;> simp [quits, found]
  · rw [probe_unreached master_name reached]
    cases parses : parsed url <;> simp [Faulty, reached, parses]

/-! ### What discovery does -/

/-- The URLs before the one at `i` yield no address. -/
def Silent (urls : List Str) (probes : Nat → Probe) (i : Nat) : Prop :=
  ∀ (j : Nat) url, j < i → urls[j]? = some url → ∀ addr, ¬ Answers url (probes j) addr

/-- No attempt up to the first address fails to return. -/
def Sound (urls : List Str) (probes : Nat → Probe) : Prop :=
  ∀ (i : Nat) url, urls[i]? = some url → Silent urls probes i → ¬ Faulty url (probes i)

/-- No URL yields an address. -/
def Dark (urls : List Str) (probes : Nat → Probe) : Prop := Silent urls probes urls.length

/-- The first URL that yields an address, and the address. -/
def First (urls : List Str) (probes : Nat → Probe) (url : Str) (addr : Str × Int) : Prop :=
  ∃ i : Nat, urls[i]? = some url ∧ Silent urls probes i ∧ Answers url (probes i) addr

section
variable {it : Str} {rest : List Str} {probes : Nat → Probe}

private theorem silent_succ {i : Nat} : Silent (it :: rest) probes (i + 1) ↔
    (∀ addr, ¬ Answers it (probes 0) addr) ∧ Silent rest (fun j => probes (j + 1)) i := by
  constructor
  · intro silent
    exact ⟨silent 0 it (Nat.succ_pos i) rfl, fun j url lt at_j =>
      silent (j + 1) url (Nat.succ_lt_succ lt) (by simpa using at_j)⟩
  · rintro ⟨here, later⟩ j url lt at_j
    cases j with
    | zero =>
      obtain rfl : it = url := by simpa using at_j
      exact here
    | succ j => exact later j url (Nat.lt_of_succ_lt_succ lt) (by simpa using at_j)

private theorem silent_zero (urls : List Str) (probes : Nat → Probe) : Silent urls probes 0 :=
  fun _ _ lt => absurd lt (Nat.not_lt_zero _)

private theorem sound_cons : Sound (it :: rest) probes ↔
    ¬ Faulty it (probes 0) ∧
      ((∀ addr, ¬ Answers it (probes 0) addr) → Sound rest (fun j => probes (j + 1))) := by
  constructor
  · intro sound
    exact ⟨sound 0 it rfl (silent_zero _ _), fun here i url at_i silent =>
      sound (i + 1) url (by simpa using at_i) (silent_succ.mpr ⟨here, silent⟩)⟩
  · rintro ⟨here, later⟩ i url at_i silent
    cases i with
    | zero =>
      obtain rfl : it = url := by simpa using at_i
      exact here
    | succ i =>
      obtain ⟨none, silent⟩ := silent_succ.mp silent
      exact later none i url (by simpa using at_i) silent

private theorem first_cons {url : Str} {addr : Str × Int} : First (it :: rest) probes url addr ↔
    (it = url ∧ Answers it (probes 0) addr) ∨
      ((∀ addr, ¬ Answers it (probes 0) addr) ∧ First rest (fun j => probes (j + 1)) url addr) := by
  constructor
  · rintro ⟨i, at_i, silent, answers⟩
    cases i with
    | zero =>
      obtain rfl : it = url := by simpa using at_i
      exact .inl ⟨rfl, answers⟩
    | succ i =>
      obtain ⟨here, silent⟩ := silent_succ.mp silent
      exact .inr ⟨here, i, by simpa using at_i, silent, answers⟩
  · rintro (⟨rfl, answers⟩ | ⟨here, i, at_i, silent, answers⟩)
    · exact ⟨0, rfl, silent_zero _ _, answers⟩
    · exact ⟨i + 1, by simpa using at_i, silent_succ.mpr ⟨here, silent⟩, answers⟩

end

/-- The outcomes of the loop: the first URL that yields an address, none at all,
    or an attempt that does not return. -/
inductive Discovers (tried urls : List Str) (probes : Nat → Probe) (url : Str) :
    Except Fault Bool × (Str × Int) × Str × List Str → Prop
  | found {it : Str} {addr : Str × Int} {order : List Str} (sound : Sound urls probes)
      (first : First urls probes it addr) (front : order.head? = some it) (perm : order.Perm (tried ++ urls)) :
      Discovers tried urls probes url (.ok true, addr, it, order)
  | dark (sound : Sound urls probes) (none : Dark urls probes) :
      Discovers tried urls probes url (.ok false, ([], 0), urls.getLastD url, tried ++ urls)
  | faulted {fault : Fault} {addr : Str × Int} {it : Str} (unsound : ¬ Sound urls probes) :
      Discovers tried urls probes url (.error fault, addr, it, tried ++ urls)

/-- A round that yields no address leaves the outcome to the rounds after it. -/
private theorem Discovers.later {it : Str} {rest : List Str} {probes : Nat → Probe} (fine : ¬ Faulty it (probes 0))
    (silent : ∀ addr, ¬ Answers it (probes 0) addr) {tried : List Str} {url : Str}
    {out : Except Fault Bool × (Str × Int) × Str × List Str}
    (done : Discovers (tried ++ [it]) rest (fun j => probes (j + 1)) it out) :
    Discovers tried (it :: rest) probes url out := by
  have moved : tried ++ [it] ++ rest = tried ++ it :: rest := by simp
  cases done with
  | found sound first front perm =>
    exact .found (sound_cons.mpr ⟨fine, fun _ => sound⟩) (first_cons.mpr (.inr ⟨silent, first⟩)) front (moved ▸ perm)
  | dark sound none =>
    rw [moved, ← List.getLastD_cons (a := url)]
    exact .dark (sound_cons.mpr ⟨fine, fun _ => sound⟩) (silent_succ.mpr ⟨silent, none⟩)
  | faulted unsound =>
    rw [moved]
    exact .faulted fun sound => unsound ((sound_cons.mp sound).2 silent)

theorem discover_from_cases (master_name : Str) (probes : Nat → Probe) (tried urls : List Str) (i : Nat) (url : Str) :
    Discovers tried urls (fun j => probes (j + i)) url (discover_from master_name probes tried urls i url) := by
  induction urls generalizing tried i url with
  | nil =>
    have nothing : discover_from master_name probes tried [] i url = (.ok false, ([], 0), url, tried ++ []) := by
      simp [discover_from]
    rw [nothing]
    exact .dark (fun j u at_j => by simp at at_j) (silent_zero _ _)
  | cons it rest ih =>
    have answers := probe_answers master_name it (probes i)
    have faults := probe_faults master_name it (probes i)
    have here : probes (0 + i) = probes i := by rw [Nat.zero_add]
    cases tried_it : probe master_name it (probes i) with
    | error fault =>
      simp only [discover_from, tried_it]
      refine .faulted fun sound => (sound_cons.mp sound).1 ?_
      rw [here]
      exact faults.mp ⟨fault, tried_it⟩
    | ok result =>
      have fine : ¬ Faulty it (probes (0 + i)) := fun faulty => by
        obtain ⟨fault, is⟩ := faults.mpr (here ▸ faulty)
        rw [tried_it] at is
        cases is
      cases result with
      | some addr =>
        simp only [discover_from, tried_it]
        have answer : Answers it (probes (0 + i)) addr := here ▸ (answers addr).mp tried_it
        exact .found (sound_cons.mpr ⟨fine, fun none => absurd answer (none addr)⟩)
          (first_cons.mpr (.inl ⟨rfl, answer⟩)) rfl List.perm_middle.symm
      | none =>
        have silent : ∀ addr, ¬ Answers it (probes (0 + i)) addr := fun addr answer => by
          have is := (answers addr).mpr (here ▸ answer)
          rw [tried_it] at is
          cases is
        have shift : (fun j => probes (j + (i + 1))) = fun j => probes (j + 1 + i) := by
          funext j
          rw [Nat.add_assoc, Nat.add_comm 1 i]
        have later := ih (tried ++ [it]) (i + 1) it
        rw [shift] at later
        simp only [discover_from, tried_it]
        exact Discovers.later fine silent later

theorem answers_unique {url : Str} {pr : Probe} {addr addr' : Str × Int} (one : Answers url pr addr)
    (other : Answers url pr addr') : addr = addr' := by
  have found := (probe_answers [] url pr addr).mpr one
  rw [(probe_answers [] url pr addr').mpr other] at found
  cases found
  rfl

theorem first_unique {urls : List Str} {probes : Nat → Probe} {url url' : Str} {addr addr' : Str × Int}
    (one : First urls probes url addr) (other : First urls probes url' addr') : url = url' ∧ addr = addr' := by
  obtain ⟨i, at_i, silent, answers⟩ := one
  obtain ⟨i', at_i', silent', answers'⟩ := other
  rcases Nat.lt_trichotomy i i' with before | rfl | after
  · exact absurd answers (silent' i url before at_i addr)
  · obtain rfl : url = url' := by rw [at_i] at at_i'; exact Option.some.inj at_i'
    exact ⟨rfl, answers_unique answers answers'⟩
  · exact absurd answers' (silent i' url' after at_i' addr')

theorem First.not_dark {urls : List Str} {probes : Nat → Probe} {url : Str} {addr : Str × Int}
    (first : First urls probes url addr) : ¬ Dark urls probes := by
  obtain ⟨i, at_i, _, answers⟩ := first
  exact fun dark => dark i url (List.getElem?_eq_some_iff.mp at_i).1 at_i addr answers

/-- The URL that yields an address parses. -/
theorem First.parses {urls : List Str} {probes : Nat → Probe} {url : Str} {addr : Str × Int}
    (first : First urls probes url addr) : ∀ e, parsed url ≠ .error e := by
  obtain ⟨_, _, _, ⟨⟨uri, parses⟩, _⟩, _⟩ := first
  exact fun e is => by rw [parses] at is; cases is

/-- The URL that was tried last parses where none yields an address. -/
theorem dark_parses {urls : List Str} {probes : Nat → Probe} (sound : Sound urls probes) (dark : Dark urls probes) :
    ∀ e, parsed (urls.getLastD []) ≠ .error e := by
  intro e is
  cases urls with
  | nil =>
    have nothing : parsed [] = .ok none := by decide
    rw [List.getLastD_nil, nothing] at is
    cases is
  | cons it rest =>
    have last : (it :: rest)[rest.length]? = some ((it :: rest).getLastD []) := by
      simp [List.getLast?_eq_getElem?]
    exact sound rest.length _ last (fun j url lt at_j => dark j url (by simp; omega) at_j) (.inl ⟨e, is⟩)

namespace Sentinel

/-- What `discover_master` comes to. -/
theorem discover_master_cases (probes : Nat → Probe) (se : Sentinel) :
    (Sound se.urls_ probes ∧ ∃ addr url urls, First se.urls_ probes url addr ∧
      se.discover_master probes = (.ok true, addr, url, { se with urls_ := urls })) ∨
    (Sound se.urls_ probes ∧ Dark se.urls_ probes ∧
      se.discover_master probes = (.ok false, ([], 0), se.urls_.getLastD [], se)) ∨
    (¬ Sound se.urls_ probes ∧ ∃ fault addr url, se.discover_master probes = (.error fault, addr, url, se)) := by
  have outcome : Discovers [] se.urls_ probes [] (discover_from se.master_name_ probes [] se.urls_ 0 []) :=
    discover_from_cases se.master_name_ probes [] se.urls_ 0 []
  simp only [discover_master]
  generalize discover_from se.master_name_ probes [] se.urls_ 0 [] = out at outcome
  cases outcome with
  | @found it addr order sound first front perm => exact .inl ⟨sound, addr, it, order, first, rfl⟩
  | dark sound none => exact .inr (.inl ⟨sound, none, rfl⟩)
  | @faulted fault addr it unsound => exact .inr (.inr ⟨unsound, fault, addr, it, rfl⟩)

/-- The address that the sentinel has recorded. -/
def master (se : Sentinel) : Str × Int := (se.master_ip_, se.master_port_)

/-- What `subscribe_sentinel_notification` leaves where it returns. -/
theorem subscribe_gives {asyncFails : Bool} {url : Str} {se se' : Sentinel} {u : Unit}
    (done : se.subscribe_sentinel_notification asyncFails url = (.ok u, se')) :
    ∃ sub, se' = { se with sentinel_subscriber_ := sub } ∧ sub.async_conn_.isSome = true ∧
      sub.listener_ = se.sentinel_subscriber_.listener_ + 1 := by
  simp only [subscribe_sentinel_notification, Subscriber.connect] at done
  cases parses : parsed url with
  | error e => simp [parses] at done
  | ok found =>
    cases found with
    | none =>
      cases conn : se.sentinel_subscriber_.async_conn_ with
      | none => simp [parses, Subscriber.psubscribe, conn] at done
      | some conn' =>
        simp only [parses, Subscriber.psubscribe, conn, Prod.mk.injEq] at done
        exact ⟨_, done.2.symm, rfl, rfl⟩
    | some uri =>
      cases asyncFails with
      | true =>
        simp only [parses, ↓reduceIte, Subscriber.psubscribe, Prod.mk.injEq] at done
        exact ⟨_, done.2.symm, rfl, rfl⟩
      | false =>
        simp only [parses, Bool.false_eq_true, ↓reduceIte, Subscriber.psubscribe, Prod.mk.injEq] at done
        exact ⟨_, done.2.symm, rfl, rfl⟩

/-- It returns for a URL that discovery has tried. -/
theorem subscribe_returns (asyncFails : Bool) {url : Str} {se : Sentinel} (fine : ∀ e, parsed url ≠ .error e)
    (subscribed : se.sentinel_subscriber_.async_conn_.isSome = true) :
    ∃ se', se.subscribe_sentinel_notification asyncFails url = (.ok (), se') := by
  obtain ⟨conn, is⟩ := Option.isSome_iff_exists.mp subscribed
  simp only [subscribe_sentinel_notification, Subscriber.connect]
  cases parses : parsed url with
  | error e => exact absurd parses (fine e)
  | ok found =>
    cases found with
    | none => exact ⟨_, by simp [Subscriber.psubscribe, is]; rfl⟩
    | some uri => cases asyncFails <;> exact ⟨_, rfl⟩

end Sentinel

end CppRedis.Sentinels

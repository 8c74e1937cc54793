import CppRedis.Monitor
import CppRedis.Pushes

/-!
The notifications of the sentinels to a started `Sentinel`: the connections that its
subscriber has opened, one after the other, what the sentinels publish and what the
listener hears. `once_while_renewed` is about runs whose ticks leave no connection
behind.
-/
namespace CppRedis.Notifications
open CppRedis.Strings CppRedis.Reply CppRedis.Uri CppRedis.Connection CppRedis.Interleaving CppRedis.Runs
open CppRedis.Clients CppRedis.Sentinels CppRedis.Monitor
open CppRedis.Pushes (Push Heard sub_callback)

/-! ### Connections -/

/-- The host and the port of a sentinel. -/
abbrev Server := Str × Int

/-- The sentinel that a URL names. -/
def server (url : Str) : Option Server :=
  match parsed url with
  | .ok (some uri) => some (uri.host, uri.port)
  | .ok none => none
  | .error _ => none

/-- What a sentinel publishes, numbered in order. -/
structure Notice where
  id : Nat
  source : Server
  channel : Str
  message : Str
  deriving DecidableEq

/-- What is in flight to the client: the answer to `psubscribe`, or a notification. -/
inductive Arrival
  | subscribed
  | notice (n : Notice)
  deriving DecidableEq

def Arrival.push : Arrival → Push
  | .subscribed => .changed .pattern true (lit "*") 1
  | .notice n => .pmessage (lit "*") n.channel n.message

/-- A connection that `failed` was never begun; hiredis has freed the context of one that
    has `ended`. -/
inductive Phase
  | failed
  | pending
  | established
  | ended
  deriving DecidableEq

/-- `asked` counts the commands in flight, of which each asks for all channels. -/
structure Link where
  server : Server
  phase : Phase
  asked : Nat := 1
  subscribed : Bool := false
  toClient : List Arrival := []
  deriving DecidableEq

namespace Link

def alive (l : Link) : Bool := l.phase = .pending || l.phase = .established

def close (l : Link) : Link := { l with phase := .ended, toClient := [] }

def serve (l : Link) : Option Link :=
  if l.asked = 0 then none
  else some { l with asked := l.asked - 1, subscribed := true, toClient := l.toClient ++ [.subscribed] }

/-- The sentinel sends a notification to whoever has subscribed. -/
def receive (n : Notice) (l : Link) : Link :=
  if l.phase = .established ∧ l.subscribed = true ∧ l.server = n.source then
    { l with toClient := l.toClient ++ [.notice n] }
  else l

/-- The notifications that are in flight. -/
def notices (l : Link) : List Notice :=
  l.toClient.filterMap fun arrival => match arrival with
    | .subscribed => none
    | .notice n => some n

end Link

/-- `subscribe_sentinel_notification`: the subscriber has a new connection, and nothing
    becomes of the one before. Where `connect` returns for the URL without one, the
    command goes to the one before. -/
def subscribed (asyncFails : Bool) (url : Str) (links : List Link) : List Link :=
  match server url with
  | some address => links ++ [⟨address, if asyncFails then .failed else .pending, 1, false, []⟩]
  | none =>
    match links[links.length - 1]? with
    | some l => links.set (links.length - 1) { l with asked := l.asked + 1 }
    | none => links

/-! ### The sentinel and its connections -/

/-- A notification with which the listener was called, and the sentinel that was the
    current one then. -/
structure Delivery where
  notice : Notice
  current : Option Server
  deriving DecidableEq

/-- `current` is the sentinel that has answered last, `published` the number of
    notifications so far. -/
structure World where
  site : Site
  sub : Pushes.Subscriber
  links : List Link
  current : Option Server
  published : Nat := 0
  heard : List Delivery := []

inductive Act
  | tick (t : Tick)
  | calls (threads : Nat) (moves : List (Move Execute.Act Execute.Serving))
  | established (i : Nat)
  | refused (i : Nat)
  | lost (i : Nat)
  | serve (i : Nat)
  | publish (source : Server) (channel message : Str)
  | deliver (i : Nat)

namespace World

/-- The URL at which discovery ends in a tick. -/
def endsAt (t : Tick) (w : World) : Str := (w.site.sentinel.discover_master t.probes).2.2.1

/-- The sentinel that is the current one after a tick. -/
def answering (t : Tick) (w : World) : Option Server :=
  match discovered w.site t with
  | some (_, url) => server url
  | none => w.current

def tick (t : Tick) (w : World) : Option World :=
  (Monitor.step w.site (.tick t)).map fun site =>
    let renews := w.endsAt t ≠ w.site.sentinel.sentinel_url_
    { w with
      site := site
      sub := if renews then w.sub.set_listener site.sentinel.sentinel_subscriber_.listener_ else w.sub
      links := if renews then subscribed t.asyncFails (w.endsAt t) w.links else w.links
      current := w.answering t }

/-- An event on a connection in some phase. -/
def event (i : Nat) (phase : Phase) (f : Link → Option World) (w : World) : Option World :=
  match w.links[i]? with
  | none => none
  | some l => if l.phase = phase then f l else none

def put (i : Nat) (w : World) (l : Link) : World := { w with links := w.links.set i l }

/-- The callback is called with what has arrived first. -/
def deliver (i : Nat) (w : World) (l : Link) : Option World :=
  match l.toClient with
  | [] => none
  | arrival :: rest =>
    match sub_callback (some arrival.push.reply) w.sub with
    | .error _ => none
    | .ok sub =>
      let w := { w.put i { l with toClient := rest } with sub := sub }
      match arrival with
      | .subscribed => some w
      | .notice n => some { w with heard := w.heard ++ [⟨n, w.current⟩] }

end World

def step (w : World) : Act → Option World
  | .tick t => w.tick t
  | .calls threads moves => (Monitor.step w.site (.calls threads moves)).map fun site => { w with site := site }
  | .established i => w.event i .pending fun l => some (w.put i { l with phase := .established })
  | .refused i => w.event i .pending fun l => some (w.put i l.close)
  | .lost i => w.event i .established fun l => some (w.put i l.close)
  | .serve i => w.event i .established fun l => l.serve.map (w.put i)
  | .publish source channel message =>
    some { w with links := w.links.map (Link.receive ⟨w.published, source, channel, message⟩), published := w.published + 1 }
  | .deliver i => w.event i .established (w.deliver i)

/-- A sentinel whose subscriber is new has been started, and nothing has happened since. -/
def Started (w : World) : Prop :=
  ∃ (t : Tick) (se : Sentinel) (cl : Client), se.sentinel_subscriber_ = {} ∧
    se.start_client_connect t cl = (.ok true, w.site.sentinel, w.site.client) ∧
    w = { site := w.site
          sub := { listener_ := some w.site.sentinel.sentinel_subscriber_.listener_ }
          links := subscribed t.asyncFails w.site.sentinel.sentinel_url_ []
          current := server w.site.sentinel.sentinel_url_ }

/-! ### What arrives -/

/-- At most one connection is alive. -/
def Single (links : List Link) : Prop :=
  ∀ (i j : Nat) l m, links[i]? = some l → links[j]? = some m → l.alive = true → m.alive = true → i = j

/-- At most one connection is alive, no notification has been heard twice, and each came
    from the current sentinel. -/
structure Once (w : World) : Prop where
  single : Single w.links
  once : (w.heard.map fun d => d.notice.id).Nodup
  current : ∀ d ∈ w.heard, d.current = some d.notice.source

/-- The sentinel to which a tick begins a connection. -/
def World.opens (t : Tick) (w : World) : Option Server :=
  if w.endsAt t ≠ w.site.sentinel.sentinel_url_ ∧ t.asyncFails = false then server (w.endsAt t) else none

/-- The tick begins a connection only while none is alive, and each that is alive after
    it is one to the sentinel that answers. -/
def Renewed (w : World) : Act → Prop
  | .tick t =>
    match w.opens t with
    | some address => (∀ l ∈ w.links, l.alive = false) ∧ w.answering t = some address
    | none => ∀ l ∈ w.links, l.alive = true → w.answering t = some l.server
  | .calls .. => True
  | .established _ => True
  | .refused _ => True
  | .lost _ => True
  | .serve _ => True
  | .publish .. => True
  | .deliver _ => True

instance (w : World) : (act : Act) → Decidable (Renewed w act)
  | .tick t =>
    match opens : w.opens t with
    | some address =>
      decidable_of_iff ((∀ l ∈ w.links, l.alive = false) ∧ w.answering t = some address) (by simp only [Renewed, opens])
    | none =>
      decidable_of_iff (∀ l ∈ w.links, l.alive = true → w.answering t = some l.server) (by simp only [Renewed, opens])
  | .calls .. | .established _ | .refused _ | .lost _ | .serve _ | .publish .. | .deliver _ => .isTrue trivial

/-- What is in flight on a connection is from its server, and was not heard yet. -/
structure Link.Carries (published : Nat) (heard : List Delivery) (l : Link) : Prop where
  distinct : (l.notices.map Notice.id).Nodup
  source : ∀ n ∈ l.notices, n.source = l.server
  fresh : ∀ n ∈ l.notices, n.id < published
  unheard : ∀ n ∈ l.notices, ∀ d ∈ heard, d.notice.id ≠ n.id

structure Kept (w : World) : Prop where
  single : Single w.links
  current : ∀ (i : Nat) l, w.links[i]? = some l → l.alive = true → w.current = some l.server
  carries : ∀ (i : Nat) l, w.links[i]? = some l → l.alive = true → l.Carries w.published w.heard
  old : ∀ d ∈ w.heard, d.notice.id < w.published
  once : (w.heard.map fun d => d.notice.id).Nodup
  heard_current : ∀ d ∈ w.heard, d.current = some d.notice.source

theorem Kept.gives {w : World} (kept : Kept w) : Once w := ⟨kept.single, kept.once, kept.heard_current⟩

/-! ### Steps that bring nothing new -/

/-- Each connection that is alive was so before, with the same sentinel and the same
    notifications in flight. -/
def Follows (links links' : List Link) : Prop :=
  ∀ (i : Nat) m, links'[i]? = some m → m.alive = true →
    ∃ l, links[i]? = some l ∧ l.alive = true ∧ m.server = l.server ∧ m.notices = l.notices

theorem Follows.refl (links : List Link) : Follows links links := fun _ m at_i alive => ⟨m, at_i, alive, rfl, rfl⟩

theorem follows_set {links : List Link} {i : Nat} {l l' : Link} (at_i : links[i]? = some l)
    (same : l'.alive = true → l.alive = true ∧ l'.server = l.server ∧ l'.notices = l.notices) :
    Follows links (links.set i l') := by
  intro j m at_j alive
  rw [List.getElem?_set] at at_j
  by_cases here : i = j
  · subst here
    rw [if_pos rfl] at at_j
    split at at_j
    · obtain rfl := Option.some.inj at_j
      obtain ⟨before, server, notices⟩ := same alive
      exact ⟨l, at_i, before, server, notices⟩
    · cases at_j
  · rw [if_neg here] at at_j
    exact ⟨m, at_j, alive, rfl, rfl⟩

theorem Single.follows {links links' : List Link} (single : Single links) (follows : Follows links links') :
    Single links' := by
  intro i j l m at_i at_j alive_l alive_m
  obtain ⟨l₀, at_i, alive_l, _⟩ := follows i l at_i alive_l
  obtain ⟨m₀, at_j, alive_m, _⟩ := follows j m at_j alive_m
  exact single i j l₀ m₀ at_i at_j alive_l alive_m

theorem Kept.follows {w w' : World} (kept : Kept w) (follows : Follows w.links w'.links)
    (current : ∀ (i : Nat) l, w.links[i]? = some l → l.alive = true → w'.current = some l.server)
    (published : w'.published = w.published) (heard : w'.heard = w.heard) : Kept w' := by
  refine ⟨kept.single.follows follows, ?_, ?_, ?_, ?_, ?_⟩
  · intro i m at_i alive
    obtain ⟨l, at_i, alive, server, _⟩ := follows i m at_i alive
    rw [server]
    exact current i l at_i alive
  · intro i m at_i alive
    obtain ⟨l, at_i, alive, server, notices⟩ := follows i m at_i alive
    obtain ⟨distinct, source, fresh, unheard⟩ := kept.carries i l at_i alive
    rw [published, heard]
    refine ⟨?_, ?_, ?_, ?_⟩ <;> rw [notices]
    · exact distinct
    · rw [server]
      exact source
    · exact fresh
    · exact unheard
  · rw [heard, published]
    exact kept.old
  · rw [heard]
    exact kept.once
  · rw [heard]
    exact kept.heard_current

/-- A connection that is begun, if any, comes behind the others. -/
theorem subscribed_opens {url : Str} {address : Server} (is : server url = some address) (links : List Link) :
    subscribed false url links = links ++ [⟨address, .pending, 1, false, []⟩] := by
  unfold subscribed
  rw [is]
  rfl

theorem subscribed_follows {asyncFails : Bool} {url : Str} (none_begun : asyncFails = false → server url = none)
    (links : List Link) : Follows links (subscribed asyncFails url links) := by
  unfold subscribed
  cases is : server url with
  | some address =>
    cases asyncFails with
    | false =>
      rw [none_begun rfl] at is
      cases is
    | true =>
      intro i m at_i alive
      rw [List.getElem?_append] at at_i
      split at at_i
      · exact ⟨m, at_i, alive, rfl, rfl⟩
      · obtain rfl := List.mem_singleton.mp (List.mem_of_getElem? at_i)
        cases alive
  | none =>
    simp only
    split
    · rename_i l last
      exact follows_set last fun alive => ⟨alive, rfl, rfl⟩
    · exact Follows.refl links

/-! ### What a step does -/

/-- An event happens on a connection in its phase. -/
theorem World.event_cases {i : Nat} {phase : Phase} {f : Link → Option World} {w w' : World}
    (taken : w.event i phase f = some w') : ∃ l, w.links[i]? = some l ∧ l.phase = phase ∧ f l = some w' := by
  unfold World.event at taken
  split at taken
  · cases taken
  · rename_i l at_i
    split at taken
    · exact ⟨l, at_i, ‹_›, taken⟩
    · cases taken

/-- What a delivery does: the callback takes the answer to `psubscribe`, or calls the
    listener. -/
inductive Delivers (i : Nat) (w : World) (l : Link) : World → Prop
  | subscribed {rest : List Arrival} {sub : Pushes.Subscriber} (first : l.toClient = .subscribed :: rest)
      (called : sub_callback (some Arrival.subscribed.push.reply) w.sub = .ok sub) :
      Delivers i w l { w with
        sub := sub
        links := w.links.set i { l with toClient := rest } }
  | notice {n : Notice} {rest : List Arrival} {sub : Pushes.Subscriber} (first : l.toClient = .notice n :: rest)
      (called : sub_callback (some (Arrival.notice n).push.reply) w.sub = .ok sub) :
      Delivers i w l { w with
        sub := sub
        links := w.links.set i { l with toClient := rest }
        heard := w.heard ++ [⟨n, w.current⟩] }

theorem World.deliver_cases {i : Nat} {w w' : World} {l : Link} (taken : w.deliver i l = some w') : Delivers i w l w' := by
  unfold World.deliver at taken
  split at taken
  · cases taken
  · rename_i arrival rest first
    split at taken
    · cases taken
    · rename_i sub called
      cases arrival with
      | subscribed =>
        obtain rfl := Option.some.inj taken
        exact .subscribed first called
      | notice n =>
        obtain rfl := Option.some.inj taken
        exact .notice first called

/-- What an event on a connection, other than a delivery, makes of it. -/
inductive Changes : Act → Nat → Link → Link → Prop
  | established {i : Nat} {l : Link} (phase : l.phase = .pending) :
      Changes (.established i) i l { l with phase := .established }
  | refused {i : Nat} {l : Link} (phase : l.phase = .pending) : Changes (.refused i) i l l.close
  | lost {i : Nat} {l : Link} (phase : l.phase = .established) : Changes (.lost i) i l l.close
  | serve {i : Nat} {l : Link} (phase : l.phase = .established) (asks : l.asked ≠ 0) :
      Changes (.serve i) i l
        { l with asked := l.asked - 1, subscribed := true, toClient := l.toClient ++ [.subscribed] }

/-- All that a step can do. -/
inductive Steps (w : World) : Act → World → Prop
  | tick {t : Tick} {w' : World} (ticked : w.tick t = some w') : Steps w (.tick t) w'
  | calls {threads : Nat} {moves : List (Move Execute.Act Execute.Serving)} {site : Site}
      (called : Monitor.step w.site (.calls threads moves) = some site) :
      Steps w (.calls threads moves) { w with site := site }
  | change {act : Act} {i : Nat} {l l' : Link} (at_i : w.links[i]? = some l) (changes : Changes act i l l') :
      Steps w act (w.put i l')
  | publish {source : Server} {channel message : Str} :
      Steps w (.publish source channel message)
        { w with
          links := w.links.map (Link.receive ⟨w.published, source, channel, message⟩)
          published := w.published + 1 }
  | deliver {i : Nat} {l : Link} {w' : World} (at_i : w.links[i]? = some l) (phase : l.phase = .established)
      (delivers : Delivers i w l w') : Steps w (.deliver i) w'

theorem step_cases {w w' : World} {act : Act} (taken : step w act = some w') : Steps w act w' := by
  cases act with
  | tick t => exact .tick taken
  | calls threads moves =>
    obtain ⟨site, called, rfl⟩ := Option.map_eq_some_iff.mp taken
    exact .calls called
  | established i =>
    obtain ⟨l, at_i, phase, moved⟩ := World.event_cases taken
    obtain rfl := Option.some.inj moved
    exact .change at_i (.established phase)
  | refused i =>
    obtain ⟨l, at_i, phase, moved⟩ := World.event_cases taken
    obtain rfl := Option.some.inj moved
    exact .change at_i (.refused phase)
  | lost i =>
    obtain ⟨l, at_i, phase, moved⟩ := World.event_cases taken
    obtain rfl := Option.some.inj moved
    exact .change at_i (.lost phase)
  | serve i =>
    obtain ⟨l, at_i, phase, moved⟩ := World.event_cases taken
    obtain ⟨l', served, rfl⟩ := Option.map_eq_some_iff.mp moved
    unfold Link.serve at served
    split at served
    · cases served
    · obtain rfl := Option.some.inj served
      exact .change at_i (.serve phase ‹_›)
  | publish source channel message =>
    obtain rfl := Option.some.inj taken
    exact .publish
  | deliver i =>
    obtain ⟨l, at_i, phase, moved⟩ := World.event_cases taken
    exact .deliver at_i phase (World.deliver_cases moved)

/-- A change brings no connection to life and no notification. -/
theorem Changes.brings_nothing {act : Act} {i : Nat} {l l' : Link} (changes : Changes act i l l') (alive : l'.alive = true) :
    l.alive = true ∧ l'.server = l.server ∧ l'.notices = l.notices := by
  cases changes with
  | established phase => exact ⟨by simp [Link.alive, phase], rfl, rfl⟩
  | refused phase | lost phase => cases alive
  | serve phase asks => exact ⟨alive, rfl, by simp [Link.notices]⟩

/-- Only a connection that was begun changes, and it stays one, to the same sentinel. -/
theorem Changes.begun {act : Act} {i : Nat} {l l' : Link} (changes : Changes act i l l') :
    l.phase ≠ .failed ∧ l'.phase ≠ .failed ∧ l'.server = l.server := by
  cases changes with
  | established phase | refused phase | lost phase | serve phase asks => exact ⟨by simp [phase], by simp [Link.close, phase], rfl⟩

/-! ### What a step keeps -/

/-- A connection that a tick begins is the only one that is alive. -/
private theorem opened_kept {w w' : World} {address : Server} (kept : Kept w) (none_alive : ∀ l ∈ w.links, l.alive = false)
    (links : w'.links = w.links ++ [⟨address, .pending, 1, false, []⟩]) (current : w'.current = some address)
    (published : w'.published = w.published) (heard : w'.heard = w.heard) : Kept w' := by
  have last : ∀ (i : Nat) m, w'.links[i]? = some m → m.alive = true →
      i = w.links.length ∧ m = ⟨address, .pending, 1, false, []⟩ := by
    intro i m at_i alive
    rw [links, List.getElem?_append] at at_i
    split at at_i
    · rw [none_alive m (List.mem_of_getElem? at_i)] at alive
      cases alive
    · rename_i beyond
      have inside := (List.getElem?_eq_some_iff.mp at_i).1
      obtain rfl := List.mem_singleton.mp (List.mem_of_getElem? at_i)
      exact ⟨by simp at inside; omega, rfl⟩
  refine ⟨?_, ?_, ?_, ?_, ?_, ?_⟩
  · intro i j l m at_i at_j alive_l alive_m
    rw [(last i l at_i alive_l).1, (last j m at_j alive_m).1]
  · intro i m at_i alive
    rw [(last i m at_i alive).2]
    exact current
  · intro i m at_i alive
    rw [(last i m at_i alive).2]
    exact ⟨List.nodup_nil, fun n member => absurd member List.not_mem_nil, fun n member => absurd member List.not_mem_nil,
      fun n member => absurd member List.not_mem_nil⟩
  · rw [heard, published]
    exact kept.old
  · rw [heard]
    exact kept.once
  · rw [heard]
    exact kept.heard_current

private theorem tick_kept {w w' : World} {t : Tick} (kept : Kept w) (renewed : Renewed w (.tick t))
    (taken : w.tick t = some w') : Kept w' := by
  obtain ⟨site, _, rfl⟩ := Option.map_eq_some_iff.mp taken
  cases opens : w.opens t with
  | some address =>
    simp only [Renewed, opens] at renewed
    unfold World.opens at opens
    split at opens
    · rename_i begins
      refine opened_kept kept renewed.1 ?_ renewed.2 rfl rfl
      rw [← subscribed_opens opens, ← begins.2]
      exact if_pos begins.1
    · cases opens
  | none =>
    simp only [Renewed, opens] at renewed
    refine kept.follows ?_ (fun i l at_i alive => renewed l (List.mem_of_getElem? at_i) alive) rfl rfl
    show Follows w.links (if _ then _ else _)
    split
    · rename_i renews
      refine subscribed_follows ?_ w.links
      intro begins
      unfold World.opens at opens
      rwa [if_pos ⟨renews, begins⟩] at opens
    · exact Follows.refl w.links

/-- Whoever gets a notification is alive, and subscribed to its source. -/
theorem Link.receive_cases (n : Notice) (l : Link) :
    l.receive n = l ∨ l.server = n.source ∧ l.receive n = { l with toClient := l.toClient ++ [.notice n] } := by
  unfold Link.receive
  split
  · rename_i gets
    exact .inr ⟨gets.2.2, rfl⟩
  · exact .inl rfl

theorem Link.Carries.receive {published : Nat} {heard : List Delivery} {l : Link} (carries : l.Carries published heard)
    {n : Notice} (is : n.id = published) (old : ∀ d ∈ heard, d.notice.id < published) :
    (l.receive n).Carries (published + 1) heard := by
  obtain ⟨distinct, source, fresh, unheard⟩ := carries
  rcases l.receive_cases n with same | ⟨from_source, got⟩
  · rw [same]
    exact ⟨distinct, source, fun m member => Nat.lt_succ_of_lt (fresh m member), unheard⟩
  · have more : (l.receive n).notices = l.notices ++ [n] := by
      rw [got]
      simp [Link.notices]
    have kept_server : (l.receive n).server = l.server := by rw [got]
    have each : ∀ m ∈ (l.receive n).notices, m ∈ l.notices ∨ m = n := by
      intro m member
      rw [more] at member
      simpa using member
    refine ⟨?_, ?_, ?_, ?_⟩
    · rw [more, List.map_append, List.nodup_append]
      refine ⟨distinct, List.nodup_singleton _, ?_⟩
      intro a in_flight b new
      obtain ⟨m, member, rfl⟩ := List.mem_map.mp in_flight
      have below := fresh m member
      obtain rfl := List.mem_singleton.mp new
      omega
    · intro m member
      rw [kept_server]
      rcases each m member with before | rfl
      · exact source m before
      · exact from_source.symm
    · intro m member
      rcases each m member with before | rfl
      · exact Nat.lt_succ_of_lt (fresh m before)
      · omega
    · intro m member d heard_d
      rcases each m member with before | rfl
      · exact unheard m before d heard_d
      · have below := old d heard_d
        omega

private theorem publish_kept {w : World} (kept : Kept w) {n : Notice} (is : n.id = w.published) :
    Kept { w with links := w.links.map (Link.receive n), published := w.published + 1 } := by
  have before : ∀ (i : Nat) m, (w.links.map (Link.receive n))[i]? = some m → m.alive = true →
      ∃ l, w.links[i]? = some l ∧ l.alive = true ∧ m.server = l.server ∧ m = l.receive n := by
    intro i m at_i alive
    rw [List.getElem?_map] at at_i
    obtain ⟨l, was, rfl⟩ := Option.map_eq_some_iff.mp at_i
    refine ⟨l, was, ?_, ?_, rfl⟩
    · rcases l.receive_cases n with same | ⟨_, got⟩
      · rwa [same] at alive
      · rwa [got] at alive
    · rcases l.receive_cases n with same | ⟨_, got⟩
      · rw [same]
      · rw [got]
  refine ⟨?_, ?_, ?_,
    fun d heard_d => Nat.lt_succ_of_lt (kept.old d heard_d), kept.once, kept.heard_current⟩
  · intro i j l m at_i at_j alive_l alive_m
    obtain ⟨l₀, at_i, alive_l, _⟩ := before i l at_i alive_l
    obtain ⟨m₀, at_j, alive_m, _⟩ := before j m at_j alive_m
    exact kept.single i j l₀ m₀ at_i at_j alive_l alive_m
  · intro i m at_i alive
    obtain ⟨l, at_i, alive, server, _⟩ := before i m at_i alive
    rw [server]
    exact kept.current i l at_i alive
  · intro i m at_i alive
    obtain ⟨l, was, lived, _, rfl⟩ := before i m at_i alive
    exact (kept.carries i l was lived).receive is kept.old

/-- What is heard is in flight no more, on the only connection that is alive. -/
private theorem heard_kept {w : World} (kept : Kept w) {i : Nat} {l : Link} (at_i : w.links[i]? = some l)
    (alive : l.alive = true) {n : Notice} {rest : List Arrival} (first : l.toClient = .notice n :: rest)
    (sub : Pushes.Subscriber) :
    Kept { w with
      sub := sub
      links := w.links.set i { l with toClient := rest }
      heard := w.heard ++ [⟨n, w.current⟩] } := by
  obtain ⟨distinct, source, fresh, unheard⟩ := kept.carries i l at_i alive
  have front : l.notices = n :: Link.notices { l with toClient := rest } := by
    unfold Link.notices
    rw [first]
    rfl
  rw [front] at distinct source fresh unheard
  obtain ⟨new, distinct⟩ := List.nodup_cons.mp distinct
  have only : ∀ (j : Nat) m, (w.links.set i { l with toClient := rest })[j]? = some m → m.alive = true →
      j = i ∧ m = { l with toClient := rest } := by
    intro j m at_j alive_m
    rw [List.getElem?_set] at at_j
    by_cases here : i = j
    · subst here
      rw [if_pos rfl] at at_j
      split at at_j
      · exact ⟨rfl, (Option.some.inj at_j).symm⟩
      · cases at_j
    · rw [if_neg here] at at_j
      exact absurd (kept.single i j l m at_i at_j alive alive_m) here
  refine ⟨?_, ?_, ?_, ?_, ?_, ?_⟩
  · intro j k m m' at_j at_k alive_m alive_m'
    rw [(only j m at_j alive_m).1, (only k m' at_k alive_m').1]
  · intro j m at_j alive_m
    rw [(only j m at_j alive_m).2]
    exact kept.current i l at_i alive
  · intro j m at_j alive_m
    rw [(only j m at_j alive_m).2]
    refine ⟨distinct, fun k member => source k (List.mem_cons_of_mem n member),
      fun k member => fresh k (List.mem_cons_of_mem n member), ?_⟩
    intro k member d heard_d
    rcases List.mem_append.mp heard_d with before | now
    · exact unheard k (List.mem_cons_of_mem n member) d before
    · obtain rfl := List.mem_singleton.mp now
      exact fun same => new (List.mem_map.mpr ⟨k, member, same.symm⟩)
  · intro d heard_d
    rcases List.mem_append.mp heard_d with before | now
    · exact kept.old d before
    · obtain rfl := List.mem_singleton.mp now
      exact fresh n List.mem_cons_self
  · rw [List.map_append, List.nodup_append]
    refine ⟨kept.once, List.nodup_singleton _, ?_⟩
    intro a before b now
    obtain ⟨d, heard_d, rfl⟩ := List.mem_map.mp before
    obtain rfl := List.mem_singleton.mp now
    exact unheard n List.mem_cons_self d heard_d
  · intro d heard_d
    rcases List.mem_append.mp heard_d with before | now
    · exact kept.heard_current d before
    · obtain rfl := List.mem_singleton.mp now
      rw [source n List.mem_cons_self]
      exact kept.current i l at_i alive

private theorem deliver_kept {w w' : World} (kept : Kept w) {i : Nat} {l : Link} (at_i : w.links[i]? = some l)
    (alive : l.alive = true) (delivers : Delivers i w l w') : Kept w' := by
  cases delivers with
  | subscribed first called =>
    refine kept.follows (follows_set at_i fun _ => ⟨alive, rfl, ?_⟩) kept.current rfl rfl
    unfold Link.notices
    rw [first]
    rfl
  | notice first called => exact heard_kept kept at_i alive first _

/-- A tick that leaves no connection behind keeps the connections in order, and
    everything else does. -/
theorem step_kept {w w' : World} {act : Act} (kept : Kept w) (renewed : Renewed w act) (taken : step w act = some w') :
    Kept w' := by
  cases step_cases taken with
  | tick ticked => exact tick_kept kept renewed ticked
  | calls called => exact kept.follows (.refl _) kept.current rfl rfl
  | change at_i changes => exact kept.follows (follows_set at_i changes.brings_nothing) kept.current rfl rfl
  | publish => exact publish_kept kept rfl
  | deliver at_i phase delivers => exact deliver_kept kept at_i (by simp [Link.alive, phase]) delivers

/-- The first connection, if the start begins one. -/
private theorem first_link {asyncFails : Bool} {url : Str} {i : Nat} {l : Link}
    (at_i : (subscribed asyncFails url [])[i]? = some l) : i = 0 ∧ server url = some l.server ∧ l.notices = [] := by
  unfold subscribed at at_i
  cases is : server url with
  | none =>
    rw [is] at at_i
    cases at_i
  | some address =>
    rw [is] at at_i
    have inside := (List.getElem?_eq_some_iff.mp at_i).1
    obtain rfl := List.mem_singleton.mp (List.mem_of_getElem? at_i)
    exact ⟨by simpa using inside, rfl, rfl⟩

theorem started_kept {w : World} (started : Started w) : Kept w := by
  obtain ⟨t, se, cl, _, _, is⟩ := started
  have links : w.links = subscribed t.asyncFails w.site.sentinel.sentinel_url_ [] := congrArg World.links is
  have current : w.current = server w.site.sentinel.sentinel_url_ := congrArg World.current is
  have heard : w.heard = [] := congrArg World.heard is
  refine ⟨?_, ?_, ?_, ?_, ?_, ?_⟩
  · intro i j l m at_i at_j _ _
    rw [links] at at_i at_j
    rw [(first_link at_i).1, (first_link at_j).1]
  · intro i l at_i _
    rw [links] at at_i
    rw [current, (first_link at_i).2.1]
  · intro i l at_i _
    rw [links] at at_i
    have empty := (first_link at_i).2.2
    refine ⟨?_, ?_, ?_, ?_⟩ <;> rw [empty]
    · exact List.nodup_nil
    · exact fun n member => absurd member List.not_mem_nil
    · exact fun n member => absurd member List.not_mem_nil
    · exact fun n member => absurd member List.not_mem_nil
  · rw [heard]
    exact fun d member => absurd member List.not_mem_nil
  · rw [heard]
    exact List.nodup_nil
  · rw [heard]
    exact fun d member => absurd member List.not_mem_nil

/-- The object is that of the connection. -/
structure Matches (conn : AsyncConnection) (l : Link) : Prop where
  attached : conn.attached = true ↔ l.phase ≠ .failed
  address : conn.attached = true → (conn.host_, conn.port_) = l.server

/-- `async_conn_` points to the connection that was begun last. -/
def Points (se : Sentinel) (links : List Link) : Prop :=
  ∃ conn l, se.sentinel_subscriber_.async_conn_ = some conn ∧ links.getLast? = some l ∧ Matches conn l

/-- `subscribe_sentinel_notification` leaves the subscriber with the last connection, if
    it had it before or had none. -/
private theorem subscribe_points {asyncFails : Bool} {url : Str} {se se' : Sentinel} {links : List Link} {u : Unit}
    (done : se.subscribe_sentinel_notification asyncFails url = (.ok u, se'))
    (before : se.sentinel_subscriber_.async_conn_ = none ∨ Points se links) :
    Points se' (subscribed asyncFails url links) := by
  simp only [Sentinel.subscribe_sentinel_notification, Subscriber.connect] at done
  unfold subscribed
  cases parses : parsed url with
  | error e => simp [parses] at done
  | ok found =>
    cases found with
    | none =>
      have no_server : server url = none := by simp [server, parses]
      rcases before with none_before | ⟨conn, l, is, last, attached, address⟩
      · simp [parses, Subscriber.psubscribe, none_before] at done
      · simp only [parses, Subscriber.psubscribe, is, Prod.mk.injEq] at done
        obtain ⟨_, rfl⟩ := done
        rw [List.getLast?_eq_getElem?] at last
        have inside := (List.getElem?_eq_some_iff.mp last).1
        simp only [no_server, last]
        refine ⟨_, { l with asked := l.asked + 1 }, rfl, ?_, attached, address⟩
        rw [List.getLast?_eq_getElem?, List.length_set, List.getElem?_set_self inside]
    | some uri =>
      have has_server : server url = some (uri.host, uri.port) := by simp [server, parses]
      simp only [has_server]
      cases asyncFails with
      | true =>
        simp only [parses, ↓reduceIte, Subscriber.psubscribe, Prod.mk.injEq] at done
        obtain ⟨_, rfl⟩ := done
        exact ⟨_, _, rfl, List.getLast?_concat, by simp, by simp⟩
      | false =>
        simp only [parses, Bool.false_eq_true, ↓reduceIte, Subscriber.psubscribe, Prod.mk.injEq] at done
        obtain ⟨_, rfl⟩ := done
        exact ⟨_, _, rfl, List.getLast?_concat, by simp, fun _ => rfl⟩

/-- The subscriber's part of a tick after discovery. -/
private theorem discovered_points {w : World} {t : Tick} {site : Site} {found : Bool} {addr : Str × Int} {url : Str}
    {urls : List Str}
    (outcome : w.site.sentinel.discover_master t.probes = (.ok found, addr, url, { w.site.sentinel with urls_ := urls }))
    (points : Points w.site.sentinel w.links) (taken : Monitor.step w.site (.tick t) = some site) :
    Points site.sentinel
      (if w.endsAt t ≠ w.site.sentinel.sentinel_url_ then subscribed t.asyncFails (w.endsAt t) w.links else w.links) := by
  have ends : w.endsAt t = url := by
    unfold World.endsAt
    rw [outcome]
  rw [ends]
  simp only [Monitor.step, Sentinel.check_master, outcome] at taken
  cases reconnected : Sentinel.reconnect_client t addr { w.site.sentinel with urls_ := urls } w.site.client with
  | mk result cl =>
    cases result with
    | error fault => simp [reconnected] at taken
    | ok n =>
      by_cases differs : url ≠ w.site.sentinel.sentinel_url_
      · have renews : Sentinel.resubscribe t url { w.site.sentinel with urls_ := urls } =
            Sentinel.subscribe_sentinel_notification t.asyncFails url { w.site.sentinel with urls_ := urls } := if_pos differs
        rw [if_pos differs]
        cases done : Sentinel.subscribe_sentinel_notification t.asyncFails url { w.site.sentinel with urls_ := urls } with
        | mk result se =>
          cases result with
          | error fault => simp [reconnected, renews, done] at taken
          | ok u =>
            simp only [reconnected, renews, done, Option.some.injEq] at taken
            subst taken
            exact subscribe_points done (.inr points)
      · have kept : Sentinel.resubscribe t url { w.site.sentinel with urls_ := urls } =
            (.ok (), { w.site.sentinel with urls_ := urls }) := if_neg differs
        rw [if_neg differs]
        simp only [reconnected, kept, Option.some.injEq] at taken
        subst taken
        exact points

/-- An event on a connection that was begun leaves it one. -/
private theorem points_set {se : Sentinel} {links : List Link} {i : Nat} {l l' : Link} (points : Points se links)
    (at_i : links[i]? = some l) (begun : l.phase ≠ .failed) (begun' : l'.phase ≠ .failed) (same : l'.server = l.server) :
    Points se (links.set i l') := by
  obtain ⟨conn, last, is, at_last, attached, address⟩ := points
  rw [List.getLast?_eq_getElem?] at at_last
  by_cases here : i = links.length - 1
  · subst here
    obtain rfl := Option.some.inj (at_i.symm.trans at_last)
    refine ⟨conn, l', is, ?_, iff_of_true (attached.mpr begun) begun', fun a => (address a).trans same.symm⟩
    rw [List.getLast?_eq_getElem?, List.length_set, List.getElem?_set_self (List.getElem?_eq_some_iff.mp at_i).1]
  · refine ⟨conn, last, is, ?_, attached, address⟩
    rw [List.getLast?_eq_getElem?, List.length_set, List.getElem?_set_ne here]
    exact at_last

theorem step_points {w w' : World} {act : Act} (points : Points w.site.sentinel w.links) (taken : step w act = some w') :
    Points w'.site.sentinel w'.links := by
  cases step_cases taken with
  | @tick t _ moved =>
    obtain ⟨site, ticked, rfl⟩ := Option.map_eq_some_iff.mp moved
    rcases w.site.sentinel.discover_master_cases t.probes with
      ⟨_, addr, url, urls, _, outcome⟩ | ⟨_, _, outcome⟩ | ⟨_, fault, addr, url, outcome⟩
    · exact discovered_points outcome points ticked
    · exact discovered_points outcome points ticked
    · simp [Monitor.step, Sentinel.check_master, outcome] at ticked
  | calls called =>
    obtain ⟨cl, _, rfl⟩ := Option.map_eq_some_iff.mp called
    exact points
  | change at_i changes =>
    obtain ⟨begun, begun', same⟩ := changes.begun
    exact points_set points at_i begun begun' same
  | @publish source channel message =>
    obtain ⟨conn, l, is, last, attached, address⟩ := points
    refine ⟨conn, l.receive ⟨w.published, source, channel, message⟩, is, by rw [List.getLast?_map, last]; rfl, ?_⟩
    rcases l.receive_cases ⟨w.published, source, channel, message⟩ with same | ⟨_, got⟩
    · rw [same]
      exact ⟨attached, address⟩
    · rw [got]
      exact ⟨attached, address⟩
  | deliver at_i phase delivers =>
    cases delivers with
    | subscribed first called => exact points_set points at_i (by simp [phase]) (by simp [phase]) rfl
    | notice first called => exact points_set points at_i (by simp [phase]) (by simp [phase]) rfl

theorem started_points {w : World} (started : Started w) : Points w.site.sentinel w.links := by
  obtain ⟨t, se, cl, fresh, done, is⟩ := started
  have links : w.links = subscribed t.asyncFails w.site.sentinel.sentinel_url_ [] := congrArg World.links is
  rw [links]
  clear is links
  simp only [Sentinel.start_client_connect] at done
  rcases se.discover_master_cases t.probes with
    ⟨_, addr, url, urls, _, outcome⟩ | ⟨_, _, outcome⟩ | ⟨_, fault, addr, url, outcome⟩
  · cases connected : cl.connect t.connecting addr.1 addr.2 se.db_ with
    | mk result cl' =>
      cases result with
      | error fault => simp [outcome, connected] at done
      | ok n =>
        by_cases zero : n = 0
        · cases subscribes : Sentinel.subscribe_sentinel_notification t.asyncFails url
              { se with urls_ := urls, master_ip_ := addr.1, master_port_ := addr.2, sentinel_url_ := url } with
          | mk result se' =>
            cases result with
            | error fault => simp [outcome, connected, zero, subscribes] at done
            | ok u =>
              simp only [outcome, connected, zero, ↓reduceIte, subscribes, Prod.mk.injEq, true_and] at done
              obtain ⟨sub, same, _, _⟩ := Sentinel.subscribe_gives subscribes
              have recorded : w.site.sentinel.sentinel_url_ = url := by
                rw [← done.1, same]
                rfl
              have no_connection : se.sentinel_subscriber_.async_conn_ = none := by rw [fresh]
              have points : Points se' (subscribed t.asyncFails url []) :=
                subscribe_points subscribes (.inl no_connection)
              rw [recorded, ← done.1]
              exact points
        · simp [outcome, connected, zero] at done
  · simp [outcome] at done
  · simp [outcome] at done

/-- In every run the subscriber's object is that of the connection begun last. -/
theorem run_points {w w' : World} {acts : List Act} (started : Started w) (runs : run step w acts = some w') :
    Points w'.site.sentinel w'.links :=
  run_invariant (fun w => Points w.site.sentinel w.links) (fun _ _ _ points taken => step_points points taken) runs
    (started_points started)

/-! ### The listener behind what is heard -/

/-- The channel and the message with which a listener was called. -/
def spoken : Heard → Str × Str
  | .message _ channel message => (channel, message)
  | .pmessage _ _ channel message => (channel, message)

/-- The listener was called with just what was heard. -/
def Spoken (w : World) : Prop := w.sub.heard.map spoken = w.heard.map fun d => (d.notice.channel, d.notice.message)

theorem step_spoken {w w' : World} {act : Act} (told : Spoken w) (taken : step w act = some w') : Spoken w' := by
  cases step_cases taken with
  | tick ticked =>
    obtain ⟨site, _, rfl⟩ := Option.map_eq_some_iff.mp ticked
    have same : ∀ listener, (w.sub.set_listener listener).heard = w.sub.heard := fun _ => rfl
    show (if _ then w.sub.set_listener _ else w.sub).heard.map spoken = _
    split
    · rw [same]
      exact told
    · exact told
  | calls called => exact told
  | change at_i changes => exact told
  | publish => exact told
  | deliver at_i phase delivers =>
    cases delivers with
    | subscribed first called =>
      rw [Arrival.push, Pushes.sub_callback_changed] at called
      cases called
      exact told
    | @notice n rest sub first called =>
      rw [Arrival.push, Pushes.sub_callback_pmessage, Pushes.Subscriber.on_pmessage] at called
      split at called
      · cases called
      · cases called
        unfold Spoken
        rw [List.map_append, List.map_append, told]
        rfl

/-- In every run the listener is called once for each delivery, with its notification. -/
theorem run_spoken {w w' : World} {acts : List Act} (started : Started w) (runs : run step w acts = some w') : Spoken w' := by
  refine run_invariant Spoken (fun _ _ _ told taken => step_spoken told taken) runs ?_
  obtain ⟨_, _, _, _, _, is⟩ := started
  rw [is]
  rfl

/-! Two sentinels name the same master; the first one is asked first. -/

/-- The site after the start, and its first connection. -/
def startedTwo : Option World :=
  match Sentinel.start_client_connect (naming "a")
      { urls_ := [lit "redis://s:26379", lit "redis://t:26379"], master_name_ := lit "m", db_ := 0 } {} with
  | (.ok true, se, cl) =>
    some { site := ⟨se, cl⟩
           sub := { listener_ := some se.sentinel_subscriber_.listener_ }
           links := subscribed false se.sentinel_url_ []
           current := server se.sentinel_url_ }
  | _ => none

theorem startedTwo_started {w : World} (starts : startedTwo = some w) : Started w := by
  unfold startedTwo at starts
  split at starts
  · rename_i se cl done
    obtain rfl := Option.some.inj starts
    exact ⟨_, _, _, rfl, done, rfl⟩
  · cases starts

/-- The sentinel that is asked first refuses the connection, and the next one answers. -/
def elsewhere : Tick := ⟨fun i => if i = 0 then refusedTick.probes 0 else (naming "a").probes i, healthy, false⟩

def s_ : Server := (lit "s", 26379)
def t_ : Server := (lit "t", 26379)

/-- The first connection is lost before the other sentinel answers. -/
def lostFirst : List Act :=
  [.established 0, .serve 0, .publish s_ (lit "+sdown") (lit "x"), .deliver 0, .deliver 0, .tick (naming "a"), .lost 0,
   .tick elsewhere, .established 1, .serve 1, .publish t_ (lit "+odown") (lit "y"), .deliver 1, .deliver 1]

/-- The other sentinel answers in two ticks, and both publish. -/
def twoTicks : List Act :=
  [.tick elsewhere, .tick (naming "a"), .established 0, .serve 0, .established 1, .serve 1, .established 2, .serve 2,
   .publish t_ (lit "+odown") (lit "y"), .publish s_ (lit "+sdown") (lit "x"), .deliver 0, .deliver 0, .deliver 1,
   .deliver 1, .deliver 2, .deliver 2]

end CppRedis.Notifications

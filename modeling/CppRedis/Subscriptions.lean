import CppRedis.Pushes
import CppRedis.Runs

/-!
A subscriber and the server on one connection, whose two directions deliver in
order. The server answers each name of a command with a push. `Told` relates what
the subscriber knows, what is in flight and what the server keeps
(`sets_follow_server`).
-/
namespace CppRedis.Subscriptions
open CppRedis.Strings CppRedis.Reply CppRedis.Connection CppRedis.Clients CppRedis.Pushes CppRedis.Runs

/-! ### Commands -/

/-- The command that the subscriber's four methods send. -/
def command (kind : Kind) (add : Bool) (names : List Str) : RedisCmd :=
  match kind, add with
  | .channel, true => lit "SUBSCRIBE" :: names
  | .channel, false => lit "UNSUBSCRIBE" :: names
  | .pattern, true => lit "PSUBSCRIBE" :: names
  | .pattern, false => lit "PUNSUBSCRIBE" :: names

/-- How the server reads a command: what it changes, and its names. -/
def requested : RedisCmd → Option (Kind × Bool × List Str)
  | [] => none
  | name :: names =>
    if strcasecmp_eq name (lit "SUBSCRIBE") then some (.channel, true, names)
    else if strcasecmp_eq name (lit "UNSUBSCRIBE") then some (.channel, false, names)
    else if strcasecmp_eq name (lit "PSUBSCRIBE") then some (.pattern, true, names)
    else if strcasecmp_eq name (lit "PUNSUBSCRIBE") then some (.pattern, false, names)
    else none

theorem requested_command (kind : Kind) (add : Bool) (names : List Str) :
    requested (command kind add names) = some (kind, add, names) := by
  cases kind <;> cases add <;> rfl

/-- What the server sends for the names of a command, from the topics on that it
    keeps. -/
def pushes (kind : Kind) (add : Bool) : List Str → Topics → List Push
  | [], _ => []
  | name :: names, t =>
    .changed kind add name (t.change kind add name).count :: pushes kind add names (t.change kind add name)

/-- What the server sends tells what it does. -/
theorem told_pushes (kind : Kind) (add : Bool) (names : List Str) (server t : Topics) :
    toldAll (pushes kind add names server) t = t.changes kind add names := by
  induction names generalizing server t with
  | nil => rfl
  | cons name rest ih => exact ih (server.change kind add name) (t.change kind add name)

theorem toldAll_append (before after : List Push) (t : Topics) :
    toldAll (before ++ after) t = toldAll after (toldAll before t) := List.foldl_append

/-! ### One connection -/

structure Line where
  sub : Subscriber
  toServer : List RedisCmd := []
  server : Topics := {}
  toClient : List Push := []
  deriving DecidableEq

/-- A call of one of the four methods with at least one name, which hiredis sends
    or does not; the server takes a command, or sends a message; the subscriber gets
    a push, or another listener. -/
inductive Act
  | call (kind : Kind) (add : Bool) (name : Str) (names : List Str) (accepted : Bool)
  | serve
  | publish (channel message : Str)
  | ppublish (pattern channel message : Str)
  | deliver
  | set_listener (listener : Nat)
  deriving DecidableEq

namespace Line

def serve (l : Line) : Option Line :=
  match l.toServer with
  | [] => none
  | cmd :: rest =>
    match requested cmd with
    | none => none
    | some (kind, add, names) =>
      some { l with
        toServer := rest
        server := l.server.changes kind add names
        toClient := l.toClient ++ pushes kind add names l.server }

/-- There is no step from a push that the subscriber cannot take. -/
def deliver (l : Line) : Option Line :=
  match l.toClient with
  | [] => none
  | push :: rest =>
    match sub_callback (some push.reply) l.sub with
    | .error _ => none
    | .ok sub => some { l with sub := sub, toClient := rest }

end Line

def step (l : Line) : Act → Option Line
  | .call kind add name names accepted =>
    some (if accepted then { l with toServer := l.toServer ++ [command kind add (name :: names)] } else l)
  | .serve => l.serve
  | .publish channel message => some { l with toClient := l.toClient ++ [.message channel message] }
  | .ppublish pattern channel message => some { l with toClient := l.toClient ++ [.pmessage pattern channel message] }
  | .deliver => l.deliver
  | .set_listener listener => some { l with sub := l.sub.set_listener listener }

/-- What is in flight tells the subscriber what the server keeps. -/
def Told (l : Line) : Prop := toldAll l.toClient l.sub.topics = l.server

/-- The next push changes only the names of its own kind. -/
def Apart (l : Line) : Prop :=
  ∀ push rest, l.toClient = push :: rest → ∀ l', step l .deliver = some l' →
    ∀ kind, kind ≠ push.kind → l'.sub.topics.of kind = l.sub.topics.of kind

/-- The pushes in flight, applied to the subscriber's sets, give the server's; with
    none in flight the sets are the server's; no push about a channel changes the
    patterns, nor one about a pattern the channels. -/
def Follows (l : Line) : Prop :=
  Told l ∧ (l.toClient = [] → l.sub.channels_ = l.server.channels ∧ l.sub.patterns_ = l.server.patterns) ∧ Apart l

theorem deliver_cases {l l' : Line} (taken : step l .deliver = some l') :
    ∃ push rest sub, l.toClient = push :: rest ∧ sub.topics = told push l.sub.topics ∧
      l' = { l with sub := sub, toClient := rest } := by
  simp only [step, Line.deliver] at taken
  cases flight : l.toClient with
  | nil => simp [flight] at taken
  | cons push rest =>
    cases done : sub_callback (some push.reply) l.sub with
    | error fault => simp [flight, done] at taken
    | ok sub =>
      simp only [flight, done, Option.some.injEq] at taken
      exact ⟨push, rest, sub, rfl, (sub_callback_push done).1, taken.symm⟩

theorem serve_cases {l l' : Line} (taken : step l .serve = some l') :
    ∃ kind add names cmd rest, l.toServer = cmd :: rest ∧ l' = { l with
      toServer := rest
      server := l.server.changes kind add names
      toClient := l.toClient ++ pushes kind add names l.server } := by
  simp only [step, Line.serve] at taken
  cases flight : l.toServer with
  | nil => simp [flight] at taken
  | cons cmd rest =>
    cases read : requested cmd with
    | none => simp [flight, read] at taken
    | some request =>
      obtain ⟨kind, add, names⟩ := request
      simp only [flight, read, Option.some.injEq] at taken
      exact ⟨kind, add, names, cmd, rest, rfl, taken.symm⟩

theorem step_told {l l' : Line} {act : Act} (holds : Told l) (taken : step l act = some l') : Told l' := by
  cases act with
  | call kind add name names accepted =>
    obtain rfl := Option.some.inj taken
    cases accepted <;> exact holds
  | serve =>
    obtain ⟨kind, add, names, _, _, _, rfl⟩ := serve_cases taken
    simp only [Told, toldAll_append, told_pushes]
    rw [show toldAll l.toClient l.sub.topics = l.server from holds]
  | publish channel message | ppublish pattern channel message =>
    obtain rfl := Option.some.inj taken
    simp only [Told, toldAll_append]
    exact holds
  | deliver =>
    obtain ⟨push, rest, sub, flight, knows, rfl⟩ := deliver_cases taken
    simp only [Told, knows]
    rw [Told, flight] at holds
    exact holds
  | set_listener listener =>
    obtain rfl := Option.some.inj taken
    exact holds

theorem told_follows {l : Line} (holds : Told l) : Follows l := by
  refine ⟨holds, ?_, ?_⟩
  · intro none
    rw [Told, none] at holds
    exact ⟨congrArg Topics.channels holds, congrArg Topics.patterns holds⟩
  · intro push rest flight l' taken kind other
    obtain ⟨push', rest', sub, flight', knows, rfl⟩ := deliver_cases taken
    obtain ⟨rfl, rfl⟩ := List.cons.inj (flight.symm.trans flight')
    exact knows ▸ told_other push l.sub.topics other

/-- In every state of every run on a new connection the subscriber's sets follow the
    server's, whatever listener is set at first. -/
theorem sets_follow_server (listener_ : Option Nat) (acts : List Act) :
    Along step Follows { sub := { listener_ := listener_ } } acts := by
  have starts : Told { sub := { listener_ := listener_ } } := rfl
  exact along_invariant Told (fun _ _ _ holds taken => step_told holds taken) (fun _ holds => told_follows holds)
    starts acts

/-! A channel whose name is a keyword of the protocol, and a pattern, in flight together. -/
example : (run step { sub := {} } [.call .channel true (lit "subscribe") [] true, .call .pattern true (lit "*") [] true,
    .serve, .serve, .deliver]).map (fun l => (l.sub.channels_, l.sub.patterns_, l.toClient.length)) =
    some ({lit "subscribe"}, ∅, 1) := by
  decide

end CppRedis.Subscriptions

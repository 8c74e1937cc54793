import Mathlib.Data.Finset.Sort
import Mathlib.Data.List.Lex
import CppRedis.AsyncConnections
import CppRedis.Subscriptions

/-!
`Subscriber::reconnect`: the connections of one subscriber, each with its hiredis
context, its server and what is in flight. The names of `channels_` and `patterns_`
are asked for once more on the new connection, with two commands that are sent even
where they have no names; the server answers such a command with an error, and
hiredis closes a connection on an error that no ordinary callback waits for.
`reconnect_restores_iff` is about one reconnect whose replies are processed, as they
can be (`reconnect_settles`); `restored_while_acknowledged` is about whole runs.
-/
namespace CppRedis.Resubscription
open CppRedis.Strings CppRedis.Reply CppRedis.Connection CppRedis.Clients CppRedis.Pushes CppRedis.Subscriptions
open CppRedis.Runs CppRedis.AsyncConnections

/-! ### hiredis -/

/-- The part of a context that concerns subscriptions: the flag, the callbacks that
    wait for ordinary replies and for invalid commands, and the names that have a
    callback. -/
structure SubContext where
  subscribed : Bool := false
  replies : Nat := 0
  invalid : Nat := 0
  callbacks : Topics := {}
  deriving DecidableEq

/-- `redisAsyncCommandArgv`; none where it refuses the command. -/
def async_command (cmd : RedisCmd) (ctx : SubContext) : Option SubContext :=
  match requested cmd with
  | some (kind, true, name :: names) =>
    some { ctx with subscribed := true, callbacks := ctx.callbacks.changes kind true (name :: names) }
  | some (_, false, _) => if ctx.subscribed then some ctx else none
  | _ => some (if ctx.subscribed then { ctx with invalid := ctx.invalid + 1 } else { ctx with replies := ctx.replies + 1 })

/-- What the server sends: a push, or an error for a command without names. -/
inductive Answer
  | push (push : Push)
  | error (text : Str)
  deriving DecidableEq

def Answer.reply : Answer → RedisReply
  | .push p => p.reply
  | .error text => .error text

/-- The name that a push is about. -/
def nameOf : Push → Str
  | .changed _ _ name _ => name
  | .message channel _ => channel
  | .pmessage pattern _ _ => pattern

/-- What becomes of the context when a push finds its callback. -/
def found (push : Push) (ctx : SubContext) : SubContext :=
  match push with
  | .changed kind false name count =>
    { ctx with callbacks := ctx.callbacks.change kind false name, subscribed := ctx.subscribed && count ≠ 0 }
  | _ => ctx

/-! ### Connections -/

/-- A connection that `failed` never left `redisAsyncConnect`; hiredis has freed the
    context of one that was dropped, or that it closed itself. -/
inductive Phase
  | failed
  | pending
  | established
  | dropped
  | closed
  deriving DecidableEq

structure Link where
  phase : Phase
  ctx : SubContext := {}
  toServer : List RedisCmd := []
  server : Topics := {}
  toClient : List Answer := []
  deriving DecidableEq

namespace Link

/-- `send_command`, whose result the subscriber does not look at. -/
def send_command (cmd : RedisCmd) (l : Link) : Link :=
  match async_command cmd l.ctx with
  | none => l
  | some ctx => { l with ctx := ctx, toServer := l.toServer ++ [cmd] }

/-- hiredis has not freed the context. -/
def Usable (l : Link) : Prop := l.phase ≠ .dropped ∧ l.phase ≠ .closed

instance (l : Link) : Decidable l.Usable := inferInstanceAs (Decidable (_ ∧ _))

/-- What the server answers to a command. -/
def answers (kind : Kind) (add : Bool) (names : List Str) (server : Topics) : List Answer :=
  if add ∧ names = [] then [.error (lit "ERR wrong number of arguments")]
  else (pushes kind add names server).map .push

def serve (l : Link) : Option Link :=
  match l.toServer with
  | [] => none
  | cmd :: rest =>
    match requested cmd with
    | none => none
    | some (kind, add, names) =>
      some { l with
        toServer := rest
        server := l.server.changes kind add names
        toClient := l.toClient ++ answers kind add names l.server }

/-- The server sends messages of what is subscribed to. -/
def publish (push : Push) (l : Link) : Option Link :=
  match push with
  | .changed .. => none
  | _ => if nameOf push ∈ l.server.of push.kind then some { l with toClient := l.toClient ++ [.push push] } else none

/-- The context is freed, with what is in flight. -/
def close (phase : Phase) (l : Link) : Link := { l with phase := phase, toServer := [], toClient := [] }

/-- `redisProcessCallbacks` for one reply, and the subscriber afterwards. A push for
    which there is no callback goes to the one that ran last, if one did (`stale`); a
    push on a context that is not subscribed fails an assertion. -/
def process (stale : Bool) (sub : Subscriber) (l : Link) : Option (Link × Subscriber) :=
  match l.toClient with
  | [] => none
  | answer :: rest =>
    if 0 < l.ctx.replies then
      match sub_callback (some answer.reply) sub with
      | .error _ => none
      | .ok sub => some ({ l with ctx := { l.ctx with replies := l.ctx.replies - 1 }, toClient := rest }, sub)
    else
      match answer with
      | .error _ => some (l.close .closed, sub)
      | .push push =>
        if l.ctx.subscribed then
          let known := nameOf push ∈ l.ctx.callbacks.of push.kind
          if known ∨ stale then
            match sub_callback (some push.reply) sub with
            | .error _ => none
            | .ok sub => some ({ l with ctx := if known then found push l.ctx else l.ctx, toClient := rest }, sub)
          else some ({ l with toClient := rest }, sub)
        else none

end Link

/-! ### The subscriber and its connections -/

/-- The order of `std::string`, by bytes. -/
def Ordered (a b : Str) : Prop := a.map UInt8.toNat ≤ b.map UInt8.toNat

instance : DecidableRel Ordered := fun a b => inferInstanceAs (Decidable (a.map UInt8.toNat ≤ b.map UInt8.toNat))
instance : IsTrans Str Ordered := ⟨fun _ _ _ first second => le_trans first second⟩
instance : Std.Total Ordered := ⟨fun a b => le_total (a.map UInt8.toNat) (b.map UInt8.toNat)⟩
instance : Std.Antisymm Ordered :=
  ⟨fun _ _ first second => List.map_injective_iff.mpr (fun _ _ => UInt8.toNat_inj.mp) (le_antisymm first second)⟩

/-- The connections in the order in which they were opened: `async_context_` points to
    the last one, and each has the subscriber as its data. `wanted` are the names whose
    latest call was to subscribe. -/
structure Session where
  sub : Subscriber := {}
  status_ : connection_status := .DISCONNECTED
  links : List Link := [⟨.pending, {}, [], {}, []⟩]
  wanted : Topics := {}
  deriving DecidableEq

inductive Act
  | call (kind : Kind) (add : Bool) (name : Str) (names : List Str)
  | reconnect (err : Bool)
  | established (i : Nat)
  | drop (i : Nat)
  | serve (i : Nat)
  | publish (i : Nat) (push : Push)
  | deliver (i : Nat) (stale : Bool)
  deriving DecidableEq

namespace Session

def current (s : Session) : Option Link := s.links.getLast?

/-- The link is replaced, and `status_` set. -/
def put (i : Nat) (l : Link) (s : Session) : Session := { s with links := s.links.set i l }

/-- One of the four calls; it needs a context that is not freed. -/
def call (kind : Kind) (add : Bool) (names : List Str) (s : Session) : Option Session :=
  match s.current with
  | none => none
  | some l =>
    if l.Usable then
      some { s with
        links := s.links.dropLast ++ [l.send_command (command kind add names)]
        wanted := s.wanted.changes kind add names }
    else none

/-- The new connection with the two commands of `reconnect`. -/
def reopened (err : Bool) (channels patterns : List Str) : Link :=
  (Link.send_command (command .pattern true patterns) (Link.send_command (command .channel true channels)
    ⟨if err then .failed else .pending, {}, [], {}, []⟩))

/-- `Subscriber::reconnect`, and what it returns. -/
def reconnect (err : Bool) (s : Session) : Int × Session :=
  if s.status_ = .DISCONNECTED then
    (0, { s with links := s.links ++ [reopened err (s.sub.channels_.sort Ordered) (s.sub.patterns_.sort Ordered)] })
  else (-1, s)

/-- An event on a link in some phase. -/
def event (i : Nat) (phase : Phase) (f : Link → Option Session) (s : Session) : Option Session :=
  match s.links[i]? with
  | none => none
  | some l => if l.phase = phase then f l else none

/-- The connection is lost, or the attempt refused. -/
def drop (i : Nat) (s : Session) : Option Session :=
  match s.links[i]? with
  | none => none
  | some l =>
    match l.phase with
    | .established => some { s.put i (l.close .dropped) with status_ := .DISCONNECTED }
    | .pending => some (s.put i (l.close .dropped))
    | _ => none

end Session

def step (s : Session) : Act → Option Session
  | .call kind add name names => s.call kind add (name :: names)
  | .reconnect err => some (s.reconnect err).2
  | .established i =>
    s.event i .pending fun l => some { s.put i { l with phase := .established } with status_ := .CONNECTED }
  | .drop i => s.drop i
  | .serve i => s.event i .established fun l => l.serve.map fun l => s.put i l
  | .publish i push => s.event i .established fun l => (l.publish push).map fun l => s.put i l
  | .deliver i stale =>
    s.event i .established fun l => (l.process stale s.sub).map fun (l, sub) =>
      { s.put i l with sub := sub, status_ := if l.phase = .closed then .DISCONNECTED else s.status_ }

/-! ### What is asked for -/

private theorem change_of (kind other : Kind) (name : Str) (t : Topics) :
    (t.change kind true name).of other = if other = kind then insert name (t.of other) else t.of other := by
  cases kind <;> cases other <;> rfl

private theorem changes_of (kind other : Kind) (names : List Str) (t : Topics) :
    (t.changes kind true names).of other = if other = kind then t.of other ∪ names.toFinset else t.of other := by
  induction names generalizing t with
  | nil => simp [Topics.changes]
  | cons name rest ih =>
    have step : t.changes kind true (name :: rest) = (t.change kind true name).changes kind true rest := rfl
    rw [step, ih, change_of]
    split
    · simp [Finset.union_comm, Finset.insert_union]
    · rfl

/-- A name that is not there is taken away in vain. -/
private theorem changes_absent (kind : Kind) {names : List Str} {t : Topics} (absent : ∀ name ∈ names, name ∉ t.of kind) :
    t.changes kind false names = t := by
  induction names with
  | nil => rfl
  | cons name rest ih =>
    have same : t.change kind false name = t := by
      have out := absent name List.mem_cons_self
      cases kind <;> simp only [Topics.change, Topics.of] at out ⊢ <;> simp [Finset.erase_eq_of_notMem out]
    have step : t.changes kind false (name :: rest) = (t.change kind false name).changes kind false rest := rfl
    rw [step, same]
    exact ih fun other member => absent other (List.mem_cons_of_mem name member)

/-- The server's topics once it has taken the commands. -/
def after (cmds : List RedisCmd) (server : Topics) : Topics :=
  cmds.foldl (fun t cmd => match requested cmd with
    | none => t
    | some (kind, add, names) => t.changes kind add names) server

private theorem after_append (cmds : List RedisCmd) (kind : Kind) (add : Bool) (names : List Str) (server : Topics) :
    after (cmds ++ [command kind add names]) server = (after cmds server).changes kind add names := by
  simp [after, requested_command]

/-- A command to subscribe to nothing, which the server refuses. -/
def Empty (cmd : RedisCmd) : Prop := ∃ kind, requested cmd = some (kind, true, [])

/-- A command that the server carries out. -/
def Proper (cmd : RedisCmd) : Prop := ∃ kind add name names, requested cmd = some (kind, add, name :: names)

/-- The ordinary callbacks are those of the empty commands, whose errors come before
    all pushes. -/
def Aligned (l : Link) : Prop :=
  ∃ (errors : List Str) (told : List Push) (empties propers : List RedisCmd),
    l.toClient = errors.map .error ++ told.map .push ∧ l.toServer = empties ++ propers ∧
    (∀ cmd ∈ empties, Empty cmd) ∧ (∀ cmd ∈ propers, Proper cmd) ∧
    l.ctx.replies = errors.length + empties.length ∧ (empties ≠ [] → told = [] ∧ l.server = {})

/-- The connection is being made, or is there. -/
def Link.Live (l : Link) : Prop := l.phase = .pending ∨ l.phase = .established

/-- hiredis has not closed the connection; while it lives, the server's topics will
    be these. -/
structure Healthy (goal : Topics) (l : Link) : Prop where
  kept : l.phase ≠ .closed
  live : l.Live → after l.toServer l.server = goal ∧ Aligned l

theorem serve_cases {l l' : Link} (served : l.serve = some l') :
    ∃ cmd rest kind add names, l.toServer = cmd :: rest ∧ requested cmd = some (kind, add, names) ∧ l' = { l with
      toServer := rest
      server := l.server.changes kind add names
      toClient := l.toClient ++ Link.answers kind add names l.server } := by
  simp only [Link.serve] at served
  cases flight : l.toServer with
  | nil => simp [flight] at served
  | cons cmd rest =>
    cases read : requested cmd with
    | none => simp [flight, read] at served
    | some request =>
      obtain ⟨kind, add, names⟩ := request
      simp only [flight, read, Option.some.injEq] at served
      exact ⟨cmd, rest, kind, add, names, rfl, read, served.symm⟩

theorem publish_cases {l l' : Link} {push : Push} (published : l.publish push = some l') :
    nameOf push ∈ l.server.of push.kind ∧ l' = { l with toClient := l.toClient ++ [.push push] } := by
  cases push with
  | changed kind add name count => simp [Link.publish] at published
  | message channel text | pmessage pattern channel text =>
    simp only [Link.publish] at published
    split at published
    · rename_i topic
      exact ⟨topic, (Option.some.inj published).symm⟩
    · cases published

private theorem serve_aligned {l l' : Link} (aligned : Aligned l) (served : l.serve = some l') :
    after l'.toServer l'.server = after l.toServer l.server ∧ l'.phase = l.phase ∧ Aligned l' := by
  obtain ⟨errors, told, empties, propers, toClient, toServer, are_empty, are_proper, replies, apart⟩ := aligned
  obtain ⟨cmd, rest, kind, add, names, flight, read, rfl⟩ := serve_cases served
  refine ⟨by simp [after, flight, read], rfl, ?_⟩
  rw [toServer] at flight
  cases empties with
  | nil =>
    obtain rfl : propers = cmd :: rest := flight
    obtain ⟨kind', add', name, others, is⟩ := are_proper cmd List.mem_cons_self
    obtain ⟨rfl, rfl, rfl⟩ : kind = kind' ∧ add = add' ∧ names = name :: others := by
      rw [read, Option.some.injEq, Prod.mk.injEq, Prod.mk.injEq] at is
      exact is
    refine ⟨errors, told ++ pushes kind add (name :: others) l.server, [], rest, ?_, rfl, by simp,
      fun c member => are_proper c (List.mem_cons_of_mem cmd member), replies, by simp⟩
    simp [Link.answers, toClient]
  | cons first others =>
    obtain ⟨rfl, rfl⟩ : first = cmd ∧ others ++ propers = rest := List.cons.inj flight
    obtain ⟨kind', is⟩ := are_empty first List.mem_cons_self
    obtain ⟨rfl, rfl, rfl⟩ : kind = kind' ∧ add = true ∧ names = [] := by
      rw [read, Option.some.injEq, Prod.mk.injEq, Prod.mk.injEq] at is
      exact is
    obtain ⟨none, server⟩ := apart (List.cons_ne_nil _ _)
    subst none
    refine ⟨errors ++ [lit "ERR wrong number of arguments"], [], others, propers, ?_, rfl,
      fun c member => are_empty c (List.mem_cons_of_mem first member), are_proper, ?_, fun _ => ⟨rfl, server⟩⟩
    · simp [Link.answers, toClient]
    · simp only [replies, List.length_append, List.length_cons, List.length_nil]
      omega

private theorem publish_aligned {l l' : Link} {push : Push} (aligned : Aligned l) (published : l.publish push = some l') :
    l'.toServer = l.toServer ∧ l'.server = l.server ∧ l'.phase = l.phase ∧ Aligned l' := by
  obtain ⟨errors, told, empties, propers, toClient, toServer, are_empty, are_proper, replies, apart⟩ := aligned
  obtain ⟨topic, rfl⟩ := publish_cases published
  refine ⟨rfl, rfl, rfl, errors, told ++ [push], empties, propers, by simp [toClient], toServer, are_empty, are_proper,
    replies, ?_⟩
  intro some
  rw [(apart some).2] at topic
  cases kind : push.kind <;> simp [Topics.of, kind] at topic

/-- What hiredis does with a reply: an ordinary callback gets it, an error closes the
    connection, or a push goes to the callback of its name, if that. -/
theorem process_cases {l l' : Link} {stale : Bool} {sub sub' : Subscriber}
    (processed : l.process stale sub = some (l', sub')) :
    ∃ answer rest, l.toClient = answer :: rest ∧
      ((0 < l.ctx.replies ∧ l' = { l with ctx := { l.ctx with replies := l.ctx.replies - 1 }, toClient := rest }) ∨
       (l.ctx.replies = 0 ∧ (∃ text, answer = .error text) ∧ l' = l.close .closed) ∨
       (l.ctx.replies = 0 ∧ (∃ push, answer = .push push) ∧ ∃ ctx : SubContext, ctx.replies = 0 ∧
        l' = { l with ctx := ctx, toClient := rest })) := by
  simp only [Link.process] at processed
  cases flight : l.toClient with
  | nil => simp [flight] at processed
  | cons answer rest =>
    refine ⟨answer, rest, rfl, ?_⟩
    simp only [flight] at processed
    split at processed
    · rename_i waits
      split at processed
      · cases processed
      · exact .inl ⟨waits, (Prod.mk.inj (Option.some.inj processed)).1.symm⟩
    · rename_i none
      have zero : l.ctx.replies = 0 := by omega
      apply Or.inr
      split at processed
      · exact .inl ⟨zero, ⟨_, rfl⟩, (Prod.mk.inj (Option.some.inj processed)).1.symm⟩
      · rename_i push
        refine .inr ⟨zero, ⟨push, rfl⟩, ?_⟩
        split at processed
        · split at processed
          · split at processed
            · cases processed
            · refine ⟨_, ?_, (Prod.mk.inj (Option.some.inj processed)).1.symm⟩
              split
              · unfold found
                split <;> exact zero
              · exact zero
          · exact ⟨l.ctx, zero, (Prod.mk.inj (Option.some.inj processed)).1.symm⟩
        · cases processed

/-- No error finds hiredis without an ordinary callback. -/
private theorem process_aligned {l l' : Link} {stale : Bool} {sub sub' : Subscriber} (aligned : Aligned l)
    (processed : l.process stale sub = some (l', sub')) :
    l'.toServer = l.toServer ∧ l'.server = l.server ∧ l'.phase = l.phase ∧ Aligned l' := by
  obtain ⟨errors, told, empties, propers, toClient, toServer, are_empty, are_proper, replies, apart⟩ := aligned
  obtain ⟨answer, rest, flight, outcome⟩ := process_cases processed
  rw [toClient] at flight
  rcases outcome with ⟨waits, rfl⟩ | ⟨zero, ⟨text, rfl⟩, _⟩ | ⟨zero, ⟨push, rfl⟩, ctx, none, rfl⟩
  · cases errors with
    | nil =>
      -- a callback that waits for an error that was not sent yet: no push is in flight
      have some : empties ≠ [] := by
        intro nil
        simp [replies, nil] at waits
      rw [(apart some).1] at flight
      cases flight
    | cons text others =>
      refine ⟨rfl, rfl, rfl, others, told, empties, propers, (List.cons.inj flight).2.symm, toServer, are_empty,
        are_proper, ?_, apart⟩
      simp only [replies, List.length_cons]
      omega
  · have nil : errors = [] := List.length_eq_zero_iff.mp (by omega)
    subst nil
    cases told <;> cases flight
  · have nil : errors = [] := List.length_eq_zero_iff.mp (by omega)
    subst nil
    cases told with
    | nil => cases flight
    | cons first others =>
      refine ⟨rfl, rfl, rfl, [], others, empties, propers, (List.cons.inj flight).2.symm, toServer, are_empty,
        are_proper, ?_, fun some => absurd (apart some).1 (List.cons_ne_nil _ _)⟩
      rw [zero] at replies
      rw [none]
      exact replies

private theorem topics_eq {t t' : Topics} (same : ∀ kind, t.of kind = t'.of kind) : t = t' := by
  obtain ⟨channels, patterns⟩ := t
  obtain ⟨channels', patterns'⟩ := t'
  obtain rfl : channels = channels' := same .channel
  obtain rfl : patterns = patterns' := same .pattern
  rfl

private theorem asked_for (channels patterns : List Str) :
    after [command .channel true channels, command .pattern true patterns] {} =
      ⟨channels.toFinset, patterns.toFinset⟩ := by
  apply topics_eq
  intro kind
  have both : after [command .channel true channels, command .pattern true patterns] {} =
      (({} : Topics).changes .channel true channels).changes .pattern true patterns := by
    simp [after, requested_command]
  rw [both, changes_of, changes_of]
  cases kind <;> simp [Topics.of]

private theorem command_empty (kind : Kind) : Empty (command kind true []) := ⟨kind, requested_command kind true []⟩

private theorem command_proper (kind : Kind) (add : Bool) (name : Str) (names : List Str) :
    Proper (command kind add (name :: names)) := ⟨kind, add, name, names, requested_command kind add (name :: names)⟩

/-- The two commands of `reconnect` leave the link healthy unless channels are asked
    for and no pattern is. -/
private theorem reopened_healthy {channels patterns : List Str} (fine : channels = [] ∨ patterns ≠ []) :
    Healthy ⟨channels.toFinset, patterns.toFinset⟩ (Session.reopened false channels patterns) := by
  rw [← asked_for]
  cases channels with
  | nil =>
    cases patterns with
    | nil =>
      refine ⟨nofun, fun _ => ⟨rfl, [], [], [command .channel true [], command .pattern true []], [], rfl, rfl, ?_, nofun,
        rfl, fun _ => ⟨rfl, rfl⟩⟩⟩
      simp [command_empty]
    | cons pattern others =>
      refine ⟨nofun, fun _ => ⟨rfl, [], [], [command .channel true []], [command .pattern true (pattern :: others)], rfl,
        rfl, ?_, ?_, rfl, fun _ => ⟨rfl, rfl⟩⟩⟩
      · simp [command_empty]
      · simp [command_proper]
  | cons channel more =>
    cases patterns with
    | nil => rcases fine with none | some <;> contradiction
    | cons pattern others =>
      refine ⟨nofun, fun _ => ⟨rfl, [], [], [],
        [command .channel true (channel :: more), command .pattern true (pattern :: others)], rfl, rfl, nofun, ?_, rfl,
        fun some => absurd rfl some⟩⟩
      simp [command_proper]

private theorem send_phase (cmd : RedisCmd) (l : Link) : (l.send_command cmd).phase = l.phase := by
  unfold Link.send_command
  split <;> rfl

private theorem reopened_phase (err : Bool) (channels patterns : List Str) :
    (Session.reopened err channels patterns).phase = if err then .failed else .pending := by
  rw [Session.reopened, send_phase, send_phase]

/-- hiredis takes a command with names, unless it is to unsubscribe a context that is
    not subscribed. -/
private theorem send_named (kind : Kind) (add : Bool) (name : Str) (names : List Str) (l : Link) :
    (∃ ctx : SubContext, ctx.replies = l.ctx.replies ∧ l.send_command (command kind add (name :: names)) =
      { l with ctx := ctx, toServer := l.toServer ++ [command kind add (name :: names)] }) ∨
    (add = false ∧ l.ctx.subscribed = false ∧ l.send_command (command kind add (name :: names)) = l) := by
  simp only [Link.send_command, async_command, requested_command]
  cases add with
  | true => exact .inl ⟨_, by rfl, rfl⟩
  | false =>
    cases flag : l.ctx.subscribed with
    | true => exact .inl ⟨l.ctx, rfl, by simp⟩
    | false => exact .inr ⟨rfl, rfl, by simp⟩

/-- A call keeps the link healthy for what is wanted then. -/
private theorem send_healthy {goal : Topics} {l : Link} {kind : Kind} {add : Bool} {name : Str} {names : List Str}
    (healthy : Healthy goal l)
    (heard : add = true ∨ l.ctx.subscribed = true ∨ ∀ other ∈ name :: names, other ∉ goal.of kind) :
    Healthy (goal.changes kind add (name :: names)) (l.send_command (command kind add (name :: names))) := by
  rcases send_named kind add name names l with ⟨ctx, replies, sent⟩ | ⟨rfl, deaf, sent⟩
  · rw [sent]
    refine ⟨healthy.kept, ?_⟩
    intro live
    obtain ⟨asks, errors, told, empties, propers, toClient, toServer, are_empty, are_proper, count, apart⟩ :=
      healthy.live live
    refine ⟨by rw [after_append, asks], errors, told, empties, propers ++ [command kind add (name :: names)], toClient,
      by simp [toServer], are_empty, ?_, replies.trans count, apart⟩
    intro cmd member
    rcases List.mem_append.mp member with old | new
    · exact are_proper cmd old
    · exact List.mem_singleton.mp new ▸ command_proper kind add name names
  · rw [sent]
    rcases heard with ask | flag | absent
    · cases ask
    · rw [deaf] at flag
      cases flag
    · rw [changes_absent kind absent]
      exact healthy

/-! ### What an event does to a link -/

/-- The connection is made, the server takes a command or sends a message, or hiredis
    takes a reply. -/
inductive Progress (l : Link) : Link → Prop
  | established (phase : l.phase = .pending) : Progress l { l with phase := .established }
  | served {l' : Link} (phase : l.phase = .established) (done : l.serve = some l') : Progress l l'
  | published {push : Push} {l' : Link} (phase : l.phase = .established) (done : l.publish push = some l') : Progress l l'
  | processed {stale : Bool} {sub sub' : Subscriber} {l' : Link} (phase : l.phase = .established)
      (done : l.process stale sub = some (l', sub')) : Progress l l'

/-- Nothing but the processing of what is in flight, and messages. -/
def Processing : Act → Prop
  | .established _ => True
  | .serve _ => True
  | .publish .. => True
  | .deliver .. => True
  | _ => False

private theorem event_cases {s s' : Session} {i : Nat} {phase : Phase} {f : Link → Option Session}
    (taken : s.event i phase f = some s') : ∃ l, s.links[i]? = some l ∧ l.phase = phase ∧ f l = some s' := by
  simp only [Session.event] at taken
  cases at_i : s.links[i]? with
  | none => simp [at_i] at taken
  | some l =>
    by_cases is : l.phase = phase
    · simp only [at_i, is, ↓reduceIte] at taken
      exact ⟨l, rfl, is, taken⟩
    · simp [at_i, is] at taken

theorem processing_cases {s s' : Session} {act : Act} (only : Processing act) (taken : step s act = some s') :
    ∃ (i : Nat) (l l' : Link), s.links[i]? = some l ∧ Progress l l' ∧ s'.links = s.links.set i l' ∧
      s'.wanted = s.wanted := by
  cases act with
  | call kind add name names => exact only.elim
  | reconnect err => exact only.elim
  | drop i => exact only.elim
  | established i =>
    obtain ⟨l, at_i, phase, done⟩ := event_cases taken
    obtain rfl := Option.some.inj done
    exact ⟨i, l, _, at_i, .established phase, rfl, rfl⟩
  | serve i =>
    obtain ⟨l, at_i, phase, done⟩ := event_cases taken
    obtain ⟨l', served, rfl⟩ := Option.map_eq_some_iff.mp done
    exact ⟨i, l, l', at_i, .served phase served, rfl, rfl⟩
  | publish i push =>
    obtain ⟨l, at_i, phase, done⟩ := event_cases taken
    obtain ⟨l', published, rfl⟩ := Option.map_eq_some_iff.mp done
    exact ⟨i, l, l', at_i, .published phase published, rfl, rfl⟩
  | deliver i stale =>
    obtain ⟨l, at_i, phase, done⟩ := event_cases taken
    obtain ⟨⟨l', sub⟩, processed, rfl⟩ := Option.map_eq_some_iff.mp done
    exact ⟨i, l, l', at_i, .processed phase processed, rfl, rfl⟩

/-- What a change of one link keeps of each, the current link keeps. -/
private theorem current_set {links : List Link} {i : Nat} {l l' : Link} {Q : Link → Prop} (at_i : links[i]? = some l)
    (all : ∀ m ∈ links.getLast?, Q m) (keeps : Q l → Q l') : ∀ m ∈ (links.set i l').getLast?, Q m := by
  intro m last
  have inside := (List.getElem?_eq_some_iff.mp at_i).1
  rw [Option.mem_def, List.getLast?_eq_getElem?, List.length_set] at last
  by_cases here : i = links.length - 1
  · rw [← here, List.getElem?_set_self inside, Option.some.injEq] at last
    rw [← last]
    refine keeps (all l ?_)
    rw [Option.mem_def, List.getLast?_eq_getElem?, ← here, at_i]
  · rw [List.getElem?_set_ne here] at last
    refine all m ?_
    rw [Option.mem_def, List.getLast?_eq_getElem?, last]

private theorem progress_healthy {goal : Topics} {l l' : Link} (healthy : Healthy goal l) (progress : Progress l l') :
    Healthy goal l' ∧ l'.Live := by
  cases progress with
  | established phase =>
    refine ⟨⟨nofun, ?_⟩, .inr rfl⟩
    intro _
    exact healthy.live (.inl phase)
  | served phase done =>
    obtain ⟨asks, aligned⟩ := healthy.live (.inr phase)
    obtain ⟨same, kept, aligned'⟩ := serve_aligned aligned done
    exact ⟨⟨by rw [kept, phase]; nofun, fun _ => ⟨same.trans asks, aligned'⟩⟩, .inr (kept.trans phase)⟩
  | published phase done =>
    obtain ⟨asks, aligned⟩ := healthy.live (.inr phase)
    obtain ⟨toServer, server, kept, aligned'⟩ := publish_aligned aligned done
    exact ⟨⟨by rw [kept, phase]; nofun, fun _ => ⟨by rw [toServer, server]; exact asks, aligned'⟩⟩,
      .inr (kept.trans phase)⟩
  | processed phase done =>
    obtain ⟨asks, aligned⟩ := healthy.live (.inr phase)
    obtain ⟨toServer, server, kept, aligned'⟩ := process_aligned aligned done
    exact ⟨⟨by rw [kept, phase]; nofun, fun _ => ⟨by rw [toServer, server]; exact asks, aligned'⟩⟩,
      .inr (kept.trans phase)⟩

/-! ### One reconnect -/

/-- An error that no callback waits for is on its way, or has closed the connection. -/
def Doomed (l : Link) : Prop :=
  l.phase = .closed ∨ (l.ctx.replies = 0 ∧ ((∃ cmd ∈ l.toServer, Empty cmd) ∨ ∃ text, .error text ∈ l.toClient))

private theorem progress_doomed {l l' : Link} (doomed : Doomed l) (progress : Progress l l') : Doomed l' := by
  rcases doomed with closed | ⟨zero, coming⟩
  · cases progress <;> simp_all
  cases progress with
  | established phase => exact .inr ⟨zero, coming⟩
  | served phase done =>
    obtain ⟨cmd, rest, kind, add, names, flight, read, rfl⟩ := serve_cases done
    refine .inr ⟨zero, ?_⟩
    rcases coming with ⟨empty, member, is⟩ | ⟨text, member⟩
    · rw [flight] at member
      rcases List.mem_cons.mp member with rfl | later
      · obtain ⟨kind', is⟩ := is
        obtain ⟨rfl, rfl, rfl⟩ : kind = kind' ∧ add = true ∧ names = [] := by
          rw [read, Option.some.injEq, Prod.mk.injEq, Prod.mk.injEq] at is
          exact is
        exact .inr ⟨_, List.mem_append_right _ (List.mem_singleton_self _)⟩
      · exact .inl ⟨empty, later, is⟩
    · exact .inr ⟨text, List.mem_append_left _ member⟩
  | published phase done =>
    obtain ⟨_, rfl⟩ := publish_cases done
    exact .inr ⟨zero, coming.imp_right fun ⟨text, member⟩ => ⟨text, List.mem_append_left _ member⟩⟩
  | processed phase done =>
    obtain ⟨answer, rest, flight, outcome⟩ := process_cases done
    rcases outcome with ⟨waits, _⟩ | ⟨_, _, rfl⟩ | ⟨_, ⟨push, rfl⟩, ctx, none, rfl⟩
    · omega
    · exact .inl rfl
    · refine .inr ⟨none, coming.imp_right fun ⟨text, member⟩ => ⟨text, ?_⟩⟩
      rw [flight] at member
      simpa using member

/-- The commands of `reconnect` doom the link where there are channels and no
    patterns. -/
private theorem reopened_doomed {channels : List Str} (some : channels ≠ []) :
    Doomed (Session.reopened false channels []) := by
  cases channels with
  | nil => exact absurd rfl some
  | cons channel more =>
    exact .inr ⟨rfl, .inl ⟨command .pattern true [], List.mem_cons_of_mem _ (List.mem_singleton_self _),
      command_empty .pattern⟩⟩

/-- What the events of a run keep of each link, the run keeps of the current one. -/
private theorem processing_keeps {Q : Link → Prop} (keeps : ∀ l l', Q l → Progress l l' → Q l') {s s' : Session}
    {acts : List Act} (runs : run step s acts = some s') (only : ∀ act ∈ acts, Processing act)
    (starts : ∀ l ∈ s.current, Q l) : ∀ l ∈ s'.current, Q l := by
  refine run_invariant_of (fun s : Session => ∀ l ∈ s.current, Q l) ?_ runs only starts
  intro s act s' all processing taken
  obtain ⟨i, l, l', at_i, progress, links, _⟩ := processing_cases processing taken
  rw [Session.current, links]
  apply current_set at_i all
  intro holds
  exact keeps l l' holds progress

private theorem reconnect_current {s : Session} {err : Bool} (returned : (s.reconnect err).1 = 0) :
    (s.reconnect err).2.current =
      some (Session.reopened err (s.sub.channels_.sort Ordered) (s.sub.patterns_.sort Ordered)) := by
  simp only [Session.reconnect] at returned ⊢
  split at returned
  · rename_i status
    simp [Session.current, status]
  · cases returned

private theorem sort_nil (names : Finset Str) : names.sort Ordered = [] ↔ names = ∅ := by
  constructor
  · intro nil
    rw [← Finset.sort_toFinset names Ordered, nil, List.toFinset_nil]
  · rintro rfl
    exact Finset.sort_empty Ordered

/-- Nothing is left for the server, and every reply in flight is an error or tells of a
    name that is added, on a context that is subscribed. -/
structure Ready (l : Link) : Prop where
  phase : l.phase = .established
  taken : l.toServer = []
  replies : ∀ answer ∈ l.toClient, (∃ text, answer = .error text) ∨
    (l.ctx.subscribed = true ∧ ∃ kind name count, answer = .push (.changed kind true name count))

private theorem pushes_added (kind : Kind) (names : List Str) (server : Topics) :
    ∀ push ∈ pushes kind true names server, ∃ name count, push = .changed kind true name count := by
  induction names generalizing server with
  | nil => simp [pushes]
  | cons name rest ih =>
    intro push member
    rcases List.mem_cons.mp member with is | later
    · exact ⟨name, _, is⟩
    · exact ih _ push later

private theorem answers_added (kind : Kind) (names : List Str) (server : Topics) :
    ∀ answer ∈ Link.answers kind true names server, (∃ text, answer = .error text) ∨
      (names ≠ [] ∧ ∃ kind name count, answer = .push (.changed kind true name count)) := by
  intro answer member
  unfold Link.answers at member
  by_cases none : names = []
  · rw [if_pos ⟨rfl, none⟩] at member
    exact .inl ⟨_, List.mem_singleton.mp member⟩
  · rw [if_neg fun both => none both.2] at member
    obtain ⟨push, sent, is⟩ := List.mem_map.mp member
    obtain ⟨name, count, rfl⟩ := pushes_added kind names server push sent
    exact .inr ⟨none, kind, name, count, is.symm⟩

/-- The callback of a reply that is an error, or tells of a name, returns. -/
private theorem callback_returns {answer : Answer} (known : (∃ text, answer = .error text) ∨
    ∃ kind name count, answer = .push (.changed kind true name count)) (sub : Subscriber) :
    ∃ sub', sub_callback (some answer.reply) sub = .ok sub' := by
  rcases known with ⟨text, rfl⟩ | ⟨kind, name, count, rfl⟩
  · exact ⟨sub, rfl⟩
  · exact (sub_callback_returns (.changed kind true name count) sub).mpr fun message => message.elim

private theorem process_ready {l : Link} (ready : Ready l) {answer : Answer} {rest : List Answer}
    (flight : l.toClient = answer :: rest) (sub : Subscriber) :
    ∃ l' sub', l.process false sub = some (l', sub') ∧
      ((l'.toServer = [] ∧ l'.toClient = []) ∨ (Ready l' ∧ l'.toClient = rest)) := by
  have first := ready.replies answer (flight ▸ List.mem_cons_self)
  have later : ∀ ctx : SubContext, ctx.subscribed = l.ctx.subscribed → Ready { l with ctx := ctx, toClient := rest } := by
    intro ctx same
    refine ⟨ready.phase, ready.taken, ?_⟩
    intro other member
    rw [same]
    exact ready.replies other (flight ▸ List.mem_cons_of_mem answer member)
  obtain ⟨sub', returns⟩ := callback_returns (first.imp_right And.right) sub
  by_cases waits : 0 < l.ctx.replies
  · refine ⟨_, sub', ?_, .inr ⟨later { l.ctx with replies := l.ctx.replies - 1 } rfl, rfl⟩⟩
    simp only [Link.process, flight, waits, ↓reduceIte, returns]
  · rcases first with ⟨text, rfl⟩ | ⟨subscribed, kind, name, count, rfl⟩
    · refine ⟨l.close .closed, sub, ?_, .inl ⟨rfl, rfl⟩⟩
      simp only [Link.process, flight, waits, ↓reduceIte]
    · by_cases known : nameOf (.changed kind true name count) ∈ l.ctx.callbacks.of (Push.changed kind true name count).kind
      · refine ⟨_, sub', ?_, .inr ⟨later l.ctx rfl, rfl⟩⟩
        simp only [Answer.reply] at returns
        simp only [Link.process, flight, waits, ↓reduceIte, subscribed, known, true_or, returns]
        rfl
      · refine ⟨_, sub, ?_, .inr ⟨later l.ctx rfl, rfl⟩⟩
        simp [Link.process, flight, waits, subscribed, known]

/-- The current link, and its place. -/
structure Stands (s : Session) (i : Nat) (l : Link) : Prop where
  last : s.links.length = i + 1
  at_i : s.links[i]? = some l

private theorem Stands.current {s : Session} {i : Nat} {l : Link} (stands : Stands s i l) : s.current = some l := by
  rw [Session.current, List.getLast?_eq_getElem?, stands.last]
  exact stands.at_i

private theorem Stands.set {s s' : Session} {i : Nat} {l l' : Link} (stands : Stands s i l)
    (same : s'.links = s.links.set i l') : Stands s' i l' := by
  have last := stands.last
  constructor
  · rw [same, List.length_set, last]
  · rw [same, List.getElem?_set_self (by omega)]

private theorem Stands.established {s : Session} {i : Nat} {l : Link} (stands : Stands s i l) (phase : l.phase = .pending) :
    ∃ s', step s (.established i) = some s' ∧ Stands s' i { l with phase := .established } := by
  refine ⟨{ s.put i { l with phase := .established } with status_ := .CONNECTED }, ?_, stands.set rfl⟩
  simp only [step, Session.event, stands.at_i, phase, ↓reduceIte]

private theorem Stands.serve {s : Session} {i : Nat} {l l' : Link} (stands : Stands s i l) (phase : l.phase = .established)
    (served : l.serve = some l') : ∃ s', step s (.serve i) = some s' ∧ Stands s' i l' := by
  refine ⟨s.put i l', ?_, stands.set rfl⟩
  simp only [step, Session.event, stands.at_i, phase, ↓reduceIte, served, Option.map_some]

private theorem Stands.deliver {s : Session} {i : Nat} {l l' : Link} {sub' : Subscriber} (stands : Stands s i l)
    (phase : l.phase = .established) (processed : l.process false s.sub = some (l', sub')) :
    ∃ s', step s (.deliver i false) = some s' ∧ Stands s' i l' := by
  refine ⟨{ s.put i l' with sub := sub', status_ := if l'.phase = .closed then .DISCONNECTED else s.status_ }, ?_,
    stands.set rfl⟩
  simp only [step, Session.event, stands.at_i, phase, ↓reduceIte, processed, Option.map_some]

/-- A ready link can be processed to its end. -/
private theorem ready_drains {s : Session} {i : Nat} {l : Link} (stands : Stands s i l) (ready : Ready l) :
    ∃ acts s' l', (∀ act ∈ acts, Processing act) ∧ run step s acts = some s' ∧ s'.current = some l' ∧
      l'.toServer = [] ∧ l'.toClient = [] := by
  generalize length : l.toClient = flight
  induction flight generalizing s l with
  | nil => exact ⟨[], s, l, nofun, rfl, stands.current, ready.taken, length⟩
  | cons answer rest ih =>
    obtain ⟨l', sub', processed, outcome⟩ := process_ready ready length s.sub
    obtain ⟨mid, taken, stands'⟩ := stands.deliver ready.phase processed
    rcases outcome with ⟨toServer, toClient⟩ | ⟨still, fewer⟩
    · exact ⟨[.deliver i false], mid, l', by simp [Processing], by simp [run, taken], stands'.current, toServer, toClient⟩
    · obtain ⟨acts, s', last, only, runs, current, settled⟩ := ih stands' still fewer
      refine ⟨.deliver i false :: acts, s', last, ?_, run_cons_some.mpr ⟨mid, taken, runs⟩, current, settled⟩
      intro act member
      rcases List.mem_cons.mp member with rfl | later
      · trivial
      · exact only act later

private theorem reopened_shape (channels patterns : List Str) :
    ∃ ctx : SubContext, (channels ≠ [] ∨ patterns ≠ [] → ctx.subscribed = true) ∧ Session.reopened false channels patterns =
      ⟨.pending, ctx, [command .channel true channels, command .pattern true patterns], {}, []⟩ := by
  cases channels with
  | nil =>
    cases patterns with
    | nil =>
      refine ⟨_, ?_, rfl⟩
      simp
    | cons pattern others => exact ⟨_, fun _ => rfl, rfl⟩
  | cons channel more =>
    cases patterns with
    | nil => exact ⟨_, fun _ => rfl, rfl⟩
    | cons pattern others => exact ⟨_, fun _ => rfl, rfl⟩

private theorem serve_command (phase : Phase) (ctx : SubContext) (kind : Kind) (names : List Str) (rest : List RedisCmd)
    (server : Topics) (toClient : List Answer) :
    Link.serve ⟨phase, ctx, command kind true names :: rest, server, toClient⟩ =
      some ⟨phase, ctx, rest, server.changes kind true names, toClient ++ Link.answers kind true names server⟩ := by
  simp only [Link.serve, requested_command]

/-- Once a reconnect has returned 0, the new connection can be made, the server take both
    commands and all replies be processed. -/
theorem reconnect_settles {s : Session} (returned : (s.reconnect false).1 = 0) :
    ∃ acts s' l, (∀ act ∈ acts, Processing act) ∧ run step (s.reconnect false).2 acts = some s' ∧
      s'.current = some l ∧ l.toServer = [] ∧ l.toClient = [] := by
  obtain ⟨ctx, flag, shape⟩ := reopened_shape (s.sub.channels_.sort Ordered) (s.sub.patterns_.sort Ordered)
  have starts : Stands (s.reconnect false).2 s.links.length (Session.reopened false (s.sub.channels_.sort Ordered)
      (s.sub.patterns_.sort Ordered)) := by
    simp only [Session.reconnect] at returned ⊢
    split at returned
    · rename_i status
      rw [if_pos status]
      exact ⟨by simp, by simp⟩
    · cases returned
  rw [shape] at starts
  obtain ⟨s₁, made, stands₁⟩ := starts.established rfl
  obtain ⟨s₂, first, stands₂⟩ := stands₁.serve rfl (serve_command _ _ _ _ _ _ _)
  obtain ⟨s₃, second, stands₃⟩ := stands₂.serve rfl (serve_command _ _ _ _ _ _ _)
  obtain ⟨acts, s', l, only, runs, settled⟩ := ready_drains stands₃ <| by
    refine ⟨rfl, rfl, ?_⟩
    intro answer member
    rcases List.mem_append.mp member with old | new
    · exact (answers_added _ _ _ answer old).imp_right fun both => ⟨flag (.inl both.1), both.2⟩
    · exact (answers_added _ _ _ answer new).imp_right fun both => ⟨flag (.inr both.1), both.2⟩
  refine ⟨.established s.links.length :: .serve s.links.length :: .serve s.links.length :: acts, s', l, ?_, ?_, settled⟩
  · intro act member
    simp only [List.mem_cons] at member
    rcases member with rfl | rfl | rfl | later
    · trivial
    · trivial
    · trivial
    · exact only act later
  · exact run_cons_some.mpr ⟨s₁, made, run_cons_some.mpr ⟨s₂, first, run_cons_some.mpr ⟨s₃, second, runs⟩⟩⟩

/-- A subscriber that lost its connection with these topics. -/
def lost (channels patterns : Finset Str) : Session :=
  { sub := { listener_ := some 0, channels_ := channels, patterns_ := patterns }, links := [⟨.dropped, {}, [], {}, []⟩] }

/-- The new connection of `lost` is made, the server takes both commands, and both
    replies are processed. -/
def twoReplies : List Act := [.established 1, .serve 1, .serve 1, .deliver 1 false, .deliver 1 false]

private theorem lost_reconnect (channel : Str) (patterns : Finset Str) :
    ((lost {channel} patterns).reconnect false).2 = { lost {channel} patterns with
      links := [⟨.dropped, {}, [], {}, []⟩, Session.reopened false [channel] (patterns.sort Ordered)] } := by
  simp [Session.reconnect, lost]

/-- Once nothing is in flight on a connection that the network has not dropped, hiredis
    has not closed it either, and the server keeps what is wanted. -/
def Restored (s : Session) : Prop :=
  ∀ l ∈ s.current, l.phase ≠ .failed → l.phase ≠ .dropped → l.toServer = [] → l.toClient = [] →
    l.phase ≠ .closed ∧ l.server = s.wanted

/-- At a reconnect the subscriber has been told of exactly what is wanted, and not of
    channels only; hiredis does not refuse to unsubscribe from what is wanted. -/
def Acknowledged (s : Session) : Act → Prop
  | .call kind add name names => ∀ l ∈ s.current,
    add = true ∨ l.ctx.subscribed = true ∨ ∀ other ∈ name :: names, other ∉ s.wanted.of kind
  | .reconnect err => s.status_ = .DISCONNECTED → err = false →
    s.sub.topics = s.wanted ∧ (s.sub.channels_ = ∅ ∨ s.sub.patterns_ ≠ ∅)
  | _ => True

instance (s : Session) : (act : Act) → Decidable (Acknowledged s act)
  | .call kind add name names => inferInstanceAs (Decidable (∀ l ∈ s.current,
      add = true ∨ l.ctx.subscribed = true ∨ ∀ other ∈ name :: names, other ∉ s.wanted.of kind))
  | .reconnect _ => inferInstanceAs (Decidable (_ → _ → _ ∧ (_ ∨ _)))
  | .established _ | .drop _ | .serve _ | .publish .. | .deliver .. => .isTrue trivial

/-- The current link is healthy for what is wanted. -/
def Meant (s : Session) : Prop := ∀ l ∈ s.current, Healthy s.wanted l

private theorem meant_restored {s : Session} (meant : Meant s) : Restored s := by
  intro l last not_failed not_dropped toServer _
  have healthy := meant l last
  have live : l.Live := by
    cases phase : l.phase with
    | failed => exact absurd phase not_failed
    | pending => exact .inl phase
    | established => exact .inr phase
    | dropped => exact absurd phase not_dropped
    | closed => exact absurd phase healthy.kept
  have asks := (healthy.live live).1
  rw [toServer] at asks
  exact ⟨healthy.kept, asks⟩

private theorem dropped_healthy (goal : Topics) (l : Link) : Healthy goal (l.close .dropped) := by
  refine ⟨nofun, ?_⟩
  intro live
  rcases live with phase | phase <;> cases phase

private theorem drop_cases {s s' : Session} {i : Nat} (taken : step s (.drop i) = some s') :
    ∃ l, s.links[i]? = some l ∧ s'.links = s.links.set i (l.close .dropped) ∧ s'.wanted = s.wanted := by
  simp only [step, Session.drop] at taken
  cases at_i : s.links[i]? with
  | none => simp [at_i] at taken
  | some l =>
    cases phase : l.phase with
    | established | pending =>
      simp only [at_i, phase, Option.some.injEq] at taken
      subst taken
      exact ⟨l, rfl, rfl, rfl⟩
    | failed | dropped | closed => simp [at_i, phase] at taken

theorem step_meant {s s' : Session} {act : Act} (meant : Meant s) (acknowledged : Acknowledged s act)
    (taken : step s act = some s') : Meant s' := by
  by_cases only : Processing act
  · obtain ⟨i, l, l', at_i, progress, links, wanted⟩ := processing_cases only taken
    rw [Meant, Session.current, links, wanted]
    exact current_set at_i meant fun healthy => (progress_healthy healthy progress).1
  cases act with
  | call kind add name names =>
    simp only [step, Session.call] at taken
    cases last : s.current with
    | none => simp [last] at taken
    | some l =>
      simp only [last] at taken
      split at taken
      · obtain rfl := Option.some.inj taken
        simp only [Meant, Session.current, List.getLast?_append, List.getLast?_singleton, Option.some_or,
          Option.mem_def, Option.some.injEq, forall_eq']
        exact send_healthy (meant l last) (acknowledged l last)
      · cases taken
  | reconnect err =>
    obtain rfl := Option.some.inj taken
    by_cases status : s.status_ = .DISCONNECTED
    · have returned : (s.reconnect err).1 = 0 := by simp [Session.reconnect, status]
      have wanted : (s.reconnect err).2.wanted = s.wanted := by simp [Session.reconnect, status]
      rw [Meant, reconnect_current returned, wanted]
      rintro _ ⟨⟩
      cases err with
      | true =>
        refine ⟨by rw [reopened_phase]; nofun, ?_⟩
        intro live
        rcases live with phase | phase <;> rw [reopened_phase] at phase <;> cases phase
      | false =>
        obtain ⟨same, fine⟩ := acknowledged status rfl
        rw [← sort_nil, Ne, ← sort_nil s.sub.patterns_] at fine
        have healthy := reopened_healthy fine
        rw [Finset.sort_toFinset, Finset.sort_toFinset] at healthy
        rw [← same]
        exact healthy
    · simpa [Session.reconnect, status] using meant
  | drop i =>
    obtain ⟨l, at_i, links, wanted⟩ := drop_cases taken
    rw [Meant, Session.current, links, wanted]
    exact current_set at_i meant fun _ => dropped_healthy s.wanted l
  | established i | serve i | publish i push | deliver i stale => exact absurd trivial only

/-- A channel and a pattern are subscribed to and acknowledged before the connection
    drops; the new one is processed to its end. -/
def acknowledgedRun : List Act :=
  [.call .channel true (lit "c") [], .call .pattern true (lit "p") [], .established 0, .serve 0, .serve 0,
   .deliver 0 false, .deliver 0 false, .drop 0, .reconnect false, .established 1, .serve 1, .serve 1,
   .deliver 1 false, .deliver 1 false]

/-- The connection drops before the subscribe is acknowledged. -/
def unansweredSubscribe : List Act :=
  [.call .channel true (lit "c") [], .established 0, .drop 0, .reconnect false, .established 1, .serve 1, .serve 1,
   .deliver 1 false, .deliver 1 false]

/-- The connection drops before the unsubscribe is acknowledged. -/
def unansweredUnsubscribe : List Act :=
  [.call .channel true (lit "c") [], .call .pattern true (lit "p") [], .established 0, .serve 0, .serve 0,
   .deliver 0 false, .deliver 0 false, .call .channel false (lit "c") [], .drop 0, .reconnect false, .established 1,
   .serve 1, .serve 1, .deliver 1 false, .deliver 1 false]

/-- The run ends with a connection that is processed and on which the channels are not
    those that were asked for. -/
def Differs (acts : List Act) : Prop :=
  ∃ s ∈ run step {} acts, ∃ l ∈ s.current, l.phase = .established ∧ l.toServer = [] ∧ l.toClient = [] ∧
    l.server.channels ≠ s.wanted.channels

private theorem differs_unrestored {acts : List Act} (differs : Differs acts) : ∃ s ∈ run step {} acts, ¬ Restored s := by
  obtain ⟨s, ends, l, last, phase, toServer, toClient, unlike⟩ := differs
  refine ⟨s, ends, fun restored => unlike ?_⟩
  rw [(restored l last (by simp [phase]) (by simp [phase]) toServer toClient).2]

end CppRedis.Resubscription

import CppRedis.AsyncConnections
import CppRedis.Lifecycles

/-!
The contexts that `AsyncConnection` uses are those of hiredis: `AsyncConnections.step` has
the events of a context as given, `Callbacks.step` is the code that they come from. Every
run of the code, for a program that does not free the context itself and does not send
MONITOR, is one of the object's contexts, which shows the same and tells the object the
same (`contexts_refined`).
-/
namespace CppRedis.Refinements
open CppRedis.Strings CppRedis.Requests CppRedis.Readers CppRedis.Contexts CppRedis.Callbacks CppRedis.Runs CppRedis.Lifecycles
open AsyncConnections (AsyncContext AsyncConnection)
open AsyncConnections.World (event call_back on_connect on_disconnect read_errstr async_free async_disconnect setStatus put log)
open Relation (ReflTransGen)

/-! ### What the object is told -/

/-- What the callbacks for the connection have been told, in order. -/
def told (log : List Event) : List Event :=
  log.filter fun
    | .connected _ => true
    | .disconnected _ => true
    | _ => false

/-- What `disconnect` tells the object. -/
def closing (inCallback : Bool) (v : AsyncConnections.World) : List Event :=
  match v.current with
  | none => []
  | some (_, ctx) => if ctx.phase = .connected ∧ inCallback = false ∧ ctx.replies = 0 then [.disconnected true] else []

/-- What a call or an event tells the object. -/
def heard (v : AsyncConnections.World) : AsyncConnections.Act → List Event
  | .established _ => [.connected true]
  | .refused _ => [.connected false]
  | .lost _ => [.disconnected false]
  | .finished _ => [.disconnected true]
  | .disconnect inCallback => closing inCallback v
  | .destroy inCallback => if v.conn.status_ = .CONNECTED then closing inCallback v else []
  | _ => []

/-- The object and what it has been told. -/
abbrev Side := AsyncConnections.World × List Event

def Tells (a a' : Side) : Prop := ∃ act, AsyncConnections.step a.1 act = some a'.1 ∧ a'.2 = a.2 ++ heard a.1 act

/-- The object when it has connected. -/
def dialled (host : Str) (port db : Int) : AsyncConnections.World := AsyncConnections.World.connect host port db false {}

/-! ### One context -/

/-- The object's only context is this one. -/
structure Uses (ctx : AsyncContext) (said : List Event) (a : Side) : Prop where
  said : a.2 = said
  alive : a.1.destroyed = false
  current : a.1.conn.async_context_ = some 0
  contexts : a.1.contexts = [ctx]

/-- A call or an event that makes of a context another one. -/
def Turns (ctx : AsyncContext) (more : List Event) (ctx' : AsyncContext) : Prop :=
  ∀ (said : List Event) (a : Side), Uses ctx said a → ∃ a', Tells a a' ∧ Uses ctx' (said ++ more) a'

namespace Turns

variable {ctx : AsyncContext}

/-- It turns in every world of an object with this context. -/
private theorem world {more : List Event} {ctx' : AsyncContext} (act : AsyncConnections.Act)
    (turns : ∀ (conn : AsyncConnection) (uses : List AsyncConnections.Use), conn.async_context_ = some 0 →
      ∃ conn' uses', AsyncConnections.step ⟨conn, false, [ctx], uses⟩ act = some ⟨conn', false, [ctx'], uses'⟩ ∧
        heard ⟨conn, false, [ctx], uses⟩ act = more ∧ conn'.async_context_ = some 0) : Turns ctx more ctx' := by
  rintro said ⟨⟨conn, destroyed, contexts, uses⟩, said'⟩ ⟨rfl, alive, current, is⟩
  dsimp only at alive current is
  subst alive is
  obtain ⟨conn', uses', goes, hears, current'⟩ := turns conn uses current
  exact ⟨(⟨conn', false, [ctx'], uses'⟩, said' ++ more), ⟨act, goes, by rw [hears]⟩, rfl, rfl, current', rfl⟩

theorem established (phase : ctx.phase = .connecting) : Turns ctx [.connected true] { ctx with phase := .connected } := by
  refine world (.established 0) fun conn uses current => ?_
  simp [AsyncConnections.step, event, call_back, on_connect, heard, phase, setStatus, put, log, current]

theorem refused (phase : ctx.phase = .connecting) : Turns ctx [.connected false] { ctx with phase := .freed } := by
  refine world (.refused 0) fun conn uses current => ?_
  simp [AsyncConnections.step, event, call_back, on_connect, heard, phase, read_errstr, AsyncConnections.World.current, async_free,
    put, log, current]

theorem lost (phase : ctx.phase = .connected) : Turns ctx [.disconnected false] { ctx with phase := .freed } := by
  refine world (.lost 0) fun conn uses current => ?_
  simp [AsyncConnections.step, event, call_back, on_disconnect, heard, phase, read_errstr, AsyncConnections.World.current, async_free,
    setStatus, put, log, current]

theorem finished (phase : ctx.phase = .connected) (told : ctx.disconnecting = true) (none : ctx.replies = 0) :
    Turns ctx [.disconnected true] { ctx with phase := .freed } := by
  refine world (.finished 0) fun conn uses current => ?_
  simp [AsyncConnections.step, event, call_back, on_disconnect, heard, phase, told, none, async_free, setStatus, put, log, current]

theorem replied (phase : ctx.phase = .connected) {n : Nat} (waiting : ctx.replies = n + 1) :
    Turns ctx [] { ctx with replies := n } := by
  refine world (.replied 0) fun conn uses current => ?_
  simp [AsyncConnections.step, event, heard, phase, waiting, put, current]

theorem sent (alive : ctx.phase ≠ .freed) (open_ : ctx.disconnecting = false) : Turns ctx [] { ctx with replies := ctx.replies + 1 } := by
  refine world (.send_command true) fun conn uses current => ?_
  simp [AsyncConnections.step, AsyncConnections.World.send_command, AsyncConnections.World.current, heard, alive, open_, put, log, current]

theorem deferred (inCallback : Bool) (alive : ctx.phase ≠ .freed) (busy : ¬(inCallback = false ∧ ctx.replies = 0)) :
    Turns ctx [] { ctx with disconnecting := true } := by
  refine world (.disconnect inCallback) fun conn uses current => ?_
  simp [AsyncConnections.step, AsyncConnections.World.disconnect, AsyncConnections.World.current, async_disconnect, heard, closing, alive, busy,
    setStatus, put, log, current]

theorem closed (phase : ctx.phase = .connected) (none : ctx.replies = 0) : Turns ctx [.disconnected true] { ctx with phase := .freed } := by
  refine world (.disconnect false) fun conn uses current => ?_
  simp [AsyncConnections.step, AsyncConnections.World.disconnect, AsyncConnections.World.current, async_disconnect, async_free, call_back,
    on_disconnect, heard, closing, phase, none, setStatus, put, log, current]

theorem dropped (phase : ctx.phase = .connecting) (none : ctx.replies = 0) : Turns ctx [] { ctx with phase := .freed } := by
  refine world (.disconnect false) fun conn uses current => ?_
  simp [AsyncConnections.step, AsyncConnections.World.disconnect, AsyncConnections.World.current, async_disconnect, async_free, heard,
    closing, phase, none, setStatus, put, log, current]

end Turns

/-! ### The context of the code -/

variable {w w' w'' : World} {program : Program}

/-- A call that the object may make; it never frees a context itself. -/
def Allowed : Call → Prop
  | .command _ argv => ∀ cmd, redisFormatCommandArgv argv = .command cmd → monitors cmd = false
  | .disconnect => True
  | .free => False

def AllowedProgram (program : Program) : Prop := ∀ log, ∀ call ∈ program log, Allowed call

/-- A context that is alive, and connected or not. -/
structure Live (on : Bool) (w : World) : Prop where
  freed : w.freed = false
  connected : w.ac.connected = on
  freeing : w.ac.freeing = false
  monitoring : w.ac.monitoring = false
  err : w.ac.c.err = 0
  onConnect : w.ac.onConnect = true
  onDisconnect : w.ac.onDisconnect = true

/-- What is asked of a live context. -/
def vital (w : World) : Bool × Bool × Bool × Bool × Int × Bool × Bool :=
  (w.freed, w.ac.connected, w.ac.freeing, w.ac.monitoring, w.ac.c.err, w.ac.onConnect, w.ac.onDisconnect)

theorem Live.same {on : Bool} (live : Live on w) (same : vital w' = vital w) : Live on w' := by
  simp only [vital, Prod.mk.injEq] at same
  obtain ⟨freed, connected, freeing, monitoring, err, onConnect, onDisconnect⟩ := same
  exact ⟨freed.trans live.freed, connected.trans live.connected, freeing.trans live.freeing, monitoring.trans live.monitoring,
    err.trans live.err, onConnect.trans live.onConnect, onDisconnect.trans live.onDisconnect⟩

def stage (w : World) : AsyncConnections.Phase := if w.freed then .freed else if w.ac.connected then .connected else .connecting

/-- The context of the object that shows a context of the code. -/
structure Shows (w : World) (ctx : AsyncContext) : Prop where
  phase : ctx.phase = stage w
  kept : w.freed = false → ctx.replies = w.ac.replies.length ∧ ctx.disconnecting = w.ac.disconnecting

/-- The object uses this context, and has been told what the code has told. -/
def Mirrors (w : World) (a : Side) : Prop := ∃ ctx, Shows w ctx ∧ Uses ctx (told w.log) a

/-- Whatever mirrored the context goes on to mirror it. -/
def Refines (w w' : World) : Prop := ∀ a, Mirrors w a → ∃ a', ReflTransGen Tells a a' ∧ Mirrors w' a'

namespace Refines

theorem refl (w : World) : Refines w w := fun a mirrors => ⟨a, .refl, mirrors⟩

theorem trans (first : Refines w w') (second : Refines w' w'') : Refines w w'' := by
  intro a mirrors
  obtain ⟨a', goes, mirrors'⟩ := first a mirrors
  obtain ⟨a'', goes', mirrors''⟩ := second a' mirrors'
  exact ⟨a'', goes.trans goes', mirrors''⟩

/-- One call or event of the object. -/
theorem one {more : List Event} (log : told w'.log = told w.log ++ more)
    (turns : ∀ {ctx}, Shows w ctx → ∃ ctx', Turns ctx more ctx' ∧ Shows w' ctx') : Refines w w' := by
  rintro a ⟨ctx, shows_, uses⟩
  obtain ⟨ctx', turn, shows'⟩ := turns shows_
  obtain ⟨a', tells, uses'⟩ := turn _ a uses
  exact ⟨a', .single tells, ctx', shows', log ▸ uses'⟩

/-- The object sees nothing of it. -/
theorem none (log : told w'.log = told w.log) (freed : w'.freed = w.freed) (connected : w'.ac.connected = w.ac.connected)
    (replies : w'.ac.replies = w.ac.replies) (disconnecting : w'.ac.disconnecting = w.ac.disconnecting) : Refines w w' := by
  rintro a ⟨ctx, shows_, uses⟩
  refine ⟨a, .refl, ctx, ⟨?_, ?_⟩, log ▸ uses⟩
  · rw [shows_.phase, stage, stage, freed, connected]
  · rw [freed, replies, disconnecting]
    exact shows_.kept

end Refines

theorem told_append (before after : List Event) : told (before ++ after) = told before ++ told after := List.filter_append ..

private theorem told_silent {event : Event} (log : List Event) (silent : told [event] = []) : told (log ++ [event]) = told log := by
  rw [told_append, silent, List.append_nil]

private theorem told_quiet {events : List Event} (quiet : ∀ e ∈ events, Quiet e) : told events = [] := by
  refine List.filter_eq_nil_iff.mpr fun e member => ?_
  have ordinary := quiet e member
  cases e with
  | issued => exact Bool.false_ne_true
  | ran => exact Bool.false_ne_true
  | connected => cases ordinary
  | disconnected => cases ordinary

/-! ### Calls -/

section
variable {on : Bool}

private theorem Shows.live (live : Live on w) {ctx : AsyncContext} (shows_ : Shows w ctx) :
    ctx.phase = (if on then .connected else .connecting) ∧ ctx.phase ≠ .freed ∧
      ctx.replies = w.ac.replies.length ∧ ctx.disconnecting = w.ac.disconnecting := by
  have is : ctx.phase = if on then .connected else .connecting := by
    rw [shows_.phase, stage, live.freed, live.connected]
    rfl
  refine ⟨is, ?_, shows_.kept live.freed⟩
  rw [is]
  split <;> simp

theorem command_refines (live : Live on w) {cb : RedisCallback} {argv : Argv}
    (plain : ∀ cmd, redisFormatCommandArgv argv = .command cmd → monitors cmd = false) (is : redisAsyncCommandArgv cb argv w = some w') : Live on w' ∧ Refines w w' := by
  obtain ⟨cmd, ok, ac, formatted, taken, rfl⟩ := redisAsyncCommandArgv_some is
  have log : told (w.log ++ [.issued cb argv ok]) = told w.log := told_silent _ rfl
  rcases redisAsyncCommand_cases taken with rfl | ⟨_, monitoring, replies, _, _, _, open_, more, same, rfl⟩
  · exact ⟨live.same rfl, .none log rfl rfl rfl rfl⟩
  · refine ⟨live.same (by simp only [vital, RedisAsyncContext.append, World.record, RedisContext.append, same (plain cmd formatted)]), ?_⟩
    rcases more with rfl | rfl
    · exact .none log rfl rfl rfl rfl
    · refine .one (log.trans (List.append_nil _).symm) fun {ctx} shows_ => ?_
      obtain ⟨-, alive, count, closing⟩ := shows_.live live
      refine ⟨_, Turns.sent alive (closing.trans open_), shows_.phase, fun _ => ⟨?_, closing⟩⟩
      show ctx.replies + 1 = (w.ac.replies ++ [cb]).length
      rw [count, List.length_append, List.length_singleton]

/-- A call from within a callback. -/
private theorem called_refines (live : Live on w) {call : Call} (allowed : Allowed call) (is : called call w = some w') :
    Live on w' ∧ Refines w w' := by
  cases call with
  | command cb argv => exact command_refines live allowed is
  | disconnect =>
    cases is
    refine ⟨live.same rfl, ?_⟩
    refine .one (List.append_nil _).symm fun {ctx} shows_ => ?_
    obtain ⟨-, alive, count, -⟩ := shows_.live live
    exact ⟨_, Turns.deferred true alive (by simp), shows_.phase, fun _ => ⟨count, rfl⟩⟩
  | free => cases allowed

private theorem called_all_refines (live : Live on w) {calls : List Call} (allowed : ∀ call ∈ calls, Allowed call)
    (is : called_all calls w = some w') : Live on w' ∧ Refines w w' := by
  induction calls generalizing w with
  | nil =>
    cases is
    exact ⟨live, .refl _⟩
  | cons call calls ih =>
    obtain ⟨w₁, first, later⟩ := Option.bind_eq_some_iff.mp is
    obtain ⟨live₁, refines⟩ := called_refines live (allowed call List.mem_cons_self) first
    obtain ⟨live', refines'⟩ := ih live₁ (fun call member => allowed call (List.mem_cons_of_mem _ member)) later
    exact ⟨live', refines.trans refines'⟩

private theorem redisRunCallback_refines (allowed : AllowedProgram program) (live : Live on w) {cb : RedisCallback}
    {reply : Option Reply.RedisReply} (is : redisRunCallback program cb reply w = some w') : Live on w' ∧ Refines w w' := by
  unfold redisRunCallback at is
  split at is
  · cases is
    exact ⟨live, .refl _⟩
  · obtain ⟨w₁, calls, rfl⟩ := Option.map_eq_some_iff.mp is
    have log : told (w.log ++ [.ran cb reply]) = told w.log := told_silent _ rfl
    have inside : Live on ({ w with ac := { w.ac with in_callback := true } }.record (.ran cb reply)) := live.same rfl
    have enters : Refines w ({ w with ac := { w.ac with in_callback := true } }.record (.ran cb reply)) := .none log rfl rfl rfl rfl
    obtain ⟨live₁, refines⟩ := called_all_refines inside (allowed _) calls
    refine ⟨live₁.same rfl, ?_⟩
    exact (enters.trans refines).trans (.none rfl rfl rfl rfl rfl)

end

/-! ### The end of a context -/

/-- What the callbacks without a reply do not change. -/
structure Closing (err : Int) (on : Bool) (log : List Event) (w : World) : Prop where
  err : w.ac.err = err
  connected : w.ac.connected = on
  freeing : w.ac.freeing = false
  onDisconnect : w.ac.onDisconnect = true
  log : told w.log = log

section
variable {err : Int} {on : Bool} {log : List Event}

private theorem called_all_closing {calls : List Call} (allowed : ∀ call ∈ calls, Allowed call) (closing : Closing err on log w)
    (is : called_all calls w = some w') : Closing err on log w' := by
  induction calls generalizing w with
  | nil =>
    cases is
    exact closing
  | cons call calls ih =>
    obtain ⟨w₁, first, later⟩ := Option.bind_eq_some_iff.mp is
    refine ih (fun call member => allowed call (List.mem_cons_of_mem _ member)) ?_ later
    obtain ⟨err, connected, freeing, onDisconnect, log⟩ := closing
    cases call with
    | command cb argv =>
      obtain ⟨_, ok, ac, -, taken, rfl⟩ := redisAsyncCommandArgv_some first
      have silent : told (w.log ++ [.issued cb argv ok]) = told w.log := told_silent _ rfl
      rcases redisAsyncCommand_cases taken with rfl | ⟨_, _, _, _, _, _, -, -, -, rfl⟩
      · exact ⟨err, connected, freeing, onDisconnect, silent.trans log⟩
      · exact ⟨err, connected, freeing, onDisconnect, silent.trans log⟩
    | disconnect =>
      cases first
      exact ⟨err, connected, freeing, onDisconnect, log⟩
    | free => cases allowed _ List.mem_cons_self

private theorem redisRunCallback_closing (allowed : AllowedProgram program) {cb : RedisCallback} {reply : Option Reply.RedisReply}
    (closing : Closing err on log w) (is : redisRunCallback program cb reply w = some w') : Closing err on log w' := by
  unfold redisRunCallback at is
  split at is
  · cases is
    exact closing
  · obtain ⟨w₁, calls, rfl⟩ := Option.map_eq_some_iff.mp is
    have inside : Closing err on log ({ w with ac := { w.ac with in_callback := true } }.record (.ran cb reply)) :=
      ⟨closing.err, closing.connected, closing.freeing, closing.onDisconnect, (told_silent _ rfl).trans closing.log⟩
    obtain ⟨err, connected, freeing, onDisconnect, log⟩ := called_all_closing (allowed _) inside calls
    exact ⟨err, connected, freeing, onDisconnect, log⟩

private theorem run_nulls_closing (allowed : AllowedProgram program) {l : List RedisCallback} (closing : Closing err on log w)
    (is : run_nulls program l w = some w') : Closing err on log w' := by
  induction l generalizing w with
  | nil =>
    cases is
    exact closing
  | cons cb rest ih =>
    obtain ⟨w₁, first, later⟩ := Option.bind_eq_some_iff.mp is
    exact ih (redisRunCallback_closing allowed closing first) later

private theorem run_replies_closing (allowed : AllowedProgram program) {fuel : Nat} (closing : Closing err on log w)
    (is : run_replies program fuel w = some w') : Closing err on log w' := by
  induction fuel generalizing w with
  | zero =>
    cases is
    exact closing
  | succ fuel ih =>
    unfold run_replies at is
    split at is
    · cases is
      exact closing
    · rename_i cb rest waiting
      obtain ⟨w₁, first, later⟩ := Option.bind_eq_some_iff.mp is
      have next : Closing err on log { w with ac := { w.ac with replies := rest } } :=
        ⟨closing.err, closing.connected, closing.freeing, closing.onDisconnect, closing.log⟩
      exact ih (redisRunCallback_closing allowed next first) later

private theorem run_invalid_closing (allowed : AllowedProgram program) {fuel : Nat} (closing : Closing err on log w)
    (is : run_invalid program fuel w = some w') : Closing err on log w' := by
  induction fuel generalizing w with
  | zero =>
    cases is
    exact closing
  | succ fuel ih =>
    unfold run_invalid at is
    split at is
    · cases is
      exact closing
    · rename_i cb rest waiting
      obtain ⟨w₁, first, later⟩ := Option.bind_eq_some_iff.mp is
      have next : Closing err on log { w with ac := { w.ac with invalid := rest } } :=
        ⟨closing.err, closing.connected, closing.freeing, closing.onDisconnect, closing.log⟩
      exact ih (redisRunCallback_closing allowed next first) later

/-- A context that had been connected tells of its end, and with which status. -/
theorem asyncFree_tells (allowed : AllowedProgram program) (closing : Closing err on log w) (is : asyncFree program w = some w') :
    w'.freed = true ∧ told w'.log = log ++ if on = true then [.disconnected (decide (err = 0))] else [] := by
  obtain ⟨w₁, first, is⟩ := Option.bind_eq_some_iff.mp is
  obtain ⟨w₂, second, is⟩ := Option.bind_eq_some_iff.mp is
  obtain ⟨w₃, third, is⟩ := Option.bind_eq_some_iff.mp is
  obtain ⟨w₄, fourth, rfl⟩ := Option.map_eq_some_iff.mp is
  have last := run_nulls_closing allowed (run_nulls_closing allowed
    (run_invalid_closing allowed (run_replies_closing allowed closing first) second) third) fourth
  refine ⟨rfl, ?_⟩
  dsimp only
  simp only [last.onDisconnect, last.connected, last.freeing, last.err, true_and, Bool.false_eq_true, false_or]
  cases on with
  | false => exact last.log.trans (List.append_nil _).symm
  | true =>
    refine (told_append _ _).trans ?_
    rw [last.log]
    rfl

end

/-- A context ends without an error only when no reply is waited for. -/
theorem asyncDisconnect_tells (allowed : AllowedProgram program) (is : asyncDisconnect program w = some w') {on : Bool}
    (connected : w.ac.connected = on) (freeing : w.ac.freeing = false) (onDisconnect : w.ac.onDisconnect = true) :
    w'.freed = true ∧ (w.ac.c.err = 0 → w.ac.replies = []) ∧
      told w'.log = told w.log ++ if on = true then [.disconnected (decide (w.ac.c.err = 0))] else [] := by
  unfold asyncDisconnect at is
  dsimp only at is
  split at is
  · split at is
    · rename_i waiting
      have closing : Closing w.ac.c.err on (told w.log) { w with ac := redisAsyncCopyError w.ac } :=
        ⟨rfl, connected, freeing, onDisconnect, rfl⟩
      obtain ⟨freed, tells⟩ := asyncFree_tells allowed closing is
      exact ⟨freed, fun _ => waiting, tells⟩
    · cases is
  · rename_i failed
    have closing : Closing w.ac.c.err on (told w.log)
        { w with ac := { redisAsyncCopyError w.ac with disconnecting := true } } := ⟨rfl, connected, freeing, onDisconnect, rfl⟩
    obtain ⟨freed, tells⟩ := asyncFree_tells allowed closing is
    exact ⟨freed, fun sound => absurd sound failed, tells⟩

/-- The context goes on, or it has ended. -/
structure Continues (on : Bool) (w w' : World) : Prop where
  refines : Refines w w'
  live : w'.freed = false → Live on w'

private theorem Refines.continues {on : Bool} (refines : Refines w w') (later : Continues on w' w'') : Continues on w w'' :=
  ⟨refines.trans later.refines, later.live⟩

/-- The context ends by one call or event. -/
private theorem Continues.ends {on : Bool} {more : List Event} (freed : w'.freed = true) (log : told w'.log = told w.log ++ more)
    (turns : ∀ {ctx}, Shows w ctx → Turns ctx more { ctx with phase := .freed }) : Continues on w w' := by
  refine ⟨.one log fun shows_ => ⟨_, turns shows_, ?_, fun alive => ?_⟩, fun alive => ?_⟩
  · rw [stage, freed]
    rfl
  · rw [freed] at alive
    cases alive
  · rw [freed] at alive
    cases alive

/-- A failure ends a connected context. -/
private theorem lost_continues (allowed : AllowedProgram program) (live : Live true w) {c : RedisContext} (failed : c.err ≠ 0)
    (is : asyncDisconnect program { w with ac := { w.ac with c := c } } = some w') : Continues true w w' := by
  obtain ⟨freed, -, log⟩ := asyncDisconnect_tells allowed is live.connected live.freeing live.onDisconnect
  dsimp only at log
  rw [if_pos rfl, decide_eq_false failed] at log
  exact .ends freed log fun shows_ => Turns.lost (shows_.live live).1

/-! ### Replies -/

/-- A context with another reader or buffer. -/
private theorem Live.context {on : Bool} (live : Live on w) {c : RedisContext} (err : c.err = w.ac.c.err) :
    Live on { w with ac := { w.ac with c := c } } := live.same (by simp only [vital, err])

/-- The callback is taken from those that wait, or the object sees nothing of it. -/
private theorem chosen_refines (live : Live true w) {c : RedisContext} (err : c.err = w.ac.c.err) {reply : Reply.RedisReply}
    {cb cb' : RedisCallback} {ac : RedisAsyncContext} (choice : chosen reply cb { w.ac with c := c } = some (.callback cb' ac)) :
    Live true { w with ac := ac } ∧ Refines w { w with ac := ac } := by
  have live' := live.context err
  rcases chosen_cases choice with ⟨first, rest, waiting, same⟩ | ⟨_, _, _, _, _, same⟩ | ⟨_, other⟩
  · cases same
    refine ⟨live'.same rfl, .one (List.append_nil _).symm fun {ctx} shows_ => ?_⟩
    obtain ⟨phase, -, count, closing⟩ := shows_.live live
    have more : ctx.replies = rest.length + 1 := by
      rw [count, show w.ac.replies = cb' :: rest from waiting]
      rfl
    exact ⟨_, Turns.replied phase more, shows_.phase, fun _ => ⟨rfl, closing⟩⟩
  · cases same
    exact ⟨live'.same rfl, .none rfl rfl rfl rfl rfl⟩
  · cases other

private theorem process_continues (allowed : AllowedProgram program) {fuel : Nat} {cb : RedisCallback} (live : Live true w)
    (is : process program fuel cb w = some w') : Continues true w w' := by
  induction fuel generalizing w cb with
  | zero => cases is
  | succ fuel ih =>
    cases process_rounds is with
    | fails _ failed is => exact lost_continues allowed live failed is
    | @finishes c _ err last is =>
      obtain ⟨freed, waiting, log⟩ := asyncDisconnect_tells allowed is live.connected live.freeing live.onDisconnect
      dsimp only at waiting log
      have sound : c.err = 0 := err.trans live.err
      rw [if_pos rfl, decide_eq_true sound] at log
      refine .ends freed log fun shows_ => ?_
      obtain ⟨phase, -, count, closing⟩ := shows_.live live
      exact Turns.finished phase (closing.trans last.1) (count.trans (by rw [waiting sound]; rfl))
    | monitors _ _ monitoring is =>
      rw [live.monitoring] at monitoring
      cases monitoring
    | waits _ err is =>
      rw [is]
      exact ⟨.none rfl rfl rfl rfl rfl, fun _ => live.context err⟩
    | answers _ err choice runs is =>
      obtain ⟨live₁, taken⟩ := chosen_refines live err choice
      obtain ⟨live₂, refines⟩ := redisRunCallback_refines allowed live₁ runs
      exact (taken.trans refines).continues (ih live₂ is)
    | frees _ err choice runs freeing is =>
      obtain ⟨live₂, -⟩ := redisRunCallback_refines allowed (chosen_refines live err choice).1 runs
      rw [live₂.freeing] at freeing
      cases freeing

/-! ### Events -/

private theorem redisBufferRead_err {nread : Nread} {c c' : RedisContext} {ok : Bool} (sound : c.err = 0)
    (is : redisBufferRead nread c = (ok, c')) : if ok = true then c'.err = 0 else c'.err ≠ 0 := by
  unfold redisBufferRead at is
  rw [if_neg (not_not.mpr sound)] at is
  split at is
  · split at is
    · cases is
      exact sound
    · cases is
      exact (by decide : REDIS_ERR_IO ≠ 0)
  · cases is
    exact (by decide : REDIS_ERR_EOF ≠ 0)
  · split at is
    · cases is
      exact sound
    · rename_i reader fed
      cases is
      show reader.err ≠ 0
      unfold redisReaderFeed at fed
      split at fed
      · rename_i failed
        cases fed
        exact failed
      · cases fed

private theorem redisBufferWrite_err {nwritten : Wrote} {c c' : RedisContext} {done : Option Bool} {taken : Str} (sound : c.err = 0)
    (is : redisBufferWrite nwritten c = (done, taken, c')) : if done.isSome = true then c'.err = 0 else c'.err ≠ 0 := by
  rcases redisBufferWrite_takes nwritten sound with ⟨n, wrote⟩ | ⟨strerror, failed⟩
  · rw [wrote, redisBufferWrite_wrote n sound] at is
    cases is
    exact sound
  · rw [failed] at is
    cases is
    exact (by decide : REDIS_ERR_IO ≠ 0)

private theorem read_connected_continues (allowed : AllowedProgram program) {nread : Nread} (live : Live true w)
    (is : read_connected program nread w = some w') : Continues true w w' := by
  unfold read_connected at is
  split at is
  · rename_i c read
    exact lost_continues allowed live (redisBufferRead_err live.err read) is
  · rename_i c read
    have sound : c.err = 0 := redisBufferRead_err live.err read
    have here : Live true { w with ac := { w.ac with c := c, rev := true }, received := w.received ++ given nread } :=
      (live.context (sound.trans live.err.symm)).same rfl
    have later := process_continues allowed here is
    refine Refines.continues ?_ later
    exact .none rfl rfl rfl rfl rfl

private theorem write_connected_continues (allowed : AllowedProgram program) {nwritten : Wrote} (live : Live true w)
    (is : write_connected program nwritten w = some w') : Continues true w w' := by
  unfold write_connected at is
  split at is
  · rename_i c wrote
    exact lost_continues allowed live (redisBufferWrite_err live.err wrote) is
  · rename_i done taken c wrote
    have sound : c.err = 0 := redisBufferWrite_err live.err wrote
    cases is
    exact ⟨.none rfl rfl rfl rfl rfl, fun _ => (live.context (sound.trans live.err.symm)).same rfl⟩

/-- What one call or event comes to. -/
def Matched (w w' : World) : Prop := ∃ on, Continues on w w'

/-- The attempt is refused, or it has succeeded and the handler goes on. -/
private theorem connected_first_matched {on : Bool} {check : Checked} {later : World → Option World}
    (settled : ∀ errstr, check ≠ .error true errstr)
    (goes : ∀ {w₁}, Live true w₁ → later w₁ = some w' → Continues true w₁ w') (live : Live on w)
    (is : connected_first program check later w = some w') : Matched w w' := by
  cases connected_first_passes live.onConnect is with
  | goes connects is =>
    refine ⟨true, ?_⟩
    cases connects with
    | before connected =>
      have here : Live true w := by
        rw [← connected, live.connected]
        exact live
      exact goes here is
    | now off =>
      obtain rfl : on = false := live.connected.symm.trans off
      have here : Live true ({ w with ac := { w.ac with connected := true } }.record (.connected true)) :=
        ⟨live.freed, rfl, live.freeing, live.monitoring, live.err, live.onConnect, live.onDisconnect⟩
      refine Refines.continues (.one (told_append _ _) fun {ctx} shows_ => ?_) (goes here is)
      obtain ⟨phase, -, count, closing⟩ := shows_.live live
      refine ⟨_, Turns.established phase, ?_, fun _ => ⟨count, closing⟩⟩
      rw [stage, show World.freed _ = false from live.freed]
      rfl
  | waits progress => exact absurd progress (settled _)
  | refused off ended =>
    obtain rfl : on = false := live.connected.symm.trans off
    obtain ⟨events, ok, quiet, log⟩ := ended.events
    rw [if_neg fun both => Bool.false_ne_true (off.symm.trans both.2), List.append_nil] at log
    have silent : told w'.log = told w.log ++ [.connected false] := by
      rw [log, told_append, told_quiet quiet, List.append_nil]
      exact told_append _ _
    exact ⟨false, .ends ended.freed silent fun shows_ => Turns.refused (shows_.live live).1⟩

private theorem disconnect_matched (allowed : AllowedProgram program) {on : Bool} (live : Live on w)
    (is : redisAsyncDisconnect program w = some w') : Matched w w' := by
  unfold redisAsyncDisconnect at is
  dsimp only at is
  split at is
  · rename_i idle
    obtain ⟨freed, -, log⟩ := asyncDisconnect_tells allowed is live.connected live.freeing live.onDisconnect
    dsimp only at log
    rw [decide_eq_true live.err] at log
    refine ⟨on, .ends freed log fun {ctx} shows_ => ?_⟩
    obtain ⟨phase, -, count, -⟩ := shows_.live live
    have none : ctx.replies = 0 := count.trans (by rw [idle.2]; rfl)
    cases on with
    | true =>
      rw [if_pos rfl]
      exact Turns.closed phase none
    | false =>
      rw [if_neg Bool.false_ne_true]
      exact Turns.dropped phase none
  · rename_i busy
    cases is
    refine ⟨on, .one (List.append_nil _).symm fun {ctx} shows_ => ?_, fun _ => live.same rfl⟩
    obtain ⟨-, alive, count, -⟩ := shows_.live live
    refine ⟨_, Turns.deferred w.ac.in_callback alive fun idle => busy ⟨idle.1, ?_⟩, shows_.phase, fun _ => ⟨count, rfl⟩⟩
    exact List.length_eq_zero_iff.mp (count.symm.trans idle.2)

/-- The calls and events that `AsyncConnections` knows: none finds an attempt in progress. -/
def Known : Act → Prop
  | .call call => Allowed call
  | .readable check _ => ∀ errstr, check ≠ .error true errstr
  | .writable check _ => ∀ errstr, check ≠ .error true errstr

theorem step_matched (allowed : AllowedProgram program) {on : Bool} {act : Act} (known : Known act) (live : Live on w)
    (is : step program w act = some w') : Matched w w' := by
  unfold step at is
  rw [if_neg (by rw [live.freed]; decide)] at is
  cases act with
  | call call =>
    cases call with
    | command cb argv =>
      obtain ⟨live', refines⟩ := command_refines live known is
      exact ⟨on, refines, fun _ => live'⟩
    | disconnect => exact disconnect_matched allowed live is
    | free => cases known
  | readable check nread =>
    dsimp only at is
    split at is
    · have here : Live on { w with ac := { w.ac with rev := false } } := live.same rfl
      obtain ⟨on', continues⟩ := connected_first_matched known (read_connected_continues allowed) here is
      refine ⟨on', Refines.continues ?_ continues⟩
      exact .none rfl rfl rfl rfl rfl
    · cases is
      exact ⟨on, .refl _, fun _ => live⟩
  | writable check nwritten =>
    dsimp only at is
    split at is
    · have here : Live on { w with ac := { w.ac with wev := false } } := live.same rfl
      obtain ⟨on', continues⟩ := connected_first_matched known (write_connected_continues allowed) here is
      refine ⟨on', Refines.continues ?_ continues⟩
      exact .none rfl rfl rfl rfl rfl
    · cases is
      exact ⟨on, .refl _, fun _ => live⟩

/-! ### Runs -/

/-- A run is matched as far as it has come; a context that has not been freed is alive. -/
private theorem run_matched (allowed : AllowedProgram program) {acts : List Act} (known : ∀ act ∈ acts, Known act)
    (is : run (step program) w acts = some w') (live : w.freed = false → ∃ on, Live on w) : Refines w w' := by
  refine (run_invariant_of (fun w' => Refines w w' ∧ (w'.freed = false → ∃ on, Live on w')) ?_ is known ⟨.refl w, live⟩).1
  rintro w₁ act w₂ ⟨refines, live⟩ known is
  by_cases dead : w₁.freed = true
  · have stays : step program w₁ act = some w₁ := if_pos dead
    rw [stays] at is
    cases is
    exact ⟨refines, live⟩
  · obtain ⟨on, live⟩ := live (Bool.eq_false_iff.mpr dead)
    obtain ⟨on', continues⟩ := step_matched allowed known live is
    exact ⟨refines.trans continues.refines, fun alive => ⟨on', continues.live alive⟩⟩

/-- The object after it has connected mirrors a context that has just been opened. -/
private theorem opened_mirrored (host : Str) (port db : Int) : Mirrors opened (dialled host port db, []) :=
  ⟨⟨host, port, .connecting, 0, false⟩, ⟨rfl, fun _ => ⟨rfl, rfl⟩⟩, rfl, rfl, rfl, rfl⟩

/-- The contexts of `AsyncConnections` are those of hiredis: every run of the code is one of
    the object, whose context is in the same phase, with as many replies that are waited
    for, and which has been told the same of its connection. -/
theorem contexts_refined (allowed : AllowedProgram program) {acts : List Act} (known : ∀ act ∈ acts, Known act)
    (is : run (step program) opened acts = some w) (host : Str) (port db : Int) :
    ∃ a, ReflTransGen Tells (dialled host port db, []) a ∧ Mirrors w a :=
  run_matched allowed known is (fun _ => ⟨false, rfl, rfl, rfl, rfl, rfl, rfl, rfl⟩) _ (opened_mirrored host port db)

/-- A callback that hangs up. -/
def hanging_up : Program := fun _ => [.disconnect]

/-- A reply that hangs up, and so ends the context. -/
def hung_up : List Act :=
  [.writable .ok (.wrote 0), .call (.command { fn := some 0 } ⟨1, [lit "PING"], [4]⟩), .writable .ok (.wrote 14),
    .readable .ok (.bytes (lit "+PONG\r\n"))]

theorem contexts_refined_hung_up : ∃ w, run (step hanging_up) opened hung_up = some w ∧
    told w.log = [.connected true, .disconnected true] ∧
      ∃ a, ReflTransGen Tells (dialled (lit "h") 6379 0, []) a ∧ Mirrors w a := by
  refine ⟨_, rfl, rfl, @contexts_refined _ hanging_up ?_ hung_up ?_ rfl _ _ _⟩
  · intro log call member
    rw [List.mem_singleton.mp member]
    trivial
  · intro act member
    simp only [hung_up, List.mem_cons, List.not_mem_nil, or_false] at member
    rcases member with rfl | rfl | rfl | rfl
    · exact fun _ => by simp
    · intro cmd is
      have formatted : redisFormatCommandArgv ⟨1, [lit "PING"], [4]⟩ = .command (lit "*1\r\n$4\r\nPING\r\n") := by
        decide +kernel
      cases formatted.symm.trans is
      rfl
    · exact fun _ => by simp
    · exact fun _ => by simp

end CppRedis.Refinements

import CppRedis.Runs
import CppRedis.Uri

/-!
`AsyncConnection` and the hiredis contexts that it has opened. The program calls
the object's operations, also from within a callback; hiredis establishes,
refuses and ends connections, runs the object's callbacks and frees contexts.
`uses` records every use that the object makes of a context and every callback
that hiredis delivers to the object, and whether what is used was gone by then.
`Moves` lists all that a call or an event can do (`step_moves`).
-/
namespace CppRedis.AsyncConnections
open CppRedis.Strings CppRedis.Uri CppRedis.Runs

inductive connection_status
  | DISCONNECTED
  | CONNECTING
  | CONNECTED
  | DISCONNECTING
  deriving DecidableEq

/-- The place of a context among all that the object has opened. -/
abbrev CtxId := Nat

/-- How far hiredis has come with a context. A `failed` one had its error when
    `redisAsyncConnect` returned: no event loop knows it, and it runs no callback
    of the object. -/
inductive Phase
  | failed
  | connecting
  | connected
  | freed
  deriving DecidableEq

/-- A `redisAsyncContext` whose `data` is the object; `replies` counts the
    commands whose callbacks wait. -/
structure AsyncContext where
  host : Str
  port : Int
  phase : Phase
  replies : Nat := 0
  disconnecting : Bool := false
  deriving DecidableEq

structure AsyncConnection where
  async_context_ : Option CtxId := none
  host_ : Str := []
  port_ : Int := 0
  db_ : Int := 0
  status_ : connection_status := .DISCONNECTED
  deriving DecidableEq

/-- The object uses a context, or hiredis calls the object back. -/
inductive Use
  | context (c : CtxId) (freed : Bool)
  | callback (c : CtxId) (destroyed : Bool)
  deriving DecidableEq

structure World where
  conn : AsyncConnection := {}
  destroyed : Bool := false
  contexts : List AsyncContext := []
  uses : List Use := []
  deriving DecidableEq

/-- The calls, `err` where `redisAsyncConnect` reports an error and `inCallback`
    where the call is made in a callback of the current context; and the events of
    hiredis. -/
inductive Act
  | connect (host : Str) (port db : Int) (err : Bool)
  | connect_url (url : Str) (err : Bool)
  | reconnect (err : Bool)
  | disconnect (inCallback : Bool)
  | send_command (waits : Bool)
  | destroy (inCallback : Bool)
  | established (c : CtxId)
  | refused (c : CtxId)
  | replied (c : CtxId)
  | lost (c : CtxId)
  | finished (c : CtxId)
  deriving DecidableEq

namespace World

def log (u : Use) (w : World) : World := { w with uses := w.uses ++ [u] }

def put (c : CtxId) (ctx : AsyncContext) (w : World) : World := { w with contexts := w.contexts.set c ctx }

def setStatus (status : connection_status) (w : World) : World := { w with conn := { w.conn with status_ := status } }

/-- The context that `async_context_` points to; none where that is NULL. -/
def current (w : World) : Option (CtxId × AsyncContext) :=
  match w.conn.async_context_ with
  | none => none
  | some c =>
    match w.contexts[c]? with
    | none => none
    | some ctx => some (c, ctx)

/-- `connect(host, port, db)`; the object's address is kept where the attempt has
    no error at once. -/
def connect (host : Str) (port db : Int) (err : Bool) (w : World) : World :=
  { w with
    contexts := w.contexts ++ [⟨host, port, if err then .failed else .connecting, 0, false⟩]
    conn :=
      if err then { w.conn with async_context_ := some w.contexts.length }
      else { w.conn with async_context_ := some w.contexts.length, host_ := host, port_ := port, db_ := db } }

/-- `reconnect()`, and what it returns. -/
def reconnect (err : Bool) (w : World) : Int × World :=
  if w.conn.status_ = .DISCONNECTED then (0, w.connect w.conn.host_ w.conn.port_ w.conn.db_ err) else (-1, w)

/-- `connect(url)`; an exception of `parse` leaves the object as it is. -/
def connect_url (url : Str) (err : Bool) (w : World) : World :=
  match parsed url with
  | .ok (some uri) => w.connect uri.host uri.port 0 err
  | _ => w

/-- hiredis calls the object back; nothing is said of a call to a destroyed one. -/
def call_back (c : CtxId) (f : World → World) (w : World) : World :=
  if w.destroyed then w.log (.callback c true) else f (w.log (.callback c false))

/-- `async_context_->errstr` is read. -/
def read_errstr (w : World) : World :=
  match w.current with
  | none => w
  | some (c, ctx) => w.log (.context c (ctx.phase = .freed))

def on_connect (ok : Bool) (w : World) : World := if ok then w.setStatus .CONNECTED else w.read_errstr

def on_disconnect (ok : Bool) (w : World) : World :=
  (if ok then w else w.read_errstr).setStatus .DISCONNECTED

/-- `__redisAsyncFree`: the disconnect callback runs for a context that had been
    connected. -/
def async_free (c : CtxId) (ctx : AsyncContext) (ok : Bool) (w : World) : World :=
  (if ctx.phase = .connected then w.call_back c (on_disconnect ok) else w).put c { ctx with phase := .freed }

/-- `redisAsyncDisconnect`: the context is freed at once, unless callbacks wait
    or one is running. Nothing is said of a context that is freed already. -/
def async_disconnect (inCallback : Bool) (c : CtxId) (ctx : AsyncContext) (w : World) : World :=
  if ctx.phase = .freed then w
  else if inCallback = false ∧ ctx.replies = 0 then w.async_free c ctx true
  else w.put c { ctx with disconnecting := true }

/-- `disconnect()`. -/
def disconnect (inCallback : Bool) (w : World) : Option World :=
  match w.current with
  | none => none
  | some (c, ctx) =>
    some (((w.setStatus .DISCONNECTING).log (.context c (ctx.phase = .freed))).async_disconnect inCallback c ctx)

/-- `send_command`; hiredis takes no command for a context that is about to be
    closed. -/
def send_command (waits : Bool) (w : World) : Option World :=
  match w.current with
  | none => none
  | some (c, ctx) =>
    let w := w.log (.context c (ctx.phase = .freed))
    if ctx.phase = .freed ∨ ctx.disconnecting = true ∨ waits = false then some w
    else some (w.put c { ctx with replies := ctx.replies + 1 })

/-- `~AsyncConnection`. -/
def destroy (inCallback : Bool) (w : World) : Option World :=
  (if w.conn.status_ = .CONNECTED then w.disconnect inCallback else some w).map
    fun w => { w with destroyed := true }

/-- An event of hiredis on a context that is in the phase that the event needs. -/
def event (c : CtxId) (enabled : AsyncContext → Bool) (f : AsyncContext → World → World) (w : World) :
    Option World :=
  match w.contexts[c]? with
  | none => none
  | some ctx => if enabled ctx then some (f ctx w) else none

end World

open World

/-- A call of an operation needs the object; NULL contexts are not used. -/
def step (w : World) : Act → Option World
  | .connect host port db err => if w.destroyed then none else some (w.connect host port db err)
  | .connect_url url err => if w.destroyed then none else some (w.connect_url url err)
  | .reconnect err => if w.destroyed then none else some (w.reconnect err).2
  | .disconnect inCallback => if w.destroyed then none else w.disconnect inCallback
  | .send_command waits => if w.destroyed then none else w.send_command waits
  | .destroy inCallback => if w.destroyed then none else w.destroy inCallback
  | .established c =>
    w.event c (fun ctx => ctx.phase = .connecting) fun ctx w =>
      (w.put c { ctx with phase := .connected }).call_back c (on_connect true)
  | .refused c =>
    w.event c (fun ctx => ctx.phase = .connecting) fun ctx w =>
      (w.call_back c (on_connect false)).async_free c ctx false
  | .replied c =>
    w.event c (fun ctx => ctx.phase = .connected ∧ 0 < ctx.replies) fun ctx w =>
      w.put c { ctx with replies := ctx.replies - 1 }
  | .lost c => w.event c (fun ctx => ctx.phase = .connected) fun ctx w => w.async_free c ctx false
  | .finished c =>
    w.event c (fun ctx => ctx.phase = .connected ∧ ctx.disconnecting = true ∧ ctx.replies = 0) fun ctx w =>
      w.async_free c ctx true

/-- The connection is opened with this address. -/
inductive Opens (w : World) : Act → Str → Int → Int → Bool → Prop
  | connect (host : Str) (port db : Int) (err : Bool) : Opens w (.connect host port db err) host port db err
  | connect_url {url : Str} {uri : URI} (err : Bool) (parses : parsed url = .ok (some uri)) :
      Opens w (.connect_url url err) uri.host uri.port 0 err
  | reconnect (err : Bool) (status : w.conn.status_ = .DISCONNECTED) :
      Opens w (.reconnect err) w.conn.host_ w.conn.port_ w.conn.db_ err

namespace World

@[simp] theorem log_contexts (u : Use) (w : World) : (w.log u).contexts = w.contexts := rfl
@[simp] theorem log_conn (u : Use) (w : World) : (w.log u).conn = w.conn := rfl
@[simp] theorem log_destroyed (u : Use) (w : World) : (w.log u).destroyed = w.destroyed := rfl
@[simp] theorem log_uses (u : Use) (w : World) : (w.log u).uses = w.uses ++ [u] := rfl
@[simp] theorem put_contexts (c : CtxId) (ctx : AsyncContext) (w : World) :
    (w.put c ctx).contexts = w.contexts.set c ctx := rfl
@[simp] theorem put_conn (c : CtxId) (ctx : AsyncContext) (w : World) : (w.put c ctx).conn = w.conn := rfl
@[simp] theorem put_destroyed (c : CtxId) (ctx : AsyncContext) (w : World) : (w.put c ctx).destroyed = w.destroyed := rfl
@[simp] theorem put_uses (c : CtxId) (ctx : AsyncContext) (w : World) : (w.put c ctx).uses = w.uses := rfl
@[simp] theorem setStatus_contexts (status : connection_status) (w : World) :
    (w.setStatus status).contexts = w.contexts := rfl
@[simp] theorem setStatus_status (status : connection_status) (w : World) :
    (w.setStatus status).conn.status_ = status := rfl
@[simp] theorem setStatus_destroyed (status : connection_status) (w : World) :
    (w.setStatus status).destroyed = w.destroyed := rfl
@[simp] theorem setStatus_uses (status : connection_status) (w : World) : (w.setStatus status).uses = w.uses := rfl

@[simp] theorem read_errstr_contexts (w : World) : w.read_errstr.contexts = w.contexts := by
  unfold read_errstr
  split <;> rfl

@[simp] theorem read_errstr_conn (w : World) : w.read_errstr.conn = w.conn := by
  unfold read_errstr
  split <;> rfl

@[simp] theorem read_errstr_destroyed (w : World) : w.read_errstr.destroyed = w.destroyed := by
  unfold read_errstr
  split <;> rfl

@[simp] theorem on_connect_contexts (ok : Bool) (w : World) : (on_connect ok w).contexts = w.contexts := by
  cases ok <;> simp [on_connect]

@[simp] theorem on_disconnect_contexts (ok : Bool) (w : World) : (on_disconnect ok w).contexts = w.contexts := by
  cases ok <;> simp [on_disconnect]

@[simp] theorem on_connect_destroyed (ok : Bool) (w : World) : (on_connect ok w).destroyed = w.destroyed := by
  cases ok <;> simp [on_connect]

@[simp] theorem on_disconnect_destroyed (ok : Bool) (w : World) : (on_disconnect ok w).destroyed = w.destroyed := by
  cases ok <;> simp [on_disconnect]

theorem call_back_destroyed (c : CtxId) {f : World → World} (keeps : ∀ w, (f w).destroyed = w.destroyed) (w : World) :
    (w.call_back c f).destroyed = w.destroyed := by
  unfold call_back
  split
  · rfl
  · rw [keeps, log_destroyed]

theorem call_back_contexts (c : CtxId) {f : World → World} (keeps : ∀ w, (f w).contexts = w.contexts)
    (w : World) : (w.call_back c f).contexts = w.contexts := by
  unfold call_back
  split
  · rfl
  · rw [keeps, log_contexts]

theorem ended_contexts (c : CtxId) {f : World → World} (keeps : ∀ w, (f w).contexts = w.contexts)
    (ctx : AsyncContext) (w : World) : ((w.call_back c f).put c ctx).contexts = w.contexts.set c ctx := by
  rw [put_contexts, call_back_contexts c keeps]

theorem current_cases {w : World} {c : CtxId} {ctx : AsyncContext} (current : w.current = some (c, ctx)) :
    w.conn.async_context_ = some c ∧ w.contexts[c]? = some ctx := by
  simp only [World.current] at current
  cases pointer : w.conn.async_context_ with
  | none => simp [pointer] at current
  | some d =>
    cases at_d : w.contexts[d]? with
    | none => simp [pointer, at_d] at current
    | some other =>
      simp only [pointer, at_d, Option.some.injEq, Prod.mk.injEq] at current
      obtain ⟨rfl, rfl⟩ := current
      exact ⟨rfl, at_d⟩

theorem event_cases {w w' : World} {c : CtxId} {enabled : AsyncContext → Bool} {f : AsyncContext → World → World}
    (taken : w.event c enabled f = some w') :
    ∃ ctx, w.contexts[c]? = some ctx ∧ enabled ctx = true ∧ w' = f ctx w := by
  simp only [World.event] at taken
  cases at_c : w.contexts[c]? with
  | none => simp [at_c] at taken
  | some ctx =>
    by_cases may : enabled ctx = true
    · simp only [at_c, may, ↓reduceIte, Option.some.injEq] at taken
      exact ⟨ctx, rfl, may, taken.symm⟩
    · simp [at_c, may] at taken

end World

/-! ### What a call or an event can do -/

/-- What `disconnect` can do: use a context that is freed, free one and be called
    back, free one without a callback, or leave it to hiredis. -/
inductive Disconnects (w : World) (inCallback : Bool) : World → Prop
  | gone {c : CtxId} {ctx : AsyncContext} (current : w.current = some (c, ctx)) (freed : ctx.phase = .freed) :
      Disconnects w inCallback ((w.setStatus .DISCONNECTING).log (.context c true))
  | closed {c : CtxId} {ctx : AsyncContext} (current : w.current = some (c, ctx)) (phase : ctx.phase = .connected)
      (idle : inCallback = false ∧ ctx.replies = 0) :
      Disconnects w inCallback (((((w.setStatus .DISCONNECTING).log (.context c false)).log
        (.callback c false)).setStatus .DISCONNECTED).put c { ctx with phase := .freed })
  | dropped {c : CtxId} {ctx : AsyncContext} (current : w.current = some (c, ctx))
      (phase : ctx.phase = .failed ∨ ctx.phase = .connecting) (idle : inCallback = false ∧ ctx.replies = 0) :
      Disconnects w inCallback (((w.setStatus .DISCONNECTING).log (.context c false)).put c
        { ctx with phase := .freed })
  | deferred {c : CtxId} {ctx : AsyncContext} (current : w.current = some (c, ctx)) (alive : ctx.phase ≠ .freed)
      (busy : ¬ (inCallback = false ∧ ctx.replies = 0)) :
      Disconnects w inCallback (((w.setStatus .DISCONNECTING).log (.context c false)).put c
        { ctx with disconnecting := true })

theorem disconnect_cases {w w' : World} {inCallback : Bool} (live : w.destroyed = false)
    (done : w.disconnect inCallback = some w') : Disconnects w inCallback w' := by
  simp only [World.disconnect] at done
  cases current : w.current with
  | none => simp [current] at done
  | some target =>
    obtain ⟨c, ctx⟩ := target
    simp only [current, Option.some.injEq] at done
    subst done
    by_cases idle : inCallback = false ∧ ctx.replies = 0
    · cases phase : ctx.phase with
      | freed => simpa [async_disconnect, phase] using Disconnects.gone current phase
      | connected =>
        simpa [async_disconnect, async_free, call_back, on_disconnect, phase, idle, live] using
          Disconnects.closed current phase idle
      | failed =>
        simpa [async_disconnect, async_free, phase, idle] using Disconnects.dropped current (.inl phase) idle
      | connecting =>
        simpa [async_disconnect, async_free, phase, idle] using Disconnects.dropped current (.inr phase) idle
    · by_cases freed : ctx.phase = .freed
      · have gone : Disconnects w inCallback _ := .gone current freed
        simpa [async_disconnect, freed] using gone
      · simpa [async_disconnect, freed, idle] using Disconnects.deferred current freed idle

inductive Moves (w : World) : Act → World → Prop
  | opened {act : Act} {host : Str} {port db : Int} {err : Bool} (live : w.destroyed = false)
      (opens : Opens w act host port db err) : Moves w act (w.connect host port db err)
  | unopened {act : Act} (live : w.destroyed = false)
      (call : (∃ url err, act = .connect_url url err) ∨ ∃ err, act = .reconnect err)
      (none : ∀ host port db err, ¬ Opens w act host port db err) : Moves w act w
  | disconnected {inCallback : Bool} {w' : World} (live : w.destroyed = false) (part : Disconnects w inCallback w') :
      Moves w (.disconnect inCallback) w'
  | unsent {waits : Bool} {c : CtxId} {ctx : AsyncContext} (live : w.destroyed = false)
      (current : w.current = some (c, ctx)) :
      Moves w (.send_command waits) (w.log (.context c (ctx.phase = .freed)))
  | sent {c : CtxId} {ctx : AsyncContext} (live : w.destroyed = false) (current : w.current = some (c, ctx))
      (alive : ctx.phase ≠ .freed) :
      Moves w (.send_command true) ((w.log (.context c false)).put c { ctx with replies := ctx.replies + 1 })
  | destroyed {inCallback : Bool} (live : w.destroyed = false) (status : w.conn.status_ ≠ .CONNECTED) :
      Moves w (.destroy inCallback) { w with destroyed := true }
  | destroyed_connected {inCallback : Bool} {w' : World} (live : w.destroyed = false)
      (status : w.conn.status_ = .CONNECTED) (part : Disconnects w inCallback w') :
      Moves w (.destroy inCallback) { w' with destroyed := true }
  | established {c : CtxId} {ctx : AsyncContext} (at_c : w.contexts[c]? = some ctx) (phase : ctx.phase = .connecting) :
      Moves w (.established c) ((w.put c { ctx with phase := .connected }).call_back c (on_connect true))
  | refused {c : CtxId} {ctx : AsyncContext} (at_c : w.contexts[c]? = some ctx) (phase : ctx.phase = .connecting) :
      Moves w (.refused c) ((w.call_back c (on_connect false)).put c { ctx with phase := .freed })
  | replied {c : CtxId} {ctx : AsyncContext} (at_c : w.contexts[c]? = some ctx) (phase : ctx.phase = .connected) :
      Moves w (.replied c) (w.put c { ctx with replies := ctx.replies - 1 })
  | lost {c : CtxId} {ctx : AsyncContext} (at_c : w.contexts[c]? = some ctx) (phase : ctx.phase = .connected) :
      Moves w (.lost c) ((w.call_back c (on_disconnect false)).put c { ctx with phase := .freed })
  | finished {c : CtxId} {ctx : AsyncContext} (at_c : w.contexts[c]? = some ctx) (phase : ctx.phase = .connected) :
      Moves w (.finished c) ((w.call_back c (on_disconnect true)).put c { ctx with phase := .freed })

private theorem call_moves {w w' : World} {act : Act} (live : w.destroyed = false) (taken : step w act = some w')
    (call : (∃ url err, act = .connect_url url err) ∨ ∃ err, act = .reconnect err) : Moves w act w' := by
  rcases call with ⟨url, err, rfl⟩ | ⟨err, rfl⟩
  · simp only [step, live, Bool.false_eq_true, ↓reduceIte, Option.some.injEq, World.connect_url] at taken
    split at taken
    · rename_i uri parses
      exact taken ▸ .opened live (.connect_url err parses)
    · rename_i other
      refine taken ▸ .unopened live (.inl ⟨url, err, rfl⟩) ?_
      rintro _ _ _ _ (_ | ⟨_, parses⟩)
      exact other _ parses
  · simp only [step, live, Bool.false_eq_true, ↓reduceIte, Option.some.injEq, World.reconnect] at taken
    split at taken
    · rename_i status
      exact taken ▸ .opened live (.reconnect err status)
    · rename_i other
      refine taken ▸ .unopened live (.inr ⟨err, rfl⟩) ?_
      rintro _ _ _ _ (_ | _ | ⟨_, status⟩)
      exact other status

private theorem send_moves {w w' : World} {waits : Bool} (live : w.destroyed = false)
    (done : w.send_command waits = some w') : Moves w (.send_command waits) w' := by
  simp only [World.send_command] at done
  cases current : w.current with
  | none => simp [current] at done
  | some target =>
    obtain ⟨c, ctx⟩ := target
    simp only [current] at done
    split at done
    · exact Option.some.inj done ▸ .unsent live current
    · rename_i may
      simp only [not_or] at may
      obtain ⟨alive, _, waiting⟩ := may
      obtain rfl : waits = true := by simpa using waiting
      simp only [alive, decide_false, Option.some.injEq] at done
      exact done ▸ .sent live current alive

private theorem destroy_moves {w w' : World} {inCallback : Bool} (live : w.destroyed = false)
    (done : w.destroy inCallback = some w') : Moves w (.destroy inCallback) w' := by
  simp only [World.destroy, Option.map_eq_some_iff] at done
  obtain ⟨mid, first, rfl⟩ := done
  split at first
  · rename_i status
    exact .destroyed_connected live status (disconnect_cases live first)
  · rename_i status
    obtain rfl := Option.some.inj first
    exact .destroyed live status

theorem step_moves {w w' : World} {act : Act} (taken : step w act = some w') : Moves w act w' := by
  have alive : (∀ c, act ≠ .established c ∧ act ≠ .refused c ∧ act ≠ .replied c ∧ act ≠ .lost c ∧ act ≠ .finished c) →
      w.destroyed = false := by
    intro call
    cases gone : w.destroyed with
    | false => rfl
    | true => cases act <;> simp [step, gone] at taken <;> simp_all
  cases act with
  | connect host port db err =>
    have live := alive (by simp)
    simp only [step, live, Bool.false_eq_true, ↓reduceIte, Option.some.injEq] at taken
    exact taken ▸ .opened live (.connect host port db err)
  | connect_url url err => exact call_moves (alive (by simp)) taken (.inl ⟨url, err, rfl⟩)
  | reconnect err => exact call_moves (alive (by simp)) taken (.inr ⟨err, rfl⟩)
  | disconnect inCallback =>
    have live := alive (by simp)
    simp only [step, live, Bool.false_eq_true, ↓reduceIte] at taken
    exact .disconnected live (disconnect_cases live taken)
  | send_command waits =>
    have live := alive (by simp)
    simp only [step, live, Bool.false_eq_true, ↓reduceIte] at taken
    exact send_moves live taken
  | destroy inCallback =>
    have live := alive (by simp)
    simp only [step, live, Bool.false_eq_true, ↓reduceIte] at taken
    exact destroy_moves live taken
  | established c =>
    rw [step] at taken
    obtain ⟨ctx, at_c, phase, rfl⟩ := event_cases taken
    exact .established at_c (by simpa using phase)
  | refused c =>
    rw [step] at taken
    obtain ⟨ctx, at_c, phase, rfl⟩ := event_cases taken
    have phase : ctx.phase = .connecting := by simpa using phase
    simpa [async_free, phase] using Moves.refused at_c phase
  | replied c =>
    rw [step] at taken
    obtain ⟨ctx, at_c, phase, rfl⟩ := event_cases taken
    exact .replied at_c (by simpa using (by simpa using phase : _ ∧ _).1)
  | lost c =>
    rw [step] at taken
    obtain ⟨ctx, at_c, phase, rfl⟩ := event_cases taken
    have phase : ctx.phase = .connected := by simpa using phase
    simpa [async_free, phase] using Moves.lost at_c phase
  | finished c =>
    rw [step] at taken
    obtain ⟨ctx, at_c, phase, rfl⟩ := event_cases taken
    have phase : ctx.phase = .connected := (by simpa using phase : _ ∧ _).1
    simpa [async_free, phase] using Moves.finished at_c phase

end CppRedis.AsyncConnections

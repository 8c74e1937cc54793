import CppRedis.AsyncConnections

/-!
The contexts of an `AsyncConnection` and the object itself, over whole runs: how
many contexts are alive (`at_most_one_iff`), whether the object uses a context
that is freed or is called back after its end (`uses_safe`), and whether
`reconnect` works once no context is alive (`never_stuck`). `connect` does not
set `CONNECTING`, so `reconnect` opens a second context beside one that is
pending; `status_` stays `DISCONNECTING` when `disconnect` ends a connection that
was never established, since hiredis calls back for established ones only.
-/
namespace CppRedis.AsyncLifetimes
open CppRedis.Strings CppRedis.Uri CppRedis.Runs CppRedis.AsyncConnections
open World

/-- hiredis has not freed the context. -/
def AsyncContext.Alive (ctx : AsyncContext) : Prop := ctx.phase ≠ .freed

instance (ctx : AsyncContext) : Decidable (AsyncContext.Alive ctx) := inferInstanceAs (Decidable (_ ≠ _))

open AsyncContext

/-! ### How many contexts are alive -/

/-- The number of contexts that are alive. -/
def alive (w : World) : Nat := w.contexts.countP fun ctx => Alive ctx

/-- At most one context of the object is alive. -/
def AtMostOne (w : World) : Prop := alive w ≤ 1

instance (w : World) : Decidable (AtMostOne w) := inferInstanceAs (Decidable (_ ≤ _))

/-- A connection is opened only while every earlier context is freed. -/
def Spaced (w : World) (act : Act) : Prop :=
  ∀ host port db err, Opens w act host port db err → ∀ ctx ∈ w.contexts, ¬ Alive ctx

private theorem alive_zero (w : World) : alive w = 0 ↔ ∀ ctx ∈ w.contexts, ¬ Alive ctx := by
  simp [alive, List.countP_eq_zero]

private theorem set_alive {w w' : World} {c : CtxId} {ctx ctx' : AsyncContext} (at_c : w.contexts[c]? = some ctx)
    (same : w'.contexts = w.contexts.set c ctx') (ends : Alive ctx' → Alive ctx) : alive w' ≤ alive w := by
  obtain ⟨inside, is⟩ := List.getElem?_eq_some_iff.mp at_c
  simp only [alive, same, List.countP_set inside, is]
  by_cases before : Alive ctx
  · have positive : 0 < w.contexts.countP fun ctx => Alive ctx :=
      List.countP_pos_iff.mpr ⟨ctx, List.mem_of_getElem? at_c, by simpa using before⟩
    by_cases after : Alive ctx'
    · simp only [before, after, decide_true, ↓reduceIte]
      omega
    · simp [before, after]
  · have after : ¬ Alive ctx' := fun now => before (ends now)
    simp [before, after]

private theorem disconnects_alive {w w' : World} {inCallback : Bool} (part : Disconnects w inCallback w') :
    alive w' ≤ alive w := by
  cases part with
  | gone current freed => exact le_rfl
  | closed current phase idle | dropped current phase idle =>
    exact set_alive (current_cases current).2 rfl fun now => absurd rfl now
  | deferred current alive busy => exact set_alive (current_cases current).2 rfl fun _ => alive

/-- A step opens one more context or makes none alive. -/
theorem moves_alive {w w' : World} {act : Act} (moves : Moves w act w') :
    ((∃ host port db err, Opens w act host port db err) ∧ alive w' = alive w + 1) ∨
    ((∀ host port db err, ¬ Opens w act host port db err) ∧ alive w' ≤ alive w) := by
  cases moves with
  | @opened act host port db err live opens =>
    refine .inl ⟨⟨host, port, db, err, opens⟩, ?_⟩
    simp only [alive, World.connect, List.countP_append]
    cases err <;> simp [Alive]
  | unopened live call none => exact .inr ⟨none, le_rfl⟩
  | disconnected live part => exact .inr ⟨nofun, disconnects_alive part⟩
  | unsent live current => exact .inr ⟨nofun, le_rfl⟩
  | sent live current alive => exact .inr ⟨nofun, set_alive (current_cases current).2 rfl fun _ => alive⟩
  | destroyed live status => exact .inr ⟨nofun, le_rfl⟩
  | @destroyed_connected _ w' live status part => exact .inr ⟨nofun, (disconnects_alive part : alive w' ≤ alive w)⟩
  | established at_c phase =>
    refine .inr ⟨nofun, set_alive at_c (call_back_contexts _ (on_connect_contexts true) _) ?_⟩
    intro _
    simp [Alive, phase]
  | refused at_c phase =>
    exact .inr ⟨nofun, set_alive at_c (ended_contexts _ (on_connect_contexts false) _ w) fun now => absurd rfl now⟩
  | replied at_c phase => exact .inr ⟨nofun, set_alive at_c rfl fun now => now⟩
  | lost at_c phase =>
    exact .inr ⟨nofun, set_alive at_c (ended_contexts _ (on_disconnect_contexts false) _ w) fun now => absurd rfl now⟩
  | finished at_c phase =>
    exact .inr ⟨nofun, set_alive at_c (ended_contexts _ (on_disconnect_contexts true) _ w) fun now => absurd rfl now⟩

/-- At most one context is alive all along a run exactly if no connection is opened
    while an earlier context is alive. -/
theorem at_most_one_iff (acts : List Act) : Along step AtMostOne {} acts ↔ Meets step Spaced {} acts := by
  refine along_iff_each (fun _ => True) (fun _ _ _ _ _ => trivial) ?_ trivial (by decide) acts
  intro w act w' _ one taken
  rcases moves_alive (step_moves taken) with ⟨⟨host, port, db, err, opens⟩, more⟩ | ⟨none, fewer⟩
  · rw [AtMostOne, more]
    constructor
    · intro bound _ _ _ _ _
      exact (alive_zero w).mp (by omega)
    · intro spaced
      have zero := (alive_zero w).mpr (spaced host port db err opens)
      omega
  · exact iff_of_true (fewer.trans one) fun host port db err opens => absurd opens (none host port db err)

/-- `reconnect` is called twice before the first attempt is established or refused. -/
theorem reconnect_opens_second : ∃ w, run step {} [.connect (lit "h") 6379 0 false, .reconnect false] = some w ∧
    w.contexts.map AsyncContext.phase = [.connecting, .connecting] ∧ ¬ AtMostOne w := by
  refine ⟨_, rfl, rfl, ?_⟩
  decide

/-! ### Uses of what is gone -/

/-- The context was not freed, or the object not destroyed. -/
def Use.Good : Use → Prop
  | .context _ freed => freed = false
  | .callback _ destroyed => destroyed = false

/-- The object has used no context that was freed, and hiredis has not called it
    back after its end. -/
def Safe (w : World) : Prop := ∀ u ∈ w.uses, Use.Good u

/-- hiredis can still call the object back from the context. -/
def AsyncContext.Attached (ctx : AsyncContext) : Prop := ctx.phase = .connecting ∨ ctx.phase = .connected

instance (ctx : AsyncContext) : Decidable (AsyncContext.Attached ctx) := inferInstanceAs (Decidable (_ ∨ _))

/-- The context that `async_context_` points to is alive. -/
def CurrentAlive (w : World) : Prop := ∀ target ∈ w.current, Alive target.2

instance (w : World) : Decidable (CurrentAlive w) := inferInstanceAs (Decidable (∀ target ∈ w.current, _))

/-- The context is the one that the destructor disconnects, and that call frees
    it at once. -/
def EndsWith (w : World) (inCallback : Bool) (c : CtxId) (ctx : AsyncContext) : Prop :=
  w.conn.status_ = .CONNECTED ∧ w.current = some (c, ctx) ∧ inCallback = false ∧ ctx.replies = 0

instance (w : World) (inCallback : Bool) (c : CtxId) (ctx : AsyncContext) : Decidable (EndsWith w inCallback c ctx) :=
  inferInstanceAs (Decidable (_ ∧ _))

/-- Every context that can call the object back ends with it. -/
def AllEnd (w : World) (inCallback : Bool) : Prop :=
  ∀ c < w.contexts.length, ∀ ctx ∈ w.contexts[c]?, Attached ctx → EndsWith w inCallback c ctx

instance (w : World) (inCallback : Bool) : Decidable (AllEnd w inCallback) :=
  inferInstanceAs (Decidable (∀ c < w.contexts.length, ∀ ctx ∈ w.contexts[c]?, _))

private theorem AllEnd.at {w : World} {inCallback : Bool} (all : AllEnd w inCallback) {c : CtxId} {ctx : AsyncContext}
    (at_c : w.contexts[c]? = some ctx) (attached : Attached ctx) : EndsWith w inCallback c ctx :=
  all c (List.getElem?_eq_some_iff.mp at_c).1 ctx at_c attached

/-- `disconnect` and `send_command` are called while the current context is alive;
    the object is destroyed when no context can call it back but one that its
    destructor frees at once; no context fails after the current one was freed. -/
def Careful (w : World) : Act → Prop
  | .disconnect _ => CurrentAlive w
  | .send_command _ => CurrentAlive w
  | .destroy inCallback => (w.conn.status_ = .CONNECTED → CurrentAlive w) ∧ AllEnd w inCallback
  | .refused _ => CurrentAlive w
  | .lost _ => CurrentAlive w
  | _ => True

instance (w : World) : (act : Act) → Decidable (Careful w act)
  | .disconnect _ | .send_command _ | .refused _ | .lost _ => inferInstanceAs (Decidable (CurrentAlive w))
  | .destroy inCallback => inferInstanceAs (Decidable ((_ → CurrentAlive w) ∧ AllEnd w inCallback))
  | .connect .. | .connect_url .. | .reconnect _ | .established _ | .replied _ | .finished _ => .isTrue trivial

/-- What a careful run keeps. -/
structure Sheltered (w : World) : Prop where
  safe : Safe w
  gone : w.destroyed = true → ∀ ctx ∈ w.contexts, ¬ Attached ctx

private theorem safe_log {w : World} {u : Use} (safe : Safe w) (good : Use.Good u) : Safe (w.log u) := by
  intro v member
  rcases List.mem_append.mp member with old | new
  · exact safe v old
  · exact List.mem_singleton.mp new ▸ good

private theorem read_safe {w : World} (safe : Safe w) (alive : CurrentAlive w) : Safe w.read_errstr := by
  unfold read_errstr
  split
  · exact safe
  · rename_i c ctx current
    exact safe_log safe (decide_eq_false (alive (c, ctx) current))

/-- What `disconnect` uses is alive if the current context is. -/
private theorem disconnects_safe {w w' : World} {inCallback : Bool} (part : Disconnects w inCallback w')
    (safe : Safe w) (alive : CurrentAlive w) : Safe w' := by
  have first : ∀ c, Safe ((w.setStatus .DISCONNECTING).log (.context c false)) := fun c => safe_log safe rfl
  cases part with
  | gone current freed => exact absurd freed (alive _ current)
  | closed current phase idle => exact safe_log (u := .callback _ false) (first _) rfl
  | dropped current phase idle | deferred current alive busy => exact first _

private theorem disconnects_destroyed {w w' : World} {inCallback : Bool} (part : Disconnects w inCallback w') :
    w'.destroyed = w.destroyed := by
  cases part <;> rfl

/-- After the destructor's call no context can call the object back. -/
private theorem disconnects_detached {w w' : World} {inCallback : Bool} (part : Disconnects w inCallback w')
    (all : AllEnd w inCallback) : ∀ ctx ∈ w'.contexts, ¬ Attached ctx := by
  intro ctx member attached
  obtain ⟨d, at_d⟩ := List.getElem?_of_mem member
  have moved : ∀ c old new, w.current = some (c, old) → Alive old → w'.contexts = w.contexts.set c new →
      (inCallback = false ∧ old.replies = 0 → ¬ Attached new) →
      (Attached new → Attached old) → False := by
    intro c old new current alive same freed kept
    have at_c := (current_cases current).2
    rw [same] at at_d
    by_cases here : d = c
    · subst here
      rw [List.getElem?_set_self (List.getElem?_eq_some_iff.mp at_c).1, Option.some.injEq] at at_d
      subst at_d
      obtain ⟨_, _, idle, replies⟩ := all.at at_c (kept attached)
      exact freed ⟨idle, replies⟩ attached
    · rw [List.getElem?_set_ne (fun e => here e.symm)] at at_d
      obtain ⟨_, other, _⟩ := all.at at_d attached
      rw [current, Option.some.injEq, Prod.mk.injEq] at other
      exact here other.1.symm
  cases part with
  | @gone c old current freed =>
    obtain ⟨_, other, _⟩ := all.at at_d attached
    rw [current, Option.some.injEq, Prod.mk.injEq] at other
    obtain ⟨_, rfl⟩ := other
    rcases attached with phase | phase <;> rw [freed] at phase <;> cases phase
  | @closed c old current phase idle =>
    have detached : ¬ Attached { old with phase := .freed } := by simp [Attached]
    apply moved c old _ current (by simp [Alive, phase]) rfl (fun _ => detached)
    intro now
    exact absurd now detached
  | @dropped c old current phase idle =>
    have detached : ¬ Attached { old with phase := .freed } := by simp [Attached]
    apply moved c old _ current (by rcases phase with p | p <;> simp [Alive, p]) rfl (fun _ => detached)
    intro now
    exact absurd now detached
  | @deferred c old current alive busy =>
    apply moved c old _ current alive rfl
    · intro idle
      exact absurd idle busy
    · exact id

/-- What the object does in a callback of a context is safe while it is not
    destroyed and its current context is alive. -/
private theorem called_safe {w : World} {c : CtxId} {f : World → World} (safe : Safe w) (live : w.destroyed = false)
    (keeps : ∀ w, Safe w → CurrentAlive w → Safe (f w)) (alive : CurrentAlive w) : Safe (w.call_back c f) := by
  unfold call_back
  split
  · rename_i gone
    rw [live] at gone
    cases gone
  · exact keeps _ (safe_log safe rfl) alive

private theorem attached_live {w : World} {c : CtxId} {ctx : AsyncContext} (sheltered : Sheltered w)
    (at_c : w.contexts[c]? = some ctx) (attached : Attached ctx) : w.destroyed = false := by
  cases gone : w.destroyed with
  | false => rfl
  | true => exact absurd attached (sheltered.gone gone ctx (List.mem_of_getElem? at_c))

/-- The object lives after the step if it does before. -/
private theorem still_live {w w' : World} (live : w.destroyed = false) (same : w'.destroyed = w.destroyed) :
    w'.destroyed = true → ∀ ctx ∈ w'.contexts, ¬ Attached ctx := by
  intro gone
  rw [same, live] at gone
  cases gone

theorem step_sheltered {w w' : World} {act : Act} (sheltered : Sheltered w) (careful : Careful w act)
    (taken : step w act = some w') : Sheltered w' := by
  have safe := sheltered.safe
  cases step_moves taken with
  | opened live opens => exact ⟨safe, still_live live rfl⟩
  | unopened live call none => exact sheltered
  | disconnected live part =>
    exact ⟨disconnects_safe part safe careful, still_live live (disconnects_destroyed part)⟩
  | @unsent waits c ctx live current =>
    exact ⟨safe_log safe (decide_eq_false (careful (c, ctx) current)), still_live live rfl⟩
  | sent live current alive => exact ⟨safe_log (u := .context _ false) safe rfl, still_live live rfl⟩
  | destroyed live status =>
    refine ⟨safe, ?_⟩
    intro _ ctx member attached
    obtain ⟨d, at_d⟩ := List.getElem?_of_mem member
    exact status (careful.2.at at_d attached).1
  | @destroyed_connected _ mid live status part =>
    have detached : ∀ ctx ∈ mid.contexts, ¬ Attached ctx := disconnects_detached part careful.2
    have used : Safe mid := disconnects_safe part safe (careful.1 status)
    exact ⟨used, fun _ => detached⟩
  | @established c ctx at_c phase =>
    have live := attached_live sheltered at_c (.inl phase)
    refine ⟨?_, still_live live (call_back_destroyed _ (on_connect_destroyed true) _)⟩
    simp only [call_back, put_destroyed, live, Bool.false_eq_true, ↓reduceIte]
    exact safe_log (u := .callback c false) safe rfl
  | refused at_c phase =>
    have live := attached_live sheltered at_c (.inl phase)
    exact ⟨called_safe safe live (fun _ safe alive => read_safe safe alive) careful, still_live live
      (call_back_destroyed _ (on_connect_destroyed false) w)⟩
  | replied at_c phase => exact ⟨safe, still_live (attached_live sheltered at_c (.inr phase)) rfl⟩
  | lost at_c phase =>
    have live := attached_live sheltered at_c (.inr phase)
    exact ⟨called_safe safe live (fun _ safe alive => read_safe safe alive) careful, still_live live
      (call_back_destroyed _ (on_disconnect_destroyed false) w)⟩
  | finished at_c phase =>
    have live := attached_live sheltered at_c (.inr phase)
    refine ⟨?_, still_live live (call_back_destroyed _ (on_disconnect_destroyed true) w)⟩
    simp only [Safe, put_uses, call_back, live, Bool.false_eq_true, ↓reduceIte]
    exact safe_log (u := .callback _ false) safe rfl

/-- In a careful run the object uses no context that was freed, and hiredis never
    calls it back after its end. -/
theorem uses_safe (acts : List Act) (careful : Meets step Careful {} acts) : Along step Safe {} acts := by
  refine along_of_each Sheltered (fun _ _ _ sheltered here taken => step_sheltered sheltered here taken)
    (fun _ sheltered => sheltered.safe) ⟨fun u member => ?_, fun gone => ?_⟩ acts careful
  · cases member
  · cases gone

/-- The object is connected, a command is answered, the connection is closed and
    opened again, refused, and the object destroyed. -/
def carefulRun : List Act :=
  [.connect (lit "h") 6379 0 false, .established 0, .send_command true, .replied 0, .disconnect false,
   .reconnect false, .refused 1, .destroy false]

theorem uses_safe_reconnect : ∃ w, run step {} carefulRun = some w ∧ w.destroyed = true ∧
    Along step Safe {} carefulRun := by
  have careful : Meets step Careful {} carefulRun := by decide
  exact ⟨_, rfl, rfl, uses_safe carefulRun careful⟩

/-- A command is sent after the connection was lost; and an object is destroyed
    while its connection is pending. -/
theorem freed_context_used :
    (∃ w, run step {} [.connect (lit "h") 6379 0 false, .established 0, .lost 0, .send_command true] = some w ∧
      .context 0 true ∈ w.uses ∧ ¬ Safe w) ∧
    (∃ w, run step {} [.connect (lit "h") 6379 0 false, .destroy false, .refused 0] = some w ∧
      w.uses = [.callback 0 true] ∧ ¬ Safe w) := by
  refine ⟨⟨_, rfl, by decide, ?_⟩, ⟨_, rfl, rfl, ?_⟩⟩
  · intro safe
    have bad := safe (.context 0 true) (by decide)
    cases bad
  · intro safe
    have bad := safe (.callback 0 true) (by decide)
    cases bad

/-! ### `reconnect` once no context is alive -/

/-- While the object lives and no context of it is alive, `reconnect` makes a new
    attempt. -/
def Unstuck (w : World) : Prop :=
  w.destroyed = false → (∀ ctx ∈ w.contexts, ¬ Alive ctx) →
    ∀ err, (w.reconnect err).1 = 0 ∧ (w.reconnect err).2.contexts.length = w.contexts.length + 1

/-- The context is connected, or failed at once and not freed by this call of
    `disconnect`. -/
def Stays (w : World) (inCallback : Bool) (c : CtxId) (ctx : AsyncContext) : Prop :=
  ctx.phase = .connected ∨
    (ctx.phase = .failed ∧ ¬ (w.current = some (c, ctx) ∧ inCallback = false ∧ ctx.replies = 0))

instance (w : World) (inCallback : Bool) (c : CtxId) (ctx : AsyncContext) : Decidable (Stays w inCallback c ctx) :=
  inferInstanceAs (Decidable (_ ∨ _))

/-- `disconnect` is called only while some context is connected or failed at once;
    a failed one counts unless this call frees it. -/
def Established (w : World) : Act → Prop
  | .disconnect inCallback => ∃ c < w.contexts.length, ∃ ctx ∈ w.contexts[c]?, Stays w inCallback c ctx
  | _ => True

instance (w : World) : (act : Act) → Decidable (Established w act)
  | .disconnect inCallback =>
    inferInstanceAs (Decidable (∃ c < w.contexts.length, ∃ ctx ∈ w.contexts[c]?, Stays w inCallback c ctx))
  | .connect .. | .connect_url .. | .reconnect _ | .send_command _ | .destroy _ | .established _ | .refused _
  | .replied _ | .lost _ | .finished _ => .isTrue trivial

/-- No event but one that also sets `status_` to `DISCONNECTED` ends the context. -/
def AsyncContext.Lasting (ctx : AsyncContext) : Prop := ctx.phase = .failed ∨ ctx.phase = .connected

/-- A `status_` other than `DISCONNECTED` is backed by a context. -/
def Backed (w : World) : Prop :=
  w.destroyed = false → w.conn.status_ ≠ .DISCONNECTED → ∃ ctx ∈ w.contexts, Lasting ctx

private theorem backed_unstuck {w : World} (backed : Backed w) : Unstuck w := by
  intro live freed err
  by_cases status : w.conn.status_ = .DISCONNECTED
  · simp [World.reconnect, World.connect, status]
  · obtain ⟨ctx, member, phase | phase⟩ := backed live status
    all_goals exact absurd (by simp [Alive, phase]) (freed ctx member)

/-- A lasting context is still there when another one's entry changes, or its
    own to one that lasts. -/
private theorem lasting_set {w w' : World} {c d : CtxId} {ctx old new : AsyncContext} (at_c : w.contexts[c]? = some ctx)
    (at_d : w.contexts[d]? = some old) (same : w'.contexts = w.contexts.set d new) (lasting : Lasting ctx)
    (keeps : c = d → Lasting new) : ∃ ctx ∈ w'.contexts, Lasting ctx := by
  by_cases here : c = d
  · refine ⟨new, ?_, keeps here⟩
    rw [same]
    exact List.mem_set (List.getElem?_eq_some_iff.mp at_d).1 new
  · refine ⟨ctx, List.mem_of_getElem? (i := c) ?_, lasting⟩
    rw [same, List.getElem?_set_ne fun e => here e.symm, at_c]

private theorem same_context {w : World} {c d : CtxId} {ctx other : AsyncContext} (at_d : w.contexts[d]? = some ctx)
    (current : w.current = some (c, other)) (here : d = c) : ctx = other := by
  have at_c := (current_cases current).2
  rw [← here, at_d] at at_c
  exact Option.some.inj at_c

private theorem disconnects_backed {w w' : World} {inCallback : Bool} (part : Disconnects w inCallback w')
    (established : Established w (.disconnect inCallback)) : Backed w' := by
  obtain ⟨d, _, ctx, at_d, stays⟩ := established
  have lasting : Lasting ctx := stays.symm.imp And.left id
  cases part with
  | gone current freed => exact fun _ _ => ⟨ctx, List.mem_of_getElem? at_d, lasting⟩
  | closed current phase idle => exact fun _ status => absurd rfl status
  | dropped current phase idle =>
    intro _ _
    apply lasting_set at_d (current_cases current).2 rfl lasting
    intro here
    obtain rfl := same_context at_d current here
    subst here
    rcases stays with connected | ⟨_, kept⟩
    · rcases phase with p | p <;> rw [connected] at p <;> cases p
    · exact absurd ⟨current, idle⟩ kept
  | deferred current alive busy =>
    intro _ _
    apply lasting_set at_d (current_cases current).2 rfl lasting
    intro here
    obtain rfl := same_context at_d current here
    exact lasting

private theorem backed_set {w w' : World} {d : CtxId} {old new : AsyncContext} (backed : Backed w)
    (at_d : w.contexts[d]? = some old) (same : w'.contexts = w.contexts.set d new)
    (status : w'.conn.status_ = w.conn.status_) (destroyed : w'.destroyed = w.destroyed)
    (keeps : Lasting old → Lasting new) : Backed w' := by
  intro live other
  rw [destroyed] at live
  rw [status] at other
  obtain ⟨ctx, member, lasting⟩ := backed live other
  obtain ⟨c, at_c⟩ := List.getElem?_of_mem member
  refine lasting_set at_c at_d same lasting fun here => keeps ?_
  subst here
  exact Option.some.inj (at_c.symm.trans at_d) ▸ lasting

/-- An established connection that ends sets `status_` to `DISCONNECTED`. -/
private theorem backed_ended {w : World} (c : CtxId) (ctx : AsyncContext) (ok : Bool) :
    Backed ((w.call_back c (on_disconnect ok)).put c ctx) := by
  intro live other
  rw [put_destroyed, call_back_destroyed c (on_disconnect_destroyed ok)] at live
  simp [call_back, on_disconnect, live] at other

theorem step_backed {w w' : World} {act : Act} (backed : Backed w) (established : Established w act)
    (taken : step w act = some w') : Backed w' := by
  cases step_moves taken with
  | @opened act host port db err live opens =>
    intro _ other
    have status : (w.connect host port db err).conn.status_ = w.conn.status_ := by cases err <;> rfl
    rw [status] at other
    obtain ⟨ctx, member, lasting⟩ := backed live other
    exact ⟨ctx, List.mem_append_left _ member, lasting⟩
  | unopened live call none => exact backed
  | disconnected live part => exact disconnects_backed part established
  | unsent live current => exact backed
  | sent live current alive => exact backed_set backed (current_cases current).2 rfl rfl rfl fun lasting => lasting
  | destroyed live status | destroyed_connected live status part => exact fun gone => nomatch gone
  | @established c ctx at_c phase =>
    refine fun _ _ => ⟨{ ctx with phase := .connected }, ?_, .inr rfl⟩
    rw [call_back_contexts _ (on_connect_contexts true), put_contexts]
    exact List.mem_set (List.getElem?_eq_some_iff.mp at_c).1 _
  | refused at_c phase =>
    refine backed_set backed at_c (ended_contexts _ (on_connect_contexts false) _ w) ?_
      (call_back_destroyed _ (on_connect_destroyed false) w) fun lasting => ?_
    · simp only [put_conn, call_back, on_connect]
      split <;> simp
    · rcases lasting with p | p <;> rw [phase] at p <;> cases p
  | replied at_c phase => exact backed_set backed at_c rfl rfl rfl fun lasting => lasting
  | lost at_c phase => exact backed_ended _ _ false
  | finished at_c phase => exact backed_ended _ _ true

/-- If `disconnect` is called for established connections only, `reconnect` makes
    a new attempt whenever no context is alive. -/
theorem never_stuck (acts : List Act) (established : Meets step Established {} acts) : Along step Unstuck {} acts :=
  along_of_each Backed (fun _ _ _ backed here taken => step_backed backed here taken)
    (fun _ backed => backed_unstuck backed) (fun _ other => absurd rfl other) acts established

theorem never_stuck_lost : ∃ w, run step {} [.connect (lit "h") 6379 0 false, .established 0, .disconnect false,
    .reconnect false, .refused 1] = some w ∧ Unstuck w := by
  have met : Meets step Established {} [.connect (lit "h") 6379 0 false, .established 0, .disconnect false,
    .reconnect false, .refused 1] := by decide
  have along := never_stuck _ met
  refine ⟨_, rfl, ?_⟩
  exact (((((along.2 _ rfl).2 _ rfl).2 _ rfl).2 _ rfl).2 _ rfl).1

/-- `disconnect` is called before the connection is established. -/
theorem disconnecting_forever : ∃ w, run step {} [.connect (lit "h") 6379 0 false, .disconnect false] = some w ∧
    w.conn.status_ = .DISCONNECTING ∧ (w.reconnect false).1 = -1 ∧ ¬ Unstuck w := by
  refine ⟨_, rfl, rfl, rfl, ?_⟩
  intro unstuck
  have attempt := (unstuck rfl (by decide) false).1
  cases attempt

end CppRedis.AsyncLifetimes

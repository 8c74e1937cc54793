import CppRedis.Dispatch
import CppRedis.Sentinels
import CppRedis.Subscriptions

/-!
A subscriber from its construction on: connects, the calls that send a command,
`set_listener` and pushes, in any order. No constructor sets `listener_`, and a
message uses whatever is there; `listeners_set_iff` says that only listeners that
were set are used exactly if no message comes before the first is.
-/
namespace CppRedis.Listeners
open CppRedis.Strings CppRedis.Reply CppRedis.Uri CppRedis.Connection CppRedis.Clients CppRedis.Pushes CppRedis.Dispatch
open CppRedis.Subscriptions CppRedis.Runs

/-- A use of `listener_` by a message: what it was then, none while it is not set, and the
    listeners that `set_listener` had been called with. -/
structure Use where
  listener : Option Nat
  before : List Nat

/-- A subscriber and its connection. Pushes come once a command was `sent` on a connection
    that is attached; after a use of an unset listener the program is `lost`. -/
structure World where
  sub : Pushes.Subscriber := {}
  async_conn_ : Option Sentinels.AsyncConnection := none
  sent : Bool := false
  before : List Nat := []
  used : List Use := []
  lost : Bool := false

inductive Act
  | connect (asyncFails : Bool) (url : Str)
  | command (kind : Kind) (add : Bool) (names : List Str)
  | set_listener (listener : Nat)
  | push (push : Push)

namespace World

/-- `Subscriber::connect`. -/
def connect (asyncFails : Bool) (url : Str) (w : World) : World :=
  match parsed url with
  | .error _ => w
  | .ok none => w
  | .ok (some uri) =>
    if asyncFails then { w with async_conn_ := some {} }
    else { w with async_conn_ := some ⟨uri.host, uri.port, uri.db, true, []⟩ }

/-- `subscribe`, `psubscribe` and the like; none where `async_conn_` is not set. -/
def command (kind : Kind) (add : Bool) (names : List Str) (w : World) : Option World :=
  match w.async_conn_ with
  | none => none
  | some conn =>
    some { w with
      async_conn_ := some { conn with sent := conn.sent ++ [Subscriptions.command kind add names] }
      sent := w.sent || conn.attached }

def set_listener (listener : Nat) (w : World) : World :=
  { w with sub := w.sub.set_listener listener, before := w.before ++ [listener] }

/-- The handlers that use the listener. -/
def listens : Handler → Bool
  | .on_message => true
  | .on_pmessage => true
  | .on_subscribe | .on_unsubscribe | .on_psubscribe | .on_punsubscribe => false

/-- What the loop of `sub_callback` makes of a push, and its uses of `listener_`. -/
def push (push : Push) (w : World) : World :=
  let course := tracing 0 (elements push.reply) w.sub
  let used := (course.calls.filter fun call => listens call.handler).map fun _ => ⟨w.sub.listener_, w.before⟩
  match course.result with
  | .ok sub => { w with sub := sub, used := w.used ++ used }
  | .error _ => { w with used := w.used ++ used, lost := true }

end World

def step (w : World) (act : Act) : Option World :=
  if w.lost then none
  else
    match act with
    | .connect asyncFails url => some (w.connect asyncFails url)
    | .command kind add names => w.command kind add names
    | .set_listener listener => some (w.set_listener listener)
    | .push push => if w.sent then some (w.push push) else none

/-- Each listener that a message used had been set. -/
def Safe (w : World) : Prop := ∀ use ∈ w.used, ∃ listener ∈ use.before, use.listener = some listener

/-- A message comes after a call of `set_listener`. -/
def Listened (w : World) : Act → Prop
  | .push push => push.IsMessage → w.before ≠ []
  | .connect .. | .command .. | .set_listener _ => True

/-! ### What a step does -/

/-- `listener_` is the last listener that was set. -/
def Latest (w : World) : Prop := w.sub.listener_ = w.before.getLast?

/-- A message uses the listener once, every other push not at all. -/
private theorem push_used (push : Push) (w : World) :
    (w.push push).before = w.before ∧ (w.push push).sub.listener_ = w.sub.listener_ ∧
      (push.IsMessage → (w.push push).used = w.used ++ [⟨w.sub.listener_, w.before⟩]) ∧
      (¬ push.IsMessage → (w.push push).used = w.used) := by
  have calls := (tracing_push push w.sub).1
  have result : (tracing 0 (elements push.reply) w.sub).result = sub_callback (some push.reply) w.sub := by
    rw [tracing_result]
    cases push <;> rfl
  unfold World.push
  simp only [calls, result]
  have uses : push.IsMessage ∧ World.listens (handler push) = true ∨ ¬ push.IsMessage ∧ World.listens (handler push) = false := by
    cases push with
    | changed kind add name count => cases kind <;> cases add <;> exact .inr ⟨id, rfl⟩
    | message | pmessage => exact .inl ⟨trivial, rfl⟩
  cases done : sub_callback (some push.reply) w.sub with
  | error fault =>
    rcases uses with ⟨is, listens⟩ | ⟨other, silent⟩
    · simp [listens, is]
    · simp [silent, other]
  | ok sub =>
    have same := (sub_callback_push done).2
    rcases uses with ⟨is, listens⟩ | ⟨other, silent⟩
    · simp [listens, is, same]
    · simp [silent, other, same]

private theorem connect_keeps (asyncFails : Bool) (url : Str) (w : World) :
    (w.connect asyncFails url).sub = w.sub ∧ (w.connect asyncFails url).before = w.before ∧
      (w.connect asyncFails url).used = w.used := by
  unfold World.connect
  split
  · exact ⟨rfl, rfl, rfl⟩
  · exact ⟨rfl, rfl, rfl⟩
  · split <;> exact ⟨rfl, rfl, rfl⟩

private theorem command_keeps {kind : Kind} {add : Bool} {names : List Str} {w w' : World}
    (sent : w.command kind add names = some w') : w'.sub = w.sub ∧ w'.before = w.before ∧ w'.used = w.used := by
  unfold World.command at sent
  split at sent
  · cases sent
  · cases sent
    exact ⟨rfl, rfl, rfl⟩

/-- Every step but a message leaves the uses as they are. -/
private theorem step_cases {w w' : World} {act : Act} (taken : step w act = some w') :
    (∃ p, act = .push p ∧ w' = w.push p) ∨
    (∃ listener, act = .set_listener listener ∧ w' = w.set_listener listener) ∨
    (Listened w act ∧ w'.sub = w.sub ∧ w'.before = w.before ∧ w'.used = w.used) := by
  unfold step at taken
  split at taken
  · cases taken
  · cases act with
    | connect asyncFails url =>
      obtain rfl := Option.some.inj taken
      exact .inr (.inr ⟨trivial, connect_keeps asyncFails url w⟩)
    | command kind add names => exact .inr (.inr ⟨trivial, command_keeps taken⟩)
    | set_listener listener => exact .inr (.inl ⟨listener, rfl, (Option.some.inj taken).symm⟩)
    | push p =>
      simp only at taken
      split at taken
      · exact .inl ⟨p, rfl, (Option.some.inj taken).symm⟩
      · cases taken

private theorem step_latest {w w' : World} {act : Act} (latest : Latest w) (taken : step w act = some w') : Latest w' := by
  unfold Latest at latest ⊢
  rcases step_cases taken with ⟨p, rfl, rfl⟩ | ⟨listener, rfl, rfl⟩ | ⟨_, sub, before, _⟩
  · obtain ⟨before, listener, -⟩ := push_used p w
    rw [before, listener, latest]
  · simp [World.set_listener, Subscriber.set_listener]
  · rw [sub, before, latest]

private theorem step_safe_iff {w w' : World} {act : Act} (latest : Latest w) (safe : Safe w) (taken : step w act = some w') :
    Safe w' ↔ Listened w act := by
  rcases step_cases taken with ⟨p, rfl, rfl⟩ | ⟨listener, rfl, rfl⟩ | ⟨listened, _, _, used⟩
  · obtain ⟨-, -, message, other⟩ := push_used p w
    by_cases is : p.IsMessage
    · have last : (∃ listener ∈ w.before, w.sub.listener_ = some listener) ↔ w.before ≠ [] := by
        rw [latest]
        constructor
        · rintro ⟨listener, member, -⟩
          exact List.ne_nil_of_mem member
        · intro some
          exact ⟨w.before.getLast some, List.getLast_mem some, List.getLast?_eq_some_getLast some⟩
      show Safe _ ↔ (p.IsMessage → w.before ≠ [])
      rw [← last, Safe, message is]
      constructor
      · exact fun all _ => all ⟨w.sub.listener_, w.before⟩ (by simp)
      · intro set use member
        rcases List.mem_append.mp member with old | new
        · exact safe use old
        · obtain rfl := List.mem_singleton.mp new
          exact set is
    · rw [Safe, other is]
      exact iff_of_true safe fun message => absurd message is
  · exact iff_of_true safe trivial
  · rw [Safe, used]
    exact iff_of_true safe listened

/-- From the construction on, no message uses a listener that was not set, exactly if each
    comes after a call of `set_listener`. -/
theorem listeners_set_iff (acts : List Act) : Along step Safe {} acts ↔ Meets step Listened {} acts := by
  have keeps : ∀ w act w', Latest w → step w act = some w' → Latest w' := fun _ _ _ latest taken => step_latest latest taken
  have each : ∀ w act w', Latest w → Safe w → step w act = some w' → (Safe w' ↔ Listened w act) :=
    fun _ _ _ latest safe taken => step_safe_iff latest safe taken
  have starts : Latest {} := rfl
  refine along_iff_each Latest keeps each starts ?_ acts
  intro use member
  cases member

/-- A message that comes after the subscription, and before `set_listener`, uses what
    happens to be in `listener_`. -/
theorem early_message_unset : ¬ ∀ acts, Along step Safe {} acts := by
  intro all
  obtain ⟨-, first⟩ := all [.connect false (lit "redis://localhost:6379"), .command .channel true [lit "foo"],
    .push (.message (lit "foo") (lit "test"))]
  obtain ⟨-, second⟩ := first _ rfl
  obtain ⟨-, third⟩ := second _ rfl
  obtain ⟨safe, -⟩ := third _ rfl
  obtain ⟨listener, member, -⟩ := safe ⟨none, []⟩ List.mem_cons_self
  cases member

end CppRedis.Listeners

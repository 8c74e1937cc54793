import CppRedis.Pushes

/-!
The loop of `sub_callback`: the elements that it reads and the handlers that it
calls. `tracing` is the loop with both (`tracing_result`). A push calls its handler
with its strings (`push_dispatched`); an array that is no push is passed over exactly
if none of its elements is taken for a keyword (`ignored_iff`).
-/
namespace CppRedis.Dispatch
open CppRedis.Strings CppRedis.Reply CppRedis.Clients CppRedis.Pushes

/-! ### Branches -/

/-- The handlers, in the order of the branches that call them. -/
inductive Handler
  | on_subscribe
  | on_unsubscribe
  | on_psubscribe
  | on_punsubscribe
  | on_message
  | on_pmessage
  deriving DecidableEq

def Handler.keyword : Handler → String
  | .on_subscribe => "subscribe"
  | .on_unsubscribe => "unsubscribe"
  | .on_psubscribe => "psubscribe"
  | .on_punsubscribe => "punsubscribe"
  | .on_message => "message"
  | .on_pmessage => "pmessage"

/-- The handler of the branch that the loop takes at an element. -/
def handlerOf (head : RedisReply) : Option Handler :=
  if begins "subscribe" head then some .on_subscribe
  else if begins "unsubscribe" head then some .on_unsubscribe
  else if begins "psubscribe" head then some .on_psubscribe
  else if begins "punsubscribe" head then some .on_punsubscribe
  else if begins "message" head then some .on_message
  else if begins "pmessage" head then some .on_pmessage
  else none

/-- A call of a handler with its strings. -/
structure Call where
  handler : Handler
  strings : List Str
  deriving DecidableEq

/-- What the loop does: the indices at which it reads, and the handlers that it calls. -/
structure Course where
  reads : List Nat
  calls : List Call
  result : Except Fault Subscriber

/-- What was done before comes first. -/
def Course.after (reads : List Nat) (calls : List Call) (c : Course) : Course :=
  ⟨reads ++ c.reads, calls ++ c.calls, c.result⟩

namespace Handler

/-- The call of a handler in its branch, with the elements that are read for it. -/
def invoke : Handler → List RedisReply → Subscriber → Except Fault Subscriber
  | .on_subscribe, [channel, number], sub => .ok (sub.on_subscribe (str channel) (integer number))
  | .on_unsubscribe, [channel, number], sub => .ok (sub.on_unsubscribe (str channel) (integer number))
  | .on_psubscribe, [pattern, number], sub => .ok (sub.on_psubscribe (str pattern) (integer number))
  | .on_punsubscribe, [pattern, number], sub => .ok (sub.on_punsubscribe (str pattern) (integer number))
  | .on_message, [channel, message], sub => sub.on_message (str channel) (str message)
  | .on_pmessage, [pattern, channel, message], sub => sub.on_pmessage (str pattern) (str channel) (str message)
  | _, _, _ => .error .undefined

/-- The strings among those elements. -/
def strings : Handler → List RedisReply → List Str
  | .on_message, arguments => arguments.map str
  | .on_pmessage, arguments => arguments.map str
  | _, arguments => (arguments.take 1).map str

/-- A branch whose elements are there, and what the loop does after it. -/
def enter (handler : Handler) (i : Nat) (arguments : List RedisReply) (sub : Subscriber)
    (later : Subscriber → Course) : Course :=
  let reads := (List.range (arguments.length + 1)).map (i + ·)
  let call : Call := ⟨handler, handler.strings arguments⟩
  match handler.invoke arguments sub with
  | .error fault => ⟨reads, [call], .error fault⟩
  | .ok sub => (later sub).after reads [call]

end Handler

/-- A branch reads the elements that are left, and the one behind them. -/
def Course.beyond (i : Nat) (rest : List RedisReply) : Course :=
  ⟨(List.range (rest.length + 2)).map (i + ·), [], .error .undefined⟩

/-- The loop of `sub_callback` from an index on. -/
def tracing : Nat → List RedisReply → Subscriber → Course
  | _, [], sub => ⟨[], [], .ok sub⟩
  | i, head :: rest, sub =>
    match handlerOf head, rest with
    | none, rest => (tracing (i + 1) rest sub).after [i] []
    | some .on_pmessage, pattern :: channel :: message :: rest =>
      Handler.on_pmessage.enter i [pattern, channel, message] sub fun sub => tracing (i + 4) rest sub
    | some .on_pmessage, rest => .beyond i rest
    | some handler, first :: second :: rest => handler.enter i [first, second] sub fun sub => tracing (i + 3) rest sub
    | some _, rest => .beyond i rest

/-- `reply->element` of the array that `elements` counts. -/
def elements : RedisReply → List RedisReply
  | .array element => element
  | _ => []

/-! ### The loop and its course -/

/-- The branches of the loop by their handlers. -/
private theorem dispatch_cons (head : RedisReply) (rest : List RedisReply) (sub : Subscriber) :
    dispatch (head :: rest) sub =
      match handlerOf head, rest with
      | none, rest => dispatch rest sub
      | some .on_pmessage, pattern :: channel :: message :: rest =>
        (Handler.on_pmessage.invoke [pattern, channel, message] sub).bind (dispatch rest)
      | some .on_pmessage, _ => .error .undefined
      | some handler, first :: second :: rest => (handler.invoke [first, second] sub).bind (dispatch rest)
      | some _, _ => .error .undefined := by
  rw [dispatch.eq_def (head :: rest)]
  unfold handlerOf
  dsimp only
  split_ifs
  · rcases rest with _ | ⟨first, _ | ⟨second, rest⟩⟩ <;> rfl
  · rcases rest with _ | ⟨first, _ | ⟨second, rest⟩⟩ <;> rfl
  · rcases rest with _ | ⟨first, _ | ⟨second, rest⟩⟩ <;> rfl
  · rcases rest with _ | ⟨first, _ | ⟨second, rest⟩⟩ <;> rfl
  · rcases rest with _ | ⟨first, _ | ⟨second, rest⟩⟩ <;> rfl
  · rcases rest with _ | ⟨first, _ | ⟨second, _ | ⟨third, rest⟩⟩⟩ <;> rfl
  · cases rest <;> rfl

private theorem enter_result (handler : Handler) (i : Nat) (arguments : List RedisReply) (sub : Subscriber)
    (later : Subscriber → Course) :
    (handler.enter i arguments sub later).result = (handler.invoke arguments sub).bind fun sub => (later sub).result := by
  unfold Handler.enter
  cases handler.invoke arguments sub <;> rfl

theorem tracing_result (i : Nat) (element : List RedisReply) (sub : Subscriber) :
    (tracing i element sub).result = dispatch element sub := by
  fun_induction tracing with
  | case1 => rfl
  | case2 i sub head rest none ih =>
    rw [dispatch_cons, none]
    exact ih
  | case3 i head sub pattern channel message rest is ih =>
    rw [dispatch_cons, is, enter_result]
    exact congrArg _ (funext ih)
  | case4 i head sub rest few is =>
    rw [dispatch_cons, is]
    rcases rest with _ | ⟨first, _ | ⟨second, _ | ⟨third, rest⟩⟩⟩
    · rfl
    · rfl
    · rfl
    · exact absurd rfl (few first second third rest)
  | case5 i head sub handler first second rest _ other is ih =>
    rw [dispatch_cons, is, enter_result]
    cases handler with
    | on_pmessage => exact absurd rfl other
    | on_subscribe | on_unsubscribe | on_psubscribe | on_punsubscribe | on_message => exact congrArg _ (funext ih)
  | case6 i head sub handler rest _ other few is =>
    rw [dispatch_cons, is]
    rcases rest with _ | ⟨first, _ | ⟨second, rest⟩⟩
    · cases handler <;> rfl
    · cases handler <;> rfl
    · exact absurd rfl (few first second rest)

/-! ### A push -/

/-- The handler for a push, and the strings that it has to be called with. -/
def handler : Push → Handler
  | .changed .channel true _ _ => .on_subscribe
  | .changed .channel false _ _ => .on_unsubscribe
  | .changed .pattern true _ _ => .on_psubscribe
  | .changed .pattern false _ _ => .on_punsubscribe
  | .message .. => .on_message
  | .pmessage .. => .on_pmessage

def strings : Push → List Str
  | .changed _ _ name _ => [name]
  | .message channel text => [channel, text]
  | .pmessage pattern channel text => [pattern, channel, text]

/-- A branch after which nothing is left. -/
private theorem enter_last (handler : Handler) (i j : Nat) (arguments : List RedisReply) (sub : Subscriber) :
    (handler.enter i arguments sub fun sub => tracing j [] sub).calls = [⟨handler, handler.strings arguments⟩] ∧
      (handler.enter i arguments sub fun sub => tracing j [] sub).reads =
        (List.range (arguments.length + 1)).map (i + ·) := by
  unfold Handler.enter
  cases handler.invoke arguments sub with
  | error fault => exact ⟨rfl, rfl⟩
  | ok sub => exact ⟨rfl, List.append_nil _⟩

/-- The loop reads each element of a push once, and calls the handler. -/
theorem tracing_push (push : Push) (sub : Subscriber) :
    (tracing 0 (elements push.reply) sub).calls = [⟨handler push, strings push⟩] ∧
      (tracing 0 (elements push.reply) sub).reads = (List.range (elements push.reply).length).map (0 + ·) := by
  cases push with
  | changed kind add name count =>
    cases kind <;> cases add
    · exact enter_last .on_unsubscribe 0 3 [.string name, .integer count] sub
    · exact enter_last .on_subscribe 0 3 [.string name, .integer count] sub
    · exact enter_last .on_punsubscribe 0 3 [.string name, .integer count] sub
    · exact enter_last .on_psubscribe 0 3 [.string name, .integer count] sub
  | message channel text => exact enter_last .on_message 0 3 [.string channel, .string text] sub
  | pmessage pattern channel text =>
    exact enter_last .on_pmessage 0 4 [.string pattern, .string channel, .string text] sub

/-- With a listener set, a push calls its handler and no other, once and with its
    strings, and the loop reads nothing but its elements. -/
theorem push_dispatched (push : Push) (listener : Nat) (sub : Subscriber) :
    (tracing 0 (elements push.reply) (sub.set_listener listener)).calls = [⟨handler push, strings push⟩] ∧
      (∀ i ∈ (tracing 0 (elements push.reply) (sub.set_listener listener)).reads, i < (elements push.reply).length) ∧
      ∃ sub', sub_callback (some push.reply) (sub.set_listener listener) = .ok sub' ∧
        (tracing 0 (elements push.reply) (sub.set_listener listener)).result = .ok sub' := by
  obtain ⟨calls, reads⟩ := tracing_push push (sub.set_listener listener)
  obtain ⟨sub', done⟩ := (sub_callback_returns push (sub.set_listener listener)).mpr fun _ => rfl
  refine ⟨calls, ?_, sub', done, ?_⟩
  · intro i member
    rw [reads] at member
    simpa using member
  · rw [tracing_result, ← done]
    cases push <;> rfl

/-! ### Everything else -/

/-- The array is one of the six pushes. -/
def IsPush (element : List RedisReply) : Prop := ∃ push : Push, elements push.reply = element

/-- The loop reads elements of the array only, calls no handler and leaves the subscriber
    as it is. -/
structure Ignored (element : List RedisReply) (sub : Subscriber) : Prop where
  within : ∀ i ∈ (tracing 0 element sub).reads, i < element.length
  silent : (tracing 0 element sub).calls = []
  same : (tracing 0 element sub).result = .ok sub

/-- No element's string is a front part of a keyword, and none begins with a keyword and
    a NUL. -/
def Unheaded (element : List RedisReply) : Prop :=
  ∀ head ∈ element, ∀ handler : Handler,
    ¬ str head <+: lit handler.keyword ∧ ¬ lit handler.keyword ++ [0] <+: str head

private theorem begins_iff (handler : Handler) (head : RedisReply) :
    begins handler.keyword head = true ↔
      str head <+: lit handler.keyword ∨ lit handler.keyword ++ [0] <+: str head :=
  strncmp_eq_iff (by cases handler <;> decide)

private theorem handlerOf_none (head : RedisReply) :
    handlerOf head = none ↔ ∀ handler : Handler, ¬ begins handler.keyword head = true := by
  constructor
  · intro none handler
    unfold handlerOf at none
    split_ifs at none with subscribe unsubscribe psubscribe punsubscribe message pmessage
    cases handler with
    | on_subscribe => exact subscribe
    | on_unsubscribe => exact unsubscribe
    | on_psubscribe => exact psubscribe
    | on_punsubscribe => exact punsubscribe
    | on_message => exact message
    | on_pmessage => exact pmessage
  · intro never
    have subscribe : ¬ begins "subscribe" head = true := never .on_subscribe
    have unsubscribe : ¬ begins "unsubscribe" head = true := never .on_unsubscribe
    have psubscribe : ¬ begins "psubscribe" head = true := never .on_psubscribe
    have punsubscribe : ¬ begins "punsubscribe" head = true := never .on_punsubscribe
    have message : ¬ begins "message" head = true := never .on_message
    have pmessage : ¬ begins "pmessage" head = true := never .on_pmessage
    unfold handlerOf
    rw [if_neg subscribe, if_neg unsubscribe, if_neg psubscribe, if_neg punsubscribe, if_neg message, if_neg pmessage]

theorem unheaded_iff (element : List RedisReply) : Unheaded element ↔ ∀ head ∈ element, handlerOf head = none := by
  simp only [Unheaded, handlerOf_none, begins_iff, not_or]

/-- An array of which no element is taken for a keyword is read once, to its end. -/
private theorem tracing_unheaded (i : Nat) (element : List RedisReply) (sub : Subscriber)
    (unheaded : ∀ head ∈ element, handlerOf head = none) :
    tracing i element sub = ⟨(List.range element.length).map (i + ·), [], .ok sub⟩ := by
  induction element generalizing i with
  | nil => rfl
  | cons head rest ih =>
    have none : handlerOf head = none := unheaded head List.mem_cons_self
    have reads : (List.range (rest.length + 1)).map (i + ·) = i :: (List.range rest.length).map (i + 1 + ·) := by
      rw [List.range_succ_eq_map, List.map_cons, List.map_map]
      simp [Function.comp_def, Nat.add_assoc, Nat.add_comm 1]
    rw [tracing.eq_def]
    simp only [none]
    rw [ih (i + 1) fun head member => unheaded head (List.mem_cons_of_mem _ member), List.length_cons, reads]
    rfl

private theorem enter_calls (handler : Handler) (i : Nat) (arguments : List RedisReply) (sub : Subscriber)
    (later : Subscriber → Course) : (handler.enter i arguments sub later).calls ≠ [] := by
  unfold Handler.enter
  cases handler.invoke arguments sub with
  | error fault => exact List.cons_ne_nil _ _
  | ok sub => exact List.cons_ne_nil _ _

private theorem beyond_outside (i : Nat) (head : RedisReply) (rest : List RedisReply) :
    ∃ j ∈ (Course.beyond i rest).reads, i + (head :: rest).length ≤ j :=
  ⟨i + (rest.length + 1), List.mem_map.mpr ⟨rest.length + 1, List.mem_range.mpr (by omega), rfl⟩, le_rfl⟩

/-- An element that is taken for a keyword calls a handler, or has the loop read behind
    the array. -/
private theorem tracing_headed (i : Nat) (element : List RedisReply) (sub : Subscriber)
    (headed : ∃ head ∈ element, handlerOf head ≠ none) :
    (tracing i element sub).calls ≠ [] ∨ ∃ j ∈ (tracing i element sub).reads, i + element.length ≤ j := by
  fun_induction tracing with
  | case1 => exact absurd headed (by simp)
  | case2 i sub head rest none ih =>
    obtain ⟨later, member, taken⟩ := headed
    have member : later ∈ rest := by
      rcases List.mem_cons.mp member with rfl | member
      · exact absurd none taken
      · exact member
    rcases ih ⟨later, member, taken⟩ with calls | ⟨j, read, outside⟩
    · exact .inl calls
    · exact .inr ⟨j, List.mem_cons_of_mem _ read, by rw [List.length_cons]; omega⟩
  | case3 => exact .inl (enter_calls _ _ _ _ _)
  | case4 i head sub rest => exact .inr (beyond_outside i head rest)
  | case5 => exact .inl (enter_calls _ _ _ _ _)
  | case6 i head sub handler rest => exact .inr (beyond_outside i head rest)

theorem ignored_iff (element : List RedisReply) : (∀ sub, Ignored element sub) ↔ Unheaded element := by
  rw [unheaded_iff]
  constructor
  · intro ignored
    by_contra headed
    push Not at headed
    obtain ⟨within, silent, -⟩ := ignored {}
    rcases tracing_headed 0 element {} headed with calls | ⟨j, read, outside⟩
    · exact calls silent
    · have inside := within j read
      omega
  · intro unheaded sub
    refine ⟨?_, ?_, ?_⟩
    · rw [tracing_unheaded 0 element sub unheaded]
      simp
    · rw [tracing_unheaded 0 element sub unheaded]
    · rw [tracing_unheaded 0 element sub unheaded]

/-- What is no push is passed over, whatever the subscriber is. -/
def Passed (element : List RedisReply) : Prop := ¬ IsPush element → ∀ sub, Ignored element sub

/-- An array is passed over unless one of its elements is taken for a keyword. -/
theorem passed_iff (element : List RedisReply) : Passed element ↔ IsPush element ∨ Unheaded element := by
  rw [Passed, ignored_iff, ← or_iff_not_imp_left]

/-- The reply to a PING on a subscribed connection: its empty payload is taken for a
    keyword, and the loop reads two elements behind the array. -/
theorem pong_taken : ¬ Passed [.string (lit "pong"), .string []] := by
  intro passed
  have other : ¬ IsPush [.string (lit "pong"), .string []] := by
    rintro ⟨push, same⟩
    have lengths := congrArg List.length same
    cases push with
    | changed | message | pmessage => simp [elements, Push.reply] at lengths
  have within : 2 < 2 := (passed other {}).within 2 (by decide)
  omega

end CppRedis.Dispatch

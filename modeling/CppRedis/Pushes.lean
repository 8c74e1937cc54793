import Mathlib.Data.Finset.Card
import CppRedis.Clients

/-!
What a server pushes to a subscribed connection, and what `Subscriber` makes of it.
`Topics` are a set of channels and a set of patterns: those a server keeps for a
connection, and those the subscriber has been told of. `told` says what a push
tells; `sub_callback_push` shows that the dispatch loop does just that.
-/
namespace CppRedis.Pushes
open CppRedis.Strings CppRedis.Reply CppRedis.Connection CppRedis.Clients

/-! ### Topics and pushes -/

/-- What is subscribed to. -/
inductive Kind
  | channel
  | pattern
  deriving DecidableEq

structure Topics where
  channels : Finset Str := ∅
  patterns : Finset Str := ∅
  deriving DecidableEq

namespace Topics

/-- The names of one kind. -/
def of (t : Topics) : Kind → Finset Str
  | .channel => t.channels
  | .pattern => t.patterns

/-- A name is added or taken away. -/
def change (kind : Kind) (add : Bool) (name : Str) (t : Topics) : Topics :=
  match kind with
  | .channel => { t with channels := if add then insert name t.channels else t.channels.erase name }
  | .pattern => { t with patterns := if add then insert name t.patterns else t.patterns.erase name }

/-- Several names, one after the other. -/
def changes (kind : Kind) (add : Bool) (names : List Str) (t : Topics) : Topics :=
  names.foldl (fun t name => t.change kind add name) t

/-- The number that the server reports. -/
def count (t : Topics) : Int := t.channels.card + t.patterns.card

end Topics

/-- A push: a name that was added or taken away with the number that remain, or a
    message. -/
inductive Push
  | changed (kind : Kind) (add : Bool) (name : Str) (count : Int)
  | message (channel message : Str)
  | pmessage (pattern channel message : Str)
  deriving DecidableEq

def Push.keyword : Push → Str
  | .changed .channel true _ _ => lit "subscribe"
  | .changed .channel false _ _ => lit "unsubscribe"
  | .changed .pattern true _ _ => lit "psubscribe"
  | .changed .pattern false _ _ => lit "punsubscribe"
  | .message .. => lit "message"
  | .pmessage .. => lit "pmessage"

/-- The array that the server sends. -/
def Push.reply : Push → RedisReply
  | push@(.changed _ _ name count) => .array [.string push.keyword, .string name, .integer count]
  | push@(.message channel text) => .array [.string push.keyword, .string channel, .string text]
  | push@(.pmessage pattern channel text) =>
    .array [.string push.keyword, .string pattern, .string channel, .string text]

/-- Whether the push is about a channel or about a pattern. -/
def Push.kind : Push → Kind
  | .changed kind .. => kind
  | .message .. => .channel
  | .pmessage .. => .pattern

/-- What a push tells of the topics. -/
def told : Push → Topics → Topics
  | .changed kind add name _ => Topics.change kind add name
  | .message .. => id
  | .pmessage .. => id

/-- What pushes tell, in order. -/
def toldAll (pushes : List Push) (t : Topics) : Topics := pushes.foldl (fun t push => told push t) t

/-! ### The subscriber -/

/-- A call of a listener, each known by the number that it was set with. -/
inductive Heard
  | message (listener : Nat) (channel message : Str)
  | pmessage (listener : Nat) (pattern channel message : Str)
  deriving DecidableEq

/-- The subscriber without its connection; `heard` are the calls of its listeners. -/
structure Subscriber where
  listener_ : Option Nat := none
  channels_ : Finset Str := ∅
  patterns_ : Finset Str := ∅
  heard : List Heard := []
  deriving DecidableEq

namespace Subscriber

def set_listener (listener : Nat) (sub : Subscriber) : Subscriber := { sub with listener_ := some listener }

def on_subscribe (channel : Str) (_subscribed_channels : Int) (sub : Subscriber) : Subscriber :=
  { sub with channels_ := insert channel sub.channels_ }

def on_unsubscribe (channel : Str) (_subscribed_channels : Int) (sub : Subscriber) : Subscriber :=
  { sub with channels_ := sub.channels_.erase channel }

def on_psubscribe (pattern : Str) (_subscribed_patterns : Int) (sub : Subscriber) : Subscriber :=
  { sub with patterns_ := insert pattern sub.patterns_ }

def on_punsubscribe (pattern : Str) (_subscribed_patterns : Int) (sub : Subscriber) : Subscriber :=
  { sub with patterns_ := sub.patterns_.erase pattern }

/-- A message needs a listener. -/
def on_message (channel message : Str) (sub : Subscriber) : Except Fault Subscriber :=
  match sub.listener_ with
  | none => .error .undefined
  | some listener => .ok { sub with heard := sub.heard ++ [.message listener channel message] }

def on_pmessage (pattern channel message : Str) (sub : Subscriber) : Except Fault Subscriber :=
  match sub.listener_ with
  | none => .error .undefined
  | some listener => .ok { sub with heard := sub.heard ++ [.pmessage listener pattern channel message] }

/-- What the subscriber knows of. -/
def topics (sub : Subscriber) : Topics := ⟨sub.channels_, sub.patterns_⟩

end Subscriber

/-- `str` and `len` of a reply; they are NULL and 0 where it has no string. -/
def str : RedisReply → Str
  | .status str => str
  | .error str => str
  | .string str => str
  | .integer _ => []
  | .nil => []
  | .array _ => []
  | .hollow _ _ => []

/-- The member `integer` of a reply. -/
def integer : RedisReply → Int
  | .integer n => n
  | _ => 0

/-- `strncmp(KEYWORD, element->str, element->len) == 0`. -/
def begins (keyword : String) (element : RedisReply) : Bool :=
  strncmp_eq (lit keyword) (str element) (str element).length

/-- The loop of `sub_callback` from an index on, over the elements that are left.
    Each branch moves the index to the last element that it reads. -/
def dispatch : List RedisReply → Subscriber → Except Fault Subscriber
  | [], sub => .ok sub
  | head :: rest, sub =>
    if begins "subscribe" head then
      match rest with
      | channel :: number :: rest => dispatch rest (sub.on_subscribe (str channel) (integer number))
      | _ => .error .undefined
    else if begins "unsubscribe" head then
      match rest with
      | channel :: number :: rest => dispatch rest (sub.on_unsubscribe (str channel) (integer number))
      | _ => .error .undefined
    else if begins "psubscribe" head then
      match rest with
      | pattern :: number :: rest => dispatch rest (sub.on_psubscribe (str pattern) (integer number))
      | _ => .error .undefined
    else if begins "punsubscribe" head then
      match rest with
      | pattern :: number :: rest => dispatch rest (sub.on_punsubscribe (str pattern) (integer number))
      | _ => .error .undefined
    else if begins "message" head then
      match rest with
      | channel :: message :: rest => (sub.on_message (str channel) (str message)).bind (dispatch rest)
      | _ => .error .undefined
    else if begins "pmessage" head then
      match rest with
      | pattern :: channel :: message :: rest =>
        (sub.on_pmessage (str pattern) (str channel) (str message)).bind (dispatch rest)
      | _ => .error .undefined
    else dispatch rest sub

/-- `sub_callback`; the reply is none where it is NULL, and only an array has
    elements. -/
def sub_callback (reply : Option RedisReply) (sub : Subscriber) : Except Fault Subscriber :=
  match reply with
  | some (.array element) => dispatch element sub
  | some (.hollow _ _) => .error .undefined
  | _ => .ok sub

/-! ### What the loop does with a push -/

/-- The push needs a listener. -/
def Push.IsMessage : Push → Prop
  | .changed .. => False
  | .message .. => True
  | .pmessage .. => True

/-- The loop takes the branch of the push's keyword and is then at the end. -/
theorem sub_callback_changed (kind : Kind) (add : Bool) (name : Str) (count : Int) (sub : Subscriber) :
    sub_callback (some (Push.changed kind add name count).reply) sub = .ok
      (match kind, add with
       | .channel, true => sub.on_subscribe name count
       | .channel, false => sub.on_unsubscribe name count
       | .pattern, true => sub.on_psubscribe name count
       | .pattern, false => sub.on_punsubscribe name count) := by
  cases kind <;> cases add <;> rfl

private theorem bind_dispatch_nil (result : Except Fault Subscriber) : result.bind (dispatch []) = result := by
  cases result <;> rfl

theorem sub_callback_message (channel text : Str) (sub : Subscriber) :
    sub_callback (some (Push.message channel text).reply) sub = sub.on_message channel text :=
  bind_dispatch_nil (sub.on_message channel text)

theorem sub_callback_pmessage (pattern channel text : Str) (sub : Subscriber) :
    sub_callback (some (Push.pmessage pattern channel text).reply) sub = sub.on_pmessage pattern channel text :=
  bind_dispatch_nil (sub.on_pmessage pattern channel text)

/-- Where the callback returns, the subscriber knows what the push told it, and
    nothing else. -/
theorem sub_callback_push {push : Push} {sub sub' : Subscriber} (done : sub_callback (some push.reply) sub = .ok sub') :
    sub'.topics = told push sub.topics ∧ sub'.listener_ = sub.listener_ := by
  cases push with
  | changed kind add name count =>
    rw [sub_callback_changed] at done
    cases kind <;> cases add <;> cases done <;> exact ⟨rfl, rfl⟩
  | message channel text =>
    rw [sub_callback_message, Subscriber.on_message] at done
    cases listener : sub.listener_ with
    | none => simp [listener] at done
    | some l =>
      simp only [listener, Except.ok.injEq] at done
      subst done
      exact ⟨rfl, rfl⟩
  | pmessage pattern channel text =>
    rw [sub_callback_pmessage, Subscriber.on_pmessage] at done
    cases listener : sub.listener_ with
    | none => simp [listener] at done
    | some l =>
      simp only [listener, Except.ok.injEq] at done
      subst done
      exact ⟨rfl, rfl⟩

/-- The callback returns unless a message finds no listener. -/
theorem sub_callback_returns (push : Push) (sub : Subscriber) :
    (∃ sub', sub_callback (some push.reply) sub = .ok sub') ↔ (push.IsMessage → sub.listener_.isSome = true) := by
  cases push with
  | changed kind add name count =>
    rw [sub_callback_changed]
    exact iff_of_true ⟨_, rfl⟩ fun message => message.elim
  | message channel text =>
    rw [sub_callback_message, Subscriber.on_message]
    cases sub.listener_ <;> simp [Push.IsMessage]
  | pmessage pattern channel text =>
    rw [sub_callback_pmessage, Subscriber.on_pmessage]
    cases sub.listener_ <;> simp [Push.IsMessage]

/-- A push about a channel leaves the patterns, and the other way round. -/
theorem told_other (push : Push) (t : Topics) {kind : Kind} (other : kind ≠ push.kind) :
    (told push t).of kind = t.of kind := by
  cases push with
  | changed of add name count =>
    cases kind <;> cases of
    · exact absurd rfl other
    · rfl
    · rfl
    · exact absurd rfl other
  | message channel text | pmessage pattern channel text => rfl

end CppRedis.Pushes

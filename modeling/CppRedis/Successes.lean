import CppRedis.Outcomes
import CppRedis.Pushes

/-!
Which replies the operations that report success by a Boolean take for one: the methods
of `Client` that end in `recv_ok_reply` (`confirms_iff`), `select` and `ping`. The text
is compared over its own length and up to a NUL, and `ping` does not look at the type:
`success_exact_iff` says for which replies they are right.
-/
namespace CppRedis.Successes
open CppRedis.Strings CppRedis.Reply CppRedis.Connection CppRedis.Clients CppRedis.Decoders CppRedis.Methods
open CppRedis.Outcomes CppRedis.Pushes

def REDIS_STATUS_REPLY_PONG : Str := lit "PONG"

/-- `strncmp` reads nothing of a reply that has no string. -/
def ping (x : Exchange) (ctx : Context) : Bool × Context :=
  match ctx.redisCommand (.ask [lit "PING"]) x with
  | (none, ctx') => (false, ctx')
  | (some reply, ctx') => (strncmp_eq (str reply) REDIS_STATUS_REPLY_PONG (str reply).length, ctx')

/-- The methods of `Client` that return what `recv_ok_reply` does. -/
def Confirms : Command → Prop
  | .set .. | .setex .. | .psetex .. | .mset .. | .mset_args .. | .hmset .. | .hmset_args .. | .lset .. | .ltrim .. => True
  | _ => False

/-- The methods and `select` return true for the reply exactly if it is an OK. -/
structure OkExact (reply : RedisReply) : Prop where
  confirmed : ∀ a m decoder cl, Confirms m → Answered reply a m decoder cl →
    ((perform a m cl).1 = .ok (.bool true) ↔ reply = .status (lit "OK"))
  selected : ∀ db c net ctx switched, net.contexts[c]? = some ctx → ctx.err = none →
    ((select db c (.reply reply switched) net).1 = .ok true ↔ reply = .status (lit "OK"))

/-- `ping` returns true for the reply exactly if it is a PONG. -/
def PongExact (reply : RedisReply) : Prop :=
  ∀ ctx switched, ctx.err = none → ((ping (.reply reply switched) ctx).1 = true ↔ reply = .status (lit "PONG"))

/-- The text is another than the keyword, but a front part of it or the keyword with a NUL
    behind it. -/
def Mistaken (keyword s : Str) : Prop := (s <+: keyword ∧ s ≠ keyword) ∨ keyword ++ [0] <+: s

private theorem matches_iff {keyword s : Str} (plain : 0 ∉ keyword) :
    strncmp_eq s keyword s.length = true ↔ s = keyword ∨ Mistaken keyword s := by
  rw [strncmp_eq_comm, strncmp_eq_iff plain, Mistaken]
  by_cases same : s = keyword
  · subst same
    simp
  · simp [same]

private theorem not_mistaken {keyword : Str} : ¬ Mistaken keyword keyword := by
  rintro (⟨_, other⟩ | longer)
  · exact other rfl
  · have bound := longer.length_le
    simp at bound

/-- A comparison is right about a text exactly if it is not mistaken for the keyword. -/
private theorem exact_text {keyword s : Str} (plain : 0 ∉ keyword) :
    (strncmp_eq s keyword s.length = true ↔ s = keyword) ↔ ¬ Mistaken keyword s := by
  rw [matches_iff plain]
  constructor
  · intro right mistaken
    rw [right.mp (.inr mistaken)] at mistaken
    exact not_mistaken mistaken
  · intro none
    exact or_iff_left none

private theorem recv_ok_iff (reply : RedisReply) :
    (recv_ok_reply reply = .ok true ↔ reply = .status (lit "OK")) ↔ ∀ s, reply = .status s → ¬ Mistaken (lit "OK") s := by
  cases reply with
  | status s =>
    simp only [recv_ok_reply, Except.ok.injEq, RedisReply.status.injEq, forall_eq']
    exact exact_text (by decide)
  | error s | integer n | nil | string s | array element | hollow m some => simp [recv_ok_reply]

private theorem decode_ok_true (reply : RedisReply) :
    Decoder.ok.decode reply = .ok (.bool true) ↔ recv_ok_reply reply = .ok true := by
  rw [Decoder.decode]
  cases recv_ok_reply reply <;> simp [Except.mapError, Except.map]

/-- These are the methods with that decoder. -/
theorem confirms_iff (m : Command) : m.decoder = .ok ↔ Confirms m := by
  cases m <;> simp [Command.decoder, Confirms]

private theorem okExact_iff (reply : RedisReply) : OkExact reply ↔ ∀ s, reply = .status s → ¬ Mistaken (lit "OK") s := by
  rw [← recv_ok_iff]
  constructor
  · intro exact
    have sends : (Command.set [] []).call = .sends [lit "SET", [], []] .ok := send_eq (by decide)
    obtain ⟨cl, answered⟩ := accepted_answers sends (by decide +kernel) reply
    have right := exact.confirmed (replied reply) (.set [] []) .ok cl trivial answered
    rw [← right, answered.decodes, decode_ok_true]
  · intro exact
    constructor
    · intro a m decoder cl confirms answered
      obtain ⟨cmd, sends, _⟩ := answered.sends
      obtain rfl := (call_decoder sends).trans ((confirms_iff m).mpr confirms)
      rw [← exact, answered.decodes, decode_ok_true]
    · intro db c net ctx switched at_c fine
      rw [← exact]
      simp [select, at_c, Context.redisCommand, fine]

private theorem pongExact_iff (reply : RedisReply) :
    PongExact reply ↔ ¬ Mistaken (lit "PONG") (str reply) ∧ (str reply = lit "PONG" → reply = .status (lit "PONG")) := by
  have pinged : ∀ ctx switched, ctx.err = none →
      (ping (.reply reply switched) ctx).1 = strncmp_eq (str reply) (lit "PONG") (str reply).length := by
    intro ctx switched fine
    simp [ping, Context.redisCommand, fine, REDIS_STATUS_REPLY_PONG]
  have taken : strncmp_eq (str reply) (lit "PONG") (str reply).length = true ↔
      str reply = lit "PONG" ∨ Mistaken (lit "PONG") (str reply) :=
    matches_iff (by decide)
  constructor
  · intro exact
    have right := exact ⟨[], 0, none, [], [], none, false⟩ false rfl
    rw [pinged _ _ rfl, taken] at right
    constructor
    · intro mistaken
      rw [right.mp (.inr mistaken)] at mistaken
      exact not_mistaken mistaken
    · exact fun same => right.mp (.inl same)
  · rintro ⟨none, typed⟩ ctx switched fine
    rw [pinged ctx switched fine, taken]
    constructor
    · exact fun found => typed (found.resolve_right none)
    · intro is
      rw [is]
      exact .inl rfl

/-- The operations are right about a reply exactly if, for an OK, it is no status that is
    mistaken for one and, for a PONG, no reply whose string is mistaken for one or is one
    though the reply is no status. -/
theorem success_exact_iff (reply : RedisReply) :
    (OkExact reply ↔ ∀ s, reply = .status s → ¬ Mistaken (lit "OK") s) ∧
    (PongExact reply ↔ ¬ Mistaken (lit "PONG") (str reply) ∧ (str reply = lit "PONG" → reply = .status (lit "PONG"))) :=
  ⟨okExact_iff reply, pongExact_iff reply⟩

/-- The texts that are mistaken for an OK. -/
theorem mistaken_ok_iff (s : Str) : Mistaken (lit "OK") s ↔ s = [] ∨ s = lit "O" ∨ lit "OK" ++ [0] <+: s := by
  have two : lit "OK" = [79, 75] := rfl
  have one : lit "O" = [79] := rfl
  rw [Mistaken, two, one]
  match s with
  | [] => simp
  | [a] => simp
  | a :: b :: rest =>
    constructor
    · rintro (⟨front, other⟩ | longer)
      · simp at front other
        tauto
      · exact .inr (.inr longer)
    · rintro (is | is | longer)
      · cases is
      · cases is
      · exact .inr longer

/-- An empty status is taken for an OK. -/
theorem empty_status_confirmed : ¬ ∀ reply, OkExact reply ∧ PongExact reply := by
  intro all
  exact (okExact_iff _).mp (all (.status [])).1 [] rfl ((mistaken_ok_iff []).mpr (.inl rfl))

end CppRedis.Successes

import CppRedis.Exchanges
import CppRedis.Expiry
import CppRedis.Outcomes

/-!
The integers that the methods return. A server counts in 64 bits and a method returns
an int; `integers_unchanged_iff` says for which replies, for which runs of the four
counting commands and for which times to live the int is the server's number.
-/
namespace CppRedis.Counters
open CppRedis.Strings CppRedis.Reply CppRedis.Connection CppRedis.Clients CppRedis.Commands CppRedis.Decoders
open CppRedis.Methods CppRedis.Outcomes CppRedis.Deadlines CppRedis.Exchanges CppRedis.Runs
open CppRedis.Requests
open CppRedis.Expiry (Server Spec Handler)
open CppRedis.Lists (wrongArguments notAnInteger)

/-! ### One reply -/

/-- The integer is returned, or there is an exception. -/
def Denotes (n : Int) (result : Except Fault Value) : Prop := result = .ok (.int n) ∨ ∃ e, result = .error (.thrown e)

/-- The reply comes through `recv_int_reply`, and through every method that uses it. -/
structure Unchanged (n : Int) : Prop where
  decoded : Denotes n (Decoder.int.decode (.integer n))
  returned : ∀ a m cl, Answered (.integer n) a m .int cl → Denotes n (perform a m cl).1

private theorem denotes_iff (n : Int) : Denotes n (Decoder.int.decode (.integer n)) ↔ FitsInt n := by
  have fits : FitsInt n ↔ -2 ^ 31 ≤ n ∧ n < 2 ^ 31 := by
    unfold FitsInt
    omega
  rw [fits, ← decode_int]
  constructor
  · rintro (same | ⟨e, thrown⟩)
    · exact same
    · cases thrown
  · exact .inl

private theorem unchanged_iff (n : Int) : Unchanged n ↔ FitsInt n := by
  rw [← denotes_iff]
  constructor
  · exact Unchanged.decoded
  · intro denotes
    refine ⟨denotes, ?_⟩
    intro a m cl answered
    rw [answered.decodes]
    exact denotes

/-- 2147483648 is returned as -2147483648. -/
theorem integer_wraps : ¬ ∀ n, -2 ^ 63 ≤ n → n < 2 ^ 63 → Unchanged n := by
  intro all
  have fits := (denotes_iff _).mp (all (2 ^ 31) (by decide) (by decide)).decoded
  exact absurd fits (by decide)

/-! ### Counters -/

namespace Server

/-- INCR and the like: what is added, and the reply; the deadline stays. -/
def incr_decr (key : Str) (increment : Int) (s : Server) : RedisReply × Server :=
  match s.access key with
  | (e, s) =>
    match e.elim (some 0) fun e => string2ll e.value with
    | none => (notAnInteger, s)
    | some n =>
      if -2 ^ 63 ≤ n + increment ∧ n + increment < 2 ^ 63 then
        (.integer (n + increment), s.put key ⟨number (n + increment), e.bind Entry.deadline⟩)
      else (.error (lit "ERR increment or decrement would overflow"), s)

def incr : Handler
  | [key], s => incr_decr key 1 s
  | _, s => (wrongArguments, s)

def decr : Handler
  | [key], s => incr_decr key (-1) s
  | _, s => (wrongArguments, s)

def incrby : Handler
  | [key, increment], s =>
    match string2ll increment with
    | none => (notAnInteger, s)
    | some n => incr_decr key n s
  | _, s => (wrongArguments, s)

/-- The least number cannot be negated. -/
def decrby : Handler
  | [key, increment], s =>
    match string2ll increment with
    | none => (notAnInteger, s)
    | some n => if n = -2 ^ 63 then (.error (lit "ERR decrement would overflow"), s) else incr_decr key (-n) s
  | _, s => (wrongArguments, s)

end Server

/-- The server with the counting commands. -/
def exec : RedisCmd → Server → RedisReply × Server
  | [], s => Expiry.exec [] s
  | name :: args, s =>
    if name = lit "INCR" then Server.incr args s
    else if name = lit "DECR" then Server.decr args s
    else if name = lit "INCRBY" then Server.incrby args s
    else if name = lit "DECRBY" then Server.decrby args s
    else Expiry.exec (name :: args) s

/-- A method against the server; each command is answered. -/
def call (m : Command) (s : Server) : Option (Except Fault Value × Server) := answer (fun cmd s => some (exec cmd s)) m s

inductive Counting
  | incr (key : Str)
  | incrby (key : Str) (increment : Int32)
  | decr (key : Str)
  | decrby (key : Str) (increment : Int32)

namespace Counting

def command : Counting → Command
  | .incr key => .incr key
  | .incrby key increment => .incrby key increment
  | .decr key => .decr key
  | .decrby key increment => .decrby key increment

def key : Counting → Str
  | .incr key | .incrby key _ | .decr key | .decrby key _ => key

/-- What is added to the counter. -/
def increment : Counting → Int
  | .incr _ => 1
  | .incrby _ increment => increment.toInt
  | .decr _ => -1
  | .decrby _ increment => -increment.toInt

end Counting

/-- What the method sends. -/
def Counting.request : Counting → RedisCmd
  | .incr key => [lit "INCR", key]
  | .incrby key increment => [lit "INCRBY", key, int increment]
  | .decr key => [lit "DECR", key]
  | .decrby key increment => [lit "DECRBY", key, int increment]

/-- The counter of a key: 0 where there is none, and none where the string is no number. -/
def counter (key : Str) (m : Spec) : Option Int := (m.entries key).elim (some 0) fun e => string2ll e.value

/-- The counter after the command; none where the server refuses it. -/
def next (c : Counting) (m : Spec) : Option Int :=
  match counter c.key m with
  | none => none
  | some n => if -2 ^ 63 ≤ n + c.increment ∧ n + c.increment < 2 ^ 63 then some (n + c.increment) else none

def step (s : Server) (c : Counting) : Option Server := (call c.command s).map Prod.snd

/-- The method returns the server's counter, or throws. -/
def Reports (s : Server) (c : Counting) (s' : Server) : Prop :=
  ∀ result, call c.command s = some (result, s') →
    (∃ n, result = .ok (.int n) ∧ counter c.key s'.view = some n) ∨ ∃ e, result = .error (.thrown e)

/-- The next number of the counter is an int, unless the server refuses the command or
    hiredis does. -/
def Small (s : Server) (c : Counting) : Prop :=
  match unsent c.request with
  | some fault => ∃ e, fault = .thrown e
  | none => ∀ n, next c s.view = some n → FitsInt n

/-- The server's reply, and its counter afterwards. -/
private theorem incr_decr_counts (c : Counting) (s : Server) :
    match next c s.view with
    | none => ∃ text, (Server.incr_decr c.key c.increment s).1 = .error text
    | some n => (Server.incr_decr c.key c.increment s).1 = .integer n ∧
        counter c.key (Server.incr_decr c.key c.increment s).2.view = some n := by
  obtain ⟨s', out, seen⟩ := s.view_access c.key
  unfold Server.incr_decr next counter
  simp only [out]
  cases held : (s.view.entries c.key).elim (some 0) fun e => string2ll e.value with
  | none => exact ⟨_, rfl⟩
  | some n =>
    by_cases room : -2 ^ 63 ≤ n + c.increment ∧ n + c.increment < 2 ^ 63
    · -- the deadline of the entry that was found is not over
      have alive : Entry.alive s'.clock ⟨number (n + c.increment), (s.view.entries c.key).bind Entry.deadline⟩ = true := by
        cases found : s.view.entries c.key with
        | none => rfl
        | some e =>
          rw [← seen] at found
          exact s'.view.alive c.key e found
      simp only [if_pos room]
      refine ⟨trivial, ?_⟩
      rw [Lazy.view_put alive]
      simp only [Timed.put, Function.update_self, Option.elim_some]
      exact string2ll_number room.1 room.2
    · simp only [if_neg room]
      exact ⟨_, rfl⟩

/-- Each method sends its command, with its number. -/
private theorem call_counting (c : Counting) (s : Server) :
    call c.command s = match unsent c.request with
      | some fault => some (.error fault, s)
      | none => some (Decoder.int.decode (Server.incr_decr c.key c.increment s).1, (Server.incr_decr c.key c.increment s).2) := by
  have sends : c.command.call = .sends c.request .int := by
    cases c with
    | incr | decr | incrby | decrby => exact send_eq (by simp)
  have run : exec c.request s = Server.incr_decr c.key c.increment s := by
    cases c with
    | incr key | decr key => rfl
    | incrby key increment =>
      show Server.incrby [key, int increment] s = _
      simp only [Server.incrby, string2ll_int]
      rfl
    | decrby key increment =>
      have low := increment.le_toInt
      show Server.decrby [key, int increment] s = _
      simp only [Server.decrby, string2ll_int]
      exact if_neg (by omega)
  have counts := incr_decr_counts c s
  have whole : received (Server.incr_decr c.key c.increment s).1 = .ok (Server.incr_decr c.key c.increment s).1 := by
    cases counted : next c s.view with
    | none =>
      rw [counted] at counts
      obtain ⟨text, is⟩ := counts
      rw [is]
      rfl
    | some n =>
      rw [counted] at counts
      rw [counts.1]
      rfl
  simp only [call, answer, sends, run, Option.map_some, whole]
  rfl

private theorem reports_iff {s s' : Server} {c : Counting} (taken : step s c = some s') : Reports s c s' ↔ Small s c := by
  have out := call_counting c s
  have counts := incr_decr_counts c s
  unfold Reports Small
  cases goes : unsent c.request with
  | some fault =>
    rw [goes] at out
    simp only [step, out, Option.map_some, Option.some.injEq] at taken
    subst taken
    simp [out]
  | none =>
    rw [goes] at out
    unfold step at taken
    rw [out] at taken
    obtain rfl := Option.some.inj taken
    simp only [out, Option.some.injEq, Prod.mk.injEq, and_true, forall_eq']
    cases counted : next c s.view with
    | none =>
      rw [counted] at counts
      obtain ⟨text, refused⟩ := counts
      rw [refused]
      exact iff_of_true (.inr ⟨_, rfl⟩) fun n is => by cases is
    | some n =>
      rw [counted] at counts
      obtain ⟨reply, after⟩ := counts
      rw [reply, after]
      simp only [Option.some.injEq, forall_eq', ← denotes_iff]
      exact or_congr_left ⟨fun ⟨m, same, is⟩ => is ▸ same, fun same => ⟨n, same, rfl⟩⟩

/-! ### Times to live -/

/-- A key that is there has a time left, once `pexpire` has returned, that is no negative
    number. -/
def Lasting (milliseconds : UInt32) : Prop :=
  ∀ key (s : Server), 0 < milliseconds → (s.view.entries key).isSome → ∀ first s' v s'',
    call (.pexpire key milliseconds) s = some (.ok first, s') → call (.pttl key) s' = some (.ok (.int v), s'') → 0 ≤ v

private theorem pexpire_sends (key : Str) (milliseconds : UInt32) :
    (Command.pexpire key milliseconds).call = .sends [lit "PEXPIRE", key, unsigned milliseconds] .int :=
  send_eq (by simp)

private theorem pttl_sends (key : Str) : (Command.pttl key).call = .sends [lit "PTTL", key] .int := send_eq (by simp)

/-- A key that is there gets its time. -/
private theorem call_pexpire {key : Str} {milliseconds : UInt32} {s s' : Server} {e : Entry Str} (some_time : 0 < milliseconds)
    (sendable : Sendable [lit "PEXPIRE", key, unsigned milliseconds]) (out : s.access key = (some e, s')) :
    call (.pexpire key milliseconds) s =
      some (.ok (.int 1), s'.put key ⟨e.value, some (s'.clock + 1 * milliseconds.toNat)⟩) := by
  have positive : ¬ ((milliseconds.toNat : Int) ≤ 0) := by
    have above := UInt32.lt_iff_toNat_lt.mp some_time
    simp only [UInt32.toNat_zero] at above
    omega
  have run : exec [lit "PEXPIRE", key, unsigned milliseconds] s =
      (.integer 1, s'.put key ⟨e.value, some (s'.clock + 1 * milliseconds.toNat)⟩) := by
    show Expiry.Server.expire_generic 1 [key, unsigned milliseconds] s = _
    simp only [Expiry.Server.expire_generic, string2ll_unsigned, out, if_neg positive, Int.toNat_natCast]
  simp only [call, answer, pexpire_sends, unsent_none.mpr sendable, run, Option.map_some]
  rfl

/-- The time that is left of an entry is its deadline less the time. -/
private theorem call_pttl {key value : Str} {s : Server} {d : Nat} (sendable : Sendable [lit "PTTL", key])
    (held : s.view.entries key = some ⟨value, some d⟩) :
    ∃ s', call (.pttl key) s = some (Decoder.int.decode (.integer (d - s.clock : Nat)), s') := by
  obtain ⟨s', out, seen⟩ := s.view_access key
  have clock : s'.clock = s.clock := congrArg Timed.now seen
  have run : exec [lit "PTTL", key] s = (.integer (d - s.clock : Nat), s') := by
    show Expiry.Server.ttl_generic id [key] s = _
    simp only [Expiry.Server.ttl_generic, out, held, clock, id]
  refine ⟨s', ?_⟩
  simp only [call, answer, pttl_sends, unsent_none.mpr sendable, run, Option.map_some]
  rfl

private theorem pexpire_pttl {key : Str} {milliseconds : UInt32} {s : Server} (some_time : 0 < milliseconds)
    (sets : Sendable [lit "PEXPIRE", key, unsigned milliseconds]) (asks : Sendable [lit "PTTL", key])
    (there : (s.view.entries key).isSome) :
    ∃ s' s'', call (.pexpire key milliseconds) s = some (.ok (.int 1), s') ∧
      call (.pttl key) s' = some (Decoder.int.decode (.integer milliseconds.toNat), s'') := by
  obtain ⟨e, found⟩ := Option.isSome_iff_exists.mp there
  obtain ⟨s', out, -⟩ := s.view_access key
  rw [found] at out
  have alive : Entry.alive s'.clock ⟨e.value, some (s'.clock + 1 * milliseconds.toNat)⟩ = true :=
    decide_eq_true (Nat.le_add_right _ _)
  have held : (s'.put key ⟨e.value, some (s'.clock + 1 * milliseconds.toNat)⟩).view.entries key =
      some ⟨e.value, some (s'.clock + 1 * milliseconds.toNat)⟩ := by
    rw [Lazy.view_put alive]
    exact Function.update_self ..
  obtain ⟨s'', answered⟩ := call_pttl asks held
  have left : s'.clock + 1 * milliseconds.toNat - (s'.put key ⟨e.value, some (s'.clock + 1 * milliseconds.toNat)⟩).clock =
      milliseconds.toNat := by
    show s'.clock + 1 * milliseconds.toNat - s'.clock = _
    omega
  rw [left] at answered
  exact ⟨_, s'', call_pexpire some_time sets out, answered⟩

/-- The empty key can be given any time. -/
private theorem empty_key_sendable (milliseconds : UInt32) : Sendable [lit "PEXPIRE", [], unsigned milliseconds] := by
  have high := milliseconds.toNat_lt
  have short : (unsigned milliseconds).length ≤ 10 := by
    rw [unsigned, number_natCast]
    exact digits_length (by omega)
  have count := @digits_length (unsigned milliseconds).length (by omega)
  have name : (lit "PEXPIRE").length = 7 := rfl
  have seven : (digits 7).length = 1 := by decide
  have none : (digits ([] : Str).length).length = 1 := by decide
  have three : (digits 3).length = 1 := by decide
  unfold Sendable
  rw [message_length]
  simp only [List.flatMap_cons, List.flatMap_nil, List.length_append, List.length_nil, item_length, List.length_cons, name, three, seven,
    Nat.zero_add, Nat.reduceAdd]
  simp only [List.length_nil] at none
  omega

private theorem lasting_iff (milliseconds : UInt32) : Lasting milliseconds ↔ milliseconds.toNat < 2 ^ 31 := by
  have high := milliseconds.toNat_lt
  constructor
  · intro lasting
    by_contra large
    have some_time : 0 < milliseconds := UInt32.lt_iff_toNat_lt.mpr (by simp only [UInt32.toNat_zero]; omega)
    have there : ((⟨0, fun _ => some ⟨[], none⟩⟩ : Server).view.entries []).isSome := rfl
    obtain ⟨s', s'', expires, asks⟩ := pexpire_pttl some_time (empty_key_sendable milliseconds) (by decide +kernel) there
    have remains := lasting [] _ some_time there _ s' _ s'' expires asks
    have wraps : (milliseconds.toNat : Int).bmod (2 ^ 32) = milliseconds.toNat - 2 ^ 32 := by
      rw [Int.bmod_def]
      split <;> omega
    rw [wraps] at remains
    omega
  · intro small key s some_time there first s' v s'' expires asks
    have sets := answer_sendable (pexpire_sends key milliseconds) expires
    have asked := answer_sendable (pttl_sends key) asks
    obtain ⟨t', t'', expires', asks'⟩ := pexpire_pttl some_time sets asked there
    cases expires.symm.trans expires'
    rw [(decode_int _).mpr (by omega), asks] at asks'
    cases asks'
    exact Int.natCast_nonneg _

/-- A reply, a run of counting commands and a time to live are reported as they are
    exactly if the numbers are ints. -/
theorem integers_unchanged_iff (n : Int) (s : Server) (calls : List Counting) (milliseconds : UInt32) :
    (Unchanged n ↔ FitsInt n) ∧ (Each step Reports s calls ↔ Meets step Small s calls) ∧
      (Lasting milliseconds ↔ milliseconds.toNat < 2 ^ 31) := by
  have each : ∀ s c s', True → step s c = some s' → (Reports s c s' ↔ Small s c) := fun _ _ _ _ taken => reports_iff taken
  refine ⟨unchanged_iff n, ?_, lasting_iff milliseconds⟩
  exact each_iff_meets (fun _ => True) (fun _ _ _ _ _ _ => trivial) each trivial calls

end CppRedis.Counters

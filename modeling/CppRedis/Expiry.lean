import CppRedis.Deadlines
import CppRedis.Lists

/-!
The string and expiry commands: a server that keeps strings and throws expired ones
away when it looks for them, the operations on a timed map, and the methods of
`Client` between them. `exec_operates` connects a method with its operation.
`strings_refine_iff` says in which runs the methods give what the operations do.
-/
namespace CppRedis.Expiry
open CppRedis.Strings CppRedis.Reply CppRedis.Connection CppRedis.Clients CppRedis.Commands CppRedis.Decoders
open CppRedis.Methods CppRedis.Requests CppRedis.Runs CppRedis.Deadlines
open CppRedis.Lists (wrongArguments notAnInteger okReply bulk)

/-! ### The timed map -/

/-- A positive number that is an int. -/
structure Duration where
  toNat : Nat
  positive : 0 < toNat
  fits : toNat < 2 ^ 31

def Duration.int32 (d : Duration) : Int32 := Int32.ofNat d.toNat
def Duration.uint32 (d : Duration) : UInt32 := UInt32.ofNat d.toNat

/-- A call of a method; `before` is the value of the output string. -/
inductive StringCall
  | set (key value : Str)
  | setex (key value : Str) (seconds : Duration)
  | psetex (key value : Str) (milliseconds : Duration)
  | setnx (key value : Str)
  | get (key before : Str)
  | getset (key value before : Str)
  | del (keys : List Str)
  | exists_ (key : Str)
  | expire (key : Str) (seconds : Duration)
  | pexpire (key : Str) (milliseconds : Duration)
  | persist (key : Str)
  | ttl (key : Str)
  | pttl (key : Str)

/-- What an operation gives. -/
inductive Result
  | number (n : Int)
  | element (x : Option Str)
  | done

/-- The value in which a method reports it. -/
def Result.value (before : Str) : Result → Value
  | .number n => .int n
  | .element (some x) => .string 0 x
  | .element none => .string (-1) before
  | .done => .bool true

abbrev Spec := Timed Str Str

def find (key : Str) (m : Spec) : Option Str := (m.entries key).map Entry.value

/-- A key gets a deadline, if it is there. -/
def renew (key : Str) (duration : Nat) (m : Spec) : Result × Spec :=
  match m.entries key with
  | none => (.number 0, m)
  | some e => (.number 1, m.setFor key e.value duration)

/-- The milliseconds that a key has left, -1 if it stays for ever, and -2 if it is not
    there. -/
def remaining (key : Str) (m : Spec) : Int :=
  match m.entries key with
  | none => -2
  | some ⟨_, none⟩ => -1
  | some ⟨_, some d⟩ => (d - m.now : Nat)

/-- Milliseconds in seconds, rounded. -/
def inSeconds (ms : Int) : Int := if ms < 0 then ms else (ms + 500) / 1000

/-- The operation of a call. -/
def operate : StringCall → Spec → Result × Spec
  | .set key value, m => (.done, m.set key value)
  | .setex key value seconds, m => (.done, m.setFor key value (1000 * seconds.toNat))
  | .psetex key value milliseconds, m => (.done, m.setFor key value milliseconds.toNat)
  | .setnx key value, m =>
    match m.entries key with
    | none => (.number 1, m.set key value)
    | some _ => (.number 0, m)
  | .get key _, m => (.element (find key m), m)
  | .getset key value _, m => (.element (find key m), m.set key value)
  | .del keys, m => (.number (m.present keys).card, m.eraseAll keys)
  | .exists_ key, m => (.number (if (m.entries key).isSome then 1 else 0), m)
  | .expire key seconds, m => renew key (1000 * seconds.toNat) m
  | .pexpire key milliseconds, m => renew key milliseconds.toNat m
  | .persist key, m =>
    match m.entries key with
    | some ⟨value, some _⟩ => (.number 1, m.set key value)
    | some ⟨_, none⟩ => (.number 0, m)
    | none => (.number 0, m)
  | .ttl key, m => (.number (inSeconds (remaining key m)), m)
  | .pttl key, m => (.number (remaining key m), m)

/-! ### The server -/

abbrev Server := Lazy Str Str

/-- What the server makes of a command: the reply and the strings afterwards. -/
abbrev Handler := List Str → Server → RedisReply × Server

namespace Server

def set : Handler
  | [key, value], s => (okReply, s.put key ⟨value, none⟩)
  | _, s => (wrongArguments, s)

/-- SETEX and PSETEX, with the milliseconds of their unit. -/
def setex_generic (unit : Nat) : Handler
  | [key, expire, value], s =>
    match string2ll expire with
    | none => (notAnInteger, s)
    | some n =>
      if n ≤ 0 then (.error (lit "ERR invalid expire time in setex"), s)
      else (okReply, s.put key ⟨value, some (s.clock + unit * n.toNat)⟩)
  | _, s => (wrongArguments, s)

def setnx : Handler
  | [key, value], s =>
    match s.access key with
    | (none, s) => (.integer 1, s.put key ⟨value, none⟩)
    | (some _, s) => (.integer 0, s)
  | _, s => (wrongArguments, s)

def get : Handler
  | [key], s =>
    match s.access key with
    | (e, s) => (bulk (e.map Entry.value), s)
  | _, s => (wrongArguments, s)

def getset : Handler
  | [key, value], s =>
    match s.access key with
    | (e, s) => (bulk (e.map Entry.value), s.put key ⟨value, none⟩)
  | _, s => (wrongArguments, s)

/-- The keys are deleted in order, and those that were there counted. -/
def del_from : List Str → Nat → Server → Nat × Server
  | [], n, s => (n, s)
  | key :: rest, n, s =>
    match s.access key with
    | (none, s) => del_from rest n s
    | (some _, s) => del_from rest (n + 1) (s.erase key)

def del : Handler
  | [], s => (wrongArguments, s)
  | keys, s =>
    match del_from keys 0 s with
    | (n, s) => (.integer n, s)

def exists_ : Handler
  | [key], s =>
    match s.access key with
    | (e, s) => (.integer (if e.isSome then 1 else 0), s)
  | _, s => (wrongArguments, s)

/-- EXPIRE and PEXPIRE; a time that is over deletes the key. -/
def expire_generic (unit : Nat) : Handler
  | [key, expire], s =>
    match string2ll expire with
    | none => (notAnInteger, s)
    | some n =>
      match s.access key with
      | (none, s) => (.integer 0, s)
      | (some e, s) =>
        if n ≤ 0 then (.integer 1, s.erase key)
        else (.integer 1, s.put key ⟨e.value, some (s.clock + unit * n.toNat)⟩)
  | _, s => (wrongArguments, s)

def persist : Handler
  | [key], s =>
    match s.access key with
    | (some ⟨value, some _⟩, s) => (.integer 1, s.put key ⟨value, none⟩)
    | (some ⟨_, none⟩, s) => (.integer 0, s)
    | (none, s) => (.integer 0, s)
  | _, s => (wrongArguments, s)

/-- TTL and PTTL, with what they make of the milliseconds. -/
def ttl_generic (output : Nat → Nat) : Handler
  | [key], s =>
    match s.access key with
    | (none, s) => (.integer (-2), s)
    | (some ⟨_, none⟩, s) => (.integer (-1), s)
    | (some ⟨_, some d⟩, s) => (.integer (output (d - s.clock)), s)
  | _, s => (wrongArguments, s)

end Server

/-- The handler of a command. -/
def handler (name : Str) : Option Handler :=
  if name = lit "SET" then some Server.set
  else if name = lit "SETEX" then some (Server.setex_generic 1000)
  else if name = lit "PSETEX" then some (Server.setex_generic 1)
  else if name = lit "SETNX" then some Server.setnx
  else if name = lit "GET" then some Server.get
  else if name = lit "GETSET" then some Server.getset
  else if name = lit "DEL" then some Server.del
  else if name = lit "EXISTS" then some Server.exists_
  else if name = lit "EXPIRE" then some (Server.expire_generic 1000)
  else if name = lit "PEXPIRE" then some (Server.expire_generic 1)
  else if name = lit "PERSIST" then some Server.persist
  else if name = lit "TTL" then some (Server.ttl_generic fun ms => (ms + 500) / 1000)
  else if name = lit "PTTL" then some (Server.ttl_generic id)
  else none

/-- A request without arguments, which gets no reply at all, is taken for refused. -/
def exec : RedisCmd → Server → RedisReply × Server
  | [], s => (wrongArguments, s)
  | name :: args, s =>
    match handler name with
    | none => (.error (lit "ERR unknown command"), s)
    | some run => run args s

/-! ### The methods -/

/-- The method of a call. -/
def StringCall.command : StringCall → Command
  | .set key value => .set key value
  | .setex key value seconds => .setex key value seconds.int32
  | .psetex key value milliseconds => .psetex key value milliseconds.int32
  | .setnx key value => .setnx key value
  | .get key before => .get key before
  | .getset key value before => .getset key value before
  | .del keys => .del keys
  | .exists_ key => .exists_ key
  | .expire key seconds => .expire key seconds.uint32
  | .pexpire key milliseconds => .pexpire key milliseconds.uint32
  | .persist key => .persist key
  | .ttl key => .ttl key
  | .pttl key => .pttl key

/-- The value of the output string before the call. -/
def StringCall.before : StringCall → Str
  | .get _ before => before
  | .getset _ _ before => before
  | _ => []

/-- What the method returns or throws, and the server afterwards. -/
def answer (call : StringCall) (s : Server) : Except Fault Value × Server :=
  match call.command.call with
  | .returns v => (.ok v, s)
  | .undefined => (.error .undefined, s)
  | .throws e => (.error (.thrown e), s)
  | .sends cmd decoder =>
    match unsent cmd with
    | some fault => (.error fault, s)
    | none =>
      match exec cmd s with
      | (reply, s) => (decoder.decode reply, s)

theorem Duration.int32_toInt (d : Duration) : d.int32.toInt = d.toNat := by
  have fits := d.fits
  exact Int32.toInt_ofNat_of_lt (by omega)

theorem Duration.int32_positive (d : Duration) : ¬ d.int32 ≤ 0 := by
  have positive := d.positive
  rw [Int32.le_iff_toInt_le, d.int32_toInt]
  show ¬ (d.toNat : Int) ≤ 0
  omega

theorem Duration.uint32_toNat (d : Duration) : d.uint32.toNat = d.toNat := by
  have fits := d.fits
  exact UInt32.toNat_ofNat_of_lt' (by show d.toNat < 2 ^ 32; omega)

/-! ### The server carries out the operations -/

/-- The reply for what an operation gives. -/
def Result.reply : Result → RedisReply
  | .number n => .integer n
  | .element x => bulk x
  | .done => okReply

/-- A command gets the reply for a result and leaves a map to be seen. -/
structure Executes (out : RedisReply × Server) (gives : Result × Spec) : Prop where
  reply : out.1 = gives.1.reply
  view : out.2.view = gives.2

/-- The decoder of the method, for what the operation gives. -/
inductive Suits (before : Str) : Decoder → Result → Prop
  | number (n : Int) : Suits before .int (.number n)
  | element (x : Option Str) : Suits before (.string before) (.element x)
  | done : Suits before .ok .done

/-- The method sends a command of few arguments for its operation. -/
def Plain : StringCall → Prop
  | .psetex _ _ _ => False
  | .del _ => False
  | _ => True

private theorem setex_run (unit : Nat) (key value : Str) (d : Duration) (s : Server) :
    Server.setex_generic unit [key, int d.int32, value] s =
      (okReply, s.put key ⟨value, some (s.clock + unit * d.toNat)⟩) := by
  have positive := d.positive
  simp only [Server.setex_generic, string2ll_int, d.int32_toInt, Int.toNat_natCast]
  exact if_neg (by omega)

private theorem expire_executes (unit : Nat) (key : Str) (d : Duration) (s : Server) :
    Executes (Server.expire_generic unit [key, unsigned d.uint32] s) (renew key (unit * d.toNat) s.view) := by
  obtain ⟨s', out, seen⟩ := s.view_access key
  have positive := d.positive
  simp only [Server.expire_generic, string2ll_unsigned, d.uint32_toNat, out, renew]
  cases s.view.entries key with
  | none => exact ⟨rfl, seen⟩
  | some e =>
    simp only [Int.toNat_natCast]
    rw [if_neg (by omega), ← seen]
    exact ⟨rfl, s'.view_setFor key e.value _⟩

private theorem ttl_executes (output : Nat → Nat) (round : Int → Int) (key : Str) (s : Server)
    (rounds : ∀ n : Nat, round n = output n) (gone : round (-2) = -2) (stays : round (-1) = -1) :
    Executes (Server.ttl_generic output [key] s) (.number (round (remaining key s.view)), s.view) := by
  obtain ⟨s', out, seen⟩ := s.view_access key
  simp only [Server.ttl_generic, out, remaining]
  cases s.view.entries key with
  | none => exact ⟨congrArg _ gone.symm, seen⟩
  | some e =>
    obtain ⟨value, _ | d⟩ := e
    · exact ⟨congrArg _ stays.symm, seen⟩
    · refine ⟨?_, seen⟩
      show RedisReply.integer _ = .integer _
      rw [rounds, ← seen]
      rfl

private theorem del_executes (keys : List Str) (n : Nat) (s : Server) :
    (Server.del_from keys n s).1 = n + (s.view.present keys).card ∧
      (Server.del_from keys n s).2.view = s.view.eraseAll keys := by
  induction keys generalizing n s with
  | nil => exact ⟨rfl, s.view.eraseAll_nil.symm⟩
  | cons key rest ih =>
    obtain ⟨s', out, seen⟩ := s.view_access key
    rw [Timed.eraseAll_cons]
    simp only [Server.del_from, out]
    cases found : s.view.entries key with
    | none =>
      rw [Timed.present_cons_absent found, Timed.eraseAll_absent found, ← seen]
      exact ih n s'
    | some e =>
      obtain ⟨count, left⟩ := ih (n + 1) (s'.erase key)
      rw [s'.view_erase, seen] at count left
      refine ⟨count.trans ?_, left⟩
      rw [Timed.present_cons_card found]
      omega

/-- A method other than `psetex` and `del` has its operation carried out. -/
theorem exec_operates {call : StringCall} (plain : Plain call) (s : Server) :
    ∃ cmd decoder, call.command.call = .sends cmd decoder ∧ Suits call.before decoder (operate call s.view).1 ∧
      Executes (exec cmd s) (operate call s.view) := by
  cases call with
  | set key value => exact ⟨_, _, send_eq (by simp), .done, rfl, s.view_set key value⟩
  | setex key value seconds =>
    refine ⟨_, _, (if_neg seconds.int32_positive).trans (send_eq (by simp)), .done, ?_⟩
    show Executes (Server.setex_generic 1000 [key, int seconds.int32, value] s) _
    rw [setex_run]
    exact ⟨rfl, s.view_setFor key value _⟩
  | psetex key value milliseconds => exact absurd plain id
  | setnx key value =>
    refine ⟨_, _, send_eq (by simp), ?_⟩
    obtain ⟨s', out, seen⟩ := s.view_access key
    show _ ∧ Executes (Server.setnx [key, value] s) _
    simp only [Server.setnx, out, operate]
    cases s.view.entries key with
    | none => exact ⟨.number 1, rfl, seen ▸ s'.view_set key value⟩
    | some e => exact ⟨.number 0, rfl, seen⟩
  | get key before =>
    refine ⟨_, _, send_eq (by simp), .element _, ?_⟩
    obtain ⟨s', out, seen⟩ := s.view_access key
    show Executes (Server.get [key] s) _
    simp only [Server.get, out]
    exact ⟨rfl, seen⟩
  | getset key value before =>
    refine ⟨_, _, send_eq (by simp), .element _, ?_⟩
    obtain ⟨s', out, seen⟩ := s.view_access key
    show Executes (Server.getset [key, value] s) _
    simp only [Server.getset, out]
    exact ⟨rfl, seen ▸ s'.view_set key value⟩
  | del keys => exact absurd plain id
  | exists_ key =>
    refine ⟨_, _, send_eq (by simp), .number _, ?_⟩
    obtain ⟨s', out, seen⟩ := s.view_access key
    show Executes (Server.exists_ [key] s) _
    simp only [Server.exists_, out]
    exact ⟨rfl, seen⟩
  | expire key seconds =>
    refine ⟨_, _, send_eq (by simp), ?_, expire_executes 1000 key seconds s⟩
    simp only [operate, renew]
    cases s.view.entries key <;> exact .number _
  | pexpire key milliseconds =>
    have run := expire_executes 1 key milliseconds s
    rw [Nat.one_mul] at run
    refine ⟨_, _, send_eq (by simp), ?_, run⟩
    simp only [operate, renew]
    cases s.view.entries key <;> exact .number _
  | persist key =>
    refine ⟨_, _, send_eq (by simp), ?_⟩
    obtain ⟨s', out, seen⟩ := s.view_access key
    show _ ∧ Executes (Server.persist [key] s) _
    simp only [Server.persist, out, operate]
    cases s.view.entries key with
    | none => exact ⟨.number 0, rfl, seen⟩
    | some e =>
      obtain ⟨value, _ | d⟩ := e
      · exact ⟨.number 0, rfl, seen⟩
      · exact ⟨.number 1, rfl, seen ▸ s'.view_set key value⟩
  | ttl key =>
    refine ⟨_, _, send_eq (by simp), .number _, ttl_executes (fun ms => (ms + 500) / 1000) inSeconds key s ?_ rfl rfl⟩
    intro n
    rw [inSeconds, if_neg (by omega)]
    push_cast
    rfl
  | pttl key => exact ⟨_, _, send_eq (by simp), .number _, ttl_executes id id key s (fun _ => rfl) rfl rfl⟩

/-! ### What the methods give -/

/-- A call, or the passing of milliseconds. -/
inductive Act
  | call (c : StringCall)
  | advance (duration : Nat)

/-- The strings of the server and the map, at one call after the other. -/
def step (s : Server × Spec) : Act → Option (Server × Spec)
  | .call c => some ((answer c s.1).2, (operate c s.2).2)
  | .advance duration => some (s.1.advance duration, s.2.advance duration)

/-- The method returns what the operation gives, and the map is what is seen of the
    server. -/
def Reports (s : Server × Spec) (act : Act) (s' : Server × Spec) : Prop :=
  s'.1.view = s'.2 ∧ ∀ c, act = .call c → (answer c s.1).1 = .ok ((operate c s.2).1.value c.before)

/-- The call is not a `psetex`, its command can be sent, and it reports an int; a `del`
    hands over one key at least, and all that are there. -/
def Reportable (m : Spec) : Act → Prop
  | .call (.psetex _ _ _) => False
  | .call (.del keys) => ∃ given, handed (lit "DEL" :: keys) = .ok (lit "DEL" :: given) ∧ Sendable (lit "DEL" :: given) ∧
      given ≠ [] ∧ m.present given = m.present keys ∧ (m.present keys).card < 2 ^ 31
  | .call (.ttl key) => (Command.ttl key).Sent ∧ inSeconds (remaining key m) < 2 ^ 31
  | .call (.pttl key) => (Command.pttl key).Sent ∧ remaining key m < 2 ^ 31
  | .call c => c.command.Sent
  | .advance _ => True

/-- A number is an int. -/
def Result.Fits : Result → Prop
  | .number n => -2 ^ 31 ≤ n ∧ n < 2 ^ 31
  | .element _ => True
  | .done => True

private theorem decodes_iff {before : Str} {decoder : Decoder} {result : Result} (suits : Suits before decoder result) :
    decoder.decode result.reply = .ok (result.value before) ↔ result.Fits := by
  cases suits with
  | number n => exact decode_int n
  | element x => cases x <;> exact iff_of_true rfl trivial
  | done => exact iff_of_true rfl trivial

private theorem remaining_low (key : Str) (m : Spec) : -2 ≤ remaining key m := by
  unfold remaining
  split <;> omega

private theorem inSeconds_low {ms : Int} (low : -2 ≤ ms) : -2 ≤ inSeconds ms := by
  unfold inSeconds
  split <;> omega

private theorem reportable_iff {call : StringCall} (plain : Plain call) (m : Spec) :
    Reportable m (.call call) ↔ call.command.Sent ∧ (operate call m).1.Fits := by
  cases call with
  | psetex key value milliseconds | del keys => exact absurd plain id
  | ttl key =>
    have low : -2 ^ 31 ≤ inSeconds (remaining key m) := by
      have := inSeconds_low (remaining_low key m)
      omega
    exact and_congr_right fun _ => (and_iff_right low).symm
  | pttl key =>
    have low : -2 ^ 31 ≤ remaining key m := by
      have := remaining_low key m
      omega
    exact and_congr_right fun _ => (and_iff_right low).symm
  | set key value | setex key value seconds | get key before | getset key value before => exact (and_iff_left trivial).symm
  | exists_ key =>
    refine (and_iff_left ?_).symm
    simp only [operate]
    split <;> exact ⟨by decide, by decide⟩
  | setnx key value | persist key =>
    refine (and_iff_left ?_).symm
    simp only [operate]
    split <;> exact ⟨by decide, by decide⟩
  | expire key d | pexpire key d =>
    refine (and_iff_left ?_).symm
    simp only [operate, renew]
    split <;> exact ⟨by decide, by decide⟩

private theorem answer_operates {call : StringCall} (plain : Plain call) (sent : call.command.Sent) (s : Server) :
    (answer call s).2.view = (operate call s.view).2 ∧
      ((answer call s).1 = .ok ((operate call s.view).1.value call.before) ↔ (operate call s.view).1.Fits) := by
  obtain ⟨cmd, decoder, sends, suits, executes⟩ := exec_operates plain s
  have goes := unsent_none.mpr ((Command.sent_iff sends).mp sent)
  have out : answer call s = (decoder.decode (exec cmd s).1, (exec cmd s).2) := by simp only [answer, sends, goes]
  rw [out, executes.reply]
  exact ⟨executes.view, decodes_iff suits⟩

/-- What is not sent has no value. -/
private theorem answer_unsent {call : StringCall} (plain : Plain call) (unsendable : ¬ call.command.Sent) (s : Server) (v : Value) :
    (answer call s).1 ≠ .ok v := by
  obtain ⟨cmd, decoder, sends, _⟩ := exec_operates plain s
  rw [Command.sent_iff sends, ← unsent_none] at unsendable
  obtain ⟨fault, goes⟩ := Option.ne_none_iff_exists'.mp unsendable
  simp only [answer, sends, goes]
  exact fun is => by cases is

private theorem answer_del (keys : List Str) (s : Server) :
    answer (.del keys) s =
      match handed (lit "DEL" :: keys) with
      | .error e => (.error (.thrown e), s)
      | .ok cmd =>
        match unsent cmd with
        | some fault => (.error fault, s)
        | none => (Decoder.int.decode (exec cmd s).1, (exec cmd s).2) := by
  simp only [answer, StringCall.command, Command.call]
  unfold send
  cases handed (lit "DEL" :: keys) <;> rfl

private theorem exec_del {keys : List Str} (nonempty : keys ≠ []) (s : Server) :
    (exec (lit "DEL" :: keys) s).1 = .integer (s.view.present keys).card ∧
      (exec (lit "DEL" :: keys) s).2.view = s.view.eraseAll keys := by
  obtain ⟨key, rest, rfl⟩ := List.exists_cons_of_ne_nil nonempty
  obtain ⟨count, left⟩ := del_executes (key :: rest) 0 s
  refine ⟨?_, left⟩
  show RedisReply.integer (Server.del_from (key :: rest) 0 s).1 = _
  rw [count, Nat.zero_add]

/-- `del` deletes the keys that are handed over, and counts those. -/
private theorem del_reports (keys : List Str) (s : Server) :
    (answer (.del keys) s).2.view = s.view.eraseAll keys ∧
      (answer (.del keys) s).1 = .ok (.int (s.view.present keys).card) ↔
    Reportable s.view (.call (.del keys)) := by
  rw [answer_del]
  simp only [Reportable]
  cases given : handed (lit "DEL" :: keys) with
  | error e =>
    refine iff_of_false ?_ ?_
    · rintro ⟨_, no⟩
      cases no
    · rintro ⟨_, no, _⟩
      cases no
  | ok cmd =>
    have refused : ∀ cmd, exec cmd s = (wrongArguments, s) →
        ¬ Decoder.int.decode (exec cmd s).1 = .ok (.int (s.view.present keys).card) := by
      intro cmd is returned
      rw [is] at returned
      cases returned
    obtain rfl := handed_take given
    generalize (int_of_size (lit "DEL" :: keys).length).toNat = k
    dsimp only
    cases goes : unsent ((lit "DEL" :: keys).take k) with
    | some fault =>
      refine iff_of_false (fun both => by cases both.2) ?_
      rintro ⟨given, same, sendable, _⟩
      rw [Except.ok.inj same, unsent_none.mpr sendable] at goes
      cases goes
    | none =>
      have sendable := unsent_none.mp goes
      cases k with
      | zero =>
        refine iff_of_false (fun both => refused [] rfl both.2) ?_
        rintro ⟨_, no, _⟩
        cases no
      | succ k =>
        rw [List.take_succ_cons] at sendable ⊢
        by_cases empty : keys.take k = []
        · rw [empty]
          refine iff_of_false (fun both => refused [lit "DEL"] rfl both.2) ?_
          rintro ⟨_, same, _, some, _⟩
          cases same
          exact some rfl
        · obtain ⟨count, left⟩ := exec_del empty s
          simp only [count, left, Timed.eraseAll_eq_iff]
          constructor
          · rintro ⟨same, returned⟩
            rw [same] at returned
            have small := (decode_int _).mp returned
            exact ⟨_, rfl, sendable, empty, same, by omega⟩
          · rintro ⟨_, is, _, _, same, small⟩
            cases is
            rw [same]
            exact ⟨rfl, (decode_int _).mpr (by omega)⟩

/-- `psetex` fails, or its deadline is a thousand times too far away. -/
private theorem answer_psetex (key value : Str) (d : Duration) (s : Server) :
    (∀ v, (answer (.psetex key value d) s).1 ≠ .ok v) ∨
      (answer (.psetex key value d) s).2.view = s.view.setFor key value (1000 * d.toNat) := by
  have same : answer (.psetex key value d) s = answer (.setex key value d) s := rfl
  have plain : Plain (.setex key value d) := trivial
  rw [same]
  by_cases sent : (StringCall.setex key value d).command.Sent
  · exact .inr (answer_operates plain sent s).1
  · exact .inl (answer_unsent plain sent s)

theorem step_reports {s s' : Server × Spec} {act : Act} (seen : s.1.view = s.2) (taken : step s act = some s') :
    Reports s act s' ↔ Reportable s.2 act := by
  obtain ⟨server, m⟩ := s
  obtain rfl : server.view = m := seen
  cases act with
  | advance duration =>
    obtain rfl := Option.some.inj taken
    exact iff_of_true ⟨server.view_advance duration, nofun⟩ trivial
  | call c =>
    obtain rfl := Option.some.inj taken
    simp only [Reports, Act.call.injEq, forall_eq']
    by_cases plain : Plain c
    · rw [reportable_iff plain]
      by_cases sent : c.command.Sent
      · obtain ⟨view, reports⟩ := answer_operates plain sent server
        rw [and_iff_right sent, ← reports]
        exact and_iff_right view
      · exact iff_of_false (fun both => answer_unsent plain sent server _ both.2) fun both => sent both.1
    · cases c with
      | psetex key value d =>
        refine iff_of_false ?_ id
        rintro ⟨view, returned⟩
        rcases answer_psetex key value d server with fails | later
        · exact fails _ returned
        · have positive := d.positive
          have far := Timed.setFor_injective (later.symm.trans view)
          omega
      | del keys => exact del_reports keys server
      | _ => exact absurd trivial plain

/-- In a run on any strings, all methods give what the operations do exactly if no call
    is a `psetex`, every command can be sent, every `del` hands over a key and all that
    are there, and the numbers that are reported are ints. -/
theorem strings_refine_iff (s : Server) (acts : List Act) :
    Each step Reports (s, s.view) acts ↔ Meets step (fun s act => Reportable s.2 act) (s, s.view) acts := by
  refine each_iff_meets (fun s => s.1.view = s.2) ?_ ?_ rfl acts
  · exact fun s act s' seen good taken => ((step_reports seen taken).mpr good).1
  · exact fun s act s' seen taken => step_reports seen taken

def nothing : Server := ⟨0, fun _ => none⟩
def oneThousand : Duration := ⟨1000, by decide, by decide⟩
def one : Duration := ⟨1, by decide, by decide⟩

/-- A key that `psetex` set for a second is still there after two; and the strings are
    not those that `setex` leaves. -/
theorem psetex_outlives :
    (∃ s, run step (nothing, nothing.view) [.call (.psetex (lit "k") (lit "v") oneThousand), .advance 2000] = some s ∧
      (answer (.get (lit "k") []) s.1).1 = .ok (.string 0 (lit "v")) ∧
      (operate (.get (lit "k") []) s.2).1 = .element none) ∧
    (answer (.setex (lit "k") (lit "v") one) nothing).2 ≠ (answer (.psetex (lit "k") (lit "v") oneThousand) nothing).2 := by
  have sent : ∀ d : Duration, Sendable [lit "SETEX", lit "k", int d.int32, lit "v"] →
      (answer (.psetex (lit "k") (lit "v") d) nothing).2 = nothing.put (lit "k") ⟨lit "v", some (1000 * d.toNat)⟩ := by
    intro d sendable
    have call : answer (.psetex (lit "k") (lit "v") d) nothing =
        (Decoder.ok.decode (Server.setex_generic 1000 [lit "k", int d.int32, lit "v"] nothing).1,
          (Server.setex_generic 1000 [lit "k", int d.int32, lit "v"] nothing).2) := by
      simp only [answer, StringCall.command, Command.call, if_neg d.int32_positive]
      rw [send_eq (by simp)]
      simp only [unsent_none.mpr sendable]
      rfl
    rw [call, setex_run]
    simp [nothing]
  have same : ∀ d : Duration, answer (.setex (lit "k") (lit "v") d) nothing = answer (.psetex (lit "k") (lit "v") d) nothing :=
    fun _ => rfl
  have asks : Sendable [lit "GET", lit "k"] := by decide +kernel
  have got : ∀ s, answer (.get (lit "k") []) s =
      ((Decoder.string []).decode (Server.get [lit "k"] s).1, (Server.get [lit "k"] s).2) := by
    intro s
    simp only [answer, StringCall.command, Command.call]
    rw [send_eq (by simp)]
    simp only [unsent_none.mpr asks]
    rfl
  have second : Sendable [lit "SETEX", lit "k", int oneThousand.int32, lit "v"] := by decide +kernel
  constructor
  · refine ⟨_, rfl, ?_, ?_⟩
    · simp only [sent _ second, got]
      rfl
    · rfl
  · intro equal
    rw [same, sent one (by decide +kernel), sent oneThousand second] at equal
    have deadline := congrFun (congrArg Lazy.dict equal) (lit "k")
    simp [Lazy.put, one, oneThousand] at deadline

end CppRedis.Expiry

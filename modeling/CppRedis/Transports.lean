import CppRedis.Conversations
import CppRedis.Formats

/-!
What a `Connection` sends and waits for, at the bytes. The model of a connection takes what
becomes of each request as given (`Exchange`); hiredis writes the bytes of the request and
reads until a reply is whole. `exchanges_refined` says that whatever the socket does there
are exchanges with which the connection gives the same replies and the same errors.
-/
namespace CppRedis.Transports
open CppRedis.Strings CppRedis.Reply CppRedis.Connection CppRedis.Commands CppRedis.Frames CppRedis.Requests CppRedis.Readers
open CppRedis.Encodings CppRedis.Contexts CppRedis.Formats
open Conversations (Command Fresh Dead Orderly)

/-! ### The bytes of a request -/

/-- The arguments of a request. -/
def args : Request → RedisCmd
  | .select db => [lit "SELECT", number db]
  | .quit => [lit "QUIT"]
  | .command _ cmd => cmd
  | .ask cmd => cmd

variable (printf : Str → VaArg → Str)

/-- What is written for a request: `select` and `quit` have a format, others their arrays. -/
def written : Request → Formatted
  | .select db => redisvFormatCommand printf (lit "SELECT %d") [.int db]
  | .quit => redisvFormatCommand printf (lit "QUIT") []
  | .command _ cmd | .ask cmd =>
    match shallow_assign cmd with
    | .ok h => redisFormatCommandArgv h
    | .error _ => .error

/-- The number is an `int`, and one counts the arguments. -/
def Fits : Request → Prop
  | .select db => -2 ^ 31 ≤ db ∧ db < 2 ^ 31
  | .quit => True
  | .command _ cmd => cmd.length < 2 ^ 31
  | .ask cmd => cmd.length < 2 ^ 31

variable {printf}

private theorem arrays_written {cmd : RedisCmd} (few : cmd.length < 2 ^ 31) :
    (match shallow_assign cmd with
      | .ok h => redisFormatCommandArgv h
      | .error _ => .error) = redisFormatCommandArgv (pointed cmd) := by
  rw [shallow_small few]

/-- A format gives what its arguments would. -/
theorem written_eq (decimal : ∀ n, printf (lit "%d") (.int n) = number n) {request : Request} (fits : Fits request) :
    written printf request = redisFormatCommandArgv (pointed (args request)) := by
  cases request with
  | select db =>
    have select := select_formatted decimal fits.1 fits.2
    exact select.1.trans (format_sendable select.2).symm
  | quit =>
    have small : Sendable [lit "QUIT"] := by decide +kernel
    exact (name_formatted printf (by decide) (by decide) small).trans (format_sendable small).symm
  | command call cmd => exact arrays_written fits
  | ask cmd => exact arrays_written fits

/-! ### Calls -/

/-- A request, and how its system calls end. -/
structure Call where
  request : Request
  writes : List Wrote
  arrivals : List Arrival

variable (printf) (serve : Server)

/-- `redisCommand` and `redisCommandArgv`. -/
def perform (call : Call) (link : Link) : Outcome :=
  redisFormatted serve call.writes call.arrivals link (written printf call.request)

/-- What the caller finds. -/
inductive Found
  | reply (reply : RedisReply)
  | null (errstr : Str)
  | undefined

/-- The calls in order, up to one that waits. -/
def performed : List Call → Link → List Found
  | [], _ => []
  | call :: calls, link =>
    match perform printf serve call link with
    | .returns (some reply) link => .reply reply :: performed calls link
    | .returns none link => .null link.ctx.errstr :: performed calls link
    | .waits => []
    | .undefined => [.undefined]

/-- The same requests on a connection, with what becomes of each that hiredis can format. -/
def exchanged : List (Request × Exchange) → Context → List Found
  | [], _ => []
  | (request, x) :: rest, ctx =>
    match written printf request with
    | .command _ =>
      match ctx.redisCommand request x with
      | (some reply, ctx) => .reply reply :: exchanged rest ctx
      | (none, ctx) => .null (ctx.err.getD []) :: exchanged rest ctx
    | .error => .null (ctx.outOfMemory.err.getD []) :: exchanged rest ctx.outOfMemory
    | .undefined => [.undefined]

variable {printf} {serve}

theorem perform_eq (decimal : ∀ n, printf (lit "%d") (.int n) = number n) {call : Call} (fits : Fits call.request) (link : Link) :
    perform printf serve call link = redisCommandArgv serve (pointed (args call.request)) call.writes call.arrivals link := by
  unfold perform redisCommandArgv
  rw [written_eq decimal fits]

/-- The context of the connection that stands for a link, after these commands. -/
inductive Pictures (serve : Server) (before : List RedisCmd) (link : Link) (ctx : Context) : Prop
  | fresh (fresh : Fresh serve before link) (err : ctx.err = none)
  | dead (dead : Dead link) (err : ctx.err = some link.ctx.errstr)

/-- Each reply is the server's to its request. -/
def Honest (serve : Server) (before : List RedisCmd) (requests : List Request) (xs : List Exchange) : Prop :=
  ∀ (i : Nat) (reply : RedisReply) (switched : Bool), xs[i]? = some (.reply reply switched) →
    ((answers serve before (requests.map args))[i]?).map (·.reply) = some reply

private theorem Honest.nil (serve : Server) (before : List RedisCmd) (requests : List Request) :
    Honest serve before requests [] := by
  intro i reply switched is
  cases is

private theorem Honest.cons {before : List RedisCmd} {request : Request} {requests : List Request} {x : Exchange} {xs : List Exchange}
    (first : ∀ reply switched, x = .reply reply switched → reply = (serve before (args request)).reply)
    (later : Honest serve (before ++ [args request]) requests xs) : Honest serve before (request :: requests) (x :: xs) := by
  intro i reply switched is
  cases i with
  | zero =>
    rw [first reply switched (Option.some.inj is)]
    rfl
  | succ i => exact later i reply switched is

/-- One request that is written: what the call returns the context gives, for some
    exchange. -/
private theorem perform_refined (orderly : Orderly serve) {call : Call} (sendable : Sendable (args call.request))
    {before : List RedisCmd} {link link' : Link} {ctx : Context} (pictures : Pictures serve before link ctx)
    {reply : Option RedisReply}
    (is : redisCommandArgv serve (pointed (args call.request)) call.writes call.arrivals link = .returns reply link') :
    ∃ x ctx', (∀ reply switched, x = .reply reply switched → reply = (serve before (args call.request)).reply) ∧
      ctx.redisCommand call.request x = (reply, ctx') ∧ Pictures serve (before ++ [args call.request]) link' ctx' ∧
      (reply = none → ctx'.err = some link'.ctx.errstr) := by
  have whole := format_sendable sendable
  cases pictures with
  | fresh fresh err =>
    have ends := Conversations.command_ends orderly fresh ⟨args call.request, sendable.few, by simp [whole]⟩ call.writes call.arrivals
    rw [Command.argv, is] at ends
    cases reply with
    | none =>
      refine ⟨.noReply link'.ctx.errstr, { ctx with err := some link'.ctx.errstr, toServer := ctx.toServer ++ [call.request] },
        (fun _ _ other => by cases other), ?_, .dead ends rfl, fun _ => rfl⟩
      simp only [Context.redisCommand, err]
    | some reply =>
      obtain ⟨rfl, fresh'⟩ := ends
      refine ⟨.reply (serve before (args call.request)).reply false, { ctx with selected := ctx.selectedBy call.request false },
        fun _ _ same => ?_, ?_, .fresh fresh' err, (fun other => by cases other)⟩
      · cases same
        rfl
      · simp only [Context.redisCommand, err]
  | dead dead err =>
    -- a failed context does not look at the exchange
    obtain ⟨_, ends, dead', errstr⟩ :=
      Conversations.dead_fails serve dead (protocol.message (args call.request)) call.writes call.arrivals
    rw [redisCommandArgv, whole] at is
    cases is.symm.trans ends
    have err' : ctx.err = some link'.ctx.errstr := err.trans (congrArg some errstr.symm)
    refine ⟨.noReply [], ctx, (fun _ _ other => by cases other), ?_, .dead dead' err', fun _ => err'⟩
    simp only [Context.redisCommand, err]

private theorem perform_defined (orderly : Orderly serve) {call : Call} (sendable : Sendable (args call.request))
    {before : List RedisCmd} {link : Link} {ctx : Context} (pictures : Pictures serve before link ctx) :
    redisCommandArgv serve (pointed (args call.request)) call.writes call.arrivals link ≠ .undefined := by
  intro is
  have whole := format_sendable sendable
  cases pictures with
  | fresh fresh =>
    have ends := Conversations.command_ends orderly fresh ⟨args call.request, sendable.few, by simp [whole]⟩ call.writes call.arrivals
    rw [Command.argv, is] at ends
    exact ends
  | dead dead =>
    obtain ⟨_, ends, -⟩ :=
      Conversations.dead_fails serve dead (protocol.message (args call.request)) call.writes call.arrivals
    rw [redisCommandArgv, whole] at is
    cases is.symm.trans ends

/-- A request that cannot be formatted ends the context and its picture. -/
private theorem Pictures.outOfMemory {before : List RedisCmd} {link : Link} {ctx : Context} (pictures : Pictures serve before link ctx)
    (after : List RedisCmd) : Pictures serve after { link with ctx := link.ctx.outOfMemory } ctx.outOfMemory := by
  cases pictures with
  | fresh fresh => exact .dead (Conversations.outOfMemory_dead fresh.starved) rfl
  | dead dead =>
    obtain ⟨fed, starved⟩ := dead.starved
    exact .dead (Conversations.outOfMemory_dead starved) rfl

private theorem pictures_refined (decimal : ∀ n, printf (lit "%d") (.int n) = number n) (orderly : Orderly serve) (calls : List Call)
    (fits : ∀ call ∈ calls, Fits call.request) {before : List RedisCmd} {link : Link} {ctx : Context}
    (pictures : Pictures serve before link ctx) :
    ∃ xs, Honest serve before (calls.map (·.request)) xs ∧
      performed printf serve calls link = exchanged printf ((calls.map (·.request)).zip xs) ctx := by
  induction calls generalizing before link ctx with
  | nil => exact ⟨[], .nil _ _ _, rfl⟩
  | cons call calls ih =>
    have here := fits call List.mem_cons_self
    have others : ∀ call ∈ calls, Fits call.request := fun call member => fits call (List.mem_cons_of_mem _ member)
    have format := written_eq decimal here
    unfold performed
    cases formatted : redisFormatCommandArgv (pointed (args call.request)) with
    | undefined =>
      refine ⟨[.noReply []], .cons (fun _ _ other => by cases other) (.nil _ _ _), ?_⟩
      simp only [perform, format, formatted, redisFormatted, List.map_cons, List.zip_cons_cons, exchanged]
    | error =>
      obtain ⟨xs, honest, same⟩ := ih others (pictures.outOfMemory (before ++ [args call.request]))
      refine ⟨.noReply [] :: xs, .cons (fun _ _ other => by cases other) honest, ?_⟩
      simp only [perform, format, formatted, redisFormatted, List.map_cons, List.zip_cons_cons, exchanged, same]
      rfl
    | command cmd =>
      have sendable := ((format_iff _ _).mp formatted).1
      rw [perform_eq decimal here]
      cases is : redisCommandArgv serve (pointed (args call.request)) call.writes call.arrivals link with
      | undefined => exact absurd is (perform_defined orderly sendable pictures)
      | waits => exact ⟨[], .nil _ _ _, rfl⟩
      | returns reply link' =>
        obtain ⟨x, ctx', first, gives, pictures', err⟩ := perform_refined orderly sendable pictures is
        obtain ⟨xs, honest, same⟩ := ih others pictures'
        refine ⟨x :: xs, .cons first honest, ?_⟩
        cases reply with
        | none =>
          simp only [List.map_cons, List.zip_cons_cons, exchanged, format, formatted, gives, err rfl, Option.getD_some, same]
        | some reply => simp only [List.map_cons, List.zip_cons_cons, exchanged, format, formatted, gives, same]

/-- Whatever the socket does, the requests on a new connection find what they find on the
    bytes, for some exchanges, whose replies are those of the server to the requests. -/
theorem exchanges_refined (decimal : ∀ n, printf (lit "%d") (.int n) = number n) (orderly : Orderly serve) (calls : List Call)
    (fits : ∀ call ∈ calls, Fits call.request) (host : Str) (port : Int) :
    ∃ xs, Honest serve [] (calls.map (·.request)) xs ∧
      performed printf serve calls {} = exchanged printf ((calls.map (·.request)).zip xs) { host := host, port := port } :=
  pictures_refined decimal orderly calls fits (.fresh (Conversations.fresh_connected serve) rfl)

/-- A reply in two parts, and a connection that is lost within the next one. -/
def lost : List Call :=
  [⟨.select 3, [.wrote 5, .wrote 18], [.some 2, .some 100]⟩, ⟨.ask [lit "PING"], [.wrote 14], [.some 3, .eof]⟩,
    ⟨.quit, [.wrote 14], [.some 100]⟩]

theorem exchanges_refined_lost :
    performed decimals Conversations.obliging lost {} =
        [.reply (.status (lit "OK")), .null (lit "Server closed the connection"), .null (lit "Server closed the connection")] ∧
      ∃ xs, Honest Conversations.obliging [] (lost.map (·.request)) xs ∧
        performed decimals Conversations.obliging lost {} =
          exchanged decimals ((lost.map (·.request)).zip xs) { host := lit "h", port := 6379 } := by
  refine ⟨rfl, exchanges_refined (fun _ => by simp [decimals]) Conversations.obliging_orderly lost ?_ (lit "h") 6379⟩
  intro call member
  simp only [lost, List.mem_cons, List.not_mem_nil, or_false] at member
  rcases member with rfl | rfl | rfl
  · exact (by decide : (-2 ^ 31 : Int) ≤ 3 ∧ (3 : Int) < 2 ^ 31)
  · exact (by decide : 1 < 2 ^ 31)
  · trivial

end CppRedis.Transports

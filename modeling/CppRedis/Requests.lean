import CppRedis.Commands
import CppRedis.Frames

/-!
Requests: how `MakeCmd` collects the arguments of a command, the arrays that
`RedisCmd` hands to hiredis, the bytes that hiredis writes, and how a server reads a
stream of them. `append_args` says what is collected, `formatted` that hiredis
writes the message of what the arrays denote, and `decoded_iff` for which commands
the server reads exactly what was asked for. An `int` counts the bytes of a command;
`format_iff` says which commands hiredis can format (`Sendable`).
-/
namespace CppRedis.Requests
open CppRedis.Strings CppRedis.Reply CppRedis.Connection CppRedis.Commands CppRedis.Frames

/-! ### The arrays -/

/-- What a `RedisCmd` points to: for each argument the characters of its `c_str()`, with
    the NUL behind them, and its size. -/
structure Argv where
  argc : Int
  argv : List Str
  argvlen : List Nat

/-- `int argc = args.size()`, which cuts the number down. -/
def int_of_size (n : Nat) : Int := (Int32.ofNat n).toInt

theorem int_of_size_small {n : Nat} (small : n < 2 ^ 31) : int_of_size n = n := Int32.toInt_ofNat_of_lt small

theorem int_of_size_lt (n : Nat) : int_of_size n < 2 ^ 31 := Int32.toInt_lt _

theorem int_of_size_le (n : Nat) : int_of_size n ≤ n := by
  unfold int_of_size
  rw [Int32.toInt_ofNat', Int.bmod_def, Int32.size]
  split <;> omega

/-- `shallow_assign`; `new` throws where the number of elements is negative. -/
def shallow_assign (args : List Str) : Except Exception Argv :=
  let argc := int_of_size args.length
  if argc < 0 then .error .bad_array_new_length
  else
    let pointed := args.take argc.toNat
    .ok ⟨argc, pointed.map (· ++ [0]), pointed.map List.length⟩

namespace Argv

/-- So many characters of each array, as their lengths say. -/
def arguments (h : Argv) : List Str := (h.argv.zip h.argvlen).map fun (buffer, n) => buffer.take n

/-- The arguments that the arrays stand for. -/
def denotes (h : Argv) : RedisCmd := h.arguments.take h.argc.toNat

end Argv

/-- The command that is handed over. -/
def handed (args : List Str) : Except Exception RedisCmd := (shallow_assign args).map Argv.denotes

/-- The arrays stand for as many of the arguments as the count says. -/
theorem denotes_pointed (args : List Str) (argc : Int) :
    Argv.denotes ⟨argc, (args.take argc.toNat).map (· ++ [0]), (args.take argc.toNat).map List.length⟩ =
      args.take argc.toNat := by
  have each : ∀ l : List Str, ((l.map (· ++ [0])).zip (l.map List.length)).map (fun (buffer, n) => buffer.take n) = l := by
    intro l
    induction l with
    | nil => rfl
    | cons s rest ih => simp only [List.map_cons, List.zip_cons_cons, List.take_left, ih]
  simp only [Argv.denotes, Argv.arguments, each, List.take_take, Nat.min_self]

theorem handed_error {args : List Str} (negative : int_of_size args.length < 0) :
    handed args = .error .bad_array_new_length := by
  unfold handed shallow_assign
  rw [if_pos negative]
  rfl

/-- What is handed over are the first arguments. -/
theorem handed_ok {args : List Str} (positive : ¬ int_of_size args.length < 0) :
    handed args = .ok (args.take (int_of_size args.length).toNat) := by
  unfold handed shallow_assign
  rw [if_neg positive]
  exact congrArg Except.ok (denotes_pointed args _)

theorem handed_eq {args : List Str} (small : args.length < 2 ^ 31) : handed args = .ok args := by
  have same := int_of_size_small small
  rw [handed_ok (by omega), same, Int.toNat_natCast, List.take_length]

theorem handed_take {args : List Str} {cmd : RedisCmd} (is : handed args = .ok cmd) :
    cmd = args.take (int_of_size args.length).toNat := by
  by_cases negative : int_of_size args.length < 0
  · rw [handed_error negative] at is
    cases is
  · rw [handed_ok negative] at is
    exact (Except.ok.inj is).symm

/-- An `int` cannot count more. -/
theorem handed_short {args : List Str} {cmd : RedisCmd} (is : handed args = .ok cmd) : cmd.length < 2 ^ 31 := by
  have high := int_of_size_lt args.length
  rw [handed_take is, List.length_take]
  omega

/-- The arrays of a command that an `int` can count. -/
def pointed (cmd : RedisCmd) : Argv := ⟨cmd.length, cmd.map (· ++ [0]), cmd.map List.length⟩

theorem pointed_denotes (cmd : RedisCmd) : (pointed cmd).denotes = cmd := by
  have denotes := denotes_pointed cmd cmd.length
  rwa [Int.toNat_natCast, List.take_length] at denotes

/-- `shallow_assign` gives the arrays of what they stand for. -/
theorem shallow_pointed {args : List Str} {h : Argv} (is : shallow_assign args = .ok h) : h = pointed h.denotes := by
  unfold shallow_assign at is
  by_cases negative : int_of_size args.length < 0
  · rw [if_pos negative] at is
    cases is
  · rw [if_neg negative] at is
    obtain rfl := Except.ok.inj is
    have inside := int_of_size_le args.length
    have counted : ((args.take (int_of_size args.length).toNat).length : Int) = int_of_size args.length := by
      rw [List.length_take]
      omega
    rw [denotes_pointed, pointed, counted]

theorem shallow_small {args : List Str} (small : args.length < 2 ^ 31) : shallow_assign args = .ok (pointed args) := by
  have is := handed_eq small
  unfold handed at is
  cases assigned : shallow_assign args with
  | error e =>
    rw [assigned] at is
    cases is
  | ok h =>
    rw [assigned] at is
    rw [shallow_pointed assigned, show h.denotes = args from Except.ok.inj is]

/-! ### The builder -/

structure MakeCmd where
  args_ : List Str

/-- An argument of `operator <<`; a map is given by its pairs in the order of iteration. -/
inductive Operand
  | integer (data : Int)
  | string (data : Str)
  | string_array (strs : List Str)
  | string_map (m : List (Str × Str))
  | string_hash_map (h : List (Str × Str))

namespace MakeCmd

/-- The constructor. -/
def named (cmdname : Str) : MakeCmd := ⟨[cmdname]⟩

def push_back (s : Str) (c : MakeCmd) : MakeCmd := ⟨c.args_ ++ [s]⟩

/-- `operator <<`. -/
def append (c : MakeCmd) : Operand → MakeCmd
  | .integer data => c.push_back (number data)
  | .string data => c.push_back data
  | .string_array strs => strs.foldl (fun c s => c.push_back s) c
  | .string_map m => m.foldl (fun c (first, second) => (c.push_back first).push_back second) c
  | .string_hash_map h => h.foldl (fun c (first, second) => (c.push_back first).push_back second) c

end MakeCmd

/-- A key, its value, the next key and so on. -/
def flat (pairs : List (Str × Str)) : List Str := pairs.flatMap fun (first, second) => [first, second]

/-- The arguments that an operand stands for. -/
def Operand.flattened : Operand → List Str
  | .integer data => [number data]
  | .string data => [data]
  | .string_array strs => strs
  | .string_map m => flat m
  | .string_hash_map h => flat h

private theorem push_all (strs : List Str) (c : MakeCmd) :
    (strs.foldl (fun c s => c.push_back s) c).args_ = c.args_ ++ strs := by
  induction strs generalizing c with
  | nil => simp
  | cons s rest ih => rw [List.foldl_cons, ih, MakeCmd.push_back, List.append_assoc, List.singleton_append]

private theorem push_pairs (pairs : List (Str × Str)) (c : MakeCmd) :
    (pairs.foldl (fun c (first, second) => (c.push_back first).push_back second) c).args_ =
      c.args_ ++ flat pairs := by
  induction pairs generalizing c with
  | nil => simp [flat]
  | cons pair rest ih =>
    rw [List.foldl_cons, ih]
    simp [MakeCmd.push_back, flat]

theorem append_args (c : MakeCmd) (operand : Operand) : (c.append operand).args_ = c.args_ ++ operand.flattened := by
  cases operand with
  | integer data | string data => rfl
  | string_array strs => exact push_all strs c
  | string_map m => exact push_pairs m c
  | string_hash_map h => exact push_pairs h c

/-- The command as the caller writes it: its name, and what is appended in order. -/
structure Written where
  name : Str
  operands : List Operand

namespace Written

/-- What the builder has collected at the end. -/
def built (w : Written) : MakeCmd := w.operands.foldl MakeCmd.append (.named w.name)

/-- What is asked for. -/
def request (w : Written) : RedisCmd := w.name :: w.operands.flatMap Operand.flattened

theorem built_args (w : Written) : w.built.args_ = w.request := by
  have all : ∀ (operands : List Operand) (c : MakeCmd),
      (operands.foldl MakeCmd.append c).args_ = c.args_ ++ operands.flatMap Operand.flattened := by
    intro operands
    induction operands with
    | nil => simp
    | cons operand rest ih =>
      intro c
      rw [List.foldl_cons, ih, append_args, List.flatMap_cons, List.append_assoc]
  exact all w.operands (.named w.name)

end Written

/-! ### The stream -/

def crlf : Str := [13, 10]

/-- What is written for so many arguments. -/
def written (argc : Int) (args : List Str) : Str :=
  lit "*" ++ number argc ++ crlf ++ args.flatMap fun arg => lit "$" ++ digits arg.length ++ crlf ++ arg ++ crlf

/-- The bytes that `redisFormatCommandArgv` writes. -/
def Argv.bytes (h : Argv) : Str := written h.argc h.denotes

/-- How a server reads the numbers of a request. -/
def read_number (s : Str) : Option Nat := if s ≠ [] ∧ s.all isdigit = true then some (decimal s) else none

/-- Requests on a connection. -/
def protocol : Format UInt8 where
  count := 42
  length := 36
  stop := 13
  next := 10
  write := digits
  read := read_number
  read_write n := by
    have all : (digits n).all isdigit = true := List.all_eq_true.mpr (digits_isdigit n)
    simp only [read_number, ne_eq, digits_ne_nil, not_false_eq_true, all, and_self, ↓reduceIte, decimal_digits]
  stop_not_mem n := fun member => absurd (digits_isdigit n _ member) (by decide)

private theorem line_eq (text : String) (mark : UInt8) (n : Nat) (is : lit text = [mark]) :
    lit text ++ digits n ++ crlf = protocol.line mark n := by
  rw [is, List.append_assoc]
  rfl

/-- What is written for a command is its message. -/
theorem written_message (cmd : RedisCmd) : written cmd.length cmd = protocol.message cmd := by
  have each : (fun arg : Str => lit "$" ++ digits arg.length ++ crlf ++ arg ++ crlf) = protocol.item := by
    funext arg
    rw [line_eq "$" 36 arg.length rfl, List.append_assoc]
    rfl
  unfold written
  rw [each, number_natCast, line_eq "*" 42 _ rfl]
  rfl

theorem pointed_bytes (cmd : RedisCmd) : (pointed cmd).bytes = protocol.message cmd := by
  rw [Argv.bytes, pointed_denotes]
  exact written_message cmd

/-- hiredis writes the message of what the arrays stand for. -/
theorem formatted {args : List Str} {h : Argv} (is : shallow_assign args = .ok h) : h.bytes = protocol.message h.denotes := by
  rw [shallow_pointed is, pointed_bytes, pointed_denotes]

/-- The bytes of one command. -/
def bytes_of (w : Written) : Except Exception Str := (shallow_assign w.built.args_).map Argv.bytes

/-- The bytes that the commands make on one connection. -/
def sent : List Written → Except Exception Str
  | [] => .ok []
  | w :: rest =>
    match bytes_of w with
    | .error e => .error e
    | .ok bytes => (sent rest).map (bytes ++ ·)

/-- The arrays stand for what was asked for, and the server reads it. -/
structure Decoded (commands : List Written) : Prop where
  denotes : ∀ w ∈ commands, ∃ h, shallow_assign w.built.args_ = .ok h ∧ h.denotes = w.request
  reads : ∃ bytes, sent commands = .ok bytes ∧ protocol.read_stream bytes = some (commands.map Written.request)

private theorem bytes_small {w : Written} (small : w.request.length < 2 ^ 31) :
    bytes_of w = .ok (protocol.message w.request) := by
  unfold bytes_of
  rw [w.built_args, shallow_small small]
  exact congrArg Except.ok (pointed_bytes _)

private theorem sent_small {commands : List Written} (small : ∀ w ∈ commands, w.request.length < 2 ^ 31) :
    sent commands = .ok ((commands.map Written.request).flatMap protocol.message) := by
  induction commands with
  | nil => rfl
  | cons w rest ih =>
    have here := bytes_small (small w List.mem_cons_self)
    have later := ih fun w member => small w (List.mem_cons_of_mem _ member)
    unfold sent
    rw [here, later]
    rfl

/-- The server reads the requests as they were asked for exactly if no command has more
    arguments than an `int` can count. -/
theorem decoded_iff (commands : List Written) : Decoded commands ↔ ∀ w ∈ commands, w.request.length < 2 ^ 31 := by
  constructor
  · intro decoded w member
    obtain ⟨h, assigned, denotes⟩ := decoded.denotes w member
    rw [w.built_args] at assigned
    refine @handed_short w.request w.request ?_
    unfold handed
    rw [assigned, ← denotes]
    rfl
  · intro small
    refine ⟨?_, _, sent_small small, protocol.read_stream_messages _⟩
    intro w member
    rw [w.built_args]
    exact ⟨_, shallow_small (small w member), pointed_denotes _⟩

/-- A command with so many members. -/
def adding (n : Nat) : Written := ⟨lit "SADD", [.string (lit "key"), .string_array (List.replicate n (lit "m"))]⟩

private theorem adding_length (n : Nat) : (adding n).request.length = n + 2 := by
  simp only [Written.request, adding, List.flatMap_cons, List.flatMap_nil, Operand.flattened, List.append_nil,
    List.length_cons, List.length_append, List.length_replicate, List.length_nil]
  omega

theorem too_many_not_decoded : ¬ Decoded [adding (2 ^ 31)] := by
  have long := adding_length (2 ^ 31)
  generalize adding (2 ^ 31) = w at long ⊢
  intro decoded
  obtain ⟨h, assigned, denotes⟩ := decoded.denotes w List.mem_cons_self
  have short : w.request.length < 2 ^ 31 := by
    refine @handed_short w.built.args_ w.request ?_
    unfold handed
    rw [assigned, ← denotes]
    rfl
  omega

/-! ### The length of a command -/

/-- What becomes of a command: its bytes, -1, or behaviour that is not defined. -/
inductive Formatted
  | command (cmd : Str)
  | error
  | undefined
  deriving DecidableEq

/-- `intlen`: the characters of the number; none where `-i` overflows. -/
def intlen (i : Int) : Option Nat := if i = -2 ^ 31 then none else some (number i).length

/-- `bulklen`, which hands its `size_t` to `intlen` as an `int`. -/
def bulklen (len : Nat) : Option Nat := (intlen (int_of_size len)).map fun n => 1 + n + 2 + len + 2

/-- The `bulklen` of each argument is put on top of `int totlen`, which wraps. -/
def totlen_from (totlen : Int) : List Nat → Option Int
  | [] => some totlen
  | len :: lens => (bulklen len).bind fun n => totlen_from ((totlen + n).bmod (2 ^ 32)) lens

/-- `malloc(totlen+1)`, which gives nothing for a negative number, and what is written to
    it. -/
def built (totlen : Int) (cmd : Str) : Formatted :=
  if totlen + 1 = 2 ^ 31 then .undefined
  else if totlen + 1 < 0 then .error
  else if totlen = cmd.length then .command cmd
  else .undefined

/-- `redisFormatCommandArgv`. -/
def redisFormatCommandArgv (h : Argv) : Formatted :=
  match (intlen h.argc).bind fun n => totlen_from (1 + n + 2) (h.argvlen.take h.argc.toNat) with
  | none => .undefined
  | some totlen => built totlen h.bytes

/-- An `int` can count the bytes of the command and the NUL behind them. -/
def Sendable (cmd : RedisCmd) : Prop := (protocol.message cmd).length < 2 ^ 31 - 1

instance (cmd : RedisCmd) : Decidable (Sendable cmd) := inferInstanceAs (Decidable (_ < _))

theorem message_length (cmd : RedisCmd) :
    (protocol.message cmd).length = 1 + (digits cmd.length).length + 2 + (cmd.flatMap protocol.item).length := by
  simp only [Format.message, Format.line, protocol, List.length_cons, List.length_append, List.length_nil]
  omega

theorem item_length (arg : Str) : (protocol.item arg).length = 1 + (digits arg.length).length + 2 + arg.length + 2 := by
  simp only [Format.item, Format.line, protocol, List.length_cons, List.length_append, List.length_nil]
  omega

/-- The items are longer than their number and than each argument. -/
theorem items_length (cmd : RedisCmd) :
    cmd.length ≤ (cmd.flatMap protocol.item).length ∧ ∀ arg ∈ cmd, arg.length ≤ (cmd.flatMap protocol.item).length := by
  induction cmd with
  | nil => exact ⟨Nat.le_refl 0, fun arg member => by cases member⟩
  | cons first cmd ih =>
    have here := item_length first
    rw [List.flatMap_cons, List.length_append, List.length_cons]
    refine ⟨by omega, ?_⟩
    intro arg member
    rcases List.mem_cons.mp member with rfl | later
    · omega
    · exact le_trans (ih.2 arg later) (Nat.le_add_left _ _)

/-- Of a message that an `int` can count, it can count the arguments and the bytes of each. -/
theorem message_small {cmd : RedisCmd} (small : (protocol.message cmd).length < 2 ^ 31) :
    cmd.length < 2 ^ 31 ∧ ∀ arg ∈ cmd, arg.length < 2 ^ 31 := by
  obtain ⟨few, short⟩ := items_length cmd
  have whole := message_length cmd
  refine ⟨by omega, ?_⟩
  intro arg member
  have one := short arg member
  omega

theorem Sendable.small {cmd : RedisCmd} (sendable : Sendable cmd) : (protocol.message cmd).length < 2 ^ 31 :=
  Nat.lt_of_lt_of_le sendable (Nat.sub_le _ _)

theorem Sendable.few {cmd : RedisCmd} (sendable : Sendable cmd) : cmd.length < 2 ^ 31 := (message_small sendable.small).1

theorem Sendable.short {cmd : RedisCmd} (sendable : Sendable cmd) : ∀ arg ∈ cmd, arg.length < 2 ^ 31 :=
  (message_small sendable.small).2

theorem intlen_natCast (n : Nat) : intlen n = some (digits n).length := by
  rw [intlen, if_neg (by omega), number_natCast]

private theorem bulklen_small {arg : Str} (small : arg.length < 2 ^ 31) : bulklen arg.length = some (protocol.item arg).length := by
  rw [bulklen, int_of_size_small small, intlen_natCast, item_length]
  rfl

/-- The lengths are added up as long as an `int` can count them. -/
theorem totlen_fits {args : RedisCmd} {totlen : Int} (positive : 0 ≤ totlen)
    (fits : totlen + (args.flatMap protocol.item).length < 2 ^ 31) :
    totlen_from totlen (args.map List.length) = some (totlen + (args.flatMap protocol.item).length) := by
  induction args generalizing totlen with
  | nil => simp [totlen_from]
  | cons arg args ih =>
    have length : ((arg :: args).flatMap protocol.item).length =
        (protocol.item arg).length + (args.flatMap protocol.item).length := by
      rw [List.flatMap_cons, List.length_append]
    have here := item_length arg
    rw [length] at fits ⊢
    push_cast at fits
    rw [List.map_cons, totlen_from, bulklen_small (by omega), Option.bind_some, Int.bmod_eq_of_le (by omega) (by omega),
      ih (by omega) (by omega)]
    congr 1
    push_cast
    omega

/-- Behind an argument the number has wrapped. -/
theorem totlen_lt {lens : List Nat} (some : lens ≠ []) {t totlen : Int} (is : totlen_from t lens = .some totlen) :
    totlen < 2 ^ 31 := by
  induction lens generalizing t with
  | nil => exact absurd rfl some
  | cons len lens ih =>
    obtain ⟨n, -, is⟩ := Option.bind_eq_some_iff.mp is
    by_cases last : lens = []
    · subst last
      obtain rfl := Option.some.inj is
      exact Int.bmod_lt (by decide)
    · exact ih last is

theorem built_command {totlen : Int} (below : totlen < 2 ^ 31) {cmd bytes : Str} :
    built totlen cmd = .command bytes ↔ (cmd.length < 2 ^ 31 - 1 ∧ totlen = cmd.length) ∧ bytes = cmd := by
  unfold built
  split_ifs with last none whole
  · exact iff_of_false id (by omega)
  · exact iff_of_false id (by omega)
  · rw [Formatted.command.injEq, eq_comm, iff_and_self]
    omega
  · exact iff_of_false id fun both => whole both.1.2

private theorem format_eq (cmd : RedisCmd) :
    redisFormatCommandArgv (pointed cmd) =
      match totlen_from (1 + (digits cmd.length).length + 2) (cmd.map List.length) with
      | none => .undefined
      | some totlen => built totlen (protocol.message cmd) := by
  have start : intlen (pointed cmd).argc = some (digits cmd.length).length := intlen_natCast _
  have lens : (pointed cmd).argvlen.take (pointed cmd).argc.toNat = cmd.map List.length := by
    show (cmd.map List.length).take (cmd.length : Int).toNat = _
    rw [Int.toNat_natCast, List.take_of_length_le (by rw [List.length_map])]
  unfold redisFormatCommandArgv
  rw [start, lens, Option.bind_some, pointed_bytes]

/-- Where an `int` can count the message, that is its length. -/
theorem format_small {cmd : RedisCmd} (small : (protocol.message cmd).length < 2 ^ 31) :
    redisFormatCommandArgv (pointed cmd) = built (protocol.message cmd).length (protocol.message cmd) := by
  have whole := message_length cmd
  rw [format_eq, totlen_fits (by omega) (by omega)]
  show built _ _ = built _ _
  congr 1
  omega

/-- hiredis formats the commands that can be sent, and gives their messages. -/
theorem format_iff (cmd : RedisCmd) (bytes : Str) :
    redisFormatCommandArgv (pointed cmd) = .command bytes ↔ Sendable cmd ∧ bytes = protocol.message cmd := by
  constructor
  · intro is
    rw [format_eq] at is
    cases total : totlen_from (1 + ((digits cmd.length).length : Int) + 2) (cmd.map List.length) with
    | none =>
      rw [total] at is
      cases is
    | some totlen =>
      rw [total] at is
      have below : totlen < 2 ^ 31 := by
        by_cases empty : cmd = []
        · subst empty
          obtain rfl := Option.some.inj total
          decide
        · exact totlen_lt (by simpa using empty) total
      obtain ⟨⟨short, -⟩, same⟩ := (built_command below).mp is
      exact ⟨short, same⟩
  · rintro ⟨sendable, rfl⟩
    have small := sendable.small
    rw [format_small small]
    exact (built_command (by omega)).mpr ⟨⟨sendable, rfl⟩, rfl⟩

theorem format_sendable {cmd : RedisCmd} (sendable : Sendable cmd) :
    redisFormatCommandArgv (pointed cmd) = .command (protocol.message cmd) := (format_iff cmd _).mpr ⟨sendable, rfl⟩

/-- How a call fails without sending the command, where hiredis cannot format it. -/
def unsent (cmd : RedisCmd) : Option Fault :=
  match redisFormatCommandArgv (pointed cmd) with
  | .command _ => none
  | .error => some (.thrown (.CommandException (lit "Out of memory")))
  | .undefined => some .undefined

/-- A command is sent, refused, or has no result that is defined. -/
theorem unsent_cases (cmd : RedisCmd) :
    (Sendable cmd ∧ unsent cmd = none) ∨
      (¬ Sendable cmd ∧ redisFormatCommandArgv (pointed cmd) = .error ∧
        unsent cmd = some (.thrown (.CommandException (lit "Out of memory")))) ∨
      (¬ Sendable cmd ∧ redisFormatCommandArgv (pointed cmd) = .undefined ∧ unsent cmd = some .undefined) := by
  unfold unsent
  by_cases sendable : Sendable cmd
  · rw [format_sendable sendable]
    exact .inl ⟨sendable, rfl⟩
  · cases is : redisFormatCommandArgv (pointed cmd) with
    | command bytes => exact absurd ((format_iff cmd bytes).mp is).1 sendable
    | error => exact .inr (.inl ⟨sendable, rfl, rfl⟩)
    | undefined => exact .inr (.inr ⟨sendable, rfl, rfl⟩)

theorem unsent_undefined {cmd : RedisCmd} : unsent cmd = some .undefined ↔ redisFormatCommandArgv (pointed cmd) = .undefined := by
  unfold unsent
  cases redisFormatCommandArgv (pointed cmd) with
  | command | error => exact iff_of_false (fun is => by cases is) fun is => by cases is
  | undefined => exact iff_of_true rfl rfl

theorem unsent_none {cmd : RedisCmd} : unsent cmd = none ↔ Sendable cmd := by
  rcases unsent_cases cmd with ⟨sendable, is⟩ | ⟨unsendable, -, is⟩ | ⟨unsendable, -, is⟩
  · exact iff_of_true is sendable
  · exact iff_of_false (by rw [is]; exact Option.some_ne_none _) unsendable
  · exact iff_of_false (by rw [is]; exact Option.some_ne_none _) unsendable

end CppRedis.Requests

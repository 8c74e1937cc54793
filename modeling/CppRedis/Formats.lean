import CppRedis.Requests

/-!
Commands from a format: `redisvFormatCommand`, which splits the format at its spaces and
puts arguments for its conversions. `pieces` is how the format is read, `fill` puts the
arguments in, and `words` are the arguments of the command (`formatted_words`); what is put
in never splits (`formats_one`), and `%b` for each argument gives the same bytes as
`redisFormatCommandArgv` (`formats_argv`).
-/
namespace CppRedis.Formats
open CppRedis.Strings CppRedis.Connection CppRedis.Commands CppRedis.Frames CppRedis.Requests

/-! ### Words -/

section Words

variable {α : Type}

/-- The parts between the gaps, each put together; parts of nothing are left out. -/
def words (l : List (Option (List α))) : List (List α) :=
  ((l.splitOnP Option.isNone).filter (!·.isEmpty)).map fun run => (run.filterMap id).flatten

@[simp] theorem words_nil : words ([] : List (Option (List α))) = [] := rfl

@[simp] theorem words_gap (l : List (Option (List α))) : words (none :: l) = words l := by
  simp [words, List.splitOnP_cons_eq_if_modifyHead]

@[simp] theorem words_last (a : List α) : words [some a] = [a] := by
  simp [words, List.splitOnP_cons_eq_if_modifyHead, List.splitOnP_nil]

@[simp] theorem words_ends (a : List α) (l : List (Option (List α))) : words (some a :: none :: l) = a :: words l := by
  simp [words, List.splitOnP_cons_eq_if_modifyHead]

/-- Neighbours make one word. -/
theorem words_joined (a b : List α) (l : List (Option (List α))) : words (some a :: some b :: l) = words (some (a ++ b) :: l) := by
  obtain ⟨run, runs, is⟩ := List.exists_cons_of_ne_nil (List.splitOnP_ne_nil Option.isNone l)
  simp [words, List.splitOnP_cons_eq_if_modifyHead, is]

private theorem splitOnP_map {β : Type} (f : α → β) (p : β → Bool) (l : List α) :
    (l.map f).splitOnP p = (l.splitOnP (p ∘ f)).map (List.map f) := by
  induction l with
  | nil => rfl
  | cons x l ih =>
    obtain ⟨run, runs, is⟩ := List.exists_cons_of_ne_nil (List.splitOnP_ne_nil (p ∘ f) l)
    rw [List.map_cons, List.splitOnP_cons_eq_if_modifyHead, List.splitOnP_cons_eq_if_modifyHead, ih, is]
    by_cases gap : p (f x) = true
    · simp [gap]
    · simp [gap]

/-- How many words there are is seen from the gaps alone. -/
theorem words_length (l : List (Option (List α))) :
    (words l).length = ((l.map Option.isNone).splitOnP id).countP (!·.isEmpty) := by
  rw [splitOnP_map, List.countP_map, words, List.length_map, ← List.countP_eq_length_filter]
  refine List.countP_congr fun run _ => ?_
  simp

end Words

/-! ### The format -/

/-- An argument behind the format. A pointer is given by the bytes of its object. -/
inductive VaArg
  | pointer (object : Str)
  | size (n : Nat)
  | int (n : Int)
  | long (n : Int)
  | long_long (n : Int)
  | double (bits : UInt64)

/-- What a conversion for `vsnprintf` takes. -/
inductive Conversion
  | int
  | long
  | long_long
  | double
  deriving DecidableEq

/-- `va_arg`; none where there is no such argument. -/
def Conversion.va_arg : Conversion → List VaArg → Option (VaArg × List VaArg)
  | .int, .int n :: ap => some (.int n, ap)
  | .long, .long n :: ap => some (.long n, ap)
  | .long_long, .long_long n :: ap => some (.long_long n, ap)
  | .double, .double bits :: ap => some (.double bits, ap)
  | _, _ => none

def intfmts : Str := lit "diouxX"

/-- An optional flag. -/
def flag (b : UInt8) (p : Str) : Str := if p.head? = some b then p.tail else p

/-- The flags, the field width and the precision. -/
def skipped (p : Str) : Str :=
  let p := (flag 43 (flag 32 (flag 45 (flag 48 (flag 35 p))))).dropWhile isdigit
  if p.head? = some 46 then p.tail.dropWhile isdigit else p

/-- How a conversion is detected, and what is behind it; `strchr` finds the NUL at the end
    of the format as well. -/
inductive Detected
  | valid (type : Conversion) (behind : Str)
  | at_end
  | invalid

/-- The conversion behind a length. -/
def modified (type : Conversion) : Str → Detected
  | [] => .invalid
  | b :: p => if b ∈ intfmts then .valid type p else .invalid

def detect : Str → Detected
  | [] => .at_end
  | b :: p =>
    if b ∈ intfmts then .valid .int p
    else if b ∈ lit "eEfFgGaA" then .valid .double p
    else if b = 104 then modified .int (flag 104 p)
    else if b = 108 then if p.head? = some 108 then modified .long_long p.tail else modified .long p
    else .invalid

/-- `curargv`, `curarg` and `touched`. -/
structure Building where
  curargv : List Str := []
  curarg : Str := []
  touched : Bool := false

/-- Something is put behind the current argument. -/
def Building.cat (text : Str) (b : Building) : Building := { b with curarg := b.curarg ++ text, touched := true }

/-- How the loop ends. -/
inductive Scanned
  | done (b : Building)
  | error
  | undefined

variable (printf : Str → VaArg → Str)

/-- The loop of `redisvFormatCommand`, where `printf` is what `vsnprintf` makes of one
    conversion. The buffer for a conversion has 16 bytes; a longer one is taken for text
    from its second character on, when its argument has been taken. -/
def scan : Nat → Str → List VaArg → Building → Scanned
  | 0, _, _, _ => .undefined
  | fuel + 1, c, ap, b =>
    match c with
    | [] => .done b
    | 37 :: 115 :: c =>
      match ap with
      | .pointer object :: ap => if 0 ∈ object then scan fuel c ap (b.cat (cstr object)) else .undefined
      | _ => .undefined
    | 37 :: 98 :: c =>
      match ap with
      | .pointer object :: .size n :: ap => if n ≤ object.length then scan fuel c ap (b.cat (object.take n)) else .undefined
      | _ => .undefined
    | 37 :: 37 :: c => scan fuel c ap (b.cat [37])
    | 37 :: d :: c =>
      match detect (skipped (d :: c)) with
      | .invalid => .error
      | .at_end =>
        match Conversion.int.va_arg ap with
        | none => .undefined
        | some (_, ap) => if (37 :: d :: c).length + 1 < 14 then .undefined else scan fuel c ap (b.cat [])
      | .valid type behind =>
        match type.va_arg ap with
        | none => .undefined
        | some (arg, ap) =>
          let l := (37 :: d :: c).length - behind.length
          if l < 14 then scan fuel behind ap (b.cat (printf ((37 :: d :: c).take l) arg)) else scan fuel c ap (b.cat [])
    | 32 :: c => if b.touched = true then scan fuel c ap { curargv := b.curargv ++ [b.curarg] } else scan fuel c ap b
    | d :: c => scan fuel c ap (b.cat [d])

/-- `totlen` at the end of `redisvFormatCommand`, which counts the arguments and, in an
    `sds`, the bytes of each by an `int`, and adds an `int` at last. -/
def totlen_of (argv : List Str) : Option Int :=
  if argv.length < 2 ^ 31 ∧ ∀ arg ∈ argv, arg.length < 2 ^ 31 then
    (totlen_from 0 (argv.map List.length)).bind fun totlen =>
      (intlen argv.length).bind fun n => if totlen + (1 + n + 2) < 2 ^ 31 then some (totlen + (1 + n + 2)) else none
  else none

/-- `redisvFormatCommand`. -/
def redisvFormatCommand (format : Str) (ap : List VaArg) : Formatted :=
  match scan printf ((cstr format).length + 1) (cstr format) ap {} with
  | .error => .error
  | .undefined => .undefined
  | .done b =>
    let argv := if b.touched = true then b.curargv ++ [b.curarg] else b.curargv
    match totlen_of argv with
    | none => .undefined
    | some totlen => built totlen (written argv.length argv)

/-! ### How a format is read -/

/-- A piece of a format. -/
inductive Piece
  | gap
  | text (s : Str)
  | string
  | binary
  | conversion (type : Conversion) (spec : Str)
  | overlong (type : Conversion)
  | unfinished
  | invalid
  deriving DecidableEq

/-- The pieces of a format, up to one that ends it. -/
def pieces_of : Nat → Str → List Piece
  | 0, _ => [.unfinished]
  | fuel + 1, c =>
    match c with
    | [] => []
    | 37 :: 115 :: c => .string :: pieces_of fuel c
    | 37 :: 98 :: c => .binary :: pieces_of fuel c
    | 37 :: 37 :: c => .text [37] :: pieces_of fuel c
    | 37 :: d :: c =>
      match detect (skipped (d :: c)) with
      | .invalid => [.invalid]
      | .at_end => if (37 :: d :: c).length + 1 < 14 then [.overlong .int, .unfinished] else .overlong .int :: pieces_of fuel c
      | .valid type behind =>
        let l := (37 :: d :: c).length - behind.length
        if l < 14 then .conversion type ((37 :: d :: c).take l) :: pieces_of fuel behind
        else .overlong type :: pieces_of fuel c
    | 32 :: c => .gap :: pieces_of fuel c
    | d :: c => .text [d] :: pieces_of fuel c

def pieces (format : Str) : List Piece := pieces_of ((cstr format).length + 1) (cstr format)

/-- The pieces with the arguments put in. -/
inductive Filled
  | texts (l : List (Option Str))
  | error
  | undefined

/-- One more in front. -/
def Filled.behind (text : Option Str) : Filled → Filled
  | .texts l => .texts (text :: l)
  | .error => .error
  | .undefined => .undefined

/-- The argument of a piece, and those behind it; none where there is no such argument. -/
def Piece.put (ap : List VaArg) : Piece → Option (Option Str × List VaArg)
  | .gap => some (none, ap)
  | .text s => some (some s, ap)
  | .string =>
    match ap with
    | .pointer object :: ap => if 0 ∈ object then some (some (cstr object), ap) else none
    | _ => none
  | .binary =>
    match ap with
    | .pointer object :: .size n :: ap => if n ≤ object.length then some (some (object.take n), ap) else none
    | _ => none
  | .conversion type spec => (type.va_arg ap).map fun (arg, ap) => (some (printf spec arg), ap)
  | .overlong type => (type.va_arg ap).map fun (_, ap) => (some [], ap)
  | .unfinished => none
  | .invalid => none

def fill : List Piece → List VaArg → Filled
  | [], _ => .texts []
  | piece :: rest, ap =>
    if piece = .invalid then .error
    else
      match piece.put printf ap with
      | none => .undefined
      | some (text, ap) => (fill rest ap).behind text

/-! ### The loop -/

variable {printf}

/-- What has been collected, and what is to come. -/
def Building.collects (b : Building) (l : List (Option Str)) : List Str :=
  b.curargv ++ words (if b.touched = true then some b.curarg :: l else l)

/-- Nothing is in an argument that has not been touched. -/
def Building.Fresh (b : Building) : Prop := b.touched = false → b.curarg = []

theorem collects_cat {b : Building} (fresh : b.Fresh) (text : Str) (l : List (Option Str)) :
    (b.cat text).collects l = b.collects (some text :: l) := by
  unfold Building.collects Building.cat
  by_cases touched : b.touched = true
  · simp [touched, words_joined]
  · have nothing := fresh (by simpa using touched)
    simp [touched, nothing]

theorem cat_fresh (b : Building) (text : Str) : (b.cat text).Fresh := fun untouched => by cases untouched

/-- A space ends the argument, if there is one. -/
def Building.space (b : Building) : Building := if b.touched = true then { curargv := b.curargv ++ [b.curarg] } else b

theorem collects_space (b : Building) (l : List (Option Str)) : b.space.collects l = b.collects (none :: l) := by
  unfold Building.collects Building.space
  by_cases touched : b.touched = true
  · simp [touched]
  · simp [touched]

theorem space_fresh {b : Building} (fresh : b.Fresh) : b.space.Fresh := by
  unfold Building.space
  split
  · exact fun _ => rfl
  · exact fresh

/-- How the loop ends, by the pieces. -/
inductive Agrees (b : Building) : Filled → Scanned → Prop
  | texts {l : List (Option Str)} {b' : Building} (collects : b'.collects [] = b.collects l) : Agrees b (.texts l) (.done b')
  | error : Agrees b .error .error
  | undefined : Agrees b .undefined .undefined

/-- What a piece adds. -/
def Building.put (b : Building) (text : Option Str) : Building := text.elim b.space b.cat

private theorem put_fresh {b : Building} (fresh : b.Fresh) (text : Option Str) : (b.put text).Fresh := by
  cases text with
  | none => exact space_fresh fresh
  | some text => exact cat_fresh b text

private theorem agrees_put {b : Building} (fresh : b.Fresh) {text : Option Str} {filled : Filled} {scanned : Scanned}
    (agrees : Agrees (b.put text) filled scanned) : Agrees b (filled.behind text) scanned := by
  cases agrees with
  | texts collects =>
    refine .texts (collects.trans ?_)
    cases text with
    | none => exact collects_space b _
    | some text => exact collects_cat fresh text _
  | error => exact .error
  | undefined => exact .undefined

/-- How the loop goes on behind a piece. -/
def onward (printf : Str → VaArg → Str) (fuel : Nat) (c : Str) (b : Building) : Option (Option Str × List VaArg) → Scanned
  | some (text, ap) => scan printf fuel c ap (b.put text)
  | none => .undefined

theorem scan_agrees (fuel : Nat) {c : Str} {ap : List VaArg} {b : Building} (fresh : b.Fresh) :
    Agrees b (fill printf (pieces_of fuel c) ap) (scan printf fuel c ap b) := by
  induction fuel generalizing c ap b with
  | zero => exact .undefined
  | succ fuel ih =>
    have one : ∀ {piece : Piece} {c : Str} {scanned : Scanned}, piece ≠ .invalid →
        scanned = onward printf fuel c b (piece.put printf ap) → Agrees b (fill printf (piece :: pieces_of fuel c) ap) scanned := by
      rintro piece c _ valid rfl
      rw [fill, if_neg valid]
      cases piece.put printf ap with
      | none => exact .undefined
      | some filled => exact agrees_put fresh (ih (put_fresh fresh filled.1))
    unfold pieces_of scan
    split
    · exact .texts rfl
    · refine one (by decide) ?_
      rcases ap with _ | ⟨_ | _ | _ | _ | _ | _, ap⟩ <;> try rfl
      dsimp only [Piece.put]
      split <;> rfl
    · refine one (by decide) ?_
      rcases ap with _ | ⟨_ | _ | _ | _ | _ | _, _ | ⟨_ | _ | _ | _ | _ | _, ap⟩⟩ <;> try rfl
      dsimp only [Piece.put]
      split <;> rfl
    · exact one (by simp) rfl
    · rename_i d c _ _ _
      cases detect (skipped (d :: c)) with
      | invalid => exact .error
      | at_end =>
        dsimp only
        split
        · -- the loop leaves the format
          rw [fill, if_neg (by decide), Piece.put]
          cases Conversion.int.va_arg ap with
          | none => exact .undefined
          | some taken => exact .undefined
        · refine one (by decide) ?_
          rw [Piece.put]
          cases Conversion.int.va_arg ap <;> rfl
      | valid type behind =>
        dsimp only
        split
        · refine one (by simp) ?_
          rw [Piece.put]
          cases type.va_arg ap <;> rfl
        · refine one (by simp) ?_
          rw [Piece.put]
          cases type.va_arg ap <;> rfl
    · refine one (by decide) ?_
      show _ = scan printf fuel _ ap b.space
      unfold Building.space
      split <;> rfl
    · exact one (by simp) rfl

/-- Where an `int` can count the message, that is its length. -/
private theorem totlen_of_small {argv : RedisCmd} (small : (protocol.message argv).length < 2 ^ 31) :
    totlen_of argv = some ((protocol.message argv).length : Int) := by
  have whole := message_length argv
  unfold totlen_of
  rw [if_pos (message_small small), totlen_fits (Int.le_refl 0) (by omega), Option.bind_some, intlen_natCast,
    Option.bind_some, if_pos (by omega)]
  congr 1
  omega

/-- What becomes of the arguments that were collected. -/
private theorem built_words (argv : RedisCmd) :
    (match totlen_of argv with
      | none => Formatted.undefined
      | some totlen => built totlen (written argv.length argv)) =
      if Sendable argv then .command (protocol.message argv)
      else if (totlen_of argv).any (fun totlen => totlen + 1 < 0) = true then .error
      else .undefined := by
  rw [written_message]
  by_cases sendable : Sendable argv
  · have small := sendable.small
    rw [if_pos sendable, totlen_of_small small]
    exact (built_command (by omega)).mpr ⟨⟨sendable, rfl⟩, rfl⟩
  · rw [if_neg sendable]
    cases total : totlen_of argv with
    | none => rfl
    | some totlen =>
      have below : totlen < 2 ^ 31 := by
        unfold totlen_of at total
        split at total
        · obtain ⟨t, -, total⟩ := Option.bind_eq_some_iff.mp total
          obtain ⟨n, -, total⟩ := Option.bind_eq_some_iff.mp total
          split at total
          · cases total
            assumption
          · cases total
        · cases total
      have never : built totlen (protocol.message argv) ≠ .command (protocol.message argv) :=
        fun is => sendable ((built_command below).mp is).1.1
      unfold built at never ⊢
      simp only [Option.any_some, decide_eq_true_eq]
      split_ifs at never ⊢ <;> first | rfl | omega | exact absurd rfl never

section
variable {printf : Str → VaArg → Str} {format : Str} {ap : List VaArg}

private theorem filled_error (filled : fill printf (pieces format) ap = .error) : redisvFormatCommand printf format ap = .error := by
  have agrees := @scan_agrees printf ((cstr format).length + 1) (cstr format) ap {} fun _ => rfl
  unfold pieces at filled
  rw [filled] at agrees
  unfold redisvFormatCommand
  generalize scan printf ((cstr format).length + 1) (cstr format) ap {} = scanned at agrees
  cases agrees
  rfl

private theorem filled_undefined (filled : fill printf (pieces format) ap = .undefined) :
    redisvFormatCommand printf format ap = .undefined := by
  have agrees := @scan_agrees printf ((cstr format).length + 1) (cstr format) ap {} fun _ => rfl
  unfold pieces at filled
  rw [filled] at agrees
  unfold redisvFormatCommand
  generalize scan printf ((cstr format).length + 1) (cstr format) ap {} = scanned at agrees
  cases agrees
  rfl

/-- The command of a format whose arguments are all there. -/
theorem filled_texts {l : List (Option Str)} (filled : fill printf (pieces format) ap = .texts l) :
    redisvFormatCommand printf format ap =
      if Sendable (words l) then .command (protocol.message (words l))
      else if (totlen_of (words l)).any (fun totlen => totlen + 1 < 0) = true then .error
      else .undefined := by
  have agrees := @scan_agrees printf ((cstr format).length + 1) (cstr format) ap {} fun _ => rfl
  unfold pieces at filled
  rw [filled] at agrees
  unfold redisvFormatCommand
  generalize scan printf ((cstr format).length + 1) (cstr format) ap {} = scanned at agrees
  cases agrees with
  | @texts _ b collects =>
    have argv : (if b.touched = true then b.curargv ++ [b.curarg] else b.curargv) = words l := by
      have whole : ({} : Building).collects l = words l := rfl
      rw [← whole, ← collects]
      unfold Building.collects
      split <;> simp
    dsimp only
    rw [argv]
    exact built_words (words l)

end

/-- The command has the words of the format for arguments, with what is put in: an error
    is found where the format has an invalid conversion, and behaviour is not defined where
    an argument is missing. -/
theorem formatted_words (printf : Str → VaArg → Str) (format : Str) (ap : List VaArg) :
    redisvFormatCommand printf format ap =
      match fill printf (pieces format) ap with
      | .error => .error
      | .undefined => .undefined
      | .texts l =>
        if Sendable (words l) then .command (protocol.message (words l))
        else if (totlen_of (words l)).any (fun totlen => totlen + 1 < 0) = true then .error
        else .undefined := by
  cases filled : fill printf (pieces format) ap with
  | error => exact filled_error filled
  | undefined => exact filled_undefined filled
  | texts l => exact filled_texts filled

/-! ### The fuel -/

private theorem flag_length (b : UInt8) (p : Str) : (flag b p).length ≤ p.length := by
  unfold flag
  split
  · simp
  · exact Nat.le_refl _

private theorem skipped_length (p : Str) : (skipped p).length ≤ p.length := by
  have flags := flag_length 43 (flag 32 (flag 45 (flag 48 (flag 35 p))))
  have space := flag_length 32 (flag 45 (flag 48 (flag 35 p)))
  have minus := flag_length 45 (flag 48 (flag 35 p))
  have zero := flag_length 48 (flag 35 p)
  have number := flag_length 35 p
  have width := ((flag 43 (flag 32 (flag 45 (flag 48 (flag 35 p))))).dropWhile_sublist isdigit).length_le
  unfold skipped
  dsimp only
  split
  · have precision := (((flag 43 (flag 32 (flag 45 (flag 48 (flag 35 p))))).dropWhile isdigit).tail.dropWhile_sublist isdigit).length_le
    rw [List.length_tail] at precision
    omega
  · omega

private theorem modified_shorter {type type' : Conversion} {p behind : Str} (is : modified type p = .valid type' behind) :
    behind.length < p.length := by
  unfold modified at is
  split at is
  · cases is
  · split at is
    · cases is
      exact Nat.lt_succ_self _
    · cases is

/-- A conversion takes one byte at least. -/
private theorem detect_shorter {p behind : Str} {type : Conversion} (is : detect p = .valid type behind) :
    behind.length < p.length := by
  cases p with
  | nil => cases is
  | cons b p =>
    have tail : p.tail.length ≤ p.length := by simp
    have short := flag_length 104 p
    rw [detect] at is
    rw [List.length_cons]
    split at is
    · cases is
      omega
    · split at is
      · cases is
        omega
      · split at is
        · have less := modified_shorter is
          omega
        · split at is
          · split at is
            · have less := modified_shorter is
              omega
            · have less := modified_shorter is
              omega
          · cases is

/-- What is behind a conversion is shorter. -/
private theorem behind_shorter {p behind : Str} {type : Conversion} (is : detect (skipped p) = .valid type behind) :
    behind.length < p.length := Nat.lt_of_lt_of_le (detect_shorter is) (skipped_length p)

/-- The pieces do not depend on the fuel, where it is enough. -/
theorem pieces_enough {fuel : Nat} {c : Str} (enough : c.length < fuel) : pieces_of (fuel + 1) c = pieces_of fuel c := by
  induction fuel generalizing c with
  | zero => omega
  | succ fuel ih =>
    unfold pieces_of
    split
    · rfl
    · simp only [List.length_cons] at enough
      rw [ih (by omega)]
    · simp only [List.length_cons] at enough
      rw [ih (by omega)]
    · simp only [List.length_cons] at enough
      rw [ih (by omega)]
    · rename_i d c _ _ _
      simp only [List.length_cons] at enough
      cases found : detect (skipped (d :: c)) with
      | invalid => rfl
      | at_end =>
        dsimp only
        rw [ih (by omega)]
      | valid type behind =>
        have less := behind_shorter found
        rw [List.length_cons] at less
        dsimp only
        rw [ih (by omega : behind.length < fuel), ih (by omega : c.length < fuel)]
    · simp only [List.length_cons] at enough
      rw [ih (by omega)]
    · simp only [List.length_cons] at enough
      rw [ih (by omega)]

/-- Nor does the loop: it takes a byte in each round. -/
theorem scan_enough {printf : Str → VaArg → Str} {fuel : Nat} {c : Str} {ap : List VaArg} {b : Building} (enough : c.length < fuel) :
    scan printf (fuel + 1) c ap b = scan printf fuel c ap b := by
  induction fuel generalizing c ap b with
  | zero => omega
  | succ fuel ih =>
    have less : ∀ {c' : Str} {ap : List VaArg} {b : Building}, c'.length < c.length →
        scan printf (fuel + 1) c' ap b = scan printf fuel c' ap b := fun shorter => ih (by omega)
    have two : ∀ {a d : UInt8} {c' : Str} {ap : List VaArg} {b : Building}, a :: d :: c' = c →
        scan printf (fuel + 1) c' ap b = scan printf fuel c' ap b := fun is => less (by simp [← is])
    unfold scan
    split
    · rfl
    · simp only [two rfl]
    · simp only [two rfl]
    · simp only [two rfl]
    · rename_i d c _ _ _
      cases found : detect (skipped (d :: c)) with
      | invalid => rfl
      | at_end =>
        dsimp only
        simp only [two rfl]
      | valid type behind =>
        have after := behind_shorter found
        dsimp only
        simp only [two rfl, less (Nat.lt_succ_of_lt after)]
    · simp only [less (Nat.lt_succ_self _)]
    · simp only [less (Nat.lt_succ_self _)]

/-! ### One command -/

/-- How many arguments a format has. -/
def arity (format : Str) : Nat := (((pieces format).map fun piece => decide (piece = .gap)).splitOnP id).countP (!·.isEmpty)

private theorem put_gap {printf : Str → VaArg → Str} {piece : Piece} {ap ap' : List VaArg} {text : Option Str}
    (is : piece.put printf ap = some (text, ap')) : text.isNone = decide (piece = .gap) := by
  cases piece with
  | gap =>
    cases is
    rfl
  | text s =>
    cases is
    rfl
  | string =>
    dsimp only [Piece.put] at is
    split at is
    · split at is
      · cases is
        rfl
      · cases is
    · cases is
  | binary =>
    dsimp only [Piece.put] at is
    split at is
    · split at is
      · cases is
        rfl
      · cases is
    · cases is
  | conversion type spec =>
    obtain ⟨_, _, same⟩ := Option.map_eq_some_iff.mp is
    cases same
    rfl
  | overlong type =>
    obtain ⟨_, _, same⟩ := Option.map_eq_some_iff.mp is
    cases same
    rfl
  | unfinished | invalid => cases is

/-- The gaps are those of the format. -/
theorem fill_gaps {printf : Str → VaArg → Str} {all : List Piece} {ap : List VaArg} {l : List (Option Str)}
    (is : fill printf all ap = .texts l) : l.map Option.isNone = all.map fun piece => decide (piece = .gap) := by
  induction all generalizing ap l with
  | nil =>
    cases is
    rfl
  | cons piece rest ih =>
    unfold fill at is
    split at is
    · cases is
    · cases put : piece.put printf ap with
      | none =>
        rw [put] at is
        cases is
      | some taken =>
        obtain ⟨text, ap'⟩ := taken
        rw [put] at is
        dsimp only at is
        cases later : fill printf rest ap' with
        | error | undefined =>
          rw [later] at is
          cases is
        | texts l' =>
          rw [later] at is
          cases is
          rw [List.map_cons, List.map_cons, ih later, put_gap put]

/-- Whatever is put in, a server reads one command of as many arguments as the format
    has. -/
theorem formats_one {printf : Str → VaArg → Str} {format : Str} {ap : List VaArg} {cmd : Str}
    (is : redisvFormatCommand printf format ap = .command cmd) :
    ∃ args : RedisCmd, protocol.read_stream cmd = some [args] ∧ args.length = arity format := by
  cases filled : fill printf (pieces format) ap with
  | error => cases (filled_error filled).symm.trans is
  | undefined => cases (filled_undefined filled).symm.trans is
  | texts l =>
    rw [filled_texts filled] at is
    split at is
    · cases is
      refine ⟨words l, ?_, ?_⟩
      · have one := protocol.read_stream_messages [words l]
        rwa [List.flatMap_singleton] at one
      · rw [words_length, fill_gaps filled, arity]
    · split at is <;> cases is

/-- What `vsnprintf` makes of `%d`. -/
def decimals (spec : Str) : VaArg → Str
  | .int n => if spec = lit "%d" then number n else []
  | _ => []

/-- A space in an argument, and a line's end in another. -/
theorem formats_one_set :
    ∃ args : RedisCmd, protocol.read_stream (lit "*4\r\n$3\r\nSET\r\n$3\r\na b\r\n$3\r\n\r\nx\r\n$3\r\n-12\r\n") = some [args] ∧
      args.length = arity (lit "SET %s  %b %d") :=
  @formats_one decimals (lit "SET %s  %b %d")
    [.pointer (lit "a b" ++ [0]), .pointer (lit "\r\nxy"), .size 3, .int (-12)] _ (by decide +kernel)

/-! ### The same as with arrays -/

/-- `%b` for each argument, with spaces between. -/
def slots : RedisCmd → Str
  | [] => []
  | [_] => lit "%b"
  | _ :: arg :: args => lit "%b " ++ slots (arg :: args)

/-- A pointer and a size for each argument. -/
def pointers (args : RedisCmd) : List VaArg := args.flatMap fun arg => [.pointer (arg ++ [0]), .size arg.length]

/-- Its bytes are put in. -/
private theorem put_pointer (printf : Str → VaArg → Str) (arg : Str) (ap : List VaArg) :
    Piece.binary.put printf (.pointer (arg ++ [0]) :: .size arg.length :: ap) = some (some arg, ap) := by
  simp [Piece.put]

private theorem fill_slots (printf : Str → VaArg → Str) (args : RedisCmd) {fuel : Nat} (enough : (slots args).length < fuel) :
    ∃ l, fill printf (pieces_of fuel (slots args)) (pointers args) = .texts l ∧ words l = args := by
  induction args using slots.induct generalizing fuel with
  | case1 =>
    obtain ⟨fuel, rfl⟩ : ∃ n, fuel = n + 1 := ⟨fuel - 1, by omega⟩
    exact ⟨[], rfl, rfl⟩
  | case2 arg =>
    obtain ⟨fuel, rfl⟩ : ∃ n, fuel = n + 2 := ⟨fuel - 2, by simp only [slots, lit] at enough; simp at enough; omega⟩
    refine ⟨[some arg], ?_, words_last arg⟩
    show fill printf [.binary] [.pointer (arg ++ [0]), .size arg.length] = _
    rw [fill, if_neg (by decide), put_pointer]
    rfl
  | case3 first arg args ih =>
    have length : (slots (first :: arg :: args)).length = (slots (arg :: args)).length + 3 := rfl
    obtain ⟨fuel, rfl⟩ : ∃ n, fuel = n + 2 := ⟨fuel - 2, by omega⟩
    obtain ⟨l, is, same⟩ := @ih fuel (by omega)
    refine ⟨some first :: none :: l, ?_, by rw [words_ends, same]⟩
    show fill printf (.binary :: .gap :: pieces_of fuel (slots (arg :: args)))
      (.pointer (first ++ [0]) :: .size first.length :: pointers (arg :: args)) = _
    rw [fill, if_neg (by decide), put_pointer]
    dsimp only
    rw [fill, if_neg (by decide)]
    dsimp only [Piece.put]
    rw [is]
    rfl

private theorem slots_bytes (args : RedisCmd) : ∀ b ∈ slots args, b ∈ lit "%b " := by
  induction args using slots.induct with
  | case1 =>
    intro b member
    cases member
  | case2 arg =>
    intro b member
    exact List.mem_append_left [32] member
  | case3 first arg args ih =>
    intro b member
    exact (List.mem_append.mp member).elim id (ih b)

private theorem cstr_slots (args : RedisCmd) : cstr (slots args) = slots args := by
  refine List.takeWhile_eq_self_iff.mpr fun b member => ?_
  have text : (lit "%b ").all (fun b => decide (b ≠ 0)) = true := by decide
  exact List.all_eq_true.mp text b (slots_bytes args b member)

/-- With `%b` for each argument, what becomes of the command is what
    `redisFormatCommandArgv` makes of the arrays of the arguments: its message, where an
    `int` can count the NUL behind it as well. -/
theorem formats_argv (printf : Str → VaArg → Str) {args : RedisCmd} (small : (protocol.message args).length < 2 ^ 31) :
    ∃ h, shallow_assign args = .ok h ∧
      redisvFormatCommand printf (slots args) (pointers args) = redisFormatCommandArgv h ∧
      (Sendable args → redisFormatCommandArgv h = .command (protocol.message args)) := by
  refine ⟨pointed args, shallow_small (message_small small).1, ?_, format_sendable⟩
  obtain ⟨l, filled, same⟩ := fill_slots printf args (Nat.lt_succ_self _)
  have whole := built_words args
  rw [totlen_of_small small, written_message] at whole
  have filled : fill printf (pieces (slots args)) (pointers args) = .texts l := by rw [pieces, cstr_slots, filled]
  rw [filled_texts filled, format_small small, same, totlen_of_small small]
  exact whole.symm

theorem formats_argv_set : ∃ h, shallow_assign [lit "SET", lit "a b", []] = .ok h ∧
    redisvFormatCommand decimals (slots [lit "SET", lit "a b", []]) (pointers [lit "SET", lit "a b", []]) =
      redisFormatCommandArgv h ∧
    (Sendable [lit "SET", lit "a b", []] → redisFormatCommandArgv h = .command (protocol.message [lit "SET", lit "a b", []])) :=
  formats_argv decimals (by decide +kernel)

/-! ### The commands of `Connection` -/

private theorem words_letters (a name : Str) : words (some a :: name.map fun b => some [b]) = [a ++ name] := by
  induction name generalizing a with
  | nil => rw [List.map_nil, words_last, List.append_nil]
  | cons b name ih => rw [List.map_cons, words_joined, ih, List.append_assoc, List.singleton_append]

private theorem fill_letters (printf : Str → VaArg → Str) {name : Str} (plain : ∀ b ∈ name, b ≠ 32 ∧ b ≠ 37) {fuel : Nat}
    (enough : name.length < fuel) : fill printf (pieces_of fuel name) [] = .texts (name.map fun b => some [b]) := by
  induction name generalizing fuel with
  | nil =>
    obtain ⟨fuel, rfl⟩ : ∃ n, fuel = n + 1 := ⟨fuel - 1, by omega⟩
    rfl
  | cons b name ih =>
    obtain ⟨fuel, rfl⟩ : ∃ n, fuel = n + 1 := ⟨fuel - 1, by omega⟩
    obtain ⟨space, percent⟩ := plain b List.mem_cons_self
    have one : pieces_of (fuel + 1) (b :: name) = .text [b] :: pieces_of fuel name := by
      rw [pieces_of.eq_def]
      dsimp only
      split
      -- the other cases begin with a percent sign or a space, or there is nothing
      all_goals rename_i same
      all_goals cases same
      all_goals first | rfl | exact absurd rfl percent | exact absurd rfl space
    rw [one, fill, if_neg (by simp)]
    dsimp only [Piece.put]
    rw [ih (fun b member => plain b (List.mem_cons_of_mem _ member)) (Nat.lt_of_succ_lt_succ enough)]
    rfl

/-- A name alone, as `ping` and `quit` send it. -/
theorem name_formatted (printf : Str → VaArg → Str) {name : Str} (nonempty : name ≠ [])
    (plain : (name.all fun b => decide (b ≠ 0 ∧ b ≠ 32 ∧ b ≠ 37)) = true) (small : Sendable [name]) :
    redisvFormatCommand printf name [] = .command (protocol.message [name]) := by
  have plain : ∀ b ∈ name, b ≠ 0 ∧ b ≠ 32 ∧ b ≠ 37 := fun b member => of_decide_eq_true (List.all_eq_true.mp plain b member)
  have whole : cstr name = name := List.takeWhile_eq_self_iff.mpr fun b member => decide_eq_true (plain b member).1
  obtain ⟨b, rest, rfl⟩ := List.exists_cons_of_ne_nil nonempty
  have filled : fill printf (pieces (b :: rest)) [] = .texts (some [b] :: rest.map fun b => some [b]) := by
    rw [pieces, whole, fill_letters printf (fun b member => (plain b member).2) (Nat.lt_succ_self _), List.map_cons]
  rw [filled_texts filled, words_letters, List.singleton_append, if_pos small]

private theorem number_length {n : Int} (low : -2 ^ 31 ≤ n) (high : n < 2 ^ 31) : (number n).length ≤ 11 := by
  have digits := @digits_length n.natAbs (by omega)
  unfold number
  split
  · rw [List.length_cons]
    omega
  · omega

/-- What `select` sends: the number as `MakeCmd` would write it. -/
theorem select_formatted {printf : Str → VaArg → Str} (decimal : ∀ n, printf (lit "%d") (.int n) = number n) {db : Int}
    (low : -2 ^ 31 ≤ db) (high : db < 2 ^ 31) :
    redisvFormatCommand printf (lit "SELECT %d") [.int db] = .command (protocol.message [lit "SELECT", number db]) ∧
      Sendable [lit "SELECT", number db] := by
  have filled : fill printf (pieces (lit "SELECT %d")) [.int db] =
      .texts ((lit "SELECT").map (fun b => some [b]) ++ [none, some (printf (lit "%d") (.int db))]) := rfl
  have said : words ((lit "SELECT").map (fun b => some [b]) ++ [none, some (number db)]) = [lit "SELECT", number db] := by
    simp [lit, words_joined]
  have short := number_length low high
  have small : Sendable [lit "SELECT", number db] := by
    show (protocol.message [lit "SELECT", number db]).length < 2 ^ 31 - 1
    have count := @digits_length (number db).length (by omega)
    have two : (digits 2).length = 1 := by decide
    have six : (digits 6).length = 1 := by decide
    have name : (lit "SELECT").length = 6 := rfl
    simp only [Format.message, Format.item, Format.line, protocol, List.length_append, List.length_cons, List.length_nil,
      List.flatMap_cons, List.flatMap_nil, name, two, six, Nat.zero_add, Nat.reduceAdd]
    omega
  refine ⟨?_, small⟩
  rw [filled_texts filled, decimal, said, if_pos small]

end CppRedis.Formats

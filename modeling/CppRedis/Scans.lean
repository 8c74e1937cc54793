import CppRedis.Callbacks
import CppRedis.Conversations

/-!
What an asynchronous context finds in a formatted command. It looks for the name and the
channels in the bytes that it is about to send; `command_scanned` says that these are
the arguments of the command, whatever bytes they have, if the name has no CR.
-/
namespace CppRedis.Scans
open CppRedis.Strings CppRedis.Connection CppRedis.Commands CppRedis.Requests CppRedis.Frames CppRedis.Cuts CppRedis.Contexts
open CppRedis.Conversations CppRedis.Dicts CppRedis.Callbacks

/-! ### Bytes -/

private theorem strncmp_eq_prefix {k : Str} (plain : 0 ∉ k) (a : Str) : strncmp_eq a k k.length = true ↔ k <+: a := by
  induction k generalizing a with
  | nil => simp [strncmp_eq]
  | cons b k ih =>
    obtain ⟨first, plain⟩ := not_or.mp (List.mem_cons.not.mp plain)
    cases a with
    | nil => simp [strncmp_eq, first]
    | cons c a =>
      rw [List.cons_prefix_cons, ← ih plain]
      by_cases same : b = c
      · subst same
        simp [strncmp_eq, Ne.symm first]
      · simp [strncmp_eq, same, Ne.symm same]

private theorem tolower_cr (b : UInt8) : tolower b = 13 ↔ b = 13 := by
  unfold tolower
  split
  · rename_i upper
    constructor
    · intro is
      have value := congrArg UInt8.toNat is
      have low := UInt8.le_iff_toNat_le.mp upper.1
      have high := UInt8.le_iff_toNat_le.mp upper.2
      rw [UInt8.toNat_add] at value
      simp at value low high
      omega
    · rintro rfl
      exact absurd upper (by decide)
  · exact Iff.rfl

/-- A keyword in small letters. -/
structure Keyword (keyword : Str) : Prop where
  lower : keyword.map tolower = keyword
  plain : 0 ∉ keyword
  inside : 13 ∉ keyword

/-- A keyword and the end of its line are found exactly in its own line. -/
theorem strncasecmp_line {keyword : Str} (is : Keyword keyword) {name : Str} (one : 13 ∉ name) (rest : Str) :
    strncasecmp_eq (name ++ crlf ++ rest) (keyword ++ crlf) (keyword ++ crlf).length = true ↔ name.map tolower = keyword := by
  have plain : 0 ∉ keyword ++ crlf := by
    intro member
    rcases List.mem_append.mp member with member | member
    · exact is.plain member
    · exact absurd member (by decide)
  have one' : 13 ∉ name.map tolower := by
    intro member
    obtain ⟨b, there, cr⟩ := List.mem_map.mp member
    rw [(tolower_cr b).mp cr] at there
    exact one there
  have lowered : (keyword ++ crlf).map tolower = keyword ++ crlf := by rw [List.map_append, is.lower]; rfl
  have shape : (name ++ crlf ++ rest).map tolower = name.map tolower ++ 13 :: (10 :: rest.map tolower) := by
    rw [List.map_append, List.map_append, List.append_assoc]
    rfl
  rw [strncasecmp_eq, lowered, strncmp_eq_prefix plain, shape]
  constructor
  · rintro ⟨t, whole⟩
    have front := congrArg (before 13) whole
    rw [before_append one', List.append_assoc] at front
    rw [← front]
    exact before_append is.inside
  · intro same
    exact ⟨rest.map tolower, by rw [same, List.append_assoc]; rfl⟩

private theorem isdigit_first {b : UInt8} (is : isdigit b = true) : isspace b = false ∧ b ≠ 45 ∧ b ≠ 43 := by
  simp only [isdigit, Bool.and_eq_true, decide_eq_true_eq] at is
  have low := UInt8.le_iff_toNat_le.mp is.1
  refine ⟨?_, ?_, ?_⟩
  · have blank : b ≠ 32 := by
      rintro rfl
      exact absurd is.1 (by decide)
    have above : ¬ b ≤ 13 := fun le => by
      have := UInt8.le_iff_toNat_le.mp le
      simp at low this
      omega
    simp [isspace, blank, above]
  · rintro rfl
    exact absurd is.1 (by decide)
  · rintro rfl
    exact absurd is.1 (by decide)

/-- A length is read up to the end of its line. -/
private theorem atoi_line {n : Nat} (small : n < 2 ^ 31) (rest : Str) : atoi (digits n ++ 13 :: rest) = n := by
  have all := digits_isdigit n
  have stops : cstr (digits n ++ 13 :: rest) = digits n ++ 13 :: cstr rest := by
    have nul : ∀ c ∈ digits n, decide (c ≠ 0) = true := by
      intro c member
      have := all c member
      rw [decide_eq_true_eq]
      rintro rfl
      cases this
    rw [cstr, List.takeWhile_append_of_pos nul, List.takeWhile_cons_of_pos (by decide)]
    rfl
  have taken : (digits n ++ 13 :: cstr rest).takeWhile isdigit = digits n := by
    rw [List.takeWhile_append_of_pos all, List.takeWhile_cons_of_neg (by decide), List.append_nil]
  have read : strtol.signed 1 (digits n ++ 13 :: cstr rest) = some (n : Int) := by
    simp only [strtol.signed, taken, digits_ne_nil n, decimal_digits, one_mul, ↓reduceIte]
  have value : strtol (digits n ++ 13 :: rest) = some (n : Int) := by
    obtain ⟨b, more, shape⟩ := List.exists_cons_of_ne_nil (digits_ne_nil n)
    obtain ⟨space, minus, plus⟩ := isdigit_first (all b (by rw [shape]; exact List.mem_cons_self))
    have front : (digits n ++ 13 :: cstr rest).dropWhile isspace = digits n ++ 13 :: cstr rest := by
      rw [shape, List.cons_append]
      exact List.dropWhile_cons_of_neg (by simp [space])
    rw [shape] at read front stops ⊢
    simp only [strtol, stops, front]
    split
    · rename_i is
      exact absurd (List.cons.inj is).1 minus
    · rename_i is
      exact absurd (List.cons.inj is).1 plus
    · exact read
  have fits : max (-2 ^ 63) (min (n : Int) (2 ^ 63 - 1)) = n := by omega
  simp only [atoi, value, fits]
  rw [Int.bmod_def]
  split <;> omega

/-! ### Arguments -/

private theorem strchr_here (c : UInt8) (s : Str) : strchr c (c :: s) = some (c :: s) := by rw [strchr, if_pos rfl]

/-- No such byte stands in front. -/
private theorem strchr_append {c : UInt8} {front : Str} (absent : c ∉ front) (nul : 0 ∉ front) (back : Str) :
    strchr c (front ++ c :: back) = some (c :: back) := by
  induction front with
  | nil => exact strchr_here c back
  | cons b front ih =>
    obtain ⟨other, absent⟩ := not_or.mp (List.mem_cons.not.mp absent)
    obtain ⟨some, nul⟩ := not_or.mp (List.mem_cons.not.mp nul)
    rw [List.cons_append, strchr, if_neg (Ne.symm other), if_neg (Ne.symm some)]
    exact ih absent nul

private theorem digits_other {n : Nat} {c : UInt8} (other : isdigit c = false) : c ∉ digits n := by
  intro member
  rw [digits_isdigit n c member] at other
  cases other

/-- The argument at the cursor. -/
theorem nextArgument_item {arg : Str} (short : arg.length < 2 ^ 31) (rest : Str) :
    nextArgument (protocol.item arg ++ rest) = some (some (arg ++ crlf ++ rest, arg.length, rest)) := by
  have shape : protocol.item arg ++ rest = 36 :: (digits arg.length ++ 13 :: (10 :: (arg ++ (crlf ++ rest)))) := by
    simp [Format.item, Format.line, protocol, crlf]
  have line : strchr 13 (36 :: (digits arg.length ++ 13 :: (10 :: (arg ++ (crlf ++ rest))))) =
      some (13 :: 10 :: (arg ++ (crlf ++ rest))) := by
    rw [← List.cons_append]
    apply strchr_append
    · intro member
      rcases List.mem_cons.mp member with is | member
      · cases is
      · exact digits_other rfl member
    · intro member
      rcases List.mem_cons.mp member with is | member
      · cases is
      · exact digits_other rfl member
  have beyond : (arg ++ (crlf ++ rest)).drop (arg.length + 2) = rest := by
    rw [← List.drop_drop, List.drop_left]
    rfl
  have back : (13 :: 10 :: (arg ++ (crlf ++ rest))).drop (2 + arg.length + 2) = rest := by
    rw [Nat.add_assoc, ← List.drop_drop]
    exact beyond
  unfold nextArgument
  rw [shape, strchr_here]
  simp only [List.tail_cons, atoi_line short, line, Int.toNat_natCast, back, List.append_assoc]
  rw [if_neg (by omega)]
  rfl

/-- The name of a command is found behind the number of its arguments. -/
theorem nextArgument_message {name : Str} (short : name.length < 2 ^ 31) (args : List Str) :
    nextArgument (protocol.message (name :: args)) =
      some (some (name ++ crlf ++ args.flatMap protocol.item, name.length, args.flatMap protocol.item)) := by
  have here := nextArgument_item short (args.flatMap protocol.item)
  have shape : protocol.message (name :: args) =
      (42 :: (digits (args.length + 1) ++ crlf)) ++ (protocol.item name ++ args.flatMap protocol.item) := rfl
  have first : ∃ s, protocol.item name ++ args.flatMap protocol.item = 36 :: s := ⟨_, rfl⟩
  obtain ⟨s, is⟩ := first
  have skipped : strchr 36 ((42 :: (digits (args.length + 1) ++ crlf)) ++ 36 :: s) = some (36 :: s) := by
    have plain : ∀ c : UInt8, c ≠ 42 → c ≠ 13 → c ≠ 10 → isdigit c = false → c ∉ 42 :: (digits (args.length + 1) ++ crlf) := by
      intro c star cr lf other member
      rcases List.mem_cons.mp member with is | member
      · exact star is
      · rcases List.mem_append.mp member with member | member
        · exact digits_other other member
        · simp [crlf, cr, lf] at member
    exact strchr_append (plain 36 (by decide) (by decide) (by decide) rfl) (plain 0 (by decide) (by decide) (by decide) rfl) s
  rw [is] at here
  rw [shape, is, ← here]
  unfold nextArgument
  rw [skipped, strchr_here]

/-! ### What is found -/

def pattern (name : Str) : Bool := tolower (name.headD 0) = 112

/-- The name without a `p` in front. -/
def bare (name : Str) : Str := if pattern name = true then name.tail else name

/-- The callback is registered under each of the names. -/
def subscribe_names (pvariant : Bool) (cb : RedisCallback) : List Str → RedisAsyncContext → Option RedisAsyncContext
  | [], ac => some ac
  | name :: names, ac =>
    ((ac.callbacks pvariant).dictReplace callbackDict name cb).bind fun r =>
      subscribe_names pvariant cb names (ac.setCallbacks pvariant r.2)

/-- What a command with such arguments does to the context. -/
def commanded (cb : RedisCallback) (name : Str) (args : List Str) (ac : RedisAsyncContext) : Option (Bool × RedisAsyncContext) :=
  let cmd := protocol.message (name :: args)
  let word := (bare name).map tolower
  if ac.disconnecting = true ∨ ac.freeing = true then some (false, ac)
  else if args ≠ [] ∧ word = lit "subscribe" then
    (subscribe_names (pattern name) cb args { ac with subscribed := true }).map fun ac => (true, ac.append cmd)
  else if word = lit "unsubscribe" then if ac.subscribed = true then some (true, ac.append cmd) else some (false, ac)
  else if word = lit "monitor" then some (true, { ac with monitoring := true, replies := ac.replies ++ [cb] }.append cmd)
  else if ac.subscribed = true then some (true, { ac with invalid := ac.invalid ++ [cb] }.append cmd)
  else some (true, { ac with replies := ac.replies ++ [cb] }.append cmd)

private theorem subscribe_all_items (pvariant : Bool) (cb : RedisCallback) {args : List Str}
    (short : ∀ arg ∈ args, arg.length < 2 ^ 31) {fuel : Nat} (enough : args.length < fuel) (ac : RedisAsyncContext) :
    ac.subscribe_all pvariant cb fuel (args.flatMap protocol.item) = subscribe_names pvariant cb args ac := by
  induction args generalizing fuel ac with
  | nil =>
    obtain ⟨fuel, rfl⟩ : ∃ n, fuel = n + 1 := ⟨fuel - 1, by simp at enough; omega⟩
    rfl
  | cons arg args ih =>
    obtain ⟨fuel, rfl⟩ : ∃ n, fuel = n + 1 := ⟨fuel - 1, by simp at enough; omega⟩
    have here := nextArgument_item (short arg List.mem_cons_self) (args.flatMap protocol.item)
    have taken : (arg ++ crlf ++ args.flatMap protocol.item).take arg.length = arg := by
      rw [List.append_assoc, List.take_left]
    unfold RedisAsyncContext.subscribe_all subscribe_names
    simp only [List.flatMap_cons, here, taken]
    cases replaced : (ac.callbacks pvariant).dictReplace callbackDict arg cb with
    | none => rfl
    | some r => exact ih (fun arg member => short arg (List.mem_cons_of_mem _ member)) (by simpa using enough) _

private theorem args_le (name : Str) (args : List Str) : args.length ≤ (protocol.message (name :: args)).length := by
  have all : ∀ l : List Str, l.length ≤ (l.flatMap protocol.item).length := by
    intro l
    induction l with
    | nil => exact Nat.le_refl 0
    | cons arg l ih =>
      simp only [List.flatMap_cons, List.length_cons, List.length_append, Format.item, Format.line]
      omega
  have := all (name :: args)
  simp only [Format.message, List.length_append]
  simp only [List.length_cons] at this
  omega

/-- The context reads out of the formatted bytes what the arguments say. -/
theorem command_scanned (cb : RedisCallback) {name : Str} {args : List Str} (one : 13 ∉ name) (named : name.length < 2 ^ 31)
    (short : ∀ arg ∈ args, arg.length < 2 ^ 31) (ac : RedisAsyncContext) :
    ac.redisAsyncCommand cb (protocol.message (name :: args)) = commanded cb name args ac := by
  have found := nextArgument_message named args
  have p : tolower ((name ++ crlf ++ args.flatMap protocol.item).headD 0) = 112 ↔ tolower (name.headD 0) = 112 := by
    cases name with
    | nil => exact ⟨fun is => absurd (show tolower 13 = 112 from is) (by decide), fun is => absurd is (by decide)⟩
    | cons b name => exact Iff.rfl
  have variant : decide (tolower ((name ++ crlf ++ args.flatMap protocol.item).headD 0) = 112) = pattern name :=
    decide_eq_decide.mpr p
  have rest : (if pattern name = true then (name ++ crlf ++ args.flatMap protocol.item).tail
      else name ++ crlf ++ args.flatMap protocol.item) = bare name ++ crlf ++ args.flatMap protocol.item := by
    unfold bare
    by_cases is : pattern name = true
    · rw [if_pos is, if_pos is]
      cases name with
      | nil => exact absurd is (by decide)
      | cons b name => rfl
    · rw [if_neg is, if_neg is]
  have inside : 13 ∉ bare name := by
    unfold bare
    split
    · exact fun member => one (List.mem_of_mem_tail member)
    · exact one
  have next : (args.flatMap protocol.item).head? = some 36 ↔ args ≠ [] := by
    cases args with
    | nil => simp
    | cons arg args => simp [Format.item, Format.line, protocol]
  have lengths : (lit "subscribe" ++ crlf).length = 11 ∧ (lit "unsubscribe" ++ crlf).length = 13 ∧
      (lit "monitor" ++ crlf).length = 9 := by decide
  have line : ∀ k : Str, Keyword k →
      (strncasecmp_eq (bare name ++ crlf ++ args.flatMap protocol.item) (k ++ crlf) (k ++ crlf).length = true ↔
        (bare name).map tolower = k) := fun _ is => strncasecmp_line is inside _
  have subscribe := line (lit "subscribe") ⟨rfl, by decide, by decide⟩
  have unsubscribe := line (lit "unsubscribe") ⟨rfl, by decide, by decide⟩
  have monitor := line (lit "monitor") ⟨rfl, by decide, by decide⟩
  rw [lengths.1] at subscribe
  rw [lengths.2.1] at unsubscribe
  rw [lengths.2.2] at monitor
  have texts : lit "subscribe\r\n" = lit "subscribe" ++ crlf ∧ lit "unsubscribe\r\n" = lit "unsubscribe" ++ crlf ∧
      lit "monitor\r\n" = lit "monitor" ++ crlf := by decide
  have all := subscribe_all_items (pattern name) cb short (Nat.lt_add_one_of_le (args_le name args)) { ac with subscribed := true }
  unfold RedisAsyncContext.redisAsyncCommand commanded
  rw [found]
  simp only [variant, rest, texts.1, texts.2.1, texts.2.2, subscribe, unsubscribe, monitor, next, all]

end CppRedis.Scans

import CppRedis.Lists
import CppRedis.Tables

/-!
A method against a server: which arguments are handed over, what the server answers
and what the method returns. `answer_send` says when a method returns a value;
`decode_bulk` what it returns for one string or nil for each key.
-/
namespace CppRedis.Exchanges
open CppRedis.Strings CppRedis.Reply CppRedis.Connection CppRedis.Clients CppRedis.Decoders CppRedis.Requests
open CppRedis.Methods CppRedis.Tables
open CppRedis.Lists (bulk)

/-- What hiredis makes of a reply: it cuts the number of an array down to an `int`, so
    that the elements of a larger one have no room or are taken for other replies. -/
def received : RedisReply → Except Fault RedisReply
  | .array element => if element.length < 2 ^ 31 then .ok (.array element) else .error .undefined
  | reply => .ok reply

theorem received_array {element : List RedisReply} (small : element.length < 2 ^ 31) :
    received (.array element) = .ok (.array element) := if_pos small

/-- What a method returns or throws, and what the server keeps afterwards; there is no
    answer where the method waits for ever. -/
def answer {σ : Type} (exec : RedisCmd → σ → Option (RedisReply × σ)) (m : Command) (s : σ) :
    Option (Except Fault Value × σ) :=
  match m.call with
  | .returns v => some (.ok v, s)
  | .undefined => some (.error .undefined, s)
  | .throws e => some (.error (.thrown e), s)
  | .sends cmd decoder =>
    match unsent cmd with
    | some fault => some (.error fault, s)
    | none => (exec cmd s).map fun (reply, s) => ((received reply).bind decoder.decode, s)

/-- What a method gives whose command the server would carry out. -/
theorem answer_carried {σ : Type} {exec : RedisCmd → σ → Option (RedisReply × σ)} {m : Command} {cmd : RedisCmd} {decoder : Decoder}
    (sends : m.call = .sends cmd decoder) {s left : σ} {reply : RedisReply} (run : exec cmd s = some (reply, left)) :
    answer exec m s =
      some ((unsent cmd).elim ((received reply).bind decoder.decode, left) fun fault => (.error fault, s)) := by
  simp only [answer, sends]
  cases unsent cmd with
  | some fault => rfl
  | none =>
    show (exec cmd s).map _ = _
    rw [run]
    rfl

/-! ### The arguments that are handed over -/

/-- Of the arguments of a command, those that are handed over with its name and sent. -/
structure Given (name : String) (args given : List Str) : Prop where
  handed : handed (lit name :: args) = .ok (lit name :: given)
  sendable : Sendable (lit name :: given)

theorem Given.isPrefix {name : String} {args given : List Str} (is : Given name args given) : given <+: args := by
  have front : lit name :: given <+: lit name :: args := by
    rw [handed_take is.handed]
    exact List.take_prefix _ _
  exact (List.cons_prefix_cons.mp front).2

theorem Given.short {name : String} {args given : List Str} (is : Given name args given) : given.length + 1 < 2 ^ 31 :=
  is.sendable.few

theorem given_all {name : String} {args : List Str} (sendable : Sendable (lit name :: args)) : Given name args args :=
  ⟨handed_eq sendable.few, sendable⟩

/-- So few arguments are all handed over. -/
theorem given_small {name : String} {args given : List Str} (small : args.length + 1 < 2 ^ 31) :
    Given name args given ↔ given = args ∧ Sendable (lit name :: args) := by
  constructor
  · intro is
    obtain rfl := (List.cons.inj (Except.ok.inj (is.handed.symm.trans (handed_eq small)))).2
    exact ⟨rfl, is.sendable⟩
  · rintro ⟨rfl, sendable⟩
    exact given_all sendable

/-- So many arguments count as a negative number of them. -/
theorem not_given {name : String} {args given : List Str} (low : 2 ^ 31 ≤ args.length + 1) (high : args.length + 1 < 2 ^ 32) :
    ¬ Given name args given := by
  rintro ⟨is, -⟩
  have negative : int_of_size (lit name :: args).length < 0 := by
    rw [List.length_cons, int_of_size, Int32.toInt_ofNat', Int.bmod_def, Int32.size]
    split <;> omega
  rw [handed_error negative] at is
  cases is

/-- A method returns a value exactly if the server gets a command of its name and the
    decoder makes the value of the reply. -/
theorem answer_send {σ : Type} {exec : RedisCmd → σ → Option (RedisReply × σ)} (silent : ∀ s, exec [] s = none)
    {m : Command} {name : String} {args : List Str} {decoder : Decoder} (is : m.call = send name args decoder)
    {s s' : σ} {v : Value} :
    answer exec m s = some (.ok v, s') ↔
      ∃ given reply, Given name args given ∧ exec (lit name :: given) s = some (reply, s') ∧
        (received reply).bind decoder.decode = .ok v := by
  unfold answer
  rw [is]
  unfold send
  cases handed_over : handed (lit name :: args) with
  | error e =>
    refine iff_of_false ?_ ?_
    · intro returned
      cases returned
    · rintro ⟨_, _, given, _⟩
      cases handed_over.symm.trans given.handed
  | ok cmd =>
    dsimp only
    constructor
    · intro returned
      cases goes : unsent cmd with
      | some fault =>
        rw [goes] at returned
        cases returned
      | none =>
        rw [goes] at returned
        cases cmd with
        | nil =>
          simp only [silent, Option.map_none] at returned
          cases returned
        | cons first given =>
          have front : first :: given <+: lit name :: args := by
            rw [handed_take handed_over]
            exact List.take_prefix _ _
          obtain rfl := (List.cons_prefix_cons.mp front).1
          obtain ⟨⟨reply, left⟩, executed, same⟩ := Option.map_eq_some_iff.mp returned
          obtain ⟨decoded, rfl⟩ := Prod.mk.inj same
          exact ⟨given, reply, ⟨handed_over, unsent_none.mp goes⟩, executed, decoded⟩
    · rintro ⟨given, reply, ⟨same, sendable⟩, executed, decoded⟩
      obtain rfl := Except.ok.inj (handed_over.symm.trans same)
      rw [unsent_none.mpr sendable, ← decoded]
      show Option.map _ (exec _ s) = _
      rw [executed]
      rfl

/-- What returns a value has been sent. -/
theorem answer_sendable {σ : Type} {exec : RedisCmd → σ → Option (RedisReply × σ)} {m : Command} {cmd : RedisCmd} {decoder : Decoder}
    (sends : m.call = .sends cmd decoder) {s s' : σ} {v : Value} (returned : answer exec m s = some (.ok v, s')) :
    Sendable cmd := by
  rw [← unsent_none]
  simp only [answer, sends] at returned
  cases goes : unsent cmd with
  | none => rfl
  | some fault =>
    rw [goes] at returned
    cases returned

/-- So few arguments are all handed over. -/
theorem answer_small {σ : Type} {exec : RedisCmd → σ → Option (RedisReply × σ)} (silent : ∀ s, exec [] s = none)
    {m : Command} {name : String} {args : List Str} {decoder : Decoder} (is : m.call = send name args decoder)
    (small : args.length + 1 < 2 ^ 31) {s s' : σ} {v : Value} :
    answer exec m s = some (.ok v, s') ↔
      Sendable (lit name :: args) ∧ ∃ reply, exec (lit name :: args) s = some (reply, s') ∧
        (received reply).bind decoder.decode = .ok v := by
  rw [answer_send silent is]
  constructor
  · rintro ⟨given, reply, handed_over, executed, decoded⟩
    obtain ⟨rfl, sendable⟩ := (given_small small).mp handed_over
    exact ⟨sendable, reply, executed, decoded⟩
  · rintro ⟨sendable, reply, executed, decoded⟩
    exact ⟨args, reply, given_all sendable, executed, decoded⟩

/-- A decoder that fails only where it cannot count. -/
theorem counted_iff {few : Prop} [Decidable few] {v v' : Value} {fault : Fault} :
    (if few then .ok v' else .error fault) = Except.ok v ↔ few ∧ v = v' := by
  by_cases countable : few
  · rw [if_pos countable]
    exact ⟨fun same => ⟨countable, (Except.ok.inj same).symm⟩, fun same => congrArg Except.ok same.2.symm⟩
  · rw [if_neg countable]
    refine iff_of_false ?_ fun same => countable same.1
    intro same
    cases same

/-! ### Arguments in pairs -/

/-- How a server takes its arguments in pairs; none where one is left over. -/
def paired : List Str → Option (List (Str × Str))
  | [] => some []
  | [_] => none
  | first :: second :: rest => (paired rest).map ((first, second) :: ·)

theorem paired_flat (l : List (Str × Str)) : paired (flat l) = some l := by
  induction l with
  | nil => rfl
  | cons pair rest ih =>
    show (paired (flat rest)).map _ = _
    rw [ih]
    rfl

theorem flat_paired {args : List Str} {l : List (Str × Str)} (is : paired args = some l) : args = flat l := by
  induction args using paired.induct generalizing l with
  | case1 =>
    obtain rfl := Option.some.inj is
    rfl
  | case2 => cases is
  | case3 first second rest ih =>
    obtain ⟨l', pairs, rfl⟩ := Option.map_eq_some_iff.mp is
    rw [ih pairs]
    rfl

theorem flat_front {l l' : List (Str × Str)} (front : flat l <+: flat l') : l <+: l' := by
  induction l generalizing l' with
  | nil => exact List.nil_prefix
  | cons pair rest ih =>
    cases l' with
    | nil => exact absurd (List.prefix_nil.mp front) (List.cons_ne_nil _ _)
    | cons pair' rest' =>
      obtain ⟨first, front⟩ := List.cons_prefix_cons.mp front
      obtain ⟨second, front⟩ := List.cons_prefix_cons.mp front
      rw [Prod.ext first second]
      exact List.cons_prefix_cons.mpr ⟨rfl, ih front⟩

theorem length_flat (l : List (Str × Str)) : (flat l).length = 2 * l.length := by
  induction l with
  | nil => rfl
  | cons pair rest ih =>
    show (flat rest).length + 2 = _
    rw [ih, List.length_cons]
    omega

/-! ### A string or nil for each key -/

private theorem decode_bulk_from {keys : List Str} (f : StringMap) {given : List Str} {i : Nat} (front : given <+: keys.drop i)
    (m : StringMap) {n : Int} (room : n + given.length ≤ 2 ^ 31 - 1) :
    recv_string_map_from keys (given.map fun key => bulk (f key)) i m n =
      .ok (n + (given.filter fun key => (f key).isSome).length, overriding (restricted f given) m) := by
  induction given generalizing i m n with
  | nil => simp [recv_string_map_from, restricted_nil, overriding_none]
  | cons key rest ih =>
    obtain ⟨back, is⟩ := front
    have at_i : keys[i]? = some key := by
      rw [← Nat.add_zero i, ← List.getElem?_drop, ← is]
      rfl
    have front : rest <+: keys.drop (i + 1) := by
      rw [← List.drop_drop, ← is]
      exact List.prefix_append _ _
    rw [List.length_cons] at room
    push_cast at room
    cases found : f key with
    | none =>
      have counted : (key :: rest).filter (fun key => (f key).isSome) = rest.filter fun key => (f key).isSome :=
        List.filter_cons_of_neg (by simp [found])
      rw [List.map_cons, found, counted, restricted_cons_none found]
      exact ih front m (by omega)
    | some value =>
      have counted : (key :: rest).filter (fun key => (f key).isSome) = key :: rest.filter fun key => (f key).isSome :=
        List.filter_cons_of_pos (by simp [found])
      rw [List.map_cons, found, counted, restricted_cons_some found, List.length_cons]
      simp only [bulk, recv_string_map_from, at_i, bump_room (show n < 2 ^ 31 - 1 by omega)]
      refine (ih front _ (by omega)).trans (congrArg Except.ok (Prod.ext ?_ rfl))
      push_cast
      omega

/-- The keys for which there is a string have it, and are counted. -/
theorem decode_bulk {keys given : List Str} (f : StringMap) (front : given <+: keys) (short : given.length + 1 < 2 ^ 31) :
    recv_string_map_reply (.array (given.map fun key => bulk (f key))) keys =
      .ok (((given.filter fun key => (f key).isSome).length : Int), restricted f given) := by
  show recv_string_map_from keys _ 0 _ 0 = _
  rw [decode_bulk_from f (by simpa using front) _ (by omega)]
  rw [zero_add, overriding_nothing]

end CppRedis.Exchanges

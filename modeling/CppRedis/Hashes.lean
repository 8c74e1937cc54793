import CppRedis.Exchanges

/-!
`hmset`, `hgetall` and `hmget` against a server that keeps hashes and lists them in
any order. `agree_iff` says when the three agree on what a hash is.
-/
namespace CppRedis.Hashes
open CppRedis.Strings CppRedis.Reply CppRedis.Connection CppRedis.Clients CppRedis.Decoders CppRedis.Requests
open CppRedis.Methods CppRedis.Tables CppRedis.Exchanges
open CppRedis.Lists (wrongArguments okReply bulk)

/-! ### The server -/

/-- A key that is not there has the empty hash. -/
abbrev Store := Str → Table Str Str

namespace Server

def hmset (args : List Str) (s : Store) : RedisReply × Store :=
  match args with
  | [] => (wrongArguments, s)
  | key :: rest =>
    match paired rest with
    | none => (wrongArguments, s)
    | some [] => (wrongArguments, s)
    | some (pair :: rest) => (okReply, Function.update s key (insertAll (s key) (pair :: rest)))

def hmget (args : List Str) (s : Store) : RedisReply × Store :=
  match args with
  | [] => (wrongArguments, s)
  | [_] => (wrongArguments, s)
  | key :: field :: rest => (.array ((field :: rest).map fun name => bulk (contents (s key) name)), s)

/-- Fields and values alternate. -/
def hgetall (order : Order Str Str) (args : List Str) (s : Store) : RedisReply × Store :=
  match args with
  | [key] => (.array ((flat (pairs (order.arrange (s key)))).map .string), s)
  | _ => (wrongArguments, s)

end Server

/-- A request without arguments is passed over. -/
def exec (order : Order Str Str) : RedisCmd → Store → Option (RedisReply × Store)
  | [], _ => none
  | name :: args, s =>
    if name = lit "HMSET" then some (Server.hmset args s)
    else if name = lit "HMGET" then some (Server.hmget args s)
    else if name = lit "HGETALL" then some (Server.hgetall order args s)
    else some (.error (lit "ERR unknown command"), s)

/-! ### What the methods return -/

/-- The pairs are put into the map in order, unless there are more than an `int` can
    count. -/
private theorem recv_pairs_from (reply : RedisReply) (l : List (Str × Str)) (h : StringMap) {n : Int} (small : n < 2 ^ 31) :
    recv_string_pairs_from reply ((flat l).map .string) h n =
      if n + l.length < 2 ^ 31 then .ok (n + l.length, assigned h l) else .error .undefined := by
  induction l generalizing h n with
  | nil =>
    rw [List.length_nil, Int.natCast_zero, Int.add_zero, if_pos small]
    rfl
  | cons pair rest ih =>
    show (bump n).bind (fun n => recv_string_pairs_from reply ((flat rest).map .string) _ n) = _
    rw [List.length_cons]
    push_cast
    by_cases room : n < 2 ^ 31 - 1
    · rw [bump_room room]
      refine (ih _ (by omega)).trans ?_
      rw [Int.add_assoc, Int.add_comm 1]
      rfl
    · rw [bump_full room, if_neg (by omega)]
      rfl

theorem hgetall_returns {order : Order Str Str} {key : Str} {s s' : Store} {v : Value} :
    answer (exec order) (.hgetall key) s = some (.ok v, s') ↔
      Sendable [lit "HGETALL", key] ∧ 2 * (pairs (s key)).length < 2 ^ 31 ∧ s' = s ∧
        v = .map (pairs (s key)).length (contents (s key)) := by
  have size : ((flat (pairs (order.arrange (s key)))).map RedisReply.string).length = 2 * (pairs (s key)).length := by
    rw [List.length_map, length_flat, order.length_arrange]
  have decodes : (received (.array ((flat (pairs (order.arrange (s key)))).map .string))).bind Decoder.pairs.decode =
      if 2 * (pairs (s key)).length < 2 ^ 31 then .ok (.map (pairs (s key)).length (contents (s key)))
      else .error .undefined := by
    by_cases few : 2 * (pairs (s key)).length < 2 ^ 31
    · rw [received_array (size ▸ few), if_pos few]
      show Decoder.pairs.decode _ = _
      rw [Decoder.decode, recv_string_hash_map_reply, recv_pairs_from _ _ _ (by decide), assigned_pairs, overriding_nothing,
        order.contents_arrange, order.length_arrange, zero_add, if_pos (by omega)]
      rfl
    · rw [received, if_neg (size ▸ few), if_neg few]
      rfl
  have run : exec order [lit "HGETALL", key] s = some (Server.hgetall order [key] s) := rfl
  rw [answer_small (fun _ => rfl) rfl (show [key].length + 1 < 2 ^ 31 by simp), run]
  constructor
  · rintro ⟨sendable, reply, executed, decoded⟩
    cases executed
    rw [decodes, counted_iff] at decoded
    exact ⟨sendable, decoded.1, rfl, decoded.2⟩
  · rintro ⟨sendable, few, rfl, rfl⟩
    exact ⟨sendable, _, rfl, decodes.trans (if_pos few)⟩

/-- `hmset` returns true exactly if the key and pairs are handed over and sent. -/
theorem hmset_returns {order : Order Str Str} {key : Str} {l : List (Str × Str)} {s s' : Store} :
    answer (exec order) (.hmset key l) s = some (.ok (.bool true), s') ↔
      ∃ sent, Given "HMSET" (key :: flat l) (key :: flat sent) ∧ sent ≠ [] ∧
        s' = Function.update s key (insertAll (s key) sent) := by
  rw [answer_send (fun _ => rfl) rfl]
  constructor
  · rintro ⟨given, reply, handed_over, executed, decoded⟩
    have run : Server.hmset given s = (reply, s') := Option.some.inj executed
    unfold Server.hmset at run
    split at run
    · cases run
      cases decoded
    · rename_i first rest
      obtain rfl := (List.cons_prefix_cons.mp handed_over.isPrefix).1
      split at run
      · cases run
        cases decoded
      · cases run
        cases decoded
      · rename_i pair rest pairs
        cases run
        rw [flat_paired pairs] at handed_over
        exact ⟨pair :: rest, handed_over, List.cons_ne_nil _ _, rfl⟩
  · rintro ⟨sent, handed_over, some_sent, rfl⟩
    obtain ⟨pair, rest, rfl⟩ := List.exists_cons_of_ne_nil some_sent
    refine ⟨_, okReply, handed_over, ?_, rfl⟩
    show some (Server.hmset (key :: flat (pair :: rest)) s) = _
    simp only [Server.hmset, paired_flat]

/-- What `hmget` returns for the fields that are handed over. -/
theorem hmget_returns {order : Order Str Str} {key : Str} {fields : List Str} {s s' : Store} {v : Value} :
    answer (exec order) (.hmget key fields) s = some (.ok v, s') ↔
      ∃ given, Given "HMGET" (key :: fields) (key :: given) ∧ given ≠ [] ∧ s' = s ∧
        v = .map (given.filter fun field => (contents (s key) field).isSome).length (restricted (contents (s key)) given) := by
  have decodes : ∀ {given}, Given "HMGET" (key :: fields) (key :: given) →
      (received (.array (given.map fun field => bulk (contents (s key) field)))).bind (Decoder.fields fields).decode =
        .ok (.map (given.filter fun field => (contents (s key) field).isSome).length (restricted (contents (s key)) given)) := by
    intro given handed_over
    have short := handed_over.short
    rw [List.length_cons] at short
    rw [received_array (by rw [List.length_map]; omega)]
    show (Decoder.fields fields).decode _ = _
    rw [Decoder.decode, decode_bulk (contents (s key)) (List.cons_prefix_cons.mp handed_over.isPrefix).2 (by omega)]
    rfl
  rw [answer_send (fun _ => rfl) rfl]
  constructor
  · rintro ⟨given, reply, handed_over, executed, decoded⟩
    have run : Server.hmget given s = (reply, s') := Option.some.inj executed
    unfold Server.hmget at run
    split at run
    · cases run
      cases decoded
    · cases run
      cases decoded
    · rename_i first field rest
      obtain rfl := (List.cons_prefix_cons.mp handed_over.isPrefix).1
      cases run
      exact ⟨field :: rest, handed_over, List.cons_ne_nil _ _, rfl, Except.ok.inj (decoded.symm.trans (decodes handed_over))⟩
  · rintro ⟨given, handed_over, some_given, rfl, rfl⟩
    refine ⟨_, _, handed_over, ?_, decodes handed_over⟩
    obtain ⟨field, rest, rfl⟩ := List.exists_cons_of_ne_nil some_given
    rfl

/-! ### One after the other -/

/-- After `hmset`, `hgetall` gives the hash before with what was set, and `hmget` what
    of it stands under the fields, in whatever order the server lists the hash. -/
def Agree (s : Store) (key : Str) (h : Table Str Str) (fs : List Str) : Prop :=
  ∀ order, ∃ s' n g n' r, answer (exec order) (.hmset key (pairs h)) s = some (.ok (.bool true), s') ∧
    answer (exec order) (.hgetall key) s' = some (.ok (.map n g), s') ∧ g = overriding (contents h) (contents (s key)) ∧
    answer (exec order) (.hmget key fs) s' = some (.ok (.map n' r), s') ∧ r = restricted g fs

/-- The pairs and the fields that are handed over are enough, as a pair that is left out
    is in the hash already and a field that is left out is not; all three commands can be
    sent, and an `int` can count the fields and values of the hash. -/
structure Enough (s : Store) (key : Str) (h : Table Str Str) (fs : List Str) (sent : List (Str × Str)) (given : List Str) :
    Prop where
  sends : Given "HMSET" (key :: flat (pairs h)) (key :: flat sent)
  some_sent : sent ≠ []
  unsent : ∀ field value, (field, value) ∈ pairs h → (field, value) ∉ sent → contents (s key) field = some value
  lists : Sendable [lit "HGETALL", key]
  countable : 2 * (pairs (h ∪ s key)).length < 2 ^ 31
  asks : Given "HMGET" (key :: fs) (key :: given)
  some_given : given ≠ []
  unasked : ∀ field ∈ fs, field ∉ given → field ∉ h ∧ field ∉ s key

/-- The hash afterwards is what it has to be exactly if each pair that is left out was
    in it. -/
private theorem set_iff {s : Store} {key : Str} {h : Table Str Str} {sent : List (Str × Str)}
    (sends : Given "HMSET" (key :: flat (pairs h)) (key :: flat sent)) :
    contents (insertAll (s key) sent) = overriding (contents h) (contents (s key)) ↔
      ∀ field value, (field, value) ∈ pairs h → (field, value) ∉ sent → contents (s key) field = some value := by
  have part := (flat_front (List.cons_prefix_cons.mp sends.isPrefix).2).sublist
  rw [contents_insertAll, funext_iff]
  exact forall_congr' fun field => assigned_part part (contents (s key)) field

/-- The fields that are asked for are enough exactly if the others are not in the hash. -/
private theorem got_iff {s : Store} {key : Str} {h : Table Str Str} {fs given : List Str}
    (asks : Given "HMGET" (key :: fs) (key :: given)) :
    restricted (overriding (contents h) (contents (s key))) given =
        restricted (overriding (contents h) (contents (s key))) fs ↔
      ∀ field ∈ fs, field ∉ given → field ∉ h ∧ field ∉ s key := by
  have within := (List.cons_prefix_cons.mp asks.isPrefix).2
  rw [restricted_part fun field member => within.subset member]
  simp only [overriding, Option.or_eq_none_iff, contents_eq_none, implies_true, true_and]

theorem Enough.agree {s : Store} {key : Str} {h : Table Str Str} {fs given : List Str} {sent : List (Str × Str)}
    (enough : Enough s key h fs sent given) : Agree s key h fs := by
  intro order
  have whole := (set_iff enough.sends).mpr enough.unsent
  have same := whole.trans (contents_union h (s key)).symm
  refine ⟨Function.update s key (insertAll (s key) sent), _, _, _, _,
    hmset_returns.mpr ⟨sent, enough.sends, enough.some_sent, rfl⟩, hgetall_returns.mpr ⟨enough.lists, ?_, rfl, rfl⟩, ?_,
    hmget_returns.mpr ⟨given, enough.asks, enough.some_given, rfl, rfl⟩, ?_⟩ <;> rw [Function.update_self]
  · exact length_eq_of_contents same ▸ enough.countable
  · exact whole
  · rw [whole]
    exact (got_iff enough.asks).mpr enough.unasked

/-- The three methods agree exactly if what is handed over is enough. -/
theorem agree_iff (s : Store) (key : Str) (h : Table Str Str) (fs : List Str) :
    Agree s key h fs ↔ ∃ sent given, Enough s key h fs sent given := by
  constructor
  · intro agree
    obtain ⟨s', n, g, n', r, sets, gets, whole, finds, is⟩ := agree default
    obtain ⟨sent, sends, some_sent, rfl⟩ := hmset_returns.mp sets
    obtain ⟨lists, few, _, listed⟩ := hgetall_returns.mp gets
    obtain ⟨given, asks, some_given, _, found⟩ := hmget_returns.mp finds
    obtain ⟨_, rfl⟩ := Value.map.inj listed
    obtain ⟨_, rfl⟩ := Value.map.inj found
    rw [Function.update_self] at few whole is
    rw [whole] at is
    have same := whole.trans (contents_union h (s key)).symm
    exact ⟨sent, given, sends, some_sent, (set_iff sends).mp whole, lists, length_eq_of_contents same ▸ few, asks, some_given,
      (got_iff asks).mp is⟩
  · rintro ⟨sent, given, enough⟩
    exact enough.agree

/-- Where the whole commands can be sent, everything is handed over. -/
theorem agree {s : Store} {key : Str} {h : Table Str Str} {fs : List Str} (sets : h ≠ ∅) (asks : fs ≠ [])
    (set_sent : Sendable (lit "HMSET" :: key :: flat (pairs h))) (all_sent : Sendable [lit "HGETALL", key])
    (get_sent : Sendable (lit "HMGET" :: key :: fs)) (few : 2 * (pairs (h ∪ s key)).length < 2 ^ 31) : Agree s key h fs := by
  have enough : Enough s key h fs (pairs h) fs :=
    { sends := given_all set_sent
      some_sent := fun empty => sets (AList.ext (List.map_eq_nil_iff.mp empty))
      unsent := fun _ _ member left => absurd member left
      lists := all_sent
      countable := few
      asks := given_all get_sent
      some_given := asks
      unasked := fun _ member left => absurd member left }
  exact enough.agree

/-- So many fields cannot be asked for. -/
theorem too_many_fields_not_got :
    ¬ Agree (fun _ => ∅) (lit "k") (AList.singleton (lit "a") (lit "1")) (List.replicate (2 ^ 31) (lit "a")) := by
  have long : (List.replicate (2 ^ 31) (lit "a")).length = 2 ^ 31 := List.length_replicate
  generalize List.replicate (2 ^ 31) (lit "a") = fs at long ⊢
  intro agree
  obtain ⟨s', n, g, n', r, _, _, _, finds, _⟩ := agree default
  obtain ⟨given, asks, _⟩ := hmget_returns.mp finds
  exact not_given (by rw [List.length_cons]; omega) (by rw [List.length_cons]; omega) asks

end CppRedis.Hashes

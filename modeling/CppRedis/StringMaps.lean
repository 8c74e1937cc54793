import CppRedis.Exchanges

/-!
`mset` and `mget` against a server that keeps strings and other things.
`round_trip_iff` says when `mget` finds what `mset` has stored, and what was stored
before.
-/
namespace CppRedis.StringMaps
open CppRedis.Strings CppRedis.Reply CppRedis.Connection CppRedis.Clients CppRedis.Decoders CppRedis.Requests
open CppRedis.Methods CppRedis.Tables CppRedis.Exchanges
open CppRedis.Lists (wrongArguments okReply bulk)

/-! ### The server -/

/-- What is kept under a key. -/
inductive Object (Other : Type)
  | string (value : Str)
  | other (content : Other)

abbrev Store (Other : Type) := Str → Option (Object Other)

variable {Other : Type}

def strings (s : Store Other) : StringMap := fun key =>
  match s key with
  | some (.string value) => some value
  | some (.other _) => none
  | none => none

/-- The strings are stored in order, whatever was kept under their keys. -/
def stored (s : Store Other) (l : List (Str × Str)) : Store Other :=
  l.foldl (fun s (key, value) => Function.update s key (some (.string value))) s

namespace Server

def mset (args : List Str) (s : Store Other) : RedisReply × Store Other :=
  match paired args with
  | none => (wrongArguments, s)
  | some [] => (wrongArguments, s)
  | some (pair :: rest) => (okReply, stored s (pair :: rest))

def mget (keys : List Str) (s : Store Other) : RedisReply × Store Other :=
  if keys = [] then (wrongArguments, s) else (.array (keys.map fun key => bulk (strings s key)), s)

end Server

/-- A request without arguments is passed over. -/
def exec : RedisCmd → Store Other → Option (RedisReply × Store Other)
  | [], _ => none
  | name :: args, s =>
    if name = lit "MSET" then some (Server.mset args s)
    else if name = lit "MGET" then some (Server.mget args s)
    else some (.error (lit "ERR unknown command"), s)

/-! ### What the methods return -/

theorem strings_stored (s : Store Other) (l : List (Str × Str)) : strings (stored s l) = assigned (strings s) l := by
  induction l generalizing s with
  | nil => rfl
  | cons pair rest ih =>
    have one : strings (Function.update s pair.1 (some (.string pair.2))) =
        Function.update (strings s) pair.1 (some pair.2) := by
      funext key
      by_cases same : key = pair.1
      · subst same
        simp only [strings, Function.update_self]
      · simp only [strings, Function.update_of_ne same]
    refine (ih _).trans ?_
    rw [one]
    rfl

/-- `mset` returns true exactly if pairs are handed over and sent. -/
theorem mset_returns {l : List (Str × Str)} {s s' : Store Other} :
    answer exec (.mset l) s = some (.ok (.bool true), s') ↔
      ∃ sent, Given "MSET" (flat l) (flat sent) ∧ sent ≠ [] ∧ s' = stored s sent := by
  rw [answer_send (fun _ => rfl) rfl]
  constructor
  · rintro ⟨given, reply, handed_over, executed, decoded⟩
    have run : Server.mset given s = (reply, s') := Option.some.inj executed
    unfold Server.mset at run
    split at run
    · cases run
      cases decoded
    · cases run
      cases decoded
    · rename_i pair rest pairs
      cases run
      rw [flat_paired pairs] at handed_over
      exact ⟨pair :: rest, handed_over, List.cons_ne_nil _ _, rfl⟩
  · rintro ⟨sent, handed_over, some_sent, rfl⟩
    obtain ⟨pair, rest, rfl⟩ := List.exists_cons_of_ne_nil some_sent
    refine ⟨_, okReply, handed_over, ?_, rfl⟩
    show some (Server.mset (flat (pair :: rest)) s) = _
    rw [Server.mset, paired_flat]

/-- What `mget` returns for the keys that are handed over. -/
theorem mget_returns {keys : List Str} {s s' : Store Other} {v : Value} :
    answer exec (.mget keys) s = some (.ok v, s') ↔
      ∃ given, Given "MGET" keys given ∧ given ≠ [] ∧ s' = s ∧
        v = .map (given.filter fun key => (strings s key).isSome).length (restricted (strings s) given) := by
  rw [answer_send (fun _ => rfl) rfl]
  have decodes : ∀ {given}, Given "MGET" keys given →
      (received (.array (given.map fun key => bulk (strings s key)))).bind (Decoder.map keys).decode =
        .ok (.map (given.filter fun key => (strings s key).isSome).length (restricted (strings s) given)) := by
    intro given handed_over
    have short := handed_over.short
    rw [received_array (by rw [List.length_map]; omega)]
    show (Decoder.map keys).decode _ = _
    rw [Decoder.decode, decode_bulk (strings s) handed_over.isPrefix handed_over.short]
    rfl
  constructor
  · rintro ⟨given, reply, handed_over, executed, decoded⟩
    have run : Server.mget given s = (reply, s') := Option.some.inj executed
    unfold Server.mget at run
    by_cases empty : given = []
    · rw [if_pos empty] at run
      cases run
      cases decoded
    · rw [if_neg empty] at run
      cases run
      exact ⟨given, handed_over, empty, rfl, Except.ok.inj (decoded.symm.trans (decodes handed_over))⟩
  · rintro ⟨given, handed_over, some_given, rfl, rfl⟩
    refine ⟨given, _, handed_over, ?_, decodes handed_over⟩
    show some (Server.mget given s') = _
    rw [Server.mget, if_neg some_given]

/-! ### One after the other -/

/-- After `mset`, `mget` gives what stands under the keys in the map, or in the store
    before where the map has nothing; and the map itself, if the keys are its keys. -/
def RoundTrip (s : Store Other) (m : Table Str Str) (ks : List Str) : Prop :=
  ∃ s' n r, answer exec (.mset (pairs m)) s = some (.ok (.bool true), s') ∧
    answer exec (.mget ks) s' = some (.ok (.map n r), s') ∧
    r = restricted (overriding (contents m) (strings s)) ks ∧
    (ks.Perm m.keys → r = contents m ∧ n = (pairs m).length)

/-- The pairs and the keys that are handed over are enough: a pair that is left out but
    asked for is already stored, and there is nothing under a key that is left out. -/
structure Enough (s : Store Other) (m : Table Str Str) (ks : List Str) (sent : List (Str × Str)) (given : List Str) :
    Prop where
  sends : Given "MSET" (flat (pairs m)) (flat sent)
  some_sent : sent ≠ []
  asks : Given "MGET" ks given
  some_given : given ≠ []
  unsent : ∀ key ∈ given, ∀ value, (key, value) ∈ pairs m → (key, value) ∉ sent → strings s key = some value
  unasked : ∀ key ∈ ks, key ∉ given → key ∉ m ∧ strings s key = none

private theorem overriding_eq_none {m : Table Str Str} {base : StringMap} {key : Str} :
    overriding (contents m) base key = none ↔ key ∉ m ∧ base key = none := by
  rw [overriding, Option.or_eq_none_iff, contents_eq_none]

/-- The keys of the map, in any order. -/
private theorem restricted_keys {m : Table Str Str} {ks : List Str} (same : ks.Perm m.keys) (base : StringMap) :
    restricted (overriding (contents m) base) ks = contents m := by
  funext key
  by_cases member : key ∈ m
  · obtain ⟨value, stands⟩ := Option.isSome_iff_exists.mp (AList.lookup_isSome.mpr member)
    have stands : contents m key = some value := stands
    rw [restricted, if_pos (same.mem_iff.mpr (AList.mem_keys.mp member)), overriding, stands, Option.some_or]
  · rw [restricted, if_neg fun inside => member (AList.mem_keys.mpr (same.mem_iff.mp inside)), contents_eq_none.mpr member]

/-- What is found is what is asked for exactly if what is handed over is enough. -/
private theorem found_iff {s : Store Other} {m : Table Str Str} {ks given : List Str} {sent : List (Str × Str)}
    (sends : Given "MSET" (flat (pairs m)) (flat sent)) (asks : Given "MGET" ks given) :
    restricted (strings (stored s sent)) given = restricted (overriding (contents m) (strings s)) ks ↔
      (∀ key ∈ given, ∀ value, (key, value) ∈ pairs m → (key, value) ∉ sent → strings s key = some value) ∧
        ∀ key ∈ ks, key ∉ given → key ∉ m ∧ strings s key = none := by
  rw [strings_stored, restricted_part fun key member => asks.isPrefix.subset member]
  have part := (flat_front sends.isPrefix).sublist
  simp only [assigned_part part, overriding_eq_none]

/-- None of the map's keys can be left out. -/
private theorem given_eq {s : Store Other} {m : Table Str Str} {ks given : List Str} {sent : List (Str × Str)}
    (enough : Enough s m ks sent given) (same : ks.Perm m.keys) : given = ks := by
  obtain ⟨rest, is⟩ := enough.asks.isPrefix
  cases rest with
  | nil => rw [← is, List.append_nil]
  | cons key rest =>
    have distinct : (given ++ key :: rest).Nodup := is ▸ same.nodup_iff.mpr m.keys_nodup
    have member : key ∈ ks := is ▸ List.mem_append_right given List.mem_cons_self
    have left : key ∉ given := fun inside => (List.nodup_append.mp distinct).2.2 key inside key List.mem_cons_self rfl
    exact absurd (AList.mem_keys.mpr (same.mem_iff.mp member)) (enough.unasked key member left).1

/-- All of the map's keys are counted. -/
private theorem count_keys {m : Table Str Str} {ks : List Str} {now : StringMap} (same : ks.Perm m.keys)
    (found : restricted now ks = contents m) : (ks.filter fun key => (now key).isSome).length = (pairs m).length := by
  have all : ks.filter (fun key => (now key).isSome) = ks := by
    rw [List.filter_eq_self]
    intro key member
    have here := congrFun found key
    rw [restricted, if_pos member] at here
    rw [here]
    exact AList.lookup_isSome.mpr (AList.mem_keys.mpr (same.mem_iff.mp member))
  rw [all, same.length_eq, length_pairs]
  exact List.length_map _

theorem Enough.round_trip {s : Store Other} {m : Table Str Str} {ks given : List Str} {sent : List (Str × Str)}
    (enough : Enough s m ks sent given) : RoundTrip s m ks := by
  have found := (found_iff enough.sends enough.asks).mpr ⟨enough.unsent, enough.unasked⟩
  refine ⟨stored s sent, _, _, mset_returns.mpr ⟨sent, enough.sends, enough.some_sent, rfl⟩,
    mget_returns.mpr ⟨given, enough.asks, enough.some_given, rfl, rfl⟩, found, ?_⟩
  intro same
  have whole := found.trans (restricted_keys same (strings s))
  refine ⟨whole, congrArg Int.ofNat ?_⟩
  obtain rfl := given_eq enough same
  exact count_keys same whole

/-- `mget` finds what `mset` has stored exactly if what is handed over is enough. -/
theorem round_trip_iff (s : Store Other) (m : Table Str Str) (ks : List Str) :
    RoundTrip s m ks ↔ ∃ sent given, Enough s m ks sent given := by
  constructor
  · rintro ⟨s', n, r, stores, finds, is, _⟩
    obtain ⟨sent, sends, some_sent, rfl⟩ := mset_returns.mp stores
    obtain ⟨given, asks, some_given, _, found⟩ := mget_returns.mp finds
    obtain ⟨_, rfl⟩ := Value.map.inj found
    obtain ⟨unsent, unasked⟩ := (found_iff sends asks).mp is
    exact ⟨sent, given, sends, some_sent, asks, some_given, unsent, unasked⟩
  · rintro ⟨sent, given, enough⟩
    exact enough.round_trip

/-- Where the whole commands can be sent, everything is handed over. -/
theorem round_trip {m : Table Str Str} {ks : List Str} (stores : m ≠ ∅) (asks : ks ≠ [])
    (set_sent : Sendable (lit "MSET" :: flat (pairs m))) (get_sent : Sendable (lit "MGET" :: ks)) (s : Store Other) :
    RoundTrip s m ks := by
  have enough : Enough s m ks (pairs m) ks :=
    { sends := given_all set_sent
      some_sent := fun empty => stores (AList.ext (List.map_eq_nil_iff.mp empty))
      asks := given_all get_sent
      some_given := asks
      unsent := fun _ _ _ member left => absurd member left
      unasked := fun _ member left => absurd member left }
  exact enough.round_trip

/-- So many keys cannot be asked for. -/
theorem too_many_keys_not_got :
    ¬ RoundTrip ((fun _ => none) : Store Unit) (AList.singleton (lit "a") (lit "1")) (List.replicate (2 ^ 31) (lit "a")) := by
  have long : (List.replicate (2 ^ 31) (lit "a")).length = 2 ^ 31 := List.length_replicate
  generalize List.replicate (2 ^ 31) (lit "a") = ks at long ⊢
  rintro ⟨s', n, r, _, finds, _⟩
  obtain ⟨given, asks, _⟩ := mget_returns.mp finds
  exact not_given (by omega) (by omega) asks

end CppRedis.StringMaps

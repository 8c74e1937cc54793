import Mathlib.Data.Set.Lattice
import Mathlib.Data.Finset.Card
import CppRedis.Exchanges

/-!
Differences, intersections and unions of sets, against a server that keeps sets and
lists their members in any order. `agrees_iff` says when the methods that return such
a set, those that store it and `smembers` agree.
-/
namespace CppRedis.Sets
open CppRedis.Strings CppRedis.Reply CppRedis.Connection CppRedis.Clients CppRedis.Decoders CppRedis.Requests
open CppRedis.Methods CppRedis.Exchanges
open CppRedis.Lists (wrongArguments)

/-! ### The operations -/

/-- A key that is not there has the empty set. -/
abbrev Store := Str → Finset Str

inductive SetOp
  | diff
  | inter
  | union

namespace SetOp

/-- What the operation means for the sets of a first key and of the others. -/
def means (s : Store) (first : Str) (rest : List Str) : SetOp → Set Str
  | .diff => {x | x ∈ s first ∧ ∀ key ∈ rest, x ∉ s key}
  | .inter => ⋂ key ∈ first :: rest, (s key : Set Str)
  | .union => ⋃ key ∈ first :: rest, (s key : Set Str)

def apply (acc members : Finset Str) : SetOp → Finset Str
  | .diff => acc \ members
  | .inter => acc ∩ members
  | .union => acc ∪ members

/-- How the server computes it. -/
def combine (op : SetOp) (s : Store) : List Str → Finset Str
  | [] => ∅
  | first :: rest => rest.foldl (fun acc key => op.apply acc (s key)) (s first)

def name : SetOp → String
  | .diff => "SDIFF"
  | .inter => "SINTER"
  | .union => "SUNION"

def storeName : SetOp → String
  | .diff => "SDIFFSTORE"
  | .inter => "SINTERSTORE"
  | .union => "SUNIONSTORE"

end SetOp

/-! ### The server -/

/-- The orders in which members are listed. -/
structure Listing (α : Type) where
  list : Finset α → List α
  same : ∀ s, (list s : Multiset α) = s.val

noncomputable instance {α : Type} : Inhabited (Listing α) := ⟨Finset.toList, Finset.coe_toList⟩

namespace Server

def query (op : SetOp) (listing : Listing Str) (keys : List Str) (s : Store) : RedisReply × Store :=
  if keys = [] then (wrongArguments, s) else (.array ((listing.list (op.combine s keys)).map .string), s)

def store (op : SetOp) (args : List Str) (s : Store) : RedisReply × Store :=
  match args with
  | [] => (wrongArguments, s)
  | [_] => (wrongArguments, s)
  | destination :: key :: rest =>
    (.integer (op.combine s (key :: rest)).card, Function.update s destination (op.combine s (key :: rest)))

def smembers (listing : Listing Str) (args : List Str) (s : Store) : RedisReply × Store :=
  match args with
  | [key] => (.array ((listing.list (s key)).map .string), s)
  | _ => (wrongArguments, s)

end Server

/-- A request without arguments is passed over. -/
def exec (listing : Listing Str) : RedisCmd → Store → Option (RedisReply × Store)
  | [], _ => none
  | name :: args, s =>
    if name = lit "SDIFF" then some (Server.query .diff listing args s)
    else if name = lit "SINTER" then some (Server.query .inter listing args s)
    else if name = lit "SUNION" then some (Server.query .union listing args s)
    else if name = lit "SDIFFSTORE" then some (Server.store .diff args s)
    else if name = lit "SINTERSTORE" then some (Server.store .inter args s)
    else if name = lit "SUNIONSTORE" then some (Server.store .union args s)
    else if name = lit "SMEMBERS" then some (Server.smembers listing args s)
    else some (.error (lit "ERR unknown command"), s)

theorem exec_query (op : SetOp) (listing : Listing Str) (args : List Str) (s : Store) :
    exec listing (lit op.name :: args) s = some (Server.query op listing args s) := by
  cases op <;> rfl

theorem exec_store (op : SetOp) (listing : Listing Str) (args : List Str) (s : Store) :
    exec listing (lit op.storeName :: args) s = some (Server.store op args s) := by
  cases op <;> rfl

/-! ### The methods -/

/-- The overloads that collect their arguments in a `string_array`. -/
def sdiff_args (args : List Str) : Command := .sdiff args
def sinter_args (args : List Str) : Command := .sinter args
def sunion_args (args : List Str) : Command := .sunion args
def sdiffstore_args (destination : Str) (args : List Str) : Command := .sdiffstore destination args
def sinterstore_args (destination : Str) (args : List Str) : Command := .sinterstore destination args
def sunionstore_args (destination : Str) (args : List Str) : Command := .sunionstore destination args

namespace SetOp

def query (keys : List Str) : SetOp → Command
  | .diff => .sdiff keys
  | .inter => .sinter keys
  | .union => .sunion keys

def query_args (args : List Str) : SetOp → Command
  | .diff => sdiff_args args
  | .inter => sinter_args args
  | .union => sunion_args args

def store (destination : Str) (keys : List Str) : SetOp → Command
  | .diff => .sdiffstore destination keys
  | .inter => .sinterstore destination keys
  | .union => .sunionstore destination keys

def store_args (destination : Str) (args : List Str) : SetOp → Command
  | .diff => sdiffstore_args destination args
  | .inter => sinterstore_args destination args
  | .union => sunionstore_args destination args

theorem query_call (op : SetOp) (first : Str) (rest : List Str) :
    (op.query (first :: rest)).call = send op.name (first :: rest) .set := by
  have sends : ∀ name, setOperation name (first :: rest) = send name (first :: rest) .set :=
    fun name => if_neg (List.cons_ne_nil first rest)
  cases op <;> exact sends _

theorem store_call (op : SetOp) (destination : Str) (keys : List Str) :
    (op.store destination keys).call = send op.storeName (destination :: keys) .int := by
  cases op <;> rfl

/-! ### What the operations compute -/

private theorem mem_fold (op : SetOp) (s : Store) (keys : List Str) (acc : Finset Str) (x : Str) :
    x ∈ keys.foldl (fun acc key => op.apply acc (s key)) acc ↔
      match op with
      | .diff => x ∈ acc ∧ ∀ key ∈ keys, x ∉ s key
      | .inter => x ∈ acc ∧ ∀ key ∈ keys, x ∈ s key
      | .union => x ∈ acc ∨ ∃ key ∈ keys, x ∈ s key := by
  induction keys generalizing acc with
  | nil => cases op <;> simp
  | cons key rest ih =>
    rw [List.foldl_cons, ih]
    cases op with
    | diff => simp only [apply, Finset.mem_sdiff, List.forall_mem_cons, and_assoc]
    | inter => simp only [apply, Finset.mem_inter, List.forall_mem_cons, and_assoc]
    | union => simp only [apply, Finset.mem_union, List.exists_mem_cons_iff, or_assoc]

theorem coe_combine (op : SetOp) (s : Store) (first : Str) (rest : List Str) :
    (op.combine s (first :: rest) : Set Str) = op.means s first rest := by
  ext x
  rw [combine, Finset.mem_coe, mem_fold]
  cases op with
  | diff => rfl
  | inter => simp [means]
  | union => simp [means]

/-- Further keys make no difference exactly if each of them makes none. -/
theorem combine_append (op : SetOp) (s : Store) {keys : List Str} (nonempty : keys ≠ []) (more : List Str) :
    op.combine s (keys ++ more) = op.combine s keys ↔
      ∀ key ∈ more, op.apply (op.combine s keys) (s key) = op.combine s keys := by
  obtain ⟨first, rest, rfl⟩ := List.exists_cons_of_ne_nil nonempty
  rw [List.cons_append, combine, List.foldl_append, ← combine]
  generalize op.combine s (first :: rest) = acc
  constructor
  · intro same key member
    ext x
    have here := mem_fold op s more acc x
    rw [same] at here
    cases op with
    | diff =>
      rw [apply, Finset.mem_sdiff]
      exact ⟨And.left, fun inside => ⟨inside, (here.mp inside).2 key member⟩⟩
    | inter =>
      rw [apply, Finset.mem_inter]
      exact ⟨And.left, fun inside => ⟨inside, (here.mp inside).2 key member⟩⟩
    | union =>
      rw [apply, Finset.mem_union]
      exact ⟨fun inside => inside.elim id fun inside => here.mpr (.inr ⟨key, member, inside⟩), .inl⟩
  · intro idle
    induction more with
    | nil => rfl
    | cons key rest ih =>
      rw [List.foldl_cons, idle key List.mem_cons_self]
      exact ih fun key member => idle key (List.mem_cons_of_mem _ member)

end SetOp

/-! ### What the methods return -/

theorem Listing.length_list {α : Type} (listing : Listing α) (s : Finset α) : (listing.list s).length = s.card := by
  rw [← Multiset.coe_card, listing.same]
  rfl

theorem Listing.mem_list {α : Type} (listing : Listing α) (s : Finset α) (x : α) : x ∈ listing.list s ↔ x ∈ s := by
  rw [← Multiset.mem_coe, listing.same]
  rfl

/-- The members are collected, unless there are more than an `int` can count. -/
private theorem recv_set_from (members : List Str) (s : Finset Str) {n : Int} (small : n < 2 ^ 31) :
    recv_string_set_from (members.map .string) s n =
      if n + members.length < 2 ^ 31 then .ok (n + members.length, s ∪ members.toFinset) else .error .undefined := by
  induction members generalizing s n with
  | nil =>
    rw [List.length_nil, Int.natCast_zero, Int.add_zero, if_pos small, List.toFinset_nil, Finset.union_empty]
    rfl
  | cons x rest ih =>
    show (bump n).bind (fun n => recv_string_set_from (rest.map .string) (insert x s) n) = _
    rw [List.length_cons]
    push_cast
    by_cases room : n < 2 ^ 31 - 1
    · rw [bump_room room]
      refine (ih _ (by omega)).trans ?_
      rw [Int.add_assoc, Int.add_comm 1, List.toFinset_cons, Finset.insert_union, Finset.union_insert]
      rfl
    · rw [bump_full room, if_neg (by omega)]
      rfl

/-- The set that is listed is returned, if an `int` can count it. -/
private theorem decode_listing (listing : Listing Str) (s : Finset Str) :
    (received (.array ((listing.list s).map .string))).bind Decoder.set.decode =
      if s.card < 2 ^ 31 then .ok (.set s.card s) else .error .undefined := by
  have size : ((listing.list s).map RedisReply.string).length = s.card := by rw [List.length_map, listing.length_list]
  have members : (listing.list s).toFinset = s := by
    ext x
    rw [List.mem_toFinset, listing.mem_list]
  by_cases few : s.card < 2 ^ 31
  · rw [received_array (size ▸ few), if_pos few]
    show Decoder.set.decode _ = _
    rw [Decoder.decode, recv_string_set_reply, recv_set_from _ _ (by decide), listing.length_list, members,
      Finset.empty_union, zero_add, if_pos (by exact_mod_cast few)]
    rfl
  · rw [received, if_neg (size ▸ few), if_neg few]
    rfl

theorem query_returns {op : SetOp} {listing : Listing Str} {first : Str} {rest : List Str} {s s' : Store} {v : Value} :
    answer (exec listing) (op.query (first :: rest)) s = some (.ok v, s') ↔
      ∃ given, Given op.name (first :: rest) given ∧ given ≠ [] ∧ (op.combine s given).card < 2 ^ 31 ∧ s' = s ∧
        v = .set (op.combine s given).card (op.combine s given) := by
  rw [answer_send (fun _ => rfl) (op.query_call first rest)]
  simp only [exec_query]
  constructor
  · rintro ⟨given, reply, handed_over, executed, decoded⟩
    have run := Option.some.inj executed
    unfold Server.query at run
    by_cases empty : given = []
    · rw [if_pos empty] at run
      cases run
      cases decoded
    · rw [if_neg empty] at run
      cases run
      rw [decode_listing, counted_iff] at decoded
      exact ⟨given, handed_over, empty, decoded.1, rfl, decoded.2⟩
  · rintro ⟨given, handed_over, some_given, few, rfl, rfl⟩
    refine ⟨given, _, handed_over, ?_, (decode_listing listing _).trans (if_pos few)⟩
    rw [Server.query, if_neg some_given]

theorem store_returns {op : SetOp} {listing : Listing Str} {destination : Str} {keys : List Str} {s s' : Store} {v : Value} :
    answer (exec listing) (op.store destination keys) s = some (.ok v, s') ↔
      ∃ given, Given op.storeName (destination :: keys) (destination :: given) ∧ given ≠ [] ∧
        s' = Function.update s destination (op.combine s given) ∧
        Decoder.int.decode (.integer (op.combine s given).card) = .ok v := by
  rw [answer_send (fun _ => rfl) (op.store_call destination keys)]
  simp only [exec_store]
  constructor
  · rintro ⟨given, reply, handed_over, executed, decoded⟩
    have run := Option.some.inj executed
    unfold Server.store at run
    split at run
    · cases run
      cases decoded
    · cases run
      cases decoded
    · rename_i first key rest
      obtain rfl := (List.cons_prefix_cons.mp handed_over.isPrefix).1
      cases run
      exact ⟨key :: rest, handed_over, List.cons_ne_nil _ _, rfl, decoded⟩
  · rintro ⟨given, handed_over, some_given, rfl, decoded⟩
    refine ⟨_, .integer (op.combine s given).card, handed_over, ?_, decoded⟩
    obtain ⟨key, rest, rfl⟩ := List.exists_cons_of_ne_nil some_given
    rfl

theorem smembers_returns {listing : Listing Str} {key : Str} {s s' : Store} {v : Value} :
    answer (exec listing) (.smembers key) s = some (.ok v, s') ↔
      Sendable [lit "SMEMBERS", key] ∧ (s key).card < 2 ^ 31 ∧ s' = s ∧ v = .set (s key).card (s key) := by
  have run : exec listing [lit "SMEMBERS", key] s = some (Server.smembers listing [key] s) := rfl
  rw [answer_small (fun _ => rfl) rfl (show [key].length + 1 < 2 ^ 31 by simp), run]
  constructor
  · rintro ⟨sendable, reply, executed, decoded⟩
    cases executed
    rw [decode_listing, counted_iff] at decoded
    exact ⟨sendable, decoded.1, rfl, decoded.2⟩
  · rintro ⟨sendable, few, rfl, rfl⟩
    exact ⟨sendable, _, rfl, (decode_listing listing _).trans (if_pos few)⟩

/-! ### The forms agree -/

/-- The method returns what the operation means with its size; the store form, and
    `smembers` of the destination after it, return the same; and so do the overloads.
    The server may list members in one order at one call and in another at the next. -/
structure Agrees (op : SetOp) (s : Store) (destination first : Str) (rest : List Str) : Prop where
  query : ∀ listing, ∃ n members, answer (exec listing) (op.query (first :: rest)) s = some (.ok (.set n members), s) ∧
    (members : Set Str) = op.means s first rest ∧ n = members.card
  store : ∀ listing listing', ∃ n members s',
    answer (exec listing) (op.store destination (first :: rest)) s = some (.ok (.int n), s') ∧
    answer (exec listing') (.smembers destination) s' = some (.ok (.set n members), s') ∧
    (members : Set Str) = op.means s first rest ∧ n = members.card
  query_args : ∀ listing, answer (exec listing) (op.query_args (first :: rest)) s =
    answer (exec listing) (op.query (first :: rest)) s
  store_args : ∀ listing, answer (exec listing) (op.store_args destination (first :: rest)) s =
    answer (exec listing) (op.store destination (first :: rest)) s

/-- The keys that are handed over are enough: none of those left out changes the result. -/
structure Enough (op : SetOp) (s : Store) (keys given : List Str) : Prop where
  some_given : given ≠ []
  idle : ∀ key ∈ keys.drop given.length, op.apply (op.combine s given) (s key) = op.combine s given

theorem enough_iff {op : SetOp} {s : Store} {keys given : List Str} (front : given <+: keys) (some_given : given ≠ []) :
    Enough op s keys given ↔ op.combine s keys = op.combine s given := by
  obtain ⟨more, rfl⟩ := front
  rw [op.combine_append s some_given]
  constructor
  · intro enough
    have idle := enough.idle
    rw [List.drop_left] at idle
    exact idle
  · intro idle
    refine ⟨some_given, ?_⟩
    rw [List.drop_left]
    exact idle

/-- What is handed over at a call that returns the set and at one that stores it is
    enough, all three commands can be sent, and an `int` can count the set. -/
structure AllEnough (op : SetOp) (s : Store) (destination first : Str) (rest given given' : List Str) : Prop where
  countable : (op.combine s (first :: rest)).card < 2 ^ 31
  asks : Given op.name (first :: rest) given
  enough : Enough op s (first :: rest) given
  stores : Given op.storeName (destination :: first :: rest) (destination :: given')
  enough_stored : Enough op s (first :: rest) given'
  lists : Sendable [lit "SMEMBERS", destination]

theorem AllEnough.agrees {op : SetOp} {s : Store} {destination first : Str} {rest given given' : List Str}
    (all : AllEnough op s destination first rest given given') : Agrees op s destination first rest := by
  have whole := op.coe_combine s first rest
  have few := all.countable
  have same := (enough_iff all.asks.isPrefix all.enough.some_given).mp all.enough
  have same' := (enough_iff (List.cons_prefix_cons.mp all.stores.isPrefix).2 all.enough_stored.some_given).mp all.enough_stored
  refine ⟨?_, ?_, ?_, ?_⟩
  · intro listing
    refine ⟨_, _, query_returns.mpr ⟨given, all.asks, all.enough.some_given, same ▸ few, rfl, rfl⟩, ?_, rfl⟩
    rw [← same]
    exact whole
  · intro listing listing'
    have counted : Decoder.int.decode (.integer (op.combine s given').card) = .ok (.int (op.combine s given').card) :=
      (decode_int _).mpr (by rw [← same']; omega)
    refine ⟨_, _, _, store_returns.mpr ⟨given', all.stores, all.enough_stored.some_given, rfl, counted⟩,
      smembers_returns.mpr ⟨all.lists, ?_, rfl, ?_⟩, ?_, rfl⟩
    · rw [Function.update_self, ← same']
      exact few
    · rw [Function.update_self]
    · rw [← same']
      exact whole
  · intro listing
    cases op <;> rfl
  · intro listing
    cases op <;> rfl

/-- The forms agree exactly if the keys that are handed over are enough and an `int` can
    count the result. -/
theorem agrees_iff (op : SetOp) (s : Store) (destination first : Str) (rest : List Str) :
    Agrees op s destination first rest ↔ ∃ given given', AllEnough op s destination first rest given given' := by
  have whole := op.coe_combine s first rest
  constructor
  · intro agrees
    obtain ⟨n, members, queried, means, _⟩ := agrees.query default
    obtain ⟨given, asks, some_given, few, _, is⟩ := query_returns.mp queried
    obtain ⟨_, rfl⟩ := Value.set.inj is
    obtain ⟨n, members, s', stored, lists, means', _⟩ := agrees.store default default
    obtain ⟨given', stores, some_given', rfl, _⟩ := store_returns.mp stored
    obtain ⟨sendable, _, _, is⟩ := smembers_returns.mp lists
    obtain ⟨_, rfl⟩ := Value.set.inj is
    rw [Function.update_self] at means'
    have same := Finset.coe_injective (whole.trans means.symm)
    have same' := Finset.coe_injective (whole.trans means'.symm)
    exact ⟨given, given', same ▸ few, asks, (enough_iff asks.isPrefix some_given).mpr same, stores,
      (enough_iff (List.cons_prefix_cons.mp stores.isPrefix).2 some_given').mpr same', sendable⟩
  · rintro ⟨given, given', all⟩
    exact all.agrees

/-- Where the whole commands can be sent, all keys are handed over. -/
theorem agrees {op : SetOp} {s : Store} {destination first : Str} {rest : List Str}
    (few : (op.combine s (first :: rest)).card < 2 ^ 31) (asked : Sendable (lit op.name :: first :: rest))
    (stored : Sendable (lit op.storeName :: destination :: first :: rest)) (listed : Sendable [lit "SMEMBERS", destination]) :
    Agrees op s destination first rest := by
  have enough : Enough op s (first :: rest) (first :: rest) :=
    (enough_iff List.prefix_rfl (List.cons_ne_nil first rest)).mpr rfl
  have all : AllEnough op s destination first rest (first :: rest) (first :: rest) :=
    { countable := few
      asks := given_all asked
      enough := enough
      stores := given_all stored
      enough_stored := enough
      lists := listed }
  exact all.agrees

/-- So many keys cannot be asked for. -/
theorem too_many_sets_not_combined :
    ¬ Agrees .diff (fun _ => ∅) (lit "d") (lit "a") (List.replicate (2 ^ 31) (lit "a")) := by
  have long : (List.replicate (2 ^ 31) (lit "a")).length = 2 ^ 31 := List.length_replicate
  generalize List.replicate (2 ^ 31) (lit "a") = rest at long ⊢
  intro agrees
  obtain ⟨n, members, asks, _⟩ := agrees.query default
  obtain ⟨given, handed_over, _⟩ := query_returns.mp asks
  exact not_given (by rw [List.length_cons]; omega) (by rw [List.length_cons]; omega) handed_over

end CppRedis.Sets

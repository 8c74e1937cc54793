import CppRedis.Methods

/-!
How many arguments the commands with lists have. Redis wants some before it takes the
list, and no list may be empty or, where it is one of pairs, odd. Five of the methods
look for an empty list themselves and return; `legal_iff` says of each of them when what
it sends is legal.
-/
namespace CppRedis.Arities
open CppRedis.Strings CppRedis.Reply CppRedis.Connection CppRedis.Decoders CppRedis.Requests CppRedis.Methods

/-! ### What Redis requires -/

/-- The number of arguments beside the list, and whether the list is one of pairs. -/
structure Arity where
  fixed : Nat
  paired : Bool

def arities : List (String × Arity) :=
  [("MSET", ⟨0, true⟩), ("MSETNX", ⟨0, true⟩), ("HMSET", ⟨1, true⟩),
   ("MGET", ⟨0, false⟩), ("DEL", ⟨0, false⟩), ("SDIFF", ⟨0, false⟩), ("SINTER", ⟨0, false⟩), ("SUNION", ⟨0, false⟩),
   ("SADD", ⟨1, false⟩), ("SDIFFSTORE", ⟨1, false⟩), ("SINTERSTORE", ⟨1, false⟩), ("SUNIONSTORE", ⟨1, false⟩),
   ("HMGET", ⟨1, false⟩), ("BLPOP", ⟨1, false⟩), ("LPUSH", ⟨1, false⟩), ("RPUSH", ⟨1, false⟩), ("BITOP", ⟨2, false⟩)]

def arity (name : Str) : Option Arity := (arities.find? fun entry => lit entry.1 == name).map Prod.snd

/-- So many arguments leave a list that is not empty, and of pairs if it has to be. -/
def Arity.Admits (r : Arity) (n : Int) : Prop := r.fixed < n ∧ (r.paired = true → 2 ∣ n - r.fixed)

instance (r : Arity) (n : Int) : Decidable (r.Admits n) := inferInstanceAs (Decidable (_ ∧ _))

/-- The request has a legal number of arguments. -/
def Meets : RedisCmd → Prop
  | [] => False
  | name :: args => ∃ r, arity name = some r ∧ r.Admits args.length

/-- The call returns without a request, or sends one that is legal. -/
def LegalCall : Call → Prop
  | .returns _ => True
  | .sends cmd _ => Meets cmd
  | .undefined => False
  | .throws _ => False

def Legal (m : Command) : Prop := LegalCall m.call

/-! ### What the methods send -/

/-- The methods that take a container or a variadic list. -/
def TakesList : Command → Prop
  | .mset .. | .mset_args .. | .msetnx .. | .msetnx_args .. | .mget .. | .bitop .. | .del .. | .sadd .. | .sdiff .. | .sdiffstore ..
  | .sinter .. | .sinterstore .. | .sunion .. | .sunionstore .. | .hmget .. | .hmset .. | .hmset_args .. | .blpop .. | .lpush ..
  | .rpush .. => True
  | _ => False

/-- How many of so many arguments are handed over behind the name. -/
def counted (n : Nat) : Int := int_of_size (n + 1) - 1

theorem counted_small {n : Nat} (small : n + 1 < 2 ^ 31) : counted n = n := by
  rw [counted, int_of_size_small small]
  push_cast
  ring

/-- With its fixed arguments the list makes a legal number of them. -/
def Enough (r : Arity) (list : List Str) : Prop := r.Admits (counted (r.fixed + list.length))

theorem enough_small {r : Arity} {list : List Str} (small : r.fixed + list.length + 1 < 2 ^ 31) :
    Enough r list ↔ list ≠ [] ∧ (r.paired = true → 2 ∣ list.length) := by
  rw [Enough, Arity.Admits, counted_small small, ← List.length_pos_iff]
  push_cast
  rw [add_sub_cancel_left, lt_add_iff_pos_right]
  exact and_congr (by omega) (imp_congr_right fun _ => by omega)

/-- The condition under which the method's request is legal. -/
def Fits : Command → Prop
  | .mset kv_map => Enough ⟨0, true⟩ (flat kv_map)
  | .mset_args args => Enough ⟨0, true⟩ args
  | .msetnx kv_map => Enough ⟨0, true⟩ (flat kv_map)
  | .msetnx_args args => Enough ⟨0, true⟩ args
  | .mget keys => Enough ⟨0, false⟩ keys
  | .bitop operation _ keys => keys = [] ∨ (operation ≠ .BitOp_Num ∧ Enough ⟨2, false⟩ keys)
  | .del keys => Enough ⟨0, false⟩ keys
  | .sadd _ members => members = [] ∨ Enough ⟨1, false⟩ members
  | .sdiff keys => keys = [] ∨ Enough ⟨0, false⟩ keys
  | .sdiffstore _ keys => Enough ⟨1, false⟩ keys
  | .sinter keys => keys = [] ∨ Enough ⟨0, false⟩ keys
  | .sinterstore _ keys => Enough ⟨1, false⟩ keys
  | .sunion keys => keys = [] ∨ Enough ⟨0, false⟩ keys
  | .sunionstore _ keys => Enough ⟨1, false⟩ keys
  | .hmget _ fields => Enough ⟨1, false⟩ fields
  | .hmset _ h => Enough ⟨1, true⟩ (flat h)
  | .hmset_args _ args => Enough ⟨1, true⟩ args
  | .blpop keys _ => Enough ⟨1, false⟩ keys
  | .lpush _ values => Enough ⟨1, false⟩ values
  | .rpush _ values => Enough ⟨1, false⟩ values
  | _ => False

/-- A request is legal exactly if the arguments that are handed over are. -/
private theorem send_meets {name : String} {r : Arity} (is : arity (lit name) = some r) (args : List Str) (decoder : Decoder) :
    LegalCall (send name args decoder) ↔ r.Admits (counted args.length) := by
  unfold send
  by_cases negative : int_of_size (lit name :: args).length < 0
  · rw [handed_error negative]
    refine iff_of_false id ?_
    rintro ⟨more, _⟩
    rw [List.length_cons] at negative
    unfold counted at more
    omega
  · rw [handed_ok negative]
    have inside := int_of_size_le (lit name :: args).length
    rw [List.length_cons] at negative inside ⊢
    unfold counted
    obtain ⟨k, is_k⟩ : ∃ k : Nat, int_of_size (args.length + 1) = k := ⟨_, (Int.toNat_of_nonneg (by omega)).symm⟩
    rw [is_k] at inside ⊢
    cases k with
    | zero =>
      refine iff_of_false id ?_
      rintro ⟨more, _⟩
      push_cast at more
      omega
    | succ k =>
      have taken : (args.take k).length = k := by
        rw [List.length_take]
        omega
      show (∃ r, arity (lit name) = some r ∧ r.Admits (args.take k).length) ↔ _
      rw [is, taken]
      push_cast
      rw [add_sub_cancel_right]
      simp

private theorem send_legal {name : String} {r : Arity} (is : arity (lit name) = some r) {args list : List Str}
    {decoder : Decoder} (size : args.length = r.fixed + list.length) :
    LegalCall (send name args decoder) ↔ Enough r list := by
  rw [send_meets is, size]
  rfl

/-- Where the method returns for an empty list. -/
private theorem guarded_legal {list : List Str} {v : Value} {call : Call} {fits : Prop}
    (sends : list ≠ [] → (LegalCall call ↔ fits)) :
    LegalCall (if list = [] then .returns v else call) ↔ list = [] ∨ fits := by
  by_cases empty : list = []
  · rw [if_pos empty]
    exact iff_of_true trivial (.inl empty)
  · rw [if_neg empty, sends empty]
    exact (or_iff_right empty).symm

/-- What a method that takes a list does is legal exactly if it returns for an empty one
    or the list makes a legal number of arguments. -/
theorem legal_iff (m : Command) (takes : TakesList m) : Legal m ↔ Fits m := by
  cases m with
  | mset kv_map => exact send_legal rfl (Nat.zero_add _).symm
  | mset_args args => exact send_legal rfl (Nat.zero_add _).symm
  | msetnx kv_map => exact send_legal rfl (Nat.zero_add _).symm
  | msetnx_args args => exact send_legal rfl (Nat.zero_add _).symm
  | mget keys => exact send_legal rfl (Nat.zero_add _).symm
  | del keys => exact send_legal rfl (Nat.zero_add _).symm
  | sdiffstore destination keys => exact send_legal rfl (Nat.add_comm _ _)
  | sinterstore destination keys => exact send_legal rfl (Nat.add_comm _ _)
  | sunionstore destination keys => exact send_legal rfl (Nat.add_comm _ _)
  | hmget key fields => exact send_legal rfl (Nat.add_comm _ _)
  | hmset key h => exact send_legal rfl (Nat.add_comm _ _)
  | hmset_args key args => exact send_legal rfl (Nat.add_comm _ _)
  | lpush key values => exact send_legal rfl (Nat.add_comm _ _)
  | rpush key values => exact send_legal rfl (Nat.add_comm _ _)
  | blpop keys timeout => exact send_legal rfl (by rw [List.length_append, Nat.add_comm]; rfl)
  | sadd key members => exact guarded_legal fun _ => send_legal rfl (Nat.add_comm _ _)
  | sdiff keys => exact guarded_legal fun _ => send_legal rfl (Nat.zero_add _).symm
  | sinter keys => exact guarded_legal fun _ => send_legal rfl (Nat.zero_add _).symm
  | sunion keys => exact guarded_legal fun _ => send_legal rfl (Nat.zero_add _).symm
  | bitop operation destkey keys =>
    have size : ∀ name : Str, (name :: destkey :: keys).length = 2 + keys.length := by
      intro name
      rw [List.length_cons, List.length_cons]
      omega
    refine guarded_legal fun _ => ?_
    cases operation with
    | BitOp_Num => exact iff_of_false id fun both => both.1 rfl
    | AND | OR | XOR | NOT =>
      refine (send_legal (r := ⟨2, false⟩) rfl (size _)).trans ?_
      exact (and_iff_right (by simp)).symm
  | _ => exact absurd takes id

/-- `mset` of a key alone sends what Redis refuses, and so does `mget` of no key. -/
theorem empty_request_sent : ¬ ∀ m, TakesList m → Legal m := by
  intro all
  have sent : LegalCall (send "MGET" [] (.map [])) := all (.mget []) trivial
  rw [send_eq (by decide)] at sent
  obtain ⟨r, is, more, _⟩ := sent
  cases is
  revert more
  decide

/-- A set operation on no key sends nothing, a pair of strings is legal for `mset` and one
    string is not. -/
theorem legal_lists :
    Legal (.sdiff []) ∧ Legal (.mset_args [lit "k", lit "v"]) ∧ ¬ Legal (.mset_args [lit "k"]) := by
  refine ⟨?_, ?_, ?_⟩
  · exact (legal_iff (.sdiff []) trivial).mpr (.inl rfl)
  · exact (legal_iff (.mset_args [lit "k", lit "v"]) trivial).mpr ((enough_small (by decide)).mpr (by decide))
  · exact fun legal => absurd ((enough_small (by decide)).mp ((legal_iff (.mset_args [lit "k"]) trivial).mp legal)) (by decide)

end CppRedis.Arities

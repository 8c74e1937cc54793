import CppRedis.StringMaps

/-!
`mset`, `msetnx` and `hmset`, with a map and with a list of arguments, against a server
that applies pairs in their order. What it keeps afterwards depends on the last pair for
each key only (`stored_eq`), so the two forms agree where hiredis treats their commands
alike (`forms_agree_iff`).
-/
namespace CppRedis.Updates
open CppRedis.Strings CppRedis.Reply CppRedis.Connection CppRedis.Commands CppRedis.Decoders CppRedis.Frames CppRedis.Requests
open CppRedis.Methods CppRedis.Tables CppRedis.Exchanges
open CppRedis.StringMaps (Object stored)
open CppRedis.Lists (wrongArguments okReply)

/-! ### The server -/

/-- What is kept besides strings. -/
inductive Kept (Rest : Type)
  | hash (fields : StringMap)
  | rest (content : Rest)

abbrev Store (Rest : Type) := StringMaps.Store (Kept Rest)

variable {Rest : Type}

def wrongType : RedisReply := .error (lit "WRONGTYPE Operation against a key holding the wrong kind of value")

namespace Server

/-- Nothing is stored where there is something under one of the keys. -/
def msetnx (args : List Str) (s : Store Rest) : RedisReply × Store Rest :=
  match paired args with
  | none => (wrongArguments, s)
  | some [] => (wrongArguments, s)
  | some (pair :: rest) =>
    if (pair :: rest).any fun (key, _) => (s key).isSome then (.integer 0, s)
    else (.integer 1, stored s (pair :: rest))

/-- The pairs are put into the hash in order; a hash is made where there is nothing. -/
def hset (key : Str) (l : List (Str × Str)) (s : Store Rest) : RedisReply × Store Rest :=
  match s key with
  | none => (okReply, Function.update s key (some (.other (.hash (assigned (fun _ => none) l)))))
  | some (.other (.hash fields)) => (okReply, Function.update s key (some (.other (.hash (assigned fields l)))))
  | some (.other (.rest _)) => (wrongType, s)
  | some (.string _) => (wrongType, s)

def hmset (args : List Str) (s : Store Rest) : RedisReply × Store Rest :=
  match args with
  | [] => (wrongArguments, s)
  | key :: rest =>
    match paired rest with
    | none => (wrongArguments, s)
    | some [] => (wrongArguments, s)
    | some (pair :: rest) => hset key (pair :: rest) s

end Server

/-- A request without arguments is passed over. -/
def exec : RedisCmd → Store Rest → Option (RedisReply × Store Rest)
  | [], _ => none
  | name :: args, s =>
    if name = lit "MSET" then some (StringMaps.Server.mset args s)
    else if name = lit "MSETNX" then some (Server.msetnx args s)
    else if name = lit "HMSET" then some (Server.hmset args s)
    else some (.error (lit "ERR unknown command"), s)

/-! ### The last pair for a key -/

private theorem lastWins_isSome {l : List (Str × Str)} {key : Str} :
    (lastWins l key).isSome = true ↔ key ∈ l.map Prod.fst := by
  have same : lastWins l = contents (insertAll ∅ l) := (contents_insertAll ∅ l).symm
  have there : key ∈ insertAll ∅ l ↔ key ∈ l.map Prod.fst := by simp [mem_insertAll]
  rw [same, ← there]
  exact AList.lookup_isSome

/-- Lists that agree on the last pair for each key have the same keys. -/
private theorem keys_same {l l' : List (Str × Str)} (same : lastWins l = lastWins l') (key : Str) :
    key ∈ l.map Prod.fst ↔ key ∈ l'.map Prod.fst := by
  rw [← lastWins_isSome, ← lastWins_isSome, same]

private theorem empty_same {l l' : List (Str × Str)} (same : lastWins l = lastWins l') : l = [] ↔ l' = [] := by
  have keys := keys_same same
  constructor
  · rintro rfl
    exact List.map_eq_nil_iff.mp (List.eq_nil_iff_forall_not_mem.mpr fun key => (keys key).not.mp List.not_mem_nil)
  · rintro rfl
    exact List.map_eq_nil_iff.mp (List.eq_nil_iff_forall_not_mem.mpr fun key => (keys key).not.mpr List.not_mem_nil)

private theorem cons_same {pair : Str × Str} {rest l' : List (Str × Str)} (same : lastWins (pair :: rest) = lastWins l') :
    ∃ pair' rest', l' = pair' :: rest' :=
  List.exists_cons_of_ne_nil (mt (empty_same same).mpr (List.cons_ne_nil pair rest))

/-- What is stored in order is what the last pair for each key says. -/
theorem stored_eq (s : Store Rest) (l : List (Str × Str)) :
    stored s l = overriding (fun key => (lastWins l key).map Object.string) s := by
  induction l generalizing s with
  | nil => rfl
  | cons pair rest ih =>
    obtain ⟨first, value⟩ := pair
    have here : stored s ((first, value) :: rest) = _ := ih (Function.update s first (some (.string value)))
    have alone : lastWins ((first, value) :: rest) =
        overriding (lastWins rest) (Function.update (fun _ => none) first (some value)) := assigned_eq _ rest
    rw [here, alone]
    funext key
    cases last : lastWins rest key with
    | some later => simp [overriding, last]
    | none =>
      by_cases same : key = first
      · subst same
        simp [overriding, last]
      · simp [overriding, last, Function.update_of_ne same]

private theorem stored_same {l l' : List (Str × Str)} (same : lastWins l = lastWins l') (s : Store Rest) :
    stored s l = stored s l' := by
  rw [stored_eq, stored_eq, same]

/-- There is something under one of the keys. -/
private theorem any_same {l l' : List (Str × Str)} (same : lastWins l = lastWins l') (s : Store Rest) :
    (l.any fun (key, _) => (s key).isSome) = l'.any fun (key, _) => (s key).isSome := by
  have by_keys : ∀ l : List (Str × Str),
      (l.any fun (key, _) => (s key).isSome) = (l.map Prod.fst).any fun key => (s key).isSome := by
    intro l
    rw [List.any_map]
    rfl
  rw [by_keys, by_keys, Bool.eq_iff_iff, List.any_eq_true, List.any_eq_true]
  simp only [keys_same same]

private theorem mset_same {l l' : List (Str × Str)} (same : lastWins l = lastWins l') (s : Store Rest) :
    StringMaps.Server.mset (flat l) s = StringMaps.Server.mset (flat l') s := by
  rw [StringMaps.Server.mset, StringMaps.Server.mset, paired_flat, paired_flat]
  cases l with
  | nil => rw [(empty_same same).mp rfl]
  | cons pair rest =>
    obtain ⟨pair', rest', rfl⟩ := cons_same same
    exact congrArg (Prod.mk okReply) (stored_same same s)

private theorem msetnx_same {l l' : List (Str × Str)} (same : lastWins l = lastWins l') (s : Store Rest) :
    Server.msetnx (flat l) s = Server.msetnx (flat l') s := by
  rw [Server.msetnx, Server.msetnx, paired_flat, paired_flat]
  cases l with
  | nil => rw [(empty_same same).mp rfl]
  | cons pair rest =>
    obtain ⟨pair', rest', rfl⟩ := cons_same same
    show (if _ then _ else _) = if _ then _ else _
    rw [any_same same s, stored_same same s]

private theorem hmset_same {l l' : List (Str × Str)} (same : lastWins l = lastWins l') (key : Str) (s : Store Rest) :
    Server.hmset (key :: flat l) s = Server.hmset (key :: flat l') s := by
  simp only [Server.hmset, paired_flat]
  cases l with
  | nil => rw [(empty_same same).mp rfl]
  | cons pair rest =>
    obtain ⟨pair', rest', rfl⟩ := cons_same same
    have put : ∀ fields : StringMap, assigned fields (pair :: rest) = assigned fields (pair' :: rest') := by
      intro fields
      rw [assigned_eq, assigned_eq, same]
    simp only [Server.hset, put]

/-! ### The two forms -/

/-- Two calls have the same result, which is defined, and leave the same store. -/
structure Same (m m' : Command) (s : Store Rest) : Prop where
  same : answer exec m s = answer exec m' s
  defined : ∀ s', answer exec m s ≠ some (.error .undefined, s')

/-- The call with the pairs as arguments and that with a map do the same. -/
structure Agree (l : List (Str × Str)) (t : Table Str Str) (key : Str) (s : Store Rest) : Prop where
  mset : Same (.mset_args (flat l)) (.mset (pairs t)) s
  msetnx : Same (.msetnx_args (flat l)) (.msetnx (pairs t)) s
  hmset : Same (.hmset_args key (flat l)) (.hmset key (pairs t)) s

/-- Both commands can be sent, or hiredis says of both that it cannot format them. -/
def Alike (cmd cmd' : RedisCmd) : Prop :=
  (Sendable cmd ∧ Sendable cmd') ∨
    (redisFormatCommandArgv (pointed cmd) = .error ∧ redisFormatCommandArgv (pointed cmd') = .error)

/-- What the decoders make of a reply is never what becomes of a command that is not
    sent. -/
private theorem decoded_apart {decoder : Decoder} (which : decoder = .ok ∨ decoder = .int) {reply : RedisReply}
    (plain : ∀ element, reply ≠ .array element) :
    (received reply).bind decoder.decode ≠ .error .undefined ∧
      ∀ err, (received reply).bind decoder.decode ≠ .error (.thrown (.CommandException err)) := by
  cases reply with
  | array element => exact absurd rfl (plain element)
  | status | string | integer | nil | error | hollow =>
    rcases which with rfl | rfl <;> exact ⟨(fun is => by cases is), (fun err is => by cases is)⟩

/-- Calls whose commands the server carries out alike are the same exactly if hiredis
    treats their commands alike. -/
private theorem same_iff {m m' : Command} {cmd cmd' : RedisCmd} {decoder : Decoder} (which : decoder = .ok ∨ decoder = .int)
    (is : m.call = .sends cmd decoder) (is' : m'.call = .sends cmd' decoder) {s left : Store Rest} {reply : RedisReply}
    (plain : ∀ element, reply ≠ .array element) (run : exec cmd s = some (reply, left)) (run' : exec cmd' s = some (reply, left)) :
    Same m m' s ↔ Alike cmd cmd' := by
  obtain ⟨defined, other⟩ := decoded_apart which plain
  have first := answer_carried is run
  have second := answer_carried is' run'
  unfold Alike
  constructor
  · rintro ⟨same, defines⟩
    rw [first] at same defines
    rw [second] at same
    rcases unsent_cases cmd with ⟨sendable, goes⟩ | ⟨_, refused, goes⟩ | ⟨_, _, goes⟩ <;>
      rcases unsent_cases cmd' with ⟨sendable', goes'⟩ | ⟨_, refused', goes'⟩ | ⟨_, _, goes'⟩ <;>
      rw [goes] at same defines <;> rw [goes'] at same
    · exact .inl ⟨sendable, sendable'⟩
    · exact absurd (Prod.mk.inj (Option.some.inj same)).1 (other _)
    · exact absurd (Prod.mk.inj (Option.some.inj same)).1 defined
    · exact absurd (Prod.mk.inj (Option.some.inj same)).1.symm (other _)
    · exact .inr ⟨refused, refused'⟩
    · exact absurd rfl (same ▸ defines s)
    · exact absurd rfl (defines s)
    · exact absurd rfl (defines s)
    · exact absurd rfl (defines s)
  · rintro (⟨sendable, sendable'⟩ | ⟨refused, refused'⟩)
    · rw [unsent_none.mpr sendable] at first
      rw [unsent_none.mpr sendable'] at second
      refine ⟨first.trans second.symm, fun s' is => ?_⟩
      exact defined (Prod.mk.inj (Option.some.inj (first.symm.trans is))).1
    · have goes : unsent cmd = some (.thrown (.CommandException (lit "Out of memory"))) := by rw [unsent, refused]
      have goes' : unsent cmd' = some (.thrown (.CommandException (lit "Out of memory"))) := by rw [unsent, refused']
      rw [goes] at first
      rw [goes'] at second
      refine ⟨first.trans second.symm, fun s' is => ?_⟩
      cases first.symm.trans is

section
variable {l : List (Str × Str)} {t : Table Str Str} (last : contents t = lastWins l) (written : 2 * l.length + 2 < 2 ^ 31)
include last written

private theorem mset_same_iff (s : Store Rest) :
    Same (.mset_args (flat l)) (.mset (pairs t)) s ↔ Alike (lit "MSET" :: flat l) (lit "MSET" :: flat (pairs t)) := by
  have same : lastWins l = lastWins (pairs t) := last.symm.trans (lastWins_pairs t).symm
  have fewer := length_pairs_le last
  have many := length_flat l
  have few := length_flat (pairs t)
  have sends : (Command.mset_args (flat l)).call = .sends (lit "MSET" :: flat l) .ok := send_eq (by omega)
  have sends' : (Command.mset (pairs t)).call = .sends (lit "MSET" :: flat (pairs t)) .ok := send_eq (by omega)
  have run : exec (lit "MSET" :: flat (pairs t)) s = some (StringMaps.Server.mset (flat l) s) :=
    congrArg some (mset_same same s).symm
  have plain : ∀ element, (StringMaps.Server.mset (flat l) s).1 ≠ .array element := by
    intro element is
    rw [StringMaps.Server.mset, paired_flat] at is
    cases l <;> cases is
  exact same_iff (.inl rfl) sends sends' plain rfl run

private theorem msetnx_same_iff (s : Store Rest) :
    Same (.msetnx_args (flat l)) (.msetnx (pairs t)) s ↔ Alike (lit "MSETNX" :: flat l) (lit "MSETNX" :: flat (pairs t)) := by
  have same : lastWins l = lastWins (pairs t) := last.symm.trans (lastWins_pairs t).symm
  have fewer := length_pairs_le last
  have many := length_flat l
  have few := length_flat (pairs t)
  have sends : (Command.msetnx_args (flat l)).call = .sends (lit "MSETNX" :: flat l) .int := send_eq (by omega)
  have sends' : (Command.msetnx (pairs t)).call = .sends (lit "MSETNX" :: flat (pairs t)) .int := send_eq (by omega)
  have run : exec (lit "MSETNX" :: flat (pairs t)) s = some (Server.msetnx (flat l) s) :=
    congrArg some (msetnx_same same s).symm
  have plain : ∀ element, (Server.msetnx (flat l) s).1 ≠ .array element := by
    intro element is
    rw [Server.msetnx, paired_flat] at is
    cases l with
    | nil => cases is
    | cons pair rest =>
      dsimp only at is
      split at is <;> cases is
  exact same_iff (.inr rfl) sends sends' plain rfl run

private theorem hmset_same_iff (key : Str) (s : Store Rest) :
    Same (.hmset_args key (flat l)) (.hmset key (pairs t)) s ↔
      Alike (lit "HMSET" :: key :: flat l) (lit "HMSET" :: key :: flat (pairs t)) := by
  have same : lastWins l = lastWins (pairs t) := last.symm.trans (lastWins_pairs t).symm
  have fewer := length_pairs_le last
  have many := length_flat l
  have few := length_flat (pairs t)
  have sends : (Command.hmset_args key (flat l)).call = .sends (lit "HMSET" :: key :: flat l) .ok :=
    send_eq (by rw [List.length_cons]; omega)
  have sends' : (Command.hmset key (pairs t)).call = .sends (lit "HMSET" :: key :: flat (pairs t)) .ok :=
    send_eq (by rw [List.length_cons]; omega)
  have run : exec (lit "HMSET" :: key :: flat (pairs t)) s = some (Server.hmset (key :: flat l) s) :=
    congrArg some (hmset_same same key s).symm
  have plain : ∀ element, (Server.hmset (key :: flat l) s).1 ≠ .array element := by
    intro element is
    simp only [Server.hmset, paired_flat] at is
    cases l with
    | nil => cases is
    | cons pair rest =>
      dsimp only [Server.hset] at is
      split at is <;> cases is
  exact same_iff (.inl rfl) sends sends' plain rfl run

end

/-- The forms agree, in whatever order the map is listed, exactly if hiredis treats their
    commands alike. The arguments of a call stand in the program, and an `int` can count
    them. -/
theorem forms_agree_iff {l : List (Str × Str)} {t : Table Str Str} (last : contents t = lastWins l)
    (written : 2 * l.length + 2 < 2 ^ 31) (key : Str) (s : Store Rest) :
    Agree l t key s ↔
      Alike (lit "MSET" :: flat l) (lit "MSET" :: flat (pairs t)) ∧
        Alike (lit "MSETNX" :: flat l) (lit "MSETNX" :: flat (pairs t)) ∧
          Alike (lit "HMSET" :: key :: flat l) (lit "HMSET" :: key :: flat (pairs t)) := by
  rw [← mset_same_iff last written s, ← msetnx_same_iff last written s, ← hmset_same_iff last written key s]
  exact ⟨fun agree => ⟨agree.mset, agree.msetnx, agree.hmset⟩, fun ⟨mset, msetnx, hmset⟩ => ⟨mset, msetnx, hmset⟩⟩

/-- A command with five such values cannot be sent; one with one of them can. -/
private theorem sendable_values {v : Str} (long : v.length = 450000000) :
    ¬ Sendable (lit "MSET" :: flat (List.replicate 5 (lit "a", v))) ∧ Sendable [lit "MSET", lit "a", v] := by
  have three : (digits 3).length = 1 := by decide
  have name : (protocol.item (lit "MSET")).length = 10 := by decide
  have key : (protocol.item (lit "a")).length = 7 := by decide
  have count := @digits_length v.length (by omega)
  constructor
  · intro sendable
    unfold Sendable at sendable
    rw [message_length] at sendable
    simp only [List.replicate, flat, List.flatMap_cons, List.flatMap_nil, List.length_append, item_length v, name, key,
      List.cons_append, List.nil_append] at sendable
    omega
  · unfold Sendable
    rw [message_length]
    simp only [List.flatMap_cons, List.flatMap_nil, List.length_append, item_length v, name, key, List.length_cons,
      List.length_nil, Nat.zero_add, Nat.reduceAdd, three]
    omega

private theorem values_differ {v : Str} (long : v.length = 450000000) (s : Store Rest) :
    contents (AList.singleton (lit "a") v) = lastWins (List.replicate 5 (lit "a", v)) ∧
      ¬ Agree (List.replicate 5 (lit "a", v)) (AList.singleton (lit "a") v) (lit "h") s := by
  have last : contents (AList.singleton (lit "a") v) = lastWins (List.replicate 5 (lit "a", v)) := by
    rw [← AList.insert_empty]
    refine (contents_insertAll ∅ [(lit "a", v)]).trans ?_
    simp only [assigned, lastWins, List.replicate, List.foldl_cons, List.foldl_nil, Function.update_idem]
    rfl
  refine ⟨last, fun agree => ?_⟩
  obtain ⟨five, one⟩ := sendable_values long
  have few : 2 * (List.replicate 5 (lit "a", v)).length + 2 < 2 ^ 31 := by
    rw [List.length_replicate]
    decide
  rcases (mset_same_iff last few s).mp agree.mset with ⟨sendable, _⟩ | ⟨_, refused⟩
  · exact five sendable
  · cases (format_sendable one).symm.trans refused

/-- One key five times, with large values: the map has one of them, and is stored; with
    all five the arguments are too long for hiredis. -/
theorem large_values_differ :
    contents (AList.singleton (lit "a") (List.replicate 450000000 120 : Str)) =
        lastWins (List.replicate 5 (lit "a", List.replicate 450000000 120)) ∧
      ¬ Agree (List.replicate 5 (lit "a", List.replicate 450000000 120)) (AList.singleton (lit "a") (List.replicate 450000000 120))
          (lit "h") ((fun _ => none) : Store Unit) :=
  values_differ List.length_replicate _

/-- The second value of a key is the one that stays. -/
theorem repeated_key_updates :
    contents (insertAll ∅ [(lit "a", lit "1"), (lit "b", lit "2"), (lit "a", lit "3")]) =
        lastWins [(lit "a", lit "1"), (lit "b", lit "2"), (lit "a", lit "3")] ∧
      2 * [(lit "a", lit "1"), (lit "b", lit "2"), (lit "a", lit "3")].length + 2 < 2 ^ 31 ∧
      Agree [(lit "a", lit "1"), (lit "b", lit "2"), (lit "a", lit "3")]
        (insertAll ∅ [(lit "a", lit "1"), (lit "b", lit "2"), (lit "a", lit "3")]) (lit "h") ((fun _ => none) : Store Unit) := by
  refine ⟨contents_insertAll ∅ _, by decide, (forms_agree_iff (contents_insertAll ∅ _) (by decide) _ _).mpr ?_⟩
  exact ⟨.inl ⟨by decide +kernel, by decide +kernel⟩, .inl ⟨by decide +kernel, by decide +kernel⟩,
    .inl ⟨by decide +kernel, by decide +kernel⟩⟩

end CppRedis.Updates

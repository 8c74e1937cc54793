import CppRedis.Decoders
import CppRedis.Dispatch

/-!
Where the decoders of collections read. Each loop reads elements of the reply, and
one of them reads a vector of keys at the same index; `in_bounds_iff` says for which
replies all that is read is there. Of the replies that a reader can build and that have
their elements these are the ones for which the decoder returns or throws
(`ends_well_iff_in_bounds`).
-/
namespace CppRedis.Bounds
open CppRedis.Strings CppRedis.Reply CppRedis.Decoders CppRedis.Dispatch

/-- What a loop reads: an element of the reply, or a key, by its index. -/
inductive Access
  | element (index : Nat)
  | key (index : Nat)
  deriving DecidableEq

/-- The index is one of so many elements, or of so many keys. -/
def Access.Within (elements keys : Nat) : Access → Prop
  | .element index => index < elements
  | .key index => index < keys

/-! ### The loops -/

/-- `recv_string_array_reply` and `recv_string_set_reply`, from an index on. -/
def string_array_accesses : List RedisReply → Nat → List Access
  | [], _ => []
  | _ :: rest, i => .element i :: string_array_accesses rest (i + 1)

/-- `recv_string_map_reply`, and `recv_string_hash_map_reply` with fields. What the loop
    does after a key that is not there is undefined. -/
def string_map_accesses (keys : List Str) : List RedisReply → Nat → List Access
  | [], _ => []
  | .string _ :: rest, i =>
    .element i :: .key i :: if i < keys.length then string_map_accesses keys rest (i + 1) else []
  | _ :: rest, i => .element i :: string_map_accesses keys rest (i + 1)

/-- `recv_string_hash_map_reply` without fields; it throws at a pair that is not two
    strings. -/
def string_pairs_accesses : List RedisReply → Nat → List Access
  | [], _ => []
  | [_], i => [.element i, .element (i + 1)]
  | .string _ :: .string _ :: rest, i => .element i :: .element (i + 1) :: string_pairs_accesses rest (i + 2)
  | _ :: _ :: _, i => [.element i, .element (i + 1)]

/-- What is read of an array without its elements: the first `element`, and what follows
    is undefined; nothing where `reserve` throws. -/
def hollow_accesses (elements : Nat) : Decoder → List Access
  | .array => if max_size < elements then [] else [.element 0]
  | .pairs => if max_size < elements / 2 then [] else [.element 0, .element 1]
  | .set | .map _ | .fields _ => [.element 0]
  | .ok | .status | .int | .float | .string _ => []

/-- What a decoder reads; it reads nothing of a reply that is no array. -/
def accesses (reply : RedisReply) (decoder : Decoder) : List Access :=
  match reply with
  | .hollow elements _ => hollow_accesses elements decoder
  | reply =>
    match decoder with
    | .array | .set => string_array_accesses (elements reply) 0
    | .map names | .fields names => string_map_accesses names (elements reply) 0
    | .pairs => string_pairs_accesses (elements reply) 0
    | .ok | .status | .int | .float | .string _ => []

/-- `reply->elements`. -/
def count : RedisReply → Nat
  | .array element => element.length
  | .hollow elements _ => elements
  | .status _ | .error _ | .integer _ | .nil | .string _ => 0

/-- The number of keys that it is given. -/
def size : Decoder → Nat
  | .map names | .fields names => names.length
  | .ok | .status | .int | .float | .string _ | .array | .set | .pairs => 0

/-- The decoder reads nothing outside of the reply and of its keys. -/
def InBounds (decoder : Decoder) (reply : RedisReply) : Prop :=
  ∀ access ∈ accesses reply decoder, access.Within (count reply) (size decoder)

/-- No string stands where there is no key; and no single element behind the pairs of
    strings that lead a reply. -/
def Covers (reply : RedisReply) : Decoder → Prop
  | .map names | .fields names => Keyed names (elements reply)
  | .pairs => count reply ≠ 2 * stringPairs (elements reply) + 1
  | .ok | .status | .int | .float | .string _ | .array | .set => True

/-! ### What each loop reads -/

private theorem string_array_within (element : List RedisReply) (i keys : Nat) :
    ∀ access ∈ string_array_accesses element i, access.Within (i + element.length) keys := by
  induction element generalizing i with
  | nil => simp [string_array_accesses]
  | cons elem rest ih =>
    have length : i + (elem :: rest).length = i + 1 + rest.length := by rw [List.length_cons]; omega
    rw [string_array_accesses, List.forall_mem_cons, length]
    exact ⟨by show i < _; omega, ih (i + 1)⟩

private theorem string_map_within (keys : List Str) (element : List RedisReply) (i : Nat) :
    (∀ access ∈ string_map_accesses keys element i, access.Within (i + element.length) keys.length) ↔
      ∀ (j : Nat) str, element[j]? = some (.string str) → i + j < keys.length := by
  induction element generalizing i with
  | nil => simp [string_map_accesses]
  | cons elem rest ih =>
    have length : i + (elem :: rest).length = i + 1 + rest.length := by rw [List.length_cons]; omega
    have here : (Access.element i).Within (i + 1 + rest.length) keys.length := by show i < _; omega
    rw [keyed_cons, length]
    cases elem with
    | string str =>
      rw [string_map_accesses, List.forall_mem_cons, List.forall_mem_cons, and_iff_right here]
      by_cases inside : i < keys.length
      · rw [if_pos inside, ih (i + 1)]
        exact and_congr_left fun _ => ⟨fun _ _ _ => inside, fun _ => inside⟩
      · refine iff_of_false (fun within => inside within.1) fun keyed => inside (keyed.1 str rfl)
    | status str | error str | integer n | nil | array inner | hollow m some =>
      rw [string_map_accesses, List.forall_mem_cons, and_iff_right here, ih (i + 1)]
      · exact (and_iff_right fun str is => by cases is).symm
      · intro str is
        cases is

private theorem string_pairs_within (element : List RedisReply) (i keys : Nat) :
    (∀ access ∈ string_pairs_accesses element i, access.Within (i + element.length) keys) ↔
      element.length ≠ 2 * stringPairs element + 1 := by
  fun_induction string_pairs_accesses with
  | case1 => simp [stringPairs]
  | case2 last i =>
    -- the value is looked for behind the last element
    refine iff_of_false ?_ fun even => even (by cases last <;> rfl)
    intro within
    have beyond : i + 1 < i + [last].length := within (.element (i + 1)) (by simp)
    simp at beyond
  | case3 field value rest i ih =>
    have length : i + (RedisReply.string field :: .string value :: rest).length = i + 2 + rest.length := by
      rw [List.length_cons, List.length_cons]
      omega
    have first : (Access.element i).Within (i + 2 + rest.length) keys := by show i < _; omega
    have second : (Access.element (i + 1)).Within (i + 2 + rest.length) keys := by show i + 1 < _; omega
    rw [List.forall_mem_cons, List.forall_mem_cons, length, and_iff_right first, and_iff_right second, ih, stringPairs,
      List.length_cons, List.length_cons]
    omega
  | case4 first second rest i other =>
    have none : stringPairs (first :: second :: rest) = 0 := by
      rw [stringPairs]
      intro field value rest' is
      cases is
      exact other field value rfl rfl
    rw [none]
    refine iff_of_true ?_ (by simp)
    simp only [List.forall_mem_cons, List.not_mem_nil, false_implies, implies_true, and_true, List.length_cons]
    exact ⟨by show i < _; omega, by show i + 1 < _; omega⟩

private theorem hollow_in_bounds_iff (decoder : Decoder) {elements : Nat} (some : 0 < elements) :
    InBounds decoder (.hollow elements some) ↔ Covers (.hollow elements some) decoder := by
  have first : (Access.element 0).Within (count (.hollow elements some)) (size decoder) := some
  cases decoder with
  | ok | status | int | float | string =>
    refine iff_of_true ?_ trivial
    intro access member
    cases member
  | array =>
    refine iff_of_true ?_ trivial
    intro access member
    simp only [accesses, hollow_accesses] at member
    split at member
    · cases member
    · obtain rfl := List.mem_singleton.mp member
      exact first
  | set =>
    refine iff_of_true ?_ trivial
    intro access member
    obtain rfl := List.mem_singleton.mp member
    exact first
  | map names | fields names =>
    refine iff_of_true ?_ ?_
    · intro access member
      obtain rfl := List.mem_singleton.mp member
      exact first
    · intro i str is
      cases is
  | pairs =>
    have covers : Covers (.hollow elements some) .pairs ↔ elements ≠ 1 := Iff.rfl
    rw [covers, InBounds, accesses, hollow_accesses]
    by_cases huge : max_size < elements / 2
    · rw [if_pos huge]
      refine iff_of_true (fun access member => by cases member) ?_
      rintro rfl
      cases huge
    · rw [if_neg huge, List.forall_mem_cons, and_iff_right first, List.forall_mem_singleton]
      show 1 < elements ↔ elements ≠ 1
      omega

private theorem count_whole {reply : RedisReply} (whole : Whole reply) : count reply = (elements reply).length := by
  cases reply with
  | hollow m some => exact absurd rfl (whole m some)
  | status str | error str | integer n | nil | string str | array element => rfl

private theorem accesses_whole {reply : RedisReply} (whole : Whole reply) (decoder : Decoder) :
    accesses reply decoder = match decoder with
      | .array | .set => string_array_accesses (elements reply) 0
      | .map names | .fields names => string_map_accesses names (elements reply) 0
      | .pairs => string_pairs_accesses (elements reply) 0
      | .ok | .status | .int | .float | .string _ => [] := by
  cases reply with
  | hollow m some => exact absurd rfl (whole m some)
  | status str | error str | integer n | nil | string str | array element => rfl

private theorem whole_in_bounds_iff (decoder : Decoder) {reply : RedisReply} (whole : Whole reply) :
    InBounds decoder reply ↔ Covers reply decoder := by
  rw [InBounds, accesses_whole whole, count_whole whole]
  cases decoder with
  | ok | status | int | float | string =>
    refine iff_of_true ?_ trivial
    intro access member
    cases member
  | array | set =>
    refine iff_of_true ?_ trivial
    intro access member
    simpa [size] using string_array_within (elements reply) 0 0 access member
  | map names | fields names =>
    simpa [size, Covers, Keyed] using string_map_within names (elements reply) 0
  | pairs =>
    rw [Covers, count_whole whole]
    simpa [size] using string_pairs_within (elements reply) 0 0

/-- What is read is there exactly if there is a key for each string, and no pair of which
    only the first is there. -/
theorem in_bounds_iff (decoder : Decoder) (reply : RedisReply) : InBounds decoder reply ↔ Covers reply decoder := by
  by_cases whole : Whole reply
  · exact whole_in_bounds_iff decoder whole
  · cases reply with
    | hollow m some => exact hollow_in_bounds_iff decoder some
    | status str | error str | integer n | nil | string str | array element =>
      exact absurd (fun _ _ is => by cases is) whole

/-- Three fields and values, of which the last value is missing. -/
theorem odd_reply_outside : ¬ ∀ decoder reply, InBounds decoder reply := by
  intro all
  have within : 3 < 3 :=
    all .pairs (.array [.string (lit "f"), .string (lit "v"), .string (lit "g")]) (.element 3) (by decide)
  omega

/-! ### How the decoders end -/

private theorem stringsOf_length (element : List RedisReply) : (stringsOf element).length ≤ element.length :=
  List.length_filterMap_le _ _

private theorem stringPairs_length (element : List RedisReply) : stringPairs element ≤ element.length := by
  fun_induction stringPairs with
  | case1 field value rest ih =>
    rw [List.length_cons, List.length_cons]
    omega
  | case2 => omega

/-- A decoder returns or throws a `RedisException` exactly for the replies of which it
    reads what is there, where they have their elements; a reader counts those by an
    `int`. -/
theorem ends_well_iff_in_bounds (decoder : Decoder) {reply : RedisReply} (whole : Whole reply)
    (small : (elements reply).length < 2 ^ 31) :
    EndsWell (decoder.decode reply) ↔ InBounds decoder reply := by
  have strings := stringsOf_length (elements reply)
  have pairs := stringPairs_length (elements reply)
  rw [decode_ends_well, whole_in_bounds_iff decoder whole]
  cases reply with
  | array element =>
    have countable : Countable element := by
      show ((stringsOf (elements (.array element))).length : Int) ≤ 2 ^ 31 - 1
      omega
    have few : (stringPairs element : Int) ≤ 2 ^ 31 - 1 := by
      show (stringPairs (elements (.array element)) : Int) ≤ 2 ^ 31 - 1
      omega
    cases decoder with
    | ok | status | int | float | string => exact Iff.rfl
    | array | set => simp [Decoder.Fits, Covers, countable]
    | map names | fields names => simp [Decoder.Fits, Covers, countable, elements]
    | pairs =>
      simp only [Decoder.Fits, Covers, Paired, few, elements, count, whole_array, RedisReply.array.injEq, forall_eq',
        true_and]
  | hollow m some => exact absurd rfl (whole m some)
  | status | error | integer | nil | string =>
    cases decoder <;> simp [Decoder.Fits, Covers, elements, count, Keyed, stringPairs, whole]

end CppRedis.Bounds

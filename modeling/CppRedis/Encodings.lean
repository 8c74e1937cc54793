import CppRedis.Deliveries

/-!
What a server may send for a reply, and how it is read. Strings, numbers and arrays are
written with their lengths; how deep the arrays lie is counted. The reader makes of the
bytes what they were written for, whatever follows, up to eight levels of arrays
(`sent_delivered`); a reply that goes deeper is refused (`too_deep_refused`).
-/
namespace CppRedis.Encodings
open CppRedis.Strings CppRedis.Reply CppRedis.Commands CppRedis.Requests CppRedis.Streams CppRedis.Readers
open CppRedis.ReplyStreams CppRedis.Deliveries

/-- A reply that is sent, and so many levels of arrays in it. -/
structure Part where
  reply : RedisReply
  bytes : Str
  levels : Nat

/-- The levels of the deepest of them. -/
def deepest (parts : List Part) : Nat := (parts.map Part.levels).foldr max 0

def wire (parts : List Part) : Str := parts.flatMap Part.bytes

/-- A line ends nowhere in the text. -/
def OneLine (text : Str) : Prop := ¬ crlf <:+: text

instance (text : Str) : Decidable (OneLine text) := inferInstanceAs (Decidable (¬ _))

/-- What a server may send. Nil is the string or the array of length -1; the latter takes
    a level. -/
inductive Sent : Part → Prop
  | status {text : Str} (plain : OneLine text) : Sent ⟨.status text, 43 :: (text ++ crlf), 0⟩
  | error {text : Str} (plain : OneLine text) : Sent ⟨.error text, 45 :: (text ++ crlf), 0⟩
  | integer {n : Int} (low : -2 ^ 63 < n) (high : n < 2 ^ 63) : Sent ⟨.integer n, 58 :: (number n ++ crlf), 0⟩
  | string {text : Str} (short : text.length + 2 < 2 ^ 63) :
      Sent ⟨.string text, 36 :: (digits text.length ++ crlf ++ (text ++ crlf)), 0⟩
  | nil_string : Sent ⟨.nil, 36 :: (number (-1) ++ crlf), 0⟩
  | nil_array : Sent ⟨.nil, 42 :: (number (-1) ++ crlf), 1⟩
  | array {parts : List Part} (few : parts.length < 2 ^ 31) (all : ∀ p ∈ parts, Sent p) :
      Sent ⟨.array (parts.map Part.reply), 42 :: (digits parts.length ++ crlf ++ wire parts), deepest parts + 1⟩

/-! ### Lines and numbers -/

theorem cut_line {text : Str} (plain : OneLine text) (rest : Str) : cut (text ++ crlf ++ rest) = some (text, rest) := by
  induction text with
  | nil => rfl
  | cons b text ih =>
    have later : OneLine text := fun inside => plain (inside.trans (List.suffix_cons b text).isInfix)
    have goes_on : ¬ (b = 13 ∧ (text ++ crlf ++ rest).head? = some 10) := by
      rintro ⟨rfl, head⟩
      cases text with
      | nil => cases head
      | cons c text =>
        obtain rfl := Option.some.inj head
        exact plain ⟨[], text, rfl⟩
    rw [List.cons_append, List.cons_append, cut, if_neg goes_on, ih later]
    rfl

private theorem oneLine_of_not_mem {text : Str} (absent : 13 ∉ text) : OneLine text := by
  intro inside
  exact absent (inside.subset (by simp [crlf]))

private theorem stop_not_digit {n : Nat} : (13 : UInt8) ∉ digits n := fun member => absurd (digits_isdigit n _ member) (by decide)

theorem digits_oneLine (n : Nat) : OneLine (digits n) := oneLine_of_not_mem stop_not_digit

theorem number_oneLine (n : Int) : OneLine (number n) := by
  apply oneLine_of_not_mem
  unfold number
  split
  · intro member
    rcases List.mem_cons.mp member with same | member
    · cases same
    · exact stop_not_digit member
  · exact stop_not_digit

/-- What is read so far is `v`; the value of all digits is what `decimal` computes. -/
private theorem readLongLong_from_digits (mult : Int) {text : Str} (all : ∀ b ∈ text, isdigit b = true) (rest : Str)
    (v : Nat) (small : text.foldl (fun n d => 10 * n + (d.toNat - 48)) v < 2 ^ 63) :
    readLongLong_from mult (text ++ 13 :: rest) v = some (mult * text.foldl (fun n d => 10 * n + (d.toNat - 48)) v) := by
  induction text generalizing v with
  | nil => simp [readLongLong_from]
  | cons c text ih =>
    have grows : ∀ (text : Str) (v : Nat), v ≤ text.foldl (fun n d => 10 * n + (d.toNat - 48)) v := by
      intro text
      induction text with
      | nil => exact fun v => Nat.le_refl v
      | cons d text ih => exact fun v => le_trans (show v ≤ 10 * v + (d.toNat - 48) by omega) (ih _)
    have digit := all c List.mem_cons_self
    have stop : c ≠ 13 := by
      rintro rfl
      cases digit
    have next : (v : Int) * 10 + (c.toNat - 48 : Nat) = (10 * v + (c.toNat - 48) : Nat) := by
      push_cast
      omega
    have fits : (10 * v + (c.toNat - 48) : Nat) < 2 ^ 63 := lt_of_le_of_lt (grows text _) small
    rw [List.cons_append, readLongLong_from, if_neg stop, if_pos digit]
    simp only [next]
    rw [if_pos (by exact_mod_cast fits)]
    exact ih (fun b member => all b (List.mem_cons_of_mem c member)) _ small

theorem readLongLong_digits {n : Nat} (small : n < 2 ^ 63) (rest : Str) :
    readLongLong (digits n ++ crlf ++ rest) = some (n : Int) := by
  have all := digits_isdigit n
  have value := decimal_digits n
  cases text : digits n with
  | nil => exact absurd text (digits_ne_nil n)
  | cons c more =>
    rw [text] at all value
    have digit := all c List.mem_cons_self
    have minus : c ≠ 45 := by
      rintro rfl
      cases digit
    have plus : c ≠ 43 := by
      rintro rfl
      cases digit
    unfold decimal at value
    have read := readLongLong_from_digits 1 all (10 :: rest) 0 (by rw [value]; exact small)
    rw [value, one_mul] at read
    have shape : c :: more ++ crlf ++ rest = c :: more ++ 13 :: 10 :: rest := by simp [crlf]
    rw [shape, readLongLong, if_neg (by simpa using minus), if_neg (by simpa using plus)]
    exact read

theorem readLongLong_number {n : Int} (low : -2 ^ 63 < n) (high : n < 2 ^ 63) (rest : Str) :
    readLongLong (number n ++ crlf ++ rest) = some n := by
  unfold number
  split
  · have value := decimal_digits n.natAbs
    unfold decimal at value
    have read := readLongLong_from_digits (-1) (digits_isdigit n.natAbs) (10 :: rest) 0 (by rw [value]; omega)
    have shape : 45 :: digits n.natAbs ++ crlf ++ rest = 45 :: (digits n.natAbs ++ 13 :: 10 :: rest) := by simp [crlf]
    rw [value] at read
    rw [shape, readLongLong, List.head?_cons, if_pos rfl, List.tail_cons]
    refine read.trans (congrArg some ?_)
    omega
  · rw [readLongLong_digits (by omega)]
    congr 1
    omega

/-! ### Replies -/

theorem moveToNextTask_idx (cur cur' : Task) (same : cur.idx = cur'.idx) (below : List Task) (obj : RedisReply) :
    moveToNextTask cur below obj = moveToNextTask cur' below obj := by
  cases below with
  | nil => rfl
  | cons prv below => simp only [moveToNextTask, same]

/-- The bytes are read up to `rest`; the last of the steps puts out the reply, if there
    is one. -/
def Completes (cur : Task) (below : List Task) (l : Str) (rstack : List Task) (reply : Option RedisReply) (rest : Str) : Prop :=
  ∃ s₁ l₁, reader.Steps (.reading cur below) l [] s₁ l₁ ∧ step s₁ l₁ = some (.tasks rstack, rest, reply)

variable {cur cur' : Task} {below below' rstack : List Task} {l l' rest : Str} {reply : Option RedisReply}

theorem Completes.steps (completes : Completes cur below l rstack reply rest) :
    reader.Steps (.reading cur below) l reply.toList (.tasks rstack) rest := by
  obtain ⟨s₁, l₁, silent, last⟩ := completes
  exact silent.trans (steps_one last)

theorem Completes.behind (steps : reader.Steps (.reading cur below) l [] (.reading cur' below') l')
    (completes : Completes cur' below' l' rstack reply rest) : Completes cur below l rstack reply rest := by
  obtain ⟨s₁, l₁, silent, last⟩ := completes
  exact ⟨s₁, l₁, steps.trans silent, last⟩

/-- An item is its type and what is typed. -/
private theorem completes_item {byte : UInt8} {type : ItemType} (untyped : cur.type = none) (roomy : ¬ Roomless below)
    (is : type_of byte = some type)
    (item : item_of type { cur with type := some type } below l = .read rstack reply rest) :
    Completes cur below (byte :: l) rstack reply rest := by
  have first : step (.reading cur below) (byte :: l) = some (.reading { cur with type := some type } below, l, none) := by
    rw [step_untyped untyped, is]
  refine ⟨_, _, steps_one first, ?_⟩
  rw [step_typed rfl, typed, placed_read.mpr ⟨item, roomy⟩]
  rfl

private theorem steps_refused {cur : Task} {below : List Task} (untyped : cur.type = none) (deep : below.length = 8)
    (l : Str) : reader.Steps (.reading cur below) (42 :: l) [] (.failed too_deep) l := by
  have first : step (.reading cur below) (42 :: l) = some (.reading { cur with type := some .ARRAY } below, l, none) := by
    rw [step_untyped untyped]
    rfl
  refine (steps_one first).trans (steps_one (b := none) ?_)
  rw [step_typed rfl, typed, item_of, if_pos ⟨rfl, deep⟩]
  rfl

/-- The item behind its line. -/
private theorem item_of_line {type : ItemType} {cur : Task} {below : List Task} {line : Str} (plain : OneLine line)
    (shallow : ¬ (type = .ARRAY ∧ below.length = 8)) (rest : Str) :
    item_of type cur below (line ++ crlf ++ rest) = lined type cur below (line ++ crlf ++ rest) line rest := by
  rw [item_of, if_neg shallow, cut_line plain]
  rfl

/-- What the reader makes of the bytes of a reply: the object at its place, or an error
    where there is no room for its levels. -/
structure ReadBack (p : Part) : Prop where
  room : ∀ (cur : Task) (below : List Task) (rest : Str), cur.type = none → ¬ Roomless below → p.levels + below.length ≤ 8 →
    Completes cur below (p.bytes ++ rest) (moveToNextTask cur below p.reply).1 (moveToNextTask cur below p.reply).2 rest
  deep : ∀ (cur : Task) (below : List Task) (rest : Str), cur.type = none → ¬ Roomless below → below.length ≤ 8 →
    8 < p.levels + below.length → ∃ l, reader.Steps (.reading cur below) (p.bytes ++ rest) [] (.failed too_deep) l

/-- A reply without arrays. -/
private theorem readBack_plain {p : Part} (flat : p.levels = 0) {byte : UInt8} {l : Str} {type : ItemType}
    (bytes : p.bytes = byte :: l) (is : type_of byte = some type)
    (item : ∀ (cur : Task) (below : List Task) (rest : Str), item_of type cur below (l ++ rest) = .done cur below p.reply rest) :
    ReadBack p := by
  constructor
  · intro cur below rest untyped roomy _
    rw [bytes, List.cons_append]
    refine completes_item untyped roomy is ?_
    rw [item, Item.done, moveToNextTask_idx { cur with type := some type } cur rfl]
  · intro cur below rest _ _ le deep
    rw [flat] at deep
    omega

private theorem le_deepest {parts : List Part} {p : Part} (member : p ∈ parts) : p.levels ≤ deepest parts := by
  induction parts with
  | nil => cases member
  | cons q parts ih =>
    show p.levels ≤ max q.levels (deepest parts)
    rcases List.mem_cons.mp member with rfl | member
    · exact Nat.le_max_left _ _
    · exact le_trans (ih member) (Nat.le_max_right _ _)

/-- There is room for a member in an array that is not empty. -/
private theorem not_roomless {arr : Task} {n : Nat} (all : arr.elements = n) (some : 0 < n) (below : List Task) :
    ¬ Roomless (arr :: below) := by
  rintro ⟨prv, is, none⟩
  obtain rfl := Option.some.inj is
  omega

/-- The members of an array, of which some are read. -/
private theorem members_room {parts : List Part} (read : ∀ p ∈ parts, ReadBack p) (arr : Task) (below : List Task)
    (done : List RedisReply) (left : parts ≠ []) (all : arr.elements = (done.length + parts.length : Nat))
    (sofar : arr.element = done) (room : deepest parts + (below.length + 1) ≤ 8) (rest : Str) :
    Completes { idx := (done.length : Int) } (arr :: below) (wire parts ++ rest)
      (moveToNextTask arr below (.array (done ++ parts.map Part.reply))).1
      (moveToNextTask arr below (.array (done ++ parts.map Part.reply))).2 rest := by
  induction parts generalizing arr done with
  | nil => exact absurd rfl left
  | cons p parts ih =>
    have levels := le_deepest (List.mem_cons_self (a := p) (l := parts))
    have roomy := not_roomless all (Nat.lt_of_lt_of_le (Nat.succ_pos _) (Nat.le_add_left _ _)) below
    have first := (read p List.mem_cons_self).room { idx := (done.length : Int) } (arr :: below) (wire parts ++ rest) rfl
      roomy (by rw [List.length_cons]; omega)
    have whole : wire (p :: parts) ++ rest = p.bytes ++ (wire parts ++ rest) := by
      simp only [wire, List.flatMap_cons, List.append_assoc]
    rw [whole]
    unfold moveToNextTask at first
    dsimp only at first
    rw [sofar] at first
    cases parts with
    | nil =>
      have last : (done.length : Int) = arr.elements - 1 := by
        rw [all, List.length_singleton]
        push_cast
        omega
      rw [if_pos last] at first
      exact first
    | cons q parts =>
      have more : ¬ (done.length : Int) = arr.elements - 1 := by
        rw [all]
        simp only [List.length_cons]
        push_cast
        omega
      rw [if_neg more] at first
      have deeper : deepest (q :: parts) ≤ deepest (p :: q :: parts) := Nat.le_max_right _ _
      have later := ih (fun r member => read r (List.mem_cons_of_mem p member)) { arr with element := done ++ [p.reply] }
        (done ++ [p.reply]) (List.cons_ne_nil _ _)
        (by rw [all, List.length_append]; simp only [List.length_cons, List.length_nil]; omega) rfl (by omega)
      rw [moveToNextTask_idx { arr with element := done ++ [p.reply] } arr rfl, List.append_assoc] at later
      have counted : ((done ++ [p.reply]).length : Int) = done.length + 1 := by simp
      rw [counted] at later
      exact later.behind first.steps

/-- Some member goes too deep; the ones before it are read. -/
private theorem members_deep {parts : List Part} (read : ∀ p ∈ parts, ReadBack p) (arr : Task) (below : List Task)
    (done : List RedisReply) (all : arr.elements = (done.length + parts.length : Nat)) (sofar : arr.element = done)
    (le : below.length + 1 ≤ 8) (deep : 8 < deepest parts + (below.length + 1)) (rest : Str) :
    ∃ l, reader.Steps (.reading { idx := (done.length : Int) } (arr :: below)) (wire parts ++ rest) []
      (.failed too_deep) l := by
  induction parts generalizing arr done with
  | nil =>
    simp only [deepest, List.map_nil, List.foldr_nil] at deep
    omega
  | cons p parts ih =>
    have whole : wire (p :: parts) ++ rest = p.bytes ++ (wire parts ++ rest) := by
      simp only [wire, List.flatMap_cons, List.append_assoc]
    rw [whole]
    have here := read p List.mem_cons_self
    have roomy := not_roomless all (Nat.lt_of_lt_of_le (Nat.succ_pos _) (Nat.le_add_left _ _)) below
    by_cases room : p.levels + (below.length + 1) ≤ 8
    · have first := here.room { idx := (done.length : Int) } (arr :: below) (wire parts ++ rest) rfl roomy room
      have later_deep : 8 < deepest parts + (below.length + 1) := by
        change 8 < max p.levels (deepest parts) + (below.length + 1) at deep
        omega
      have left : parts ≠ [] := by
        rintro rfl
        simp only [deepest, List.map_nil, List.foldr_nil] at later_deep
        omega
      have more : ¬ (done.length : Int) = arr.elements - 1 := by
        have := List.length_pos_iff.mpr left
        rw [all, List.length_cons]
        push_cast
        omega
      unfold moveToNextTask at first
      dsimp only at first
      rw [sofar, if_neg more] at first
      obtain ⟨l, later⟩ := ih (fun r member => read r (List.mem_cons_of_mem p member))
        { arr with element := done ++ [p.reply] } (done ++ [p.reply])
        (by rw [all, List.length_append]; simp only [List.length_cons, List.length_nil]; omega) rfl later_deep
      have counted : ((done ++ [p.reply]).length : Int) = done.length + 1 := by simp
      rw [counted] at later
      exact ⟨l, first.steps.trans later⟩
    · exact here.deep { idx := (done.length : Int) } (arr :: below) (wire parts ++ rest) rfl roomy le (by
        rw [List.length_cons]
        omega)

/-- The line of an array of so many members. -/
private theorem steps_array {n : Nat} (filled : 0 < n) (small : n < 2 ^ 31) {cur : Task} {below : List Task}
    (untyped : cur.type = none) (roomy : ¬ Roomless below) (shallow : below.length < 8) (rest : Str) :
    reader.Steps (.reading cur below) (42 :: (digits n ++ crlf ++ rest)) []
      (.reading { idx := 0 } ({ cur with type := some .ARRAY, elements := n, element := [] } :: below)) rest := by
  have plain := digits_oneLine n
  have item : item_of .ARRAY { cur with type := some .ARRAY } below (digits n ++ crlf ++ rest) =
      .read ({ idx := 0 } :: { cur with type := some .ARRAY, elements := n, element := [] } :: below) none rest := by
    rw [item_of_line plain fun both => absurd both.2 (by omega)]
    have counted : (n : Int).bmod (2 ^ 32) = n := Int.bmod_eq_of_le (by omega) (by omega)
    simp only [lined, readLongLong_digits (show n < 2 ^ 63 by omega), Option.elim_some, array_of, counted]
    rw [if_neg (by omega), if_pos (by omega)]
  exact (completes_item untyped roomy rfl item).steps

/-- What a server may send is read back. -/
theorem sent_readBack {p : Part} (sent : Sent p) : ReadBack p := by
  induction sent with
  | status plain =>
    refine readBack_plain rfl rfl (show type_of 43 = some .STATUS from rfl) ?_
    intro cur below rest
    rw [item_of_line plain fun both => ItemType.noConfusion both.1]
    rfl
  | error plain =>
    refine readBack_plain rfl rfl (show type_of 45 = some .ERROR from rfl) ?_
    intro cur below rest
    rw [item_of_line plain fun both => ItemType.noConfusion both.1]
    rfl
  | integer low high =>
    refine readBack_plain rfl rfl (show type_of 58 = some .INTEGER from rfl) ?_
    intro cur below rest
    rw [item_of_line (number_oneLine _) fun both => ItemType.noConfusion both.1]
    simp only [lined, readLongLong_number low high, Option.elim_some]
  | @string text short =>
    refine readBack_plain rfl rfl (show type_of 36 = some .STRING from rfl) ?_
    intro cur below rest
    rw [List.append_assoc, item_of_line (digits_oneLine _) fun both => ItemType.noConfusion both.1]
    have room : text.length + 2 ≤ (text ++ crlf ++ rest).length := by
      simp only [List.length_append, crlf, List.length_cons, List.length_nil]
      omega
    have behind : (text ++ crlf ++ rest).drop (text.length + 2) = rest := by simp [crlf]
    simp only [lined, readLongLong_digits (show text.length < 2 ^ 63 by omega), Option.elim_some, string_of, Int.toNat_natCast]
    rw [if_neg (by omega), if_neg (by omega), if_pos room, behind, List.append_assoc, List.take_left]
  | nil_string =>
    refine readBack_plain rfl rfl (show type_of 36 = some .STRING from rfl) ?_
    intro cur below rest
    rw [item_of_line (number_oneLine _) fun both => ItemType.noConfusion both.1]
    simp only [lined, readLongLong_number (n := -1) (by decide) (by decide), Option.elim_some, string_of]
    rw [if_pos (by decide)]
  | nil_array =>
    constructor
    · intro cur below rest untyped roomy room
      have shallow : below.length ≠ 8 := by
        simp only at room
        omega
      refine completes_item untyped roomy rfl ?_
      show item_of .ARRAY _ below (number (-1) ++ crlf ++ rest) = _
      rw [item_of_line (number_oneLine _) fun both => shallow both.2]
      simp only [lined, readLongLong_number (n := -1) (by decide) (by decide), Option.elim_some, array_of]
      rw [if_pos trivial, Item.done, moveToNextTask_idx { cur with type := some .ARRAY } cur rfl]
    · intro cur below rest untyped _ le deep
      simp only at deep
      exact ⟨_, steps_refused untyped (by omega) _⟩
  | @array parts few all ih =>
    constructor
    · intro cur below rest untyped roomy room
      simp only at room
      cases parts with
      | nil =>
        refine completes_item untyped roomy rfl ?_
        show item_of .ARRAY _ below (digits 0 ++ crlf ++ [] ++ rest) = _
        rw [List.append_nil, item_of_line (digits_oneLine 0) fun both => absurd both.2 (by omega)]
        simp only [lined, readLongLong_digits (n := 0) (by decide), Option.elim_some, array_of]
        rw [if_neg (by decide), if_neg (by decide), Item.done, moveToNextTask_idx { cur with type := some .ARRAY } cur rfl]
        rfl
      | cons p parts =>
        have first := steps_array (n := (p :: parts).length) (Nat.succ_pos _) few untyped roomy
          (show below.length < 8 by omega) (wire (p :: parts) ++ rest)
        have later := members_room ih { cur with type := some .ARRAY, elements := ((p :: parts).length : Int), element := [] }
          below [] (List.cons_ne_nil p parts) (by simp) rfl (by omega) rest
        rw [moveToNextTask_idx { cur with type := some .ARRAY, elements := _, element := [] } cur rfl] at later
        rw [← List.append_assoc] at first
        exact later.behind first
    · intro cur below rest untyped roomy le deep
      simp only at deep
      by_cases full : below.length = 8
      · exact ⟨_, steps_refused untyped full _⟩
      · have filled : parts ≠ [] := by
          rintro rfl
          simp only [deepest, List.map_nil, List.foldr_nil] at deep
          omega
        have first := steps_array (n := parts.length) (List.length_pos_iff.mpr filled) few untyped roomy
          (show below.length < 8 by omega) (wire parts ++ rest)
        obtain ⟨l, later⟩ := members_deep ih
          { cur with type := some .ARRAY, elements := (parts.length : Int), element := [] } below [] (by simp) rfl (by omega) (by omega) rest
        rw [← List.append_assoc] at first
        exact ⟨l, first.trans later⟩

/-! ### Streams of replies -/

private theorem completes_reply {p : Part} (sent : Sent p) (shallow : p.levels ≤ 8) (rest : Str) :
    Completes root [] (p.bytes ++ rest) [] (some p.reply) rest :=
  (sent_readBack sent).room root [] rest rfl roomy_nil shallow

/-- A reply, and the rest of the stream. -/
private theorem settle_reply {p : Part} (sent : Sent p) (shallow : p.levels ≤ 8) (rest : Str) :
    reader.settle idle (p.bytes ++ rest) = (reader.settle idle rest).after [p.reply] :=
  Transducer.settle_after (completes_reply sent shallow rest).steps

theorem decoded_nil : decoded [] = ([], .pending) := by
  simp only [decoded, settle_nil]
  rfl

/-- A part of a reply is none. -/
private theorem decoded_part {p : Part} (sent : Sent p) (shallow : p.levels ≤ 8) {x y : Str} (whole : p.bytes = x ++ y)
    (missing : y ≠ []) : decoded x = ([], .pending) := by
  obtain ⟨s₁, l₁, silent, last⟩ := completes_reply sent shallow []
  rw [List.append_nil, whole] at silent
  have steps := reader.settle_steps idle x
  have stops := reader.settle_stops idle x
  unfold decoded
  cases outputs : (reader.settle idle x).outputs with
  | cons b bs =>
    rw [outputs] at steps
    obtain ⟨s₂, l₂, s₃, l₃, silent', puts, _⟩ := steps.first
    obtain ⟨_, same, _⟩ := Transducer.Steps.first_unique silent last (silent'.extend y) (reader.stable y puts)
    exact absurd (List.append_eq_nil_iff.mp same.symm).2 missing
  | nil =>
    rw [outputs] at steps
    have through := Transducer.settle_after (silent.trans (steps_one last))
    have again := Transducer.settle_after (steps.extend y)
    cases state : (reader.settle idle x).state with
    | reading cur below => rfl
    | failed errstr =>
      rw [state, settle_failed] at again
      cases congrArg Settled.outputs (through.symm.trans again)
    | undefined =>
      rw [state, settle_undefined] at again
      cases congrArg Settled.outputs (through.symm.trans again)

/-- The replies whose bytes are all among the first `n`. -/
def arrived : List Part → (n : Nat) → List RedisReply
  | [], _ => []
  | p :: parts, n => if p.bytes.length ≤ n then p.reply :: arrived parts (n - p.bytes.length) else []

theorem arrived_all (parts : List Part) : arrived parts (wire parts).length = parts.map Part.reply := by
  induction parts with
  | nil => rfl
  | cons p parts ih =>
    have length : (wire (p :: parts)).length = p.bytes.length + (wire parts).length := List.length_append
    rw [arrived, length, if_pos (Nat.le_add_right _ _), Nat.add_sub_cancel_left, ih, List.map_cons]

/-- What comes of a stream whose whole replies are these: each is there as soon as its last
    byte is, and not before; `ending` is what comes of the bytes behind them. -/
private theorem decoded_before {parts : List Part} (sent : ∀ p ∈ parts, Sent p) (shallow : ∀ p ∈ parts, p.levels ≤ 8)
    {behind : Str} (ending : Nat → Result) (ends : ∀ x, x <+: behind → decoded x = ([], ending x.length)) {fed : Str}
    (front : fed <+: wire parts ++ behind) :
    decoded fed = (arrived parts fed.length,
      if (wire parts).length ≤ fed.length then ending (fed.length - (wire parts).length) else .pending) := by
  induction parts generalizing fed with
  | nil =>
    rw [ends fed front]
    rfl
  | cons p parts ih =>
    have here := sent p List.mem_cons_self
    have flat := shallow p List.mem_cons_self
    have whole : wire (p :: parts) ++ behind = p.bytes ++ (wire parts ++ behind) := List.append_assoc _ _ _
    have length : (wire (p :: parts)).length = p.bytes.length + (wire parts).length := List.length_append
    rw [whole] at front
    unfold arrived
    by_cases enough : p.bytes.length ≤ fed.length
    · obtain ⟨fed, rfl⟩ := List.prefix_of_prefix_length_le (List.prefix_append p.bytes _) front enough
      have later := ih (fun q member => sent q (List.mem_cons_of_mem p member))
        (fun q member => shallow q (List.mem_cons_of_mem p member)) ((List.prefix_append_right_inj _).mp front)
      rw [if_pos enough]
      simp only [length, List.length_append, Nat.add_sub_cancel_left, Nat.add_le_add_iff_left, Nat.add_sub_add_left]
      unfold decoded at later ⊢
      rw [settle_reply here flat, ← (Prod.mk.inj later).1, ← (Prod.mk.inj later).2]
      rfl
    · obtain ⟨y, same⟩ := List.prefix_of_prefix_length_le front (List.prefix_append p.bytes _) (by omega)
      rw [if_neg enough, if_neg (by omega)]
      refine decoded_part here flat same.symm ?_
      rintro rfl
      rw [List.append_nil] at same
      rw [same] at enough
      exact enough (Nat.le_refl _)

/-- A reply is there as soon as its last byte is, and not before. -/
theorem decoded_arrived {parts : List Part} (sent : ∀ p ∈ parts, Sent p) (shallow : ∀ p ∈ parts, p.levels ≤ 8) {fed : Str}
    (front : fed <+: wire parts) : decoded fed = (arrived parts fed.length, .pending) := by
  have nothing : ∀ x, x <+: [] → decoded x = ([], .pending) := by
    intro x none
    obtain rfl := List.prefix_nil.mp none
    exact decoded_nil
  rw [← List.append_nil (wire parts)] at front
  simpa using decoded_before sent shallow (fun _ => .pending) nothing front

/-- All that is fed. -/
def fedBy : List Op → Str
  | [] => []
  | .feed bytes :: ops => bytes ++ fedBy ops
  | .get :: ops => fedBy ops

/-- What the calls are to give of the replies that a server sends, where `ending` is what
    comes of so many bytes that hold none of these that is not given yet. -/
def due (parts : List Part) (ending : Nat → Result) : List Op → (n : Nat) → (taken : Nat) → List Result
  | [], _, _ => []
  | .feed bytes :: ops, n, taken => due parts ending ops (n + bytes.length) taken
  | .get :: ops, n, taken =>
    match (arrived parts n)[taken]? with
    | some reply => .reply reply :: due parts ending ops n (taken + 1)
    | none => ending n :: due parts ending ops n taken

/-- What the calls are to give of the replies that a server sends. -/
def owed (parts : List Part) : List Op → (n : Nat) → (taken : Nat) → List Result := due parts fun _ => .pending

private theorem expected_due {parts : List Part} {ending : Nat → Result} (defined : ∀ n, ending n ≠ .undefined) {whole : Str}
    (is : ∀ fed, fed <+: whole → decoded fed = (arrived parts fed.length, ending fed.length)) (ops : List Op) {fed : Str}
    (front : fed ++ fedBy ops <+: whole) (taken : Nat) : expected ops fed taken = due parts ending ops fed.length taken := by
  induction ops generalizing fed taken with
  | nil => rfl
  | cons op ops ih =>
    cases op with
    | feed bytes =>
      rw [fedBy, ← List.append_assoc] at front
      have later := ih front taken
      rw [List.length_append] at later
      exact later
    | get =>
      have here := is fed ((List.prefix_append fed (fedBy ops)).trans front)
      rw [expected, due, here]
      cases found : (arrived parts fed.length)[taken]? with
      | some reply => exact congrArg _ (ih front (taken + 1))
      | none =>
        have later := ih front taken
        cases result : ending fed.length with
        | undefined => exact absurd result (defined _)
        | reply | pending | refused => exact congrArg _ later

/-- Whatever a server sends, however it comes in: the calls give its replies in order,
    each as soon as its last byte is there. -/
theorem sent_delivered {parts : List Part} (sent : ∀ p ∈ parts, Sent p) (shallow : ∀ p ∈ parts, p.levels ≤ 8)
    {ops : List Op} (bounded : Bounded ops redisReaderCreate) (front : fedBy ops <+: wire parts) :
    results ops redisReaderCreate = owed parts ops 0 0 := by
  rw [results_expected ops rep_create (.start idle) bounded]
  exact expected_due (fun _ is => by cases is) (fun _ => decoded_arrived sent shallow) ops front 0

/-- A string with a line end in it and nil, in an array that comes in three parts. -/
theorem sent_delivered_array :
    results [.feed (lit "*2\r\n$3\r"), .get, .feed (lit "\na\r\n\r\n$-1\r"), .get, .feed (lit "\n"), .get]
        redisReaderCreate = [.pending, .pending, .reply (.array [.string (lit "a\r\n"), .nil])] := by
  have sent : ∀ p ∈ [(⟨.string (lit "a\r\n"), lit "$3\r\na\r\n\r\n", 0⟩ : Part), ⟨.nil, lit "$-1\r\n", 0⟩], Sent p := by
    intro p member
    rcases List.mem_pair.mp member with rfl | rfl
    · exact @Sent.string (lit "a\r\n") (by decide)
    · exact .nil_string
  have all : ∀ p ∈ [(⟨.array [.string (lit "a\r\n"), .nil], lit "*2\r\n$3\r\na\r\n\r\n$-1\r\n", 1⟩ : Part)], Sent p := by
    intro p member
    obtain rfl := List.mem_singleton.mp member
    exact .array (by decide) sent
  exact sent_delivered all (by decide) (bounded_of_total (by decide)) (by decide)

/-! ### Replies that go too deep -/

/-- From some byte on a reply that goes too deep is refused, whatever follows it; up to
    there it is a part of a reply. -/
private theorem decoded_deep {p : Part} (sent : Sent p) (deep : 8 < p.levels) :
    ∃ byte, 0 < byte ∧ byte ≤ p.bytes.length ∧ ∀ rest x, x <+: p.bytes ++ rest →
      decoded x = ([], if byte ≤ x.length then .refused too_deep else .pending) := by
  have refused : ∀ rest, ∃ l, reader.settle idle (p.bytes ++ rest) = ⟨[], .failed too_deep, l⟩ := by
    intro rest
    obtain ⟨l, steps⟩ := (sent_readBack sent).deep root [] rest rfl roomy_nil (Nat.zero_le 8) deep
    exact ⟨l, Transducer.settle_eq steps rfl⟩
  -- a front part that has failed stays so, and its error is that of the whole
  have part : ∀ rest x, x <+: p.bytes ++ rest → (reader.settle idle x).outputs = [] ∧
      ((reader.settle idle x).state = .failed too_deep ∨ ∃ cur below, (reader.settle idle x).state = .reading cur below) := by
    rintro rest x ⟨y, whole⟩
    obtain ⟨l, all⟩ := refused rest
    have again := reader.settle_append idle x y
    rw [whole, all] at again
    have outputs := congrArg Settled.outputs again
    refine ⟨(List.append_eq_nil_iff.mp outputs.symm).1, ?_⟩
    cases state : (reader.settle idle x).state with
    | reading cur below => exact .inr ⟨cur, below, rfl⟩
    | failed errstr =>
      rw [state, settle_failed] at again
      exact .inl (congrArg Settled.state again).symm
    | undefined =>
      rw [state, settle_undefined] at again
      cases congrArg Settled.state again
  have stays : ∀ {x : Str}, (reader.settle idle x).state = .failed too_deep → ∀ y,
      (reader.settle idle (x ++ y)).state = .failed too_deep := by
    intro x failed y
    rw [Transducer.settle_append, failed, settle_failed]
    rfl
  have some : ∃ n, n ≤ p.bytes.length ∧ (reader.settle idle (p.bytes.take n)).state = .failed too_deep := by
    obtain ⟨l, all⟩ := refused []
    rw [List.append_nil] at all
    exact ⟨p.bytes.length, Nat.le_refl _, by rw [List.take_length, all]⟩
  classical
  obtain ⟨le, fails⟩ := Nat.find_spec some
  refine ⟨Nat.find some, ?_, le, ?_⟩
  · by_contra zero
    rw [Nat.eq_zero_of_not_pos zero, List.take_zero, settle_nil] at fails
    cases fails
  · intro rest x front
    obtain ⟨outputs, state⟩ := part rest x front
    unfold decoded
    rw [outputs]
    by_cases enough : Nat.find some ≤ x.length
    · have taken : p.bytes.take (Nat.find some) <+: x := by
        refine List.prefix_of_prefix_length_le ((List.take_prefix _ _).trans (List.prefix_append _ rest)) front ?_
        rw [List.length_take]
        omega
      obtain ⟨y, rfl⟩ := taken
      rw [if_pos enough, stays fails y]
      rfl
    · rw [if_neg enough]
      rcases state with failed | ⟨cur, below, reading⟩
      · have here : x = p.bytes.take x.length := by
          have shorter := List.prefix_of_prefix_length_le front (List.prefix_append p.bytes rest) (by omega)
          exact List.prefix_iff_eq_take.mp shorter
        rw [here] at failed
        exact absurd ⟨by omega, failed⟩ (Nat.find_min some (by omega))
      · rw [reading]
        rfl

/-- Behind a reply that goes too deep there are no more replies, whatever the server sends
    and however it comes in: those before it are given, and from some byte of it on every
    other call is refused. -/
theorem too_deep_refused {p : Part} (last : Sent p) (deep : 8 < p.levels) :
    ∃ byte, 0 < byte ∧ byte ≤ p.bytes.length ∧ ∀ {before : List Part}, (∀ q ∈ before, Sent q) → (∀ q ∈ before, q.levels ≤ 8) →
      ∀ {rest : Str} {ops : List Op}, Bounded ops redisReaderCreate → fedBy ops <+: wire before ++ (p.bytes ++ rest) →
      results ops redisReaderCreate =
        due before (fun n => if (wire before).length + byte ≤ n then .refused too_deep else .pending) ops 0 0 := by
  obtain ⟨byte, some, le, ends⟩ := decoded_deep last deep
  refine ⟨byte, some, le, ?_⟩
  intro before sent shallow rest ops bounded front
  rw [results_expected ops rep_create (.start idle) bounded]
  refine expected_due (fun n is => by split at is <;> cases is) ?_ ops front 0
  intro fed front
  rw [decoded_before sent shallow (fun n => if byte ≤ n then .refused too_deep else .pending) (ends rest) front]
  congr 1
  split_ifs <;> first | rfl | omega

/-- One in so many arrays. -/
def nested : Nat → Part
  | 0 => ⟨.integer 1, 58 :: (number 1 ++ crlf), 0⟩
  | n + 1 => ⟨.array [(nested n).reply], 42 :: (digits 1 ++ crlf ++ wire [nested n]), deepest [nested n] + 1⟩

private theorem nested_sent (n : Nat) : Sent (nested n) ∧ (nested n).levels = n := by
  induction n with
  | zero => exact ⟨.integer (n := 1) (by decide) (by decide), rfl⟩
  | succ n ih =>
    refine ⟨@Sent.array [nested n] (by simp) ?_, ?_⟩
    · intro p member
      exact List.mem_singleton.mp member ▸ ih.1
    · show max (nested n).levels 0 + 1 = n + 1
      rw [ih.2, Nat.max_zero]

/-- Eight levels are read, nine are not; the reply of nine comes in two parts. -/
theorem too_deep_refused_nine :
    results [.feed (wire [nested 8]), .get, .get, .feed (nested 9).bytes, .get, .feed (lit "+OK\r\n"), .get]
        redisReaderCreate = [.reply (nested 8).reply, .pending, .refused too_deep, .refused too_deep] := by
  have deep : 8 < (nested 9).levels := by
    rw [(nested_sent 9).2]
    decide
  obtain ⟨byte, some, le, all⟩ := too_deep_refused (nested_sent 9).1 deep
  have front : (wire [nested 8]).length = 36 ∧ (nested 8).bytes.length = 36 ∧ (nested 9).bytes.length = 40 := by decide +kernel
  have small : total [.feed (wire [nested 8]), .get, .get, .feed (nested 9).bytes, .get, .feed (lit "+OK\r\n"), .get] < 2 ^ 31 := by
    decide +kernel
  have one : ∀ q ∈ [nested 8], Sent q ∧ q.levels ≤ 8 := by
    intro q member
    obtain rfl := List.mem_singleton.mp member
    exact ⟨(nested_sent 8).1, (nested_sent 8).2.le⟩
  rw [@all [nested 8] (fun q member => (one q member).1) (fun q member => (one q member).2) (lit "+OK\r\n") _
    (bounded_of_total small) ⟨[], by simp [fedBy]⟩]
  have early : ¬ 36 + byte ≤ 36 := by omega
  have late : 36 + byte ≤ 76 := by omega
  have later : 36 + byte ≤ 81 := by omega
  simp [due, arrived, front, early, late, later, lit]

end CppRedis.Encodings

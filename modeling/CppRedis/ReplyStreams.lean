import CppRedis.Readers

/-!
The stream of a server's replies as a machine without a buffer, and the reader against
it. An item is a byte for its type and what the type asks for (`typed`); what follows
makes no difference to an item that is there (`typed_stable`). However a stream comes
in and whenever replies are taken, the reader gives those of the whole stream
(`gives_decoded`).
-/
namespace CppRedis.ReplyStreams
open CppRedis.Strings CppRedis.Reply CppRedis.Requests CppRedis.Streams CppRedis.Readers

/-! ### Items -/

/-- A line and what follows it. -/
def cut : Str → Option (Str × Str)
  | [] => none
  | b :: s =>
    if b = 13 ∧ s.head? = some 10 then some ([], s.tail)
    else (cut s).map fun (line, rest) => (b :: line, rest)

/-- What becomes of an item: there is more to come, it has no result, it is refused, or
    it is read. -/
inductive Item
  | more
  | undefined
  | failed (errstr : Str)
  | read (rstack : List Task) (reply : Option RedisReply) (rest : Str)

/-- The object of the item is made. -/
def Item.done (cur : Task) (below : List Task) (obj : RedisReply) (rest : Str) : Item :=
  .read (moveToNextTask cur below obj).1 (moveToNextTask cur below obj).2 rest

/-- The array that an item of this number begins, or is. -/
def array_of (cur : Task) (below : List Task) (elements : Int) (rest : Str) : Item :=
  let n := elements.bmod (2 ^ 32)
  if elements = -1 then .done cur below .nil rest
  else if 0 < elements then .read ({ idx := 0 } :: { cur with elements := n, element := [] } :: below) none rest
  else .done cur below (createArray n) rest

/-- The string that an item of this length is. -/
def string_of (cur : Task) (below : List Task) (len : Int) (rest : Str) : Item :=
  if len < 0 then .done cur below .nil rest
  else if 2 ^ 63 ≤ len + 2 then .undefined
  else if len.toNat + 2 ≤ rest.length then
    .done cur below (.string (rest.take len.toNat)) (rest.drop (len.toNat + 2))
  else .more

/-- An item behind its line. -/
def lined (type : ItemType) (cur : Task) (below : List Task) (l line rest : Str) : Item :=
  match type with
  | .ERROR => .done cur below (.error line) rest
  | .STATUS => .done cur below (.status line) rest
  | .INTEGER => (readLongLong l).elim .undefined fun value => .done cur below (.integer value) rest
  | .STRING => (readLongLong l).elim .undefined fun len => string_of cur below len rest
  | .ARRAY => (readLongLong l).elim .undefined fun elements => array_of cur below elements rest

/-- The item behind the byte for its type. -/
def item_of (type : ItemType) (cur : Task) (below : List Task) (l : Str) : Item :=
  if type = .ARRAY ∧ below.length = 8 then .failed too_deep
  else (cut l).elim .more fun (line, rest) => lined type cur below l line rest

/-- An object needs room in the array that it stands in. -/
def Item.placed (below : List Task) : Item → Item
  | .read rstack reply rest => if Roomless below then .undefined else .read rstack reply rest
  | i => i

/-- The item of a task. -/
def typed (type : ItemType) (cur : Task) (below : List Task) (l : Str) : Item := (item_of type cur below l).placed below

/-- Where the machine stands. -/
inductive Parser
  | reading (cur : Task) (below : List Task)
  | failed (errstr : Str)
  | undefined

/-- The tasks go on with a new reply where none is left. -/
def Parser.tasks : List Task → Parser
  | [] => .reading root []
  | cur :: below => .reading cur below

def Item.step (l : Str) : Item → Option (Parser × Str × Option RedisReply)
  | .more => none
  | .undefined => some (.undefined, l, none)
  | .failed errstr => some (.failed errstr, l, none)
  | .read rstack reply rest => some (.tasks rstack, rest, reply)

def step : Parser → Str → Option (Parser × Str × Option RedisReply)
  | .reading cur below, l =>
    match cur.type, l with
    | some type, l => (typed type cur below l).step l
    | none, [] => none
    | none, byte :: rest =>
      match type_of byte with
      | none => some (.failed (protocol_byte byte), byte :: rest, none)
      | some type => some (.reading { cur with type := some type } below, rest, none)
  | _, _ => none

theorem step_typed {cur : Task} {below : List Task} {type : ItemType} (is : cur.type = some type) (l : Str) :
    step (.reading cur below) l = (typed type cur below l).step l := by
  simp only [step, is]

theorem step_untyped {cur : Task} {below : List Task} (is : cur.type = none) (byte : UInt8) (rest : Str) :
    step (.reading cur below) (byte :: rest) =
      match type_of byte with
      | none => some (.failed (protocol_byte byte), byte :: rest, none)
      | some type => some (.reading { cur with type := some type } below, rest, none) := by
  simp only [step, is]

theorem step_nil {cur : Task} {below : List Task} (shallow : ¬ (cur.type = some .ARRAY ∧ below.length = 8)) :
    step (.reading cur below) [] = none := by
  cases is : cur.type with
  | none => simp only [step, is]
  | some type =>
    rw [step_typed is, typed, item_of, if_neg fun both => shallow ⟨is.trans (congrArg _ both.1), both.2⟩]
    rfl

/-! ### What an item takes -/

theorem cut_eq {l line rest : Str} (is : cut l = some (line, rest)) : l = line ++ crlf ++ rest := by
  induction l generalizing line with
  | nil => cases is
  | cons b s ih =>
    unfold cut at is
    split at is
    · rename_i ends
      obtain ⟨rfl, head⟩ := ends
      cases is
      cases s with
      | nil => cases head
      | cons c s =>
        obtain rfl := Option.some.inj head
        rfl
    · obtain ⟨⟨line', rest'⟩, found, same⟩ := Option.map_eq_some_iff.mp is
      cases same
      rw [ih found]
      rfl

theorem cut_stable {l line rest : Str} (more : Str) (is : cut l = some (line, rest)) :
    cut (l ++ more) = some (line, rest ++ more) := by
  induction l generalizing line with
  | nil => cases is
  | cons b s ih =>
    unfold cut at is
    rw [List.cons_append, cut]
    split at is
    · rename_i ends
      cases is
      cases s with
      | nil => cases ends.2
      | cons c s =>
        rw [if_pos (show b = 13 ∧ (c :: s ++ more).head? = some 10 from ends)]
        rfl
    · rename_i goes_on
      obtain ⟨⟨line', rest'⟩, found, same⟩ := Option.map_eq_some_iff.mp is
      cases same
      have still : ¬ (b = 13 ∧ (s ++ more).head? = some 10) := by
        cases s with
        | nil => cases found
        | cons c s => exact goes_on
      rw [if_neg still, ih found]
      rfl

private theorem readLongLong_from_stable (mult : Int) {l : Str} (ends : 13 ∈ l) (more : Str) (v : Int) :
    readLongLong_from mult (l ++ more) v = readLongLong_from mult l v := by
  induction l generalizing v with
  | nil => cases ends
  | cons c s ih =>
    rw [List.cons_append, readLongLong_from, readLongLong_from]
    by_cases stop : c = 13
    · rw [if_pos stop, if_pos stop]
    · have later := ih ((List.mem_cons.mp ends).resolve_left (Ne.symm stop))
      simp only [later]

/-- The number ends with its line. -/
theorem readLongLong_stable {l line rest : Str} (is : cut l = some (line, rest)) (more : Str) :
    readLongLong (l ++ more) = readLongLong l := by
  have ends : (13 : UInt8) ∈ l := by
    rw [cut_eq is]
    simp [crlf]
  cases l with
  | nil => cases is
  | cons c s =>
    simp only [readLongLong, List.cons_append, List.head?_cons, List.tail_cons]
    by_cases minus : c = 45
    · subst minus
      simp only [↓reduceIte]
      exact readLongLong_from_stable _ ((List.mem_cons.mp ends).resolve_left (by decide)) more 0
    · by_cases plus : c = 43
      · subst plus
        simp only [Option.some.injEq, ↓reduceIte]
        exact readLongLong_from_stable _ ((List.mem_cons.mp ends).resolve_left (by decide)) more 0
      · simp only [Option.some.injEq, minus, plus, ↓reduceIte, ← List.cons_append]
        exact readLongLong_from_stable _ ends more 0

/-- More follows the item. -/
def Item.extend (more : Str) : Item → Item
  | .read rstack reply rest => .read rstack reply (rest ++ more)
  | i => i

private theorem string_of_stable {cur : Task} {below : List Task} {len : Int} {rest : Str} (more : Str)
    (there : string_of cur below len rest ≠ .more) :
    string_of cur below len (rest ++ more) = (string_of cur below len rest).extend more := by
  unfold string_of at there ⊢
  by_cases none : len < 0
  · rw [if_pos none, if_pos none]
    rfl
  · rw [if_neg none] at there ⊢
    rw [if_neg none]
    by_cases overflows : 2 ^ 63 ≤ len + 2
    · rw [if_pos overflows, if_pos overflows]
      rfl
    · rw [if_neg overflows] at there ⊢
      rw [if_neg overflows]
      by_cases room : len.toNat + 2 ≤ rest.length
      · have still : len.toNat + 2 ≤ (rest ++ more).length := by
          rw [List.length_append]
          omega
        rw [if_pos room, if_pos still, List.take_append_of_le_length (by omega), List.drop_append_of_le_length room]
        rfl
      · rw [if_neg room] at there
        exact absurd rfl there

private theorem array_of_stable (cur : Task) (below : List Task) (elements : Int) (rest more : Str) :
    array_of cur below elements (rest ++ more) = (array_of cur below elements rest).extend more := by
  unfold array_of
  dsimp only
  split_ifs <;> rfl

private theorem lined_stable {type : ItemType} {cur : Task} {below : List Task} {l line rest : Str}
    (is : cut l = some (line, rest)) (more : Str) (there : lined type cur below l line rest ≠ .more) :
    lined type cur below (l ++ more) line (rest ++ more) = (lined type cur below l line rest).extend more := by
  cases type with
  | ERROR => rfl
  | STATUS => rfl
  | INTEGER =>
    unfold lined
    rw [readLongLong_stable is]
    cases readLongLong l <;> rfl
  | STRING =>
    unfold lined at there ⊢
    rw [readLongLong_stable is]
    cases number : readLongLong l with
    | none => rfl
    | some len =>
      rw [number] at there
      exact string_of_stable more there
  | ARRAY =>
    unfold lined
    rw [readLongLong_stable is]
    cases readLongLong l with
    | none => rfl
    | some elements => exact array_of_stable cur below elements rest more

private theorem item_of_stable {type : ItemType} {cur : Task} {below : List Task} {l : Str} (more : Str)
    (there : item_of type cur below l ≠ .more) :
    item_of type cur below (l ++ more) = (item_of type cur below l).extend more := by
  unfold item_of at there ⊢
  by_cases deep : type = .ARRAY ∧ below.length = 8
  · rw [if_pos deep, if_pos deep]
    rfl
  · rw [if_neg deep] at there ⊢
    rw [if_neg deep]
    cases found : cut l with
    | none =>
      rw [found] at there
      exact absurd rfl there
    | some ends =>
      obtain ⟨line, rest⟩ := ends
      rw [found] at there
      rw [cut_stable more found]
      exact lined_stable found more there

private theorem placed_extend (below : List Task) (i : Item) (more : Str) :
    (i.extend more).placed below = (i.placed below).extend more := by
  cases i with
  | more | undefined | failed => rfl
  | read rstack reply rest =>
    simp only [Item.extend, Item.placed]
    split <;> rfl

theorem placed_more {below : List Task} {i : Item} : i.placed below = .more ↔ i = .more := by
  cases i with
  | more | undefined | failed => simp [Item.placed]
  | read rstack reply rest =>
    simp only [Item.placed]
    split <;> simp

theorem placed_read {below rstack : List Task} {i : Item} {reply : Option RedisReply} {rest : Str} :
    i.placed below = .read rstack reply rest ↔ i = .read rstack reply rest ∧ ¬ Roomless below := by
  cases i with
  | more | undefined | failed => simp [Item.placed]
  | read rstack reply rest =>
    simp only [Item.placed]
    split <;> simp_all

theorem placed_failed {below : List Task} {i : Item} {errstr : Str} : i.placed below = .failed errstr ↔ i = .failed errstr := by
  cases i with
  | more | undefined | failed => simp [Item.placed]
  | read rstack reply rest =>
    simp only [Item.placed]
    split <;> simp

/-- What follows makes no difference to an item that is there. -/
theorem typed_stable {type : ItemType} {cur : Task} {below : List Task} {l : Str} (more : Str)
    (there : typed type cur below l ≠ .more) :
    typed type cur below (l ++ more) = (typed type cur below l).extend more := by
  unfold typed at there ⊢
  rw [item_of_stable more fun is => there (placed_more.mpr is), placed_extend]

/-- A task is left exactly if there is no reply yet. -/
private theorem moveToNextTask_ends (cur : Task) (below : List Task) (obj : RedisReply) :
    (moveToNextTask cur below obj).1 = [] ↔ (moveToNextTask cur below obj).2 ≠ none := by
  induction below generalizing cur obj with
  | nil => simp [moveToNextTask]
  | cons prv below ih =>
    unfold moveToNextTask
    split
    · exact ih prv _
    · simp

/-- An item that is read takes one byte at least, and leaves a task exactly if there is
    no reply yet. -/
private def Takes (l : Str) : Item → Prop
  | .read rstack reply rest => (∃ front, front ≠ [] ∧ l = front ++ rest) ∧ (rstack = [] ↔ reply ≠ none)
  | _ => True

private theorem done_takes {l front rest : Str} (some : front ≠ []) (whole : l = front ++ rest) (cur : Task)
    (below : List Task) (obj : RedisReply) : Takes l (.done cur below obj rest) :=
  ⟨⟨front, some, whole⟩, moveToNextTask_ends cur below obj⟩

private theorem lined_takes {type : ItemType} {cur : Task} {below : List Task} {l line rest : Str}
    (is : cut l = some (line, rest)) : Takes l (lined type cur below l line rest) := by
  have some : line ++ crlf ≠ [] := by simp [crlf]
  have whole := cut_eq is
  cases type with
  | ERROR | STATUS => exact done_takes some whole cur below _
  | INTEGER =>
    unfold lined
    cases readLongLong l with
    | none => exact trivial
    | some value => exact done_takes some whole cur below _
  | STRING =>
    unfold lined
    cases readLongLong l with
    | none => exact trivial
    | some len =>
      show Takes l (string_of cur below len rest)
      unfold string_of
      split_ifs with none overflows room
      · exact done_takes some whole cur below _
      · exact trivial
      · have taken : line ++ crlf ++ rest.take (len.toNat + 2) ≠ [] := by simp [crlf]
        refine done_takes taken ?_ cur below _
        rw [List.append_assoc, List.take_append_drop, whole]
      · exact trivial
  | ARRAY =>
    unfold lined
    cases readLongLong l with
    | none => exact trivial
    | some elements =>
      show Takes l (array_of cur below elements rest)
      unfold array_of
      dsimp only
      split_ifs
      · exact done_takes some whole cur below _
      · exact ⟨⟨_, some, whole⟩, by simp⟩
      · exact done_takes some whole cur below _

/-- An item that is read is a front part of what was there. -/
theorem typed_takes {type : ItemType} {cur : Task} {below : List Task} {l rest : Str} {rstack : List Task}
    {reply : Option RedisReply} (is : typed type cur below l = .read rstack reply rest) :
    (∃ front, front ≠ [] ∧ l = front ++ rest) ∧ (rstack = [] ↔ reply ≠ none) := by
  have all : Takes l (item_of type cur below l) := by
    unfold item_of
    split
    · exact trivial
    · cases found : cut l with
      | none => exact trivial
      | some ends => exact lined_takes found
  rw [(placed_read.mp is).1] at all
  exact all

theorem typed_shorter {type : ItemType} {cur : Task} {below : List Task} {l rest : Str} {rstack : List Task}
    {reply : Option RedisReply} (is : typed type cur below l = .read rstack reply rest) : rest.length < l.length := by
  obtain ⟨⟨front, some, rfl⟩, _⟩ := typed_takes is
  have := List.length_pos_iff.mpr some
  rw [List.length_append]
  omega

/-! ### The machine -/

/-- What is unread, and whether the machine still reads. -/
def size : Parser → Str → Nat
  | .reading _ _, l => 2 * l.length + 1
  | _, l => 2 * l.length

private theorem size_le (s : Parser) (l : Str) : size s l ≤ 2 * l.length + 1 := by
  cases s with
  | reading cur below => exact Nat.le_refl _
  | failed errstr => exact Nat.le_succ _
  | undefined => exact Nat.le_succ _

private theorem step_decreases {s s' : Parser} {l l' : Str} {b : Option RedisReply}
    (taken : step s l = some (s', l', b)) : size s' l' < size s l := by
  cases s with
  | failed errstr => cases taken
  | undefined => cases taken
  | reading cur below =>
    unfold step at taken
    cases type_is : cur.type with
    | some type =>
      simp only [type_is] at taken
      cases item : typed type cur below l with
      | more =>
        rw [item] at taken
        cases taken
      | undefined | failed =>
        rw [item] at taken
        cases taken
        exact Nat.lt_succ_self _
      | read rstack reply rest =>
        have shorter := typed_shorter item
        rw [item] at taken
        cases taken
        have := size_le (.tasks rstack) l'
        show _ < 2 * l.length + 1
        omega
    | none =>
      simp only [type_is] at taken
      cases l with
      | nil => cases taken
      | cons byte rest =>
        cases type : type_of byte with
        | none =>
          simp only [type] at taken
          cases taken
          exact Nat.lt_succ_self _
        | some is =>
          simp only [type] at taken
          cases taken
          simp only [size, List.length_cons]
          omega

private theorem step_stable {s s' : Parser} {l l' : Str} {b : Option RedisReply} (more : Str)
    (taken : step s l = some (s', l', b)) : step s (l ++ more) = some (s', l' ++ more, b) := by
  cases s with
  | failed errstr => cases taken
  | undefined => cases taken
  | reading cur below =>
    unfold step at taken ⊢
    cases type_is : cur.type with
    | some type =>
      simp only [type_is] at taken ⊢
      have there : typed type cur below l ≠ .more := by
        intro is
        rw [is] at taken
        cases taken
      rw [typed_stable more there]
      cases item : typed type cur below l with
      | more => exact absurd item there
      | undefined | failed | read =>
        rw [item] at taken
        cases taken
        rfl
    | none =>
      simp only [type_is] at taken ⊢
      cases l with
      | nil => cases taken
      | cons byte rest =>
        simp only [List.cons_append] at taken ⊢
        cases type : type_of byte with
        | none | some =>
          rw [type] at taken
          cases taken
          rfl

/-- The server's replies, item by item. -/
def reader : Transducer Parser UInt8 RedisReply where
  step := step
  size := size
  decreases := step_decreases
  stable := step_stable

theorem steps_one {s s' : Parser} {l l' : Str} {b : Option RedisReply} (taken : step s l = some (s', l', b)) :
    reader.Steps s l b.toList s' l' := .one taken

theorem steps_length {s s' : Parser} {l l' : Str} {bs : List RedisReply} (steps : reader.Steps s l bs s' l') :
    l'.length ≤ l.length := by
  have smaller : ∀ {s s' : Parser} {l l' : Str} {bs : List RedisReply}, reader.Steps s l bs s' l' → size s' l' ≤ size s l := by
    intro s s' l l' bs steps
    induction steps with
    | refl => exact Nat.le_refl _
    | step taken _ ih => exact le_trans ih (Nat.le_of_lt (reader.decreases taken))
  have least : 2 * l'.length ≤ size s' l' := by cases s' <;> simp [size]
  have := smaller steps
  have := size_le s l
  omega

private theorem step_shorter {s s' : Parser} {l l' : Str} {reply : RedisReply}
    (taken : step s l = some (s', l', some reply)) : l'.length < l.length := by
  cases s with
  | failed errstr => cases taken
  | undefined => cases taken
  | reading cur below =>
    unfold step at taken
    cases type_is : cur.type with
    | some type =>
      simp only [type_is] at taken
      cases item : typed type cur below l with
      | more | undefined | failed =>
        rw [item] at taken
        cases taken
      | read rstack reply rest =>
        have shorter := typed_shorter item
        rw [item] at taken
        cases taken
        exact shorter
    | none =>
      simp only [type_is] at taken
      cases l with
      | nil => cases taken
      | cons byte rest =>
        cases type : type_of byte with
        | none | some =>
          simp only [type] at taken
          cases taken

/-- A reply takes one byte at least. -/
theorem steps_shorter {s s' : Parser} {l l' : Str} {reply : RedisReply} {bs : List RedisReply}
    (steps : reader.Steps s l (reply :: bs) s' l') : l'.length < l.length := by
  obtain ⟨s₁, l₁, s₂, l₂, silent, puts, rest⟩ := steps.first
  have := steps_length silent
  have := step_shorter puts
  have := steps_length rest
  omega

/-- Before the first byte of a reply. -/
def idle : Parser := .reading root []

theorem idle_stops : reader.step idle [] = none :=
  show step (.reading root []) [] = none from step_nil fun both => nomatch both.1

theorem settle_nil : reader.settle idle [] = ⟨[], idle, []⟩ := Transducer.settle_stopped idle_stops

theorem settle_failed (errstr l : Str) : reader.settle (.failed errstr) l = ⟨[], .failed errstr, l⟩ :=
  Transducer.settle_stopped (show step (.failed errstr) l = none from rfl)

theorem settle_undefined (l : Str) : reader.settle .undefined l = ⟨[], .undefined, l⟩ :=
  Transducer.settle_stopped (show step .undefined l = none from rfl)

/-! ### The items of the reader -/

private theorem seekNewline_from_succ (skip : Bool) (n : Nat) (c : UInt8) (s : Str) (pos : Nat) :
    seekNewline_from skip (n + 1) (c :: s) pos =
      if c = 13 then
        if s.head? = some 10 then some pos else seekNewline_from false n s (pos + 1)
      else seekNewline_from true n s (pos + 1) := by
  cases skip <;> rfl

/-- The loops look at the last byte too, behind which there is no line feed. -/
private theorem seekNewline_from_eq {s : Str} (skip : Bool) {n : Nat} (all : s.length = n + 1) (pos : Nat) :
    seekNewline_from skip n s pos = (cut s).map fun (line, _) => pos + line.length := by
  induction s generalizing skip n pos with
  | nil => cases all
  | cons c s ih =>
    rw [List.length_cons, Nat.add_right_cancel_iff] at all
    unfold cut
    cases n with
    | zero =>
      obtain rfl := List.length_eq_zero_iff.mp all
      cases skip <;> simp [seekNewline_from, cut]
    | succ n =>
      have later : ∀ skip, seekNewline_from skip n s (pos + 1) =
          ((cut s).map fun (line, rest) => (c :: line, rest)).map fun (line, _) => pos + line.length := by
        intro skip
        rw [ih skip all, Option.map_map]
        congr 1
        funext ends
        simp only [Function.comp, List.length_cons]
        omega
      rw [seekNewline_from_succ]
      by_cases stop : c = 13
      · rw [if_pos stop]
        by_cases follows : s.head? = some 10
        · rw [if_pos follows, if_pos ⟨stop, follows⟩]
          rfl
        · rw [if_neg follows, if_neg fun both => follows both.2, later]
      · rw [if_neg stop, if_neg fun both => stop both.1, later]

/-- Where an `int` can count the bytes. -/
theorem seekNewline_eq {s : Str} (small : s.length < 2 ^ 31) : seekNewline s = (cut s).map fun (line, _) => line.length := by
  cases s with
  | nil => rfl
  | cons c s =>
    rw [List.length_cons] at small
    have counted : (int_of_size ((c :: s).length - 1)).toNat = s.length := by
      rw [List.length_cons, Nat.add_sub_cancel, int_of_size_small (by omega), Int.toNat_natCast]
    unfold seekNewline
    rw [counted, seekNewline_from_eq false rfl]
    simp only [Nat.zero_add]

/-- What the item makes of the reader. -/
def Item.result (r : RedisReader) : Item → Option (Bool × RedisReader)
  | .more => some (false, r)
  | .undefined => none
  | .failed errstr => some (false, r.setError REDIS_ERR_PROTOCOL errstr)
  | .read rstack reply rest => some (true, { r with pos := r.buf.length - rest.length, rstack := rstack, reply := reply })

variable {r r' : RedisReader} {cur : Task} {below : List Task}

/-- The cursor stands in the buffer, whose bytes an `int` can count. -/
structure Counted (r : RedisReader) : Prop where
  inside : r.pos ≤ r.buf.length
  small : r.buf.length < 2 ^ 31

theorem unread_length (r : RedisReader) : r.unread.length = r.buf.length - r.pos := List.length_drop

theorem Counted.unread_small (counted : Counted r) : r.unread.length < 2 ^ 31 := by
  have := unread_length r
  have := counted.small
  omega

private theorem Counted.unread_cut (counted : Counted r) {line rest : Str} (found : cut r.unread = some (line, rest)) :
    r.buf.length = r.pos + line.length + 2 + rest.length ∧ r.unread.take line.length = line ∧
      r.unread.drop (line.length + 2) = rest := by
  have whole := cut_eq found
  have length := unread_length r
  have inside := counted.inside
  rw [whole]
  refine ⟨?_, ?_, ?_⟩
  · rw [whole] at length
    simp only [List.length_append, crlf, List.length_cons, List.length_nil] at length
    omega
  · simp
  · simp [crlf]

private theorem Counted.readLine_eq (counted : Counted r) :
    r.readLine = (cut r.unread).map fun (line, rest) => (line, { r with pos := r.buf.length - rest.length }) := by
  unfold RedisReader.readLine
  rw [seekNewline_eq counted.unread_small]
  cases found : cut r.unread with
  | none => rfl
  | some ends =>
    obtain ⟨line, rest⟩ := ends
    obtain ⟨length, front, _⟩ := counted.unread_cut found
    have cursor : r.pos + line.length + 2 = r.buf.length - rest.length := by omega
    simp only [Option.map_some, front, cursor]

private theorem Counted.processLineItem_eq (counted : Counted r) {type : ItemType}
    (plain : type = .ERROR ∨ type = .STATUS ∨ type = .INTEGER) :
    r.processLineItem type cur below = (item_of type cur below r.unread).result r := by
  have shallow : ¬ (type = .ARRAY ∧ below.length = 8) := by
    rintro ⟨rfl, _⟩
    simp at plain
  unfold RedisReader.processLineItem item_of
  rw [if_neg shallow, counted.readLine_eq]
  cases cut r.unread with
  | none => rfl
  | some ends =>
    obtain ⟨line, rest⟩ := ends
    rcases plain with rfl | rfl | rfl
    · rfl
    · rfl
    · show (readLongLong r.unread).map _ = Item.result r ((readLongLong r.unread).elim _ _)
      cases readLongLong r.unread <;> rfl

private theorem Counted.processBulkItem_eq (counted : Counted r) :
    r.processBulkItem cur below = (item_of .STRING cur below r.unread).result r := by
  unfold RedisReader.processBulkItem item_of
  rw [if_neg fun is => ItemType.noConfusion is.1, seekNewline_eq counted.unread_small]
  cases found : cut r.unread with
  | none => rfl
  | some ends =>
    obtain ⟨line, rest⟩ := ends
    obtain ⟨length, _, back⟩ := counted.unread_cut found
    simp only [Option.map_some, Option.elim_some, lined]
    cases readLongLong r.unread with
    | none => rfl
    | some len =>
      simp only [Option.elim_some, string_of, back]
      by_cases none : len < 0
      · have cursor : r.pos + (line.length + 2) = r.buf.length - rest.length := by omega
        rw [if_pos none, if_pos none, cursor]
        rfl
      · rw [if_neg none, if_neg none]
        by_cases overflows : 2 ^ 63 ≤ len + 2
        · rw [if_pos overflows, if_pos overflows]
          rfl
        · rw [if_neg overflows, if_neg overflows]
          by_cases room : len.toNat + 2 ≤ rest.length
          · have there : r.pos + (line.length + 2 + (len.toNat + 2)) ≤ r.buf.length := by omega
            have cursor : r.pos + (line.length + 2 + (len.toNat + 2)) = r.buf.length - (rest.drop (len.toNat + 2)).length := by
              rw [List.length_drop]
              omega
            rw [if_pos there, if_pos room, cursor]
            rfl
          · have missing : ¬ r.pos + (line.length + 2 + (len.toNat + 2)) ≤ r.buf.length := by omega
            rw [if_neg missing, if_neg room]
            rfl

private theorem Counted.processMultiBulkItem_eq (counted : Counted r) :
    r.processMultiBulkItem cur below = (item_of .ARRAY cur below r.unread).result r := by
  unfold RedisReader.processMultiBulkItem item_of
  by_cases deep : below.length = 8
  · rw [if_pos deep, if_pos ⟨rfl, deep⟩]
    rfl
  · rw [if_neg deep, if_neg fun is => deep is.2, counted.readLine_eq]
    cases cut r.unread with
    | none => rfl
    | some ends =>
      obtain ⟨line, rest⟩ := ends
      simp only [Option.map_some, Option.elim_some, lined]
      cases readLongLong r.unread with
      | none => rfl
      | some elements =>
        simp only [Option.elim_some, array_of]
        split_ifs <;> rfl

/-- The items of the reader are those of the machine. -/
theorem Counted.processTyped_eq (counted : Counted r) (type : ItemType) :
    r.processTyped type cur below = (typed type cur below r.unread).result r := by
  have processed : r.processByType type cur below = (item_of type cur below r.unread).result r := by
    cases type with
    | STRING => exact counted.processBulkItem_eq
    | ARRAY => exact counted.processMultiBulkItem_eq
    | ERROR => exact counted.processLineItem_eq (.inl rfl)
    | STATUS => exact counted.processLineItem_eq (.inr (.inl rfl))
    | INTEGER => exact counted.processLineItem_eq (.inr (.inr rfl))
  unfold RedisReader.processTyped typed
  rw [processed]
  cases item_of type cur below r.unread with
  | more | undefined | failed => rfl
  | read rstack reply rest =>
    simp only [Item.result, Item.placed]
    split <;> rfl

end CppRedis.ReplyStreams

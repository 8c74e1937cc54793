import CppRedis.ReplyStreams

/-!
The replies that the reader gives, call by call. A call of `redisReaderGetReply` takes
steps of the machine up to its next output (`get_reply`); in every run of feeds and
calls, each call gives the next reply of all that was fed so far, if it is whole
(`gives_decoded`).
-/
namespace CppRedis.Deliveries
open CppRedis.Strings CppRedis.Reply CppRedis.Requests CppRedis.Streams CppRedis.Readers CppRedis.ReplyStreams

variable {r r' : RedisReader} {cur cur' : Task} {below below' : List Task} {l l' : Str}

/-! ### One item -/

/-- The reader is at an item. -/
structure Reads (r : RedisReader) (cur : Task) (below : List Task) : Prop where
  err : r.err = 0
  reply : r.reply = none
  rstack : r.rstack = cur :: below
  counted : Counted r

/-- What `processItem` does, in steps of the machine. -/
inductive Processed (r : RedisReader) (cur : Task) (below : List Task) : Option (Bool × RedisReader) → Prop
  | undefined {l : Str} (steps : reader.Steps (.reading cur below) r.unread [] .undefined l) : Processed r cur below none
  | refused {r' : RedisReader} {l : Str} (err : r'.err = REDIS_ERR_PROTOCOL) (empty : r'.buf = [])
      (steps : reader.Steps (.reading cur below) r.unread [] (.failed r'.errstr) l) :
      Processed r cur below (some (false, r'))
  | waiting {r' : RedisReader} {cur' : Task} {below' : List Task} (reads : Reads r' cur' below') (same : r'.buf = r.buf)
      (steps : reader.Steps (.reading cur below) r.unread [] (.reading cur' below') r'.unread)
      (stops : step (.reading cur' below') r'.unread = none) : Processed r cur below (some (false, r'))
  | taken {r' : RedisReader} (err : r'.err = 0) (counted : Counted r') (same : r'.buf = r.buf)
      (shorter : r'.unread.length < r.unread.length) (ends : r'.rstack = [] ↔ r'.reply ≠ none)
      (steps : reader.Steps (.reading cur below) r.unread r'.reply.toList (.tasks r'.rstack) r'.unread) :
      Processed r cur below (some (true, r'))

/-- A step before. -/
private theorem Processed.behind {r₁ : RedisReader} {result : Option (Bool × RedisReader)}
    (processed : Processed r₁ cur' below' result) (same : r₁.buf = r.buf) (le : r₁.unread.length ≤ r.unread.length)
    (steps : reader.Steps (.reading cur below) r.unread [] (.reading cur' below') r₁.unread) :
    Processed r cur below result := by
  cases processed with
  | undefined later => exact .undefined (steps.trans later)
  | refused err empty later => exact .refused err empty (steps.trans later)
  | waiting reads same' later stops => exact .waiting reads (same'.trans same) (steps.trans later) stops
  | taken err counted same' shorter ends later =>
    exact .taken err counted (same'.trans same) (by omega) ends (steps.trans later)

private theorem typed_failed {type : ItemType} {errstr : Str} (is : typed type cur below l = .failed errstr) :
    errstr = too_deep := by
  replace is := placed_failed.mp is
  unfold item_of at is
  split at is
  · exact (Item.failed.inj is).symm
  · cases found : cut l with
    | none =>
      rw [found] at is
      cases is
    | some ends =>
      rw [found] at is
      cases type with
      | ERROR | STATUS => cases is
      | INTEGER =>
        simp only [Option.elim_some, lined] at is
        cases number : readLongLong l <;> rw [number] at is <;> cases is
      | STRING =>
        simp only [Option.elim_some, lined] at is
        cases number : readLongLong l with
        | none =>
          rw [number] at is
          cases is
        | some len =>
          rw [number] at is
          simp only [Option.elim_some, string_of] at is
          split_ifs at is <;> cases is
      | ARRAY =>
        simp only [Option.elim_some, lined] at is
        cases number : readLongLong l with
        | none =>
          rw [number] at is
          cases is
        | some elements =>
          rw [number] at is
          simp only [Option.elim_some, array_of] at is
          split_ifs at is <;> cases is

/-- The cursor is where the rest begins. -/
private theorem drop_rest {r : RedisReader} {front rest : Str} (inside : r.pos ≤ r.buf.length)
    (whole : r.unread = front ++ rest) : r.buf.drop (r.buf.length - rest.length) = rest := by
  have length := unread_length r
  rw [whole, List.length_append] at length
  have place : r.buf.length - rest.length = r.pos + front.length := by omega
  rw [place, ← List.drop_drop]
  show r.unread.drop front.length = rest
  rw [whole, List.drop_left]

private theorem processTyped_processed (reads : Reads r cur below) {type : ItemType} (is : cur.type = some type) :
    Processed r cur below (r.processTyped type cur below) := by
  have one : ∀ {s l b}, (typed type cur below r.unread).step r.unread = some (s, l, b) →
      reader.Steps (.reading cur below) r.unread b.toList s l := by
    intro s l b taken
    refine steps_one ?_
    simpa only [step, is] using taken
  rw [reads.counted.processTyped_eq]
  cases item : typed type cur below r.unread with
  | more =>
    refine .waiting reads rfl (.refl _ _) ?_
    simp only [step, is, item, Item.step]
  | undefined =>
    rw [item] at one
    exact .undefined (one rfl)
  | failed errstr =>
    rw [item] at one
    obtain rfl := typed_failed item
    exact .refused rfl rfl (one rfl)
  | read rstack reply rest =>
    rw [item] at one
    obtain ⟨⟨front, some, whole⟩, ends⟩ := typed_takes item
    have shorter := typed_shorter item
    have behind := drop_rest reads.counted.inside whole
    refine .taken reads.err ⟨Nat.sub_le _ _, reads.counted.small⟩ rfl ?_ ends ?_
    · simpa only [RedisReader.unread, behind] using shorter
    · simpa only [RedisReader.unread, behind] using one rfl

private theorem protocol_byte_short (byte : UInt8) : (protocol_byte byte).take 127 = protocol_byte byte := by
  apply List.take_of_length_le
  have text : (chrtos byte).length ≤ 7 := by
    unfold chrtos
    split_ifs <;> simp [lit]
  have front : (lit "Protocol error, got ").length = 20 := rfl
  have back : (lit " as reply type byte").length = 19 := rfl
  simp only [protocol_byte, List.length_append, front, back]
  omega

theorem processItem_processed (reads : Reads r cur below) : Processed r cur below (r.processItem cur below) := by
  cases is : cur.type with
  | some type =>
    simp only [RedisReader.processItem, is]
    exact processTyped_processed reads is
  | none =>
    cases bytes : r.unread with
    | nil =>
      simp only [RedisReader.processItem, is, bytes]
      refine .waiting reads rfl (.refl _ _) ?_
      simp only [step, is, bytes]
    | cons byte rest =>
      have length := unread_length r
      rw [bytes, List.length_cons] at length
      cases type : type_of byte with
      | none =>
        simp only [RedisReader.processItem, is, bytes, type]
        refine .refused (l := byte :: rest) rfl rfl (steps_one (b := none) ?_)
        simp only [step, is, bytes, type]
        exact congrArg (fun errstr => some (Parser.failed errstr, byte :: rest, none)) (protocol_byte_short byte).symm
      | some type' =>
        simp only [RedisReader.processItem, is, bytes, type]
        have cursor : r.buf.drop (r.pos + 1) = rest := by
          rw [← List.drop_drop]
          show r.unread.drop 1 = rest
          rw [bytes]
          rfl
        have small := reads.counted.small
        have next : Reads { r with pos := r.pos + 1, rstack := { cur with type := some type' } :: below }
            { cur with type := some type' } below :=
          ⟨reads.err, reads.reply, rfl, show r.pos + 1 ≤ r.buf.length by omega, small⟩
        refine (processTyped_processed next rfl).behind rfl ?_ (steps_one (b := none) ?_)
        · show (r.buf.drop (r.pos + 1)).length ≤ _
          rw [cursor, bytes]
          exact Nat.le_succ _
        · show step _ _ = some (_, r.buf.drop (r.pos + 1), none)
          simp only [step, is, bytes, type, cursor]

/-! ### One call -/

/-- What the loop of `redisReaderGetReply` does. -/
inductive Drained (s : Parser) (l buf : Str) : Option RedisReader → Prop
  | undefined {l' : Str} (steps : reader.Steps s l [] .undefined l') : Drained s l buf none
  | refused {r' : RedisReader} {l' : Str} (err : r'.err = REDIS_ERR_PROTOCOL) (empty : r'.buf = [])
      (steps : reader.Steps s l [] (.failed r'.errstr) l') : Drained s l buf (some r')
  | waiting {r' : RedisReader} {cur' : Task} {below' : List Task} (reads : Reads r' cur' below') (same : r'.buf = buf)
      (steps : reader.Steps s l [] (.reading cur' below') r'.unread)
      (stops : step (.reading cur' below') r'.unread = none) : Drained s l buf (some r')
  | given {r' : RedisReader} {reply : RedisReply} (err : r'.err = 0) (counted : Counted r') (same : r'.buf = buf)
      (rstack : r'.rstack = []) (is : r'.reply = some reply)
      (steps : reader.Steps s l [reply] idle r'.unread) : Drained s l buf (some r')

private theorem Drained.behind {s s' : Parser} {buf : Str} {result : Option RedisReader}
    (drained : Drained s' l' buf result) (steps : reader.Steps s l [] s' l') : Drained s l buf result := by
  cases drained with
  | undefined later => exact .undefined (steps.trans later)
  | refused err empty later => exact .refused err empty (steps.trans later)
  | waiting reads same later stops => exact .waiting reads same (steps.trans later) stops
  | given err counted same rstack is later => exact .given err counted same rstack is (steps.trans later)

private theorem processItems_drained {fuel : Nat} (reads : Reads r cur below) (enough : r.unread.length < fuel) :
    Drained (.reading cur below) r.unread r.buf (r.processItems fuel) := by
  induction fuel generalizing r cur below with
  | zero => omega
  | succ fuel ih =>
    have processed := processItem_processed reads
    simp only [RedisReader.processItems, reads.rstack]
    revert processed
    cases r.processItem cur below with
    | none =>
      intro processed
      cases processed with
      | undefined steps => exact .undefined steps
    | some result =>
      obtain ⟨ok, r'⟩ := result
      intro processed
      cases processed with
      | refused err empty steps => exact .refused err empty steps
      | waiting reads' same steps stops => exact .waiting reads' same steps stops
      | taken err counted same shorter ends steps =>
        cases tasks : r'.rstack with
        | nil =>
          obtain ⟨reply, is⟩ := Option.ne_none_iff_exists'.mp (ends.mp tasks)
          rw [is, tasks] at steps
          have stays : r'.processItems fuel = some r' := by cases fuel <;> simp [RedisReader.processItems, tasks]
          show Drained _ _ _ (r'.processItems fuel)
          rw [stays]
          exact .given err counted same tasks is steps
        | cons cur' below' =>
          have none : r'.reply = none := by
            by_contra some
            rw [ends.mpr some] at tasks
            cases tasks
          rw [none, tasks] at steps
          have later := ih (r := r') ⟨err, none, tasks, counted⟩ (by omega)
          rw [same] at later
          exact later.behind steps

/-- The machine stands where the reader stands; a reader that has failed has no
    buffer. -/
inductive Rep : RedisReader → Parser → Str → Prop
  | reading {r : RedisReader} {cur : Task} {below : List Task} {l : Str} (err : r.err = 0) (reply : r.reply = none)
      (counted : Counted r) (tasks : Parser.tasks r.rstack = .reading cur below)
      (shallow : ¬ (cur.type = some .ARRAY ∧ below.length = 8)) (unread : r.unread = l) : Rep r (.reading cur below) l
  | failed {r : RedisReader} (err : r.err = REDIS_ERR_PROTOCOL) (empty : r.buf = []) (l : Str) : Rep r (.failed r.errstr) l

/-- What a call of `redisReaderGetReply` does, in steps of the machine. -/
inductive Got (r : RedisReader) (s : Parser) (l : Str) : Option (Except Unit (Option RedisReply) × RedisReader) → Prop
  | undefined {l' : Str} (steps : reader.Steps s l [] .undefined l') : Got r s l none
  | refused {r' : RedisReader} {l' : Str} (steps : reader.Steps s l [] (.failed r'.errstr) l')
      (rep : Rep r' (.failed r'.errstr) l') : Got r s l (some (.error (), r'))
  | pending {r' : RedisReader} {cur' : Task} {below' : List Task} {l' : Str} (le : r'.buf.length ≤ r.buf.length)
      (low : r'.pos < 1024)
      (steps : reader.Steps s l [] (.reading cur' below') l') (rep : Rep r' (.reading cur' below') l')
      (stops : step (.reading cur' below') l' = none) : Got r s l (some (.ok none, r'))
  | given {r' : RedisReader} {s' : Parser} {l' : Str} {reply : RedisReply} (le : r'.buf.length ≤ r.buf.length)
      (low : r'.pos < 1024) (steps : reader.Steps s l [reply] s' l') (rep : Rep r' s' l') : Got r s l (some (.ok (some reply), r'))

theorem rep_create : Rep redisReaderCreate idle [] :=
  .reading (r := redisReaderCreate) rfl rfl ⟨Nat.le_refl 0, by decide⟩ rfl (fun both => nomatch both.1) rfl

/-- A failed step leaves the array at a depth that has room for it. -/
private theorem shallow_of_stops (stops : step (.reading cur below) l = none) :
    ¬ (cur.type = some .ARRAY ∧ below.length = 8) := by
  rintro ⟨type, deep⟩
  have refused : step (.reading cur below) l = some (.failed too_deep, l, none) := by
    simp only [step, type, typed, item_of, deep, and_self, ↓reduceIte, Item.placed, Item.step]
  cases stops.symm.trans refused

/-- What a call does behind its loop. -/
private def discarded (r : RedisReader) : RedisReader :=
  if 1024 ≤ r.pos then { r with buf := sdsrange_from r.buf (int_of_size r.pos), pos := 0 } else r

private theorem discarded_keeps (counted : Counted r) :
    (discarded r).unread = r.unread ∧ Counted (discarded r) ∧ (discarded r).buf.length ≤ r.buf.length ∧
      (discarded r).pos < 1024 ∧ (discarded r).err = r.err ∧ (discarded r).reply = r.reply ∧ (discarded r).rstack = r.rstack := by
  unfold discarded
  split
  · have inside := counted.inside
    have small := counted.small
    have range : sdsrange_from r.buf (int_of_size r.pos) = r.buf.drop r.pos := by
      rw [int_of_size_small (by omega), sdsrange_from, if_neg (by omega), Int.toNat_natCast]
    have length := unread_length r
    unfold RedisReader.unread at length
    refine ⟨?_, ⟨Nat.zero_le _, ?_⟩, ?_, Nat.zero_lt_succ _, rfl, rfl, rfl⟩
    · simp only [RedisReader.unread, range, List.drop_zero]
    · simp only [range]
      omega
    · simp only [range]
      omega
  · exact ⟨rfl, counted, Nat.le_refl _, by omega, rfl, rfl, rfl⟩

/-- The stack is not empty when the loop begins. -/
private def started (r : RedisReader) : RedisReader := if r.rstack = [] then { r with rstack := [root] } else r

private theorem started_keeps (r : RedisReader) : (started r).unread = r.unread ∧ (started r).buf = r.buf := by
  unfold started
  split
  · exact ⟨rfl, rfl⟩
  · exact ⟨rfl, rfl⟩

private theorem redisReaderGetReply_eq (err : r.err = 0) (filled : r.buf.length ≠ 0) :
    redisReaderGetReply r =
      match (started r).processItems ((started r).unread.length + 1) with
      | none => none
      | some r =>
        if r.err ≠ 0 then some (.error (), r)
        else if (discarded r).rstack = [] then some (.ok (discarded r).reply, { discarded r with reply := none })
        else some (.ok none, discarded r) := by
  unfold redisReaderGetReply
  rw [if_neg (not_not.mpr err), if_neg filled]
  rfl

private theorem reads_got (err : r.err = 0) (filled : r.buf.length ≠ 0) (reads : Reads (started r) cur below) :
    Got r (.reading cur below) r.unread (redisReaderGetReply r) := by
  obtain ⟨unread, buf⟩ := started_keeps r
  rw [redisReaderGetReply_eq err filled, ← unread]
  have drained := processItems_drained reads (Nat.lt_succ_self _)
  rw [buf] at drained
  revert drained
  cases (started r).processItems ((started r).unread.length + 1) with
  | none =>
    intro drained
    cases drained with
    | undefined steps => exact .undefined steps
  | some r' =>
    intro drained
    cases drained with
    | refused err empty steps =>
      have bad : r'.err ≠ 0 := by
        rw [err]
        decide
      simp only [if_pos bad]
      exact .refused steps (.failed err empty _)
    | waiting reads' same steps stops =>
      obtain ⟨unread, counted, le, low, err, reply, rstack⟩ := discarded_keeps reads'.counted
      have busy : (discarded r').rstack ≠ [] := by
        rw [rstack, reads'.rstack]
        exact List.cons_ne_nil _ _
      simp only [if_neg (not_not.mpr reads'.err), if_neg busy]
      rw [← unread] at steps stops
      rw [same] at le
      refine .pending le low steps (.reading (err.trans reads'.err) (reply.trans reads'.reply) counted ?_ ?_ rfl) stops
      · rw [rstack, reads'.rstack]
        rfl
      · exact shallow_of_stops stops
    | given err counted same rstack is steps =>
      obtain ⟨unread, counted', le, low, err', reply', rstack'⟩ := discarded_keeps counted
      have free : (discarded r').rstack = [] := rstack'.trans rstack
      simp only [if_neg (not_not.mpr err), if_pos free]
      rw [reply', is]
      rw [← unread] at steps
      rw [same] at le
      refine .given le low steps (.reading (r := { discarded r' with reply := none }) (err'.trans err) rfl
        ⟨counted'.inside, counted'.small⟩ ?_ ?_ rfl)
      · show Parser.tasks (discarded r').rstack = _
        rw [free]
        rfl
      · intro both
        cases both.1

/-- A call gives the machine's next output, if there is one. -/
theorem get_reply {s : Parser} (rep : Rep r s l) : Got r s l (redisReaderGetReply r) := by
  cases rep with
  | failed err empty =>
    have bad : r.err ≠ 0 := by
      rw [err]
      decide
    unfold redisReaderGetReply
    rw [if_pos bad]
    exact .refused (.refl _ _) (.failed err empty l)
  | @reading cur below _ err reply counted tasks shallow unread =>
    subst unread
    by_cases empty : r.buf.length = 0
    · have nothing : r.unread = [] := by
        rw [RedisReader.unread, List.length_eq_zero_iff.mp empty, List.drop_nil]
      have waits : step (.reading cur below) r.unread = none := by
        rw [nothing]
        exact step_nil shallow
      unfold redisReaderGetReply
      rw [if_neg (not_not.mpr err), if_pos empty]
      have inside := counted.inside
      exact .pending (Nat.le_refl _) (by omega) (.refl _ _) (.reading err reply counted tasks shallow rfl) waits
    · cases rstack : r.rstack with
      | cons cur' below' =>
        rw [rstack] at tasks
        cases tasks
        have begins : started r = r := if_neg (by simp [rstack])
        refine reads_got err empty ?_
        rw [begins]
        exact ⟨err, reply, rstack, counted⟩
      | nil =>
        rw [rstack] at tasks
        cases tasks
        have begins : started r = { r with rstack := [root] } := if_pos rstack
        refine reads_got err empty ?_
        rw [begins]
        exact ⟨err, reply, rfl, counted.inside, counted.small⟩

/-- Bytes that an `int` can still count are read behind the others; a reader that has
    failed takes none. -/
theorem feed_rep {s : Parser} (rep : Rep r s l) (bytes : Str) (room : r.err = 0 → r.buf.length + bytes.length < 2 ^ 31) :
    Rep (redisReaderFeed bytes r).2 s (l ++ bytes) := by
  cases rep with
  | failed err empty =>
    have bad : r.err ≠ 0 := by
      rw [err]
      decide
    unfold redisReaderFeed
    rw [if_pos bad]
    exact .failed err empty _
  | reading err reply counted tasks shallow unread =>
    subst unread
    have inside := counted.inside
    have behind : (redisReaderFeed bytes r).2.unread = r.unread ++ bytes := by
      unfold redisReaderFeed
      rw [if_neg (not_not.mpr err)]
      exact List.drop_append_of_le_length inside
    have whole : Counted (redisReaderFeed bytes r).2 := by
      unfold redisReaderFeed
      rw [if_neg (not_not.mpr err)]
      refine ⟨?_, ?_⟩
      · show r.pos ≤ (r.buf ++ bytes).length
        rw [List.length_append]
        omega
      · show (r.buf ++ bytes).length < _
        rw [List.length_append]
        exact room err
    rw [← behind]
    unfold redisReaderFeed at whole ⊢
    rw [if_neg (not_not.mpr err)] at whole ⊢
    exact .reading err reply whole tasks shallow rfl

/-! ### Runs -/

/-- What the caller does with a reader. -/
inductive Op
  | feed (bytes : Str)
  | get

/-- What a call of `redisReaderGetReply` gives: a reply, NULL, or `REDIS_ERR` with
    `errstr`; or it has no result. -/
inductive Result
  | reply (reply : RedisReply)
  | pending
  | refused (errstr : Str)
  | undefined

/-- The results of the calls, up to one that has none. -/
def results : List Op → RedisReader → List Result
  | [], _ => []
  | .feed bytes :: ops, r => results ops (redisReaderFeed bytes r).2
  | .get :: ops, r =>
    match redisReaderGetReply r with
    | none => [.undefined]
    | some (.error (), r) => .refused r.errstr :: results ops r
    | some (.ok none, r) => .pending :: results ops r
    | some (.ok (some reply), r) => .reply reply :: results ops r

/-- An `int` can count what is in the buffer, all along. -/
def Bounded : List Op → RedisReader → Prop
  | [], _ => True
  | .feed bytes :: ops, r => r.buf.length + bytes.length < 2 ^ 31 ∧ Bounded ops (redisReaderFeed bytes r).2
  | .get :: ops, r => ∀ result r', redisReaderGetReply r = some (result, r') → Bounded ops r'

/-- How the stream ends behind its last whole reply. -/
def Parser.ending : Parser → Result
  | .reading _ _ => .pending
  | .failed errstr => .refused errstr
  | .undefined => .undefined

/-- The replies of a stream, and how it ends. -/
def decoded (stream : Str) : List RedisReply × Result :=
  ((reader.settle idle stream).outputs, Parser.ending (reader.settle idle stream).state)

/-- What the calls are to give: the replies of all that was fed so far, one by one. -/
def expected : List Op → (fed : Str) → (taken : Nat) → List Result
  | [], _, _ => []
  | .feed bytes :: ops, fed, taken => expected ops (fed ++ bytes) taken
  | .get :: ops, fed, taken =>
    match (decoded fed).1[taken]?, (decoded fed).2 with
    | some reply, _ => .reply reply :: expected ops fed (taken + 1)
    | none, .undefined => [.undefined]
    | none, ending => ending :: expected ops fed taken

private theorem expected_stop {ops : List Op} {fed : Str} {taken : Nat} {s : Parser}
    (ahead : reader.Ahead idle fed taken s l) (steps : reader.Steps s l [] .undefined l') :
    expected (.get :: ops) fed taken = [.undefined] := by
  obtain ⟨no_more, state⟩ := (ahead.silent steps).none rfl
  simp only [expected, decoded, no_more, state, Parser.ending]

private theorem expected_wait {ops : List Op} {fed : Str} {taken : Nat} {s s' : Parser} (defined : s' ≠ .undefined)
    (ahead : reader.Ahead idle fed taken s l) (steps : reader.Steps s l [] s' l') (stops : step s' l' = none) :
    expected (.get :: ops) fed taken = Parser.ending s' :: expected ops fed taken := by
  obtain ⟨no_more, state⟩ := (ahead.silent steps).none stops
  cases s' with
  | undefined => exact absurd rfl defined
  | reading | failed => simp only [expected, decoded, no_more, state, Parser.ending]

theorem results_expected (ops : List Op) {fed : Str} {taken : Nat} {s : Parser} (rep : Rep r s l)
    (ahead : reader.Ahead idle fed taken s l) (bounded : Bounded ops r) : results ops r = expected ops fed taken := by
  induction ops generalizing r s l fed taken with
  | nil => rfl
  | cons op ops ih =>
    cases op with
    | feed bytes =>
      obtain ⟨room, later⟩ := bounded
      exact ih (feed_rep rep bytes fun _ => room) (ahead.feed bytes) later
    | get =>
      have got := get_reply rep
      unfold Bounded at bounded
      unfold results
      revert got bounded
      cases redisReaderGetReply r with
      | none =>
        intro got _
        cases got with
        | undefined steps => exact (expected_stop ahead steps).symm
      | some result =>
        obtain ⟨result, r'⟩ := result
        intro got bounded
        have later := bounded _ _ rfl
        cases got with
        | refused steps rep' =>
          rw [expected_wait (by simp) ahead steps rfl, ← ih rep' (ahead.silent steps) later]
          rfl
        | pending le low steps rep' stops =>
          rw [expected_wait (by simp) ahead steps stops, ← ih rep' (ahead.silent steps) later]
          rfl
        | given le low steps rep' =>
          obtain ⟨next, found⟩ := ahead.next steps
          have here : (decoded fed).1[taken]? = _ := found
          rw [expected, here, ← ih rep' next later]

/-- However the server's bytes are fed, and whenever replies are asked for, each call
    gives the next reply of the whole stream so far, NULL where it is not whole, and the
    error at which the stream ends. -/
theorem gives_decoded (ops : List Op) (bounded : Bounded ops redisReaderCreate) :
    results ops redisReaderCreate = expected ops [] 0 :=
  results_expected ops rep_create (.start idle) bounded

/-- The bytes of all feeds. -/
def total : List Op → Nat
  | [] => 0
  | .feed bytes :: ops => bytes.length + total ops
  | .get :: ops => total ops

private theorem bounded_from (ops : List Op) {s : Parser} (rep : Rep r s l) (small : r.buf.length + total ops < 2 ^ 31) :
    Bounded ops r := by
  induction ops generalizing r s l with
  | nil => trivial
  | cons op ops ih =>
    cases op with
    | feed bytes =>
      unfold total at small
      refine ⟨by omega, ih (feed_rep rep bytes fun _ => by omega) ?_⟩
      unfold redisReaderFeed
      split
      · simp only
        omega
      · simp only [List.length_append]
        omega
    | get =>
      intro result r' got
      have is := get_reply rep
      rw [got] at is
      unfold total at small
      cases is with
      | refused steps rep' =>
        have empty : r'.buf = [] := by
          cases rep' with
          | failed err empty => exact empty
        refine ih rep' ?_
        rw [empty, List.length_nil]
        omega
      | pending le low steps rep' stops => exact ih rep' (by omega)
      | given le low steps rep' => exact ih rep' (by omega)

/-- A stream that an `int` can count as a whole is never too long for the buffer. -/
theorem bounded_of_total {ops : List Op} (small : total ops < 2 ^ 31) : Bounded ops redisReaderCreate :=
  bounded_from ops rep_create (by simpa [redisReaderCreate] using small)

/-- Two replies in three parts, and one byte that begins no reply. -/
theorem gives_decoded_parts :
    results [.feed (lit "+O"), .get, .feed (lit "K\r\n:1"), .get, .get, .feed (lit "\r\n?"), .get, .get]
        redisReaderCreate =
      expected [.feed (lit "+O"), .get, .feed (lit "K\r\n:1"), .get, .get, .feed (lit "\r\n?"), .get, .get] [] 0 :=
  gives_decoded _ (bounded_of_total (by decide))

end CppRedis.Deliveries

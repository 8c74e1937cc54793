import CppRedis.Pipelines

/-!
How the callbacks of plain commands are run. `Piped` is what holds between two events,
and `Over` when the context is freed: each callback is run once and in order, with the
next reply of all bytes that have come in, or with NULL at the end
(`callbacks_in_order`). Where the replies come from a server that answers the commands
that it has read, each callback gets the answer to its own command (`callbacks_answered`).
-/
namespace CppRedis.Responses
open CppRedis.Strings CppRedis.Reply CppRedis.Connection CppRedis.Requests CppRedis.Frames CppRedis.Streams CppRedis.Readers
open CppRedis.ReplyStreams CppRedis.Deliveries CppRedis.Encodings CppRedis.Contexts CppRedis.Callbacks CppRedis.Pipelines CppRedis.Runs

variable {hangs_up : Prop} {w w' w'' : World} {program : Program}

/-! ### The reader -/

/-- The reader has been fed such bytes, and so many replies have been taken. -/
def Reading (r : RedisReader) (fed : Str) (taken : Nat) : Prop := ∃ s l, Rep r s l ∧ reader.Ahead idle fed taken s l

/-- What the next call of `redisReaderGetReply` gives. -/
inductive Gets (r : RedisReader) (fed : Str) (taken : Nat) : Option (Except Unit (Option RedisReply) × RedisReader) → Prop
  | undefined (ends : (decoded fed).2 = .undefined) : Gets r fed taken none
  | refused {r' : RedisReader} (ends : (decoded fed).2 = .refused r'.errstr) (err : r'.err ≠ 0)
      (reading : Reading r' fed taken) : Gets r fed taken (some (.error (), r'))
  | pending {r' : RedisReader} (last : (decoded fed).1[taken]? = none) (ends : (decoded fed).2 = .pending)
      (reading : Reading r' fed taken) : Gets r fed taken (some (.ok none, r'))
  | given {r' : RedisReader} {reply : RedisReply} (next : (decoded fed).1[taken]? = some reply)
      (shorter : r'.unread.length < r.unread.length) (reading : Reading r' fed (taken + 1)) :
      Gets r fed taken (some (.ok (some reply), r'))

theorem reading_create : Reading redisReaderCreate [] 0 := ⟨idle, [], rep_create, .start idle⟩

private theorem unread_le {r : RedisReader} {s : Parser} {l : Str} (rep : Rep r s l) : r.unread.length ≤ l.length := by
  cases rep with
  | reading _ _ _ _ _ unread => rw [unread]
  | failed _ empty => simp [RedisReader.unread, empty]

private theorem given_shorter {r r' : RedisReader} {s s' : Parser} {l l' : Str} {reply : RedisReply} (rep : Rep r s l)
    (rep' : Rep r' s' l') (steps : reader.Steps s l [reply] s' l') : r'.unread.length < r.unread.length := by
  have shorter := steps_shorter steps
  have le := unread_le rep'
  cases rep with
  | reading _ _ _ _ _ unread =>
    rw [unread]
    omega
  | failed => cases (steps.stopped rfl).1

theorem Reading.get {r : RedisReader} {fed : Str} {taken : Nat} (reading : Reading r fed taken) :
    Gets r fed taken (redisReaderGetReply r) := by
  obtain ⟨s, l, rep, ahead⟩ := reading
  have got := get_reply rep
  revert got
  cases redisReaderGetReply r with
  | none =>
    intro got
    cases got with
    | undefined later => exact .undefined (congrArg Parser.ending ((ahead.silent later).none rfl).2)
  | some result =>
    intro got
    cases got with
    | refused later rep' =>
      have behind := ahead.silent later
      refine .refused (congrArg Parser.ending (behind.none rfl).2) ?_ ⟨_, _, rep', behind⟩
      cases rep' with
      | failed err empty =>
        rw [err]
        decide
    | pending le low later rep' stops =>
      have behind := ahead.silent later
      exact .pending (behind.none stops).1 (congrArg Parser.ending (behind.none stops).2) ⟨_, _, rep', behind⟩
    | given le low later rep' =>
      obtain ⟨behind, next⟩ := ahead.next later
      exact .given next (given_shorter rep rep' later) ⟨_, _, rep', behind⟩

/-- More bytes come in. -/
theorem Reading.feed {r : RedisReader} {fed : Str} {taken : Nat} (reading : Reading r fed taken) (bytes : Str)
    (room : r.buf.length + bytes.length < 2 ^ 31) : Reading (redisReaderFeed bytes r).2 (fed ++ bytes) taken := by
  obtain ⟨s, l, rep, ahead⟩ := reading
  exact ⟨s, l ++ bytes, feed_rep rep bytes fun _ => room, ahead.feed bytes⟩

/-- What was decoded stays decoded. -/
theorem decoded_append (fed more : Str) : (decoded fed).1 <+: (decoded (fed ++ more)).1 := by
  unfold decoded
  rw [Transducer.settle_append]
  exact List.prefix_append _ _

/-! ### Between two events -/

def answered (done : List (RedisCallback × RedisReply)) : List (RedisCallback × Option RedisReply) :=
  done.map fun (cb, reply) => (cb, some reply)

def nulls (left : List RedisCallback) : List (RedisCallback × Option RedisReply) := left.map fun cb => (cb, none)

/-- The bytes of commands. -/
def messages (l : List (RedisCallback × Argv)) : Str := l.flatMap fun command => protocol.message command.2.denotes

/-- The commands that have been answered, and behind them those whose callbacks wait. -/
structure Piped (done : List (RedisCallback × RedisReply)) (w : World) : Prop where
  freed : w.freed = false
  taken : (accepted w.log).map (·.1) = done.map (·.1) ++ w.ac.replies
  runs : ran w.log = live (answered done)
  replies : done.map (·.2) <+: (decoded w.received).1
  written : w.sent ++ w.ac.c.obuf = messages (accepted w.log)
  calm : Calm w.ac
  reading : Reading w.ac.c.reader w.received done.length

/-- The context is freed, and the callbacks that were left have been run with NULL. -/
structure Over (done : List (RedisCallback × RedisReply)) (left : List RedisCallback) (w : World) : Prop where
  freed : w.freed = true
  taken : (accepted w.log).map (·.1) = done.map (·.1) ++ left
  runs : ran w.log = live (answered done ++ nulls left)
  replies : done.map (·.2) <+: (decoded w.received).1

/-- All replies that are whole have been given. -/
structure Rested (done : List (RedisCallback × RedisReply)) (w : World) : Prop where
  piped : Piped done w
  all : done.map (·.2) = (decoded w.received).1

def Accounted (w : World) : Prop := ∃ done, Rested done w ∨ ∃ left, Over done left w

/-- Nothing has come in, commands may have been taken, and somebody may have hung up. -/
structure Later (hangs_up : Prop) (w w' : World) : Prop where
  received : w'.received = w.received
  taken : accepted w.log <+: accepted w'.log
  asks : w'.freed = false → w'.ac.disconnecting = true → w.ac.disconnecting = true ∨ hangs_up

theorem Later.refl (hangs_up : Prop) (w : World) : Later hangs_up w w := ⟨rfl, List.prefix_refl _, fun _ => .inl⟩

theorem Later.trans (first : Later hangs_up w w') (second : Later hangs_up w' w'') (alive : w'.freed = false) :
    Later hangs_up w w'' :=
  ⟨second.received.trans first.received, first.taken.trans second.taken, fun alive' closed =>
    (second.asks alive' closed).elim (first.asks alive) .inr⟩

theorem later_of_asked {runs : List (RedisCallback × Option RedisReply)} (asked : Asked hangs_up runs w w') :
    Later hangs_up w w' := by
  obtain ⟨l, taken, _⟩ := asked.more
  exact ⟨congrArg (fun w => w.received) asked.same, ⟨l, taken.symm⟩, fun _ => asked.asks⟩

theorem later_of_freed {left : List RedisCallback} (freed : Freed left w w') : Later hangs_up w w' := by
  refine ⟨freed.received, ⟨[], by rw [freed.taken, List.append_nil]⟩, fun alive => ?_⟩
  rw [freed.freed] at alive
  cases alive

variable {done : List (RedisCallback × RedisReply)}

theorem over_of_freed {left : List RedisCallback} (freed : Freed left w w')
    (taken : (accepted w.log).map (·.1) = done.map (·.1) ++ left) (runs : ran w.log = live (answered done))
    (replies : done.map (·.2) <+: (decoded w.received).1) : Over done left w' := by
  refine ⟨freed.freed, ?_, ?_, ?_⟩
  · rw [freed.taken, taken]
  · rw [freed.runs, runs, live_append]
    rfl
  · rw [freed.received]
    exact replies

/-- All that `Piped` is about is the same. -/
structure Still (w w' : World) : Prop where
  freed : w'.freed = w.freed := by rfl
  taken : accepted w'.log = accepted w.log := by rfl
  runs : ran w'.log = ran w.log := by rfl
  received : w'.received = w.received := by rfl
  replies : w'.ac.replies = w.ac.replies := by rfl
  reader : w'.ac.c.reader = w.ac.c.reader := by rfl
  written : w'.sent ++ w'.ac.c.obuf = w.sent ++ w.ac.c.obuf := by rfl
  calm : Calm w.ac → Calm w'.ac := by exact fun calm => calm.same rfl

theorem Piped.still (piped : Piped done w) (still : Still w w') : Piped done w' := by
  refine ⟨still.freed.trans piped.freed, ?_, still.runs.trans piped.runs, ?_, ?_, still.calm piped.calm, ?_⟩
  · rw [still.taken, piped.taken, still.replies]
  · rw [still.received]
    exact piped.replies
  · rw [still.written, piped.written, still.taken]
  · rw [still.reader, still.received]
    exact piped.reading

theorem Rested.still (rested : Rested done w) (still : Still w w') : Rested done w' := by
  refine ⟨rested.piped.still still, ?_⟩
  rw [still.received]
  exact rested.all

theorem Still.later (still : Still w w') (asks : w'.ac.disconnecting = w.ac.disconnecting) : Later hangs_up w w' :=
  ⟨still.received, ⟨[], by rw [still.taken, List.append_nil]⟩, fun _ closed => .inl (asks ▸ closed)⟩

theorem Piped.asked (piped : Piped done w) (asked : Asked hangs_up [] w w') : Piped done w' := by
  obtain ⟨l, taken, replies, obuf, _⟩ := asked.more
  have received : w'.received = w.received := congrArg (fun w => w.received) asked.same
  have reader : w'.ac.c.reader = w.ac.c.reader := congrArg (fun w => w.ac.c.reader) asked.same
  have sent : w'.sent = w.sent := congrArg (fun w => w.sent) asked.same
  refine ⟨(congrArg (fun w => w.freed) asked.same).trans piped.freed, ?_, ?_, ?_, ?_, piped.calm.masked asked.same, ?_⟩
  · rw [taken, replies, List.map_append, piped.taken, List.append_assoc]
  · rw [asked.runs, piped.runs, List.append_nil]
  · rw [received]
    exact piped.replies
  · rw [sent, obuf, ← List.append_assoc, piped.written, taken, messages, messages, List.flatMap_append]
  · rw [reader, received]
    exact piped.reading

theorem Rested.asked (rested : Rested done w) (asked : Asked hangs_up [] w w') : Rested done w' := by
  have received : w'.received = w.received := congrArg (fun w => w.received) asked.same
  refine ⟨rested.piped.asked asked, ?_⟩
  rw [received]
  exact rested.all

/-- The first command that waits has its reply, and its callback has been run. -/
private theorem Piped.answer (piped : Piped done w) {cb : RedisCallback} {rest : List RedisCallback} {reply : RedisReply}
    {reader : RedisReader} (waiting : w.ac.replies = cb :: rest) (next : (decoded w.received).1[done.length]? = some reply)
    (reading : Reading reader w.received (done.length + 1))
    (asked : Asked hangs_up (live [(cb, some reply)])
      { w with ac := { w.ac with c := { w.ac.c with reader := reader }, replies := rest } } w') :
    Piped (done ++ [(cb, reply)]) w' := by
  obtain ⟨l, taken, replies, obuf, _⟩ := asked.more
  have received : w'.received = w.received := congrArg (fun w => w.received) asked.same
  have reader_is : w'.ac.c.reader = reader := congrArg (fun w => w.ac.c.reader) asked.same
  have sent : w'.sent = w.sent := congrArg (fun w => w.sent) asked.same
  have calm := piped.calm
  have here : Calm { w.ac with c := { w.ac.c with reader := reader }, replies := rest } := calm.same rfl
  refine ⟨(congrArg (fun w => w.freed) asked.same).trans piped.freed, ?_, ?_, ?_, ?_,
    @Calm.masked { w with ac := { w.ac with c := { w.ac.c with reader := reader }, replies := rest } } w' here asked.same, ?_⟩
  · have before := piped.taken
    rw [waiting] at before
    rw [taken, replies, List.map_append, before]
    simp
  · rw [asked.runs, piped.runs, ← live_append]
    simp [answered]
  · obtain ⟨later, all⟩ := piped.replies
    rw [← all, List.getElem?_append_right (by simp), List.length_map, Nat.sub_self] at next
    obtain ⟨more, rfl⟩ : ∃ more, later = reply :: more := by
      cases later with
      | nil => cases next
      | cons first more =>
        cases next
        exact ⟨more, rfl⟩
    rw [received, ← all]
    exact ⟨more, by simp⟩
  · rw [sent, obuf, ← List.append_assoc, piped.written, taken, messages, messages, List.flatMap_append]
  · rw [reader_is, received, List.length_append]
    exact reading

/-- The context ends with an error in it. -/
private theorem Piped.ends (piped : Piped done w) (plain : PlainProgram hangs_up program) {c : RedisContext} (err : c.err ≠ 0) :
    ∃ w', asyncDisconnect program { w with ac := { w.ac with c := c } } = some w' ∧ Over done w.ac.replies w' ∧
      Later hangs_up w w' := by
  have calm := piped.calm
  obtain ⟨w', is, freed⟩ := @asyncDisconnect_freed hangs_up { w with ac := { w.ac with c := c } } program plain
    (calm.same rfl) (.inl err)
  have later : Later hangs_up { w with ac := { w.ac with c := c } } w' := later_of_freed freed
  exact ⟨w', is, over_of_freed freed piped.taken piped.runs piped.replies, later.received, later.taken, later.asks⟩

/-- A context that is told to disconnect ends; without an error an assertion fails while
    callbacks wait. -/
private theorem Piped.disconnects (piped : Piped done w) (plain : PlainProgram hangs_up program) (closed : refusing w.ac) :
    (∃ w', asyncDisconnect program w = some w' ∧ Over done w.ac.replies w' ∧ Later hangs_up w w') ∨
      (asyncDisconnect program w = none ∧ w.ac.replies ≠ []) := by
  by_cases stuck : w.ac.c.err = 0 ∧ w.ac.replies ≠ []
  · right
    refine ⟨?_, stuck.2⟩
    unfold asyncDisconnect
    dsimp only
    rw [if_pos (show (redisAsyncCopyError w.ac).err = 0 from stuck.1),
      if_neg (show ¬ (redisAsyncCopyError w.ac).replies = [] from stuck.2)]
  · left
    have ready : w.ac.c.err ≠ 0 ∨ (w.ac.replies = [] ∧ refusing w.ac) := by
      by_cases err : w.ac.c.err = 0
      · exact .inr ⟨not_not.mp fun waiting => stuck ⟨err, waiting⟩, closed⟩
      · exact .inl err
    obtain ⟨w', is, freed⟩ := asyncDisconnect_freed plain piped.calm ready
    exact ⟨w', is, over_of_freed freed piped.taken piped.runs piped.replies, later_of_freed freed⟩

/-! ### The loop -/

/-- How `redisProcessCallbacks` ends: the callbacks of the replies have been run, or there
    is no result, for one of three reasons. -/
inductive Ends (hangs_up : Prop) (w : World) : Option World → Prop
  | goes {w' : World} (accounted : Accounted w') (later : Later hangs_up w w') : Ends hangs_up w (some w')
  | undefined (ends : (decoded w.received).2 = .undefined) : Ends hangs_up w none
  | nobody {done : List (RedisCallback × RedisReply)} {w₁ : World} (piped : Piped done w₁) (later : Later hangs_up w w₁)
      (waiting : w₁.ac.replies = []) (next : (decoded w.received).1[done.length]? ≠ none) : Ends hangs_up w none
  | abandoned {done : List (RedisCallback × RedisReply)} {w₁ : World} (piped : Piped done w₁) (later : Later hangs_up w w₁)
      (closing : w₁.ac.disconnecting = true) (waiting : w₁.ac.replies ≠ []) : Ends hangs_up w none

private theorem Ends.behind {result : Option World} (ends : Ends hangs_up w' result) (later : Later hangs_up w w')
    (alive : w'.freed = false) : Ends hangs_up w result := by
  cases ends with
  | goes accounted more => exact .goes accounted (later.trans more alive)
  | undefined ends =>
    rw [later.received] at ends
    exact .undefined ends
  | nobody piped more waiting next =>
    rw [later.received] at next
    exact .nobody piped (later.trans more alive) waiting next
  | abandoned piped more closing waiting => exact .abandoned piped (later.trans more alive) closing waiting

private theorem chosen_first {ac : RedisAsyncContext} {cb : RedisCallback} {rest : List RedisCallback} (waiting : ac.replies = cb :: rest)
    (reply : RedisReply) (cb' : RedisCallback) : chosen reply cb' ac = some (.callback cb { ac with replies := rest }) := by
  simp only [chosen, waiting]

/-- Nobody waits for the reply: an error ends the context, and an assertion fails for any
    other. -/
private theorem chosen_nobody {ac : RedisAsyncContext} (calm : Calm ac) (nobody : ac.replies = []) (reply : RedisReply)
    (cb : RedisCallback) :
    chosen reply cb ac = none ∨ ∃ str, chosen reply cb ac = some (.refused { ac with c := ac.c.setError REDIS_ERR_OTHER str }) := by
  unfold chosen
  rw [nobody]
  cases reply with
  | error str => exact .inr ⟨cstr str, rfl⟩
  | status | integer | nil | string | array | hollow =>
    left
    dsimp only
    rw [if_neg (by rw [calm.subscribed]; decide), if_neg (by rw [calm.monitoring]; decide)]

private theorem process_ends (plain : PlainProgram hangs_up program) {fuel : Nat} {cb : RedisCallback} (piped : Piped done w)
    (enough : w.ac.c.reader.unread.length < fuel) : Ends hangs_up w (process program fuel cb w) := by
  induction fuel generalizing w done cb with
  | zero => omega
  | succ fuel ih =>
    have calm := piped.calm
    have gets := piped.reading.get
    cases got : redisReaderGetReply w.ac.c.reader with
    | none =>
      rw [got] at gets
      cases gets with
      | undefined ends =>
        simp only [process, redisGetReplyFromReader, got]
        exact .undefined ends
    | some result =>
      rw [got] at gets
      cases gets with
      | refused ends err reading =>
        simp only [process, redisGetReplyFromReader, got]
        obtain ⟨w₁, is, ended, later⟩ := piped.ends plain (c := { w.ac.c with reader := _ }.setError _ _) err
        rw [is]
        exact .goes ⟨done, .inr ⟨_, ended⟩⟩ later
      | @pending reader last ends reading =>
        simp only [process, redisGetReplyFromReader, got]
        have next : Piped done { w with ac := { w.ac with c := { w.ac.c with reader := reader } } } :=
          ⟨piped.freed, piped.taken, piped.runs, piped.replies, piped.written,
            calm.same rfl, reading⟩
        have same : Later hangs_up w { w with ac := { w.ac with c := { w.ac.c with reader := reader } } } :=
          ⟨rfl, List.prefix_refl _, fun _ => .inl⟩
        split
        · rename_i closing
          rcases next.disconnects plain (.inl closing.1) with ⟨w₁, is, ended, later⟩ | ⟨is, waiting⟩
          · rw [is]
            exact .goes ⟨done, .inr ⟨_, ended⟩⟩ (same.trans later piped.freed)
          · rw [is]
            exact .abandoned next same closing.1 waiting
        · rw [if_neg (by rw [calm.monitoring]; decide)]
          refine .goes ⟨done, .inl ⟨next, piped.replies.eq_of_length_le ?_⟩⟩ same
          have := List.getElem?_eq_none_iff.mp last
          rwa [List.length_map]
      | @given reader reply next shorter reading =>
        simp only [process, redisGetReplyFromReader, got]
        by_cases waiting : w.ac.replies = []
        · have calm' : Calm { w.ac with c := { w.ac.c with reader := reader } } := calm.same rfl
          rcases chosen_nobody calm' waiting reply cb with no_one | ⟨str, refused⟩
          · rw [no_one]
            refine .nobody piped (.refl hangs_up w) waiting ?_
            rw [next]
            exact Option.some_ne_none _
          · rw [refused]
            obtain ⟨w₁, is, ended, later⟩ := piped.ends plain (c := { w.ac.c with reader := reader }.setError REDIS_ERR_OTHER str)
              (show REDIS_ERR_OTHER ≠ 0 by decide)
            dsimp only
            rw [is]
            exact .goes ⟨done, .inr ⟨_, ended⟩⟩ later
        · obtain ⟨first, rest, waiting⟩ := List.exists_cons_of_ne_nil waiting
          rw [@chosen_first { w.ac with c := { w.ac.c with reader := reader } } first rest waiting]
          dsimp only
          by_cases null : first.fn = none
          · rw [if_pos null]
            have nothing : live [(first, some reply)] = [] := by simp [live, null]
            have next := piped.answer waiting next reading (by rw [nothing]; exact .refl hangs_up _)
            exact Ends.behind (ih next (by dsimp only; omega)) ⟨rfl, List.prefix_refl _, fun _ => .inl⟩ piped.freed
          · rw [if_neg null]
            obtain ⟨w₁, is, asked⟩ := @redisRunCallback_asked hangs_up
              { w with ac := { w.ac with c := { w.ac.c with reader := reader }, replies := rest } } program plain first (some reply)
              calm.subscribed calm.in_callback
            have next := piped.answer waiting next reading asked
            have behind := later_of_asked asked
            have later : Later hangs_up w w₁ := ⟨behind.received, behind.taken, behind.asks⟩
            have same : w₁.ac.c.reader = reader := congrArg (fun w => w.ac.c.reader) asked.same
            rw [is]
            dsimp only
            split
            · rename_i freeing
              obtain ⟨w₂, is', freed⟩ := asyncFree_freed plain next.calm (.inr freeing)
              rw [is']
              exact .goes ⟨_, .inr ⟨_, over_of_freed freed next.taken next.runs next.replies⟩⟩
                (later.trans (later_of_freed freed) next.freed)
            · exact Ends.behind (ih next (by rw [same]; omega)) later next.freed

/-! ### Events -/

theorem redisBufferRead_fails {nread : Nread} {c c' : RedisContext} (is : redisBufferRead nread c = (false, c')) :
    c'.err ≠ 0 ∧ c'.obuf = c.obuf := by
  unfold redisBufferRead at is
  split at is
  · rename_i failed
    cases is
    exact ⟨failed, rfl⟩
  · cases nread with
    | error errno strerror =>
      dsimp only at is
      split at is
      · cases is
      · cases is
        exact ⟨show REDIS_ERR_IO ≠ 0 by decide, rfl⟩
    | bytes buf =>
      cases buf with
      | nil =>
        cases is
        exact ⟨show REDIS_ERR_EOF ≠ 0 by decide, rfl⟩
      | cons b buf =>
        dsimp only at is
        cases fed : redisReaderFeed (b :: buf) c.reader with
        | mk ok reader =>
          rw [fed] at is
          cases ok with
          | true => cases is
          | false =>
            cases is
            unfold redisReaderFeed at fed
            split at fed
            · rename_i failed
              cases fed
              exact ⟨failed, rfl⟩
            · cases fed

theorem redisBufferRead_feeds {nread : Nread} {c c' : RedisContext} (is : redisBufferRead nread c = (true, c')) :
    (given nread = [] ∧ c' = c) ∨ c' = { c with reader := (redisReaderFeed (given nread) c.reader).2 } := by
  unfold redisBufferRead at is
  split at is
  · cases is
  · cases nread with
    | error errno strerror =>
      dsimp only at is
      split at is
      · cases is
        exact .inl ⟨rfl, rfl⟩
      · cases is
    | bytes buf =>
      cases buf with
      | nil => cases is
      | cons b buf =>
        dsimp only at is
        cases fed : redisReaderFeed (b :: buf) c.reader with
        | mk ok reader =>
          rw [fed] at is
          cases ok with
          | true =>
            cases is
            right
            rw [given, fed]
          | false => cases is

theorem redisBufferWrite_keeps {nwritten : Wrote} {c c' : RedisContext} {taken : Str} {done : Option Bool}
    (is : redisBufferWrite nwritten c = (done, taken, c')) :
    c'.reader = c.reader ∧ taken ++ c'.obuf = c.obuf ∧ (done = none → c'.err ≠ 0 ∧ taken = []) := by
  by_cases sound : c.err = 0
  · rcases redisBufferWrite_takes nwritten sound with ⟨n, wrote⟩ | ⟨strerror, failed⟩
    · rw [wrote, redisBufferWrite_wrote n sound] at is
      cases is
      exact ⟨rfl, List.take_append_drop n c.obuf, fun is => by cases is⟩
    · rw [failed] at is
      cases is
      exact ⟨rfl, rfl, fun _ => ⟨show REDIS_ERR_IO ≠ 0 by decide, rfl⟩⟩
  · unfold redisBufferWrite at is
    rw [if_pos sound] at is
    cases is
    exact ⟨rfl, rfl, fun _ => ⟨sound, rfl⟩⟩

/-- The bytes that an event brings. -/
def brings : Act → Str
  | .readable _ nread => given nread
  | .call _ | .writable _ _ => []

/-- What an event does before the replies are processed. -/
structure Fed (hangs_up : Prop) (bytes : Str) (w w' : World) : Prop where
  received : w'.received = w.received ∨ w'.received = w.received ++ bytes
  taken : accepted w.log <+: accepted w'.log
  asks : w'.ac.disconnecting = true → w.ac.disconnecting = true ∨ hangs_up
  alive : w'.freed = false

private theorem Still.fed (still : Still w w') (piped : Piped done w) (asks : w'.ac.disconnecting = w.ac.disconnecting)
    (bytes : Str) : Fed hangs_up bytes w w' :=
  ⟨.inl still.received, ⟨[], by rw [still.taken, List.append_nil]⟩, fun closed => .inl (asks ▸ closed),
    still.freed.trans piped.freed⟩

private theorem Fed.after {bytes : Str} (fed : Fed hangs_up bytes w' w'') (still : Still w w')
    (asks : w'.ac.disconnecting = w.ac.disconnecting) : Fed hangs_up bytes w w'' := by
  refine ⟨?_, ?_, ?_, fed.alive⟩
  · rw [← still.received]
    exact fed.received
  · rw [← still.taken]
    exact fed.taken
  · rw [← asks]
    exact fed.asks

/-- An event, and how it ends. -/
def Happens (hangs_up : Prop) (bytes : Str) (w : World) (result : Option World) : Prop :=
  ∃ w', Fed hangs_up bytes w w' ∧ Ends hangs_up w' result

private theorem Happens.after {bytes : Str} {result : Option World} (happens : Happens hangs_up bytes w' result) (still : Still w w')
    (asks : w'.ac.disconnecting = w.ac.disconnecting) : Happens hangs_up bytes w result := by
  obtain ⟨w₁, fed, ends⟩ := happens
  exact ⟨w₁, fed.after still asks, ends⟩

/-- The context ends at once. -/
private theorem Piped.ended (piped : Piped done w) {left : List RedisCallback} (ended : Over done left w') (later : Later hangs_up w w')
    (bytes : Str) : Happens hangs_up bytes w (some w') :=
  ⟨w, Still.fed {} piped rfl bytes, .goes ⟨done, .inr ⟨left, ended⟩⟩ later⟩

private theorem Rested.goes {bytes : Str} (fed : Fed hangs_up bytes w w') (next : Rested done w') :
    Happens hangs_up bytes w (some w') := ⟨w', fed, .goes ⟨done, .inl next⟩ (.refl hangs_up w')⟩

private theorem read_happens (plain : PlainProgram hangs_up program) {nread : Nread} (piped : Piped done w)
    (room : w.ac.c.reader.buf.length + (given nread).length < 2 ^ 31) :
    Happens hangs_up (given nread) w (read_connected program nread w) := by
  unfold read_connected
  cases read : redisBufferRead nread w.ac.c with
  | mk ok c =>
    cases ok with
    | false =>
      obtain ⟨w₁, is, ended, later⟩ := piped.ends plain (redisBufferRead_fails read).1
      dsimp only
      rw [is]
      exact piped.ended ended later _
    | true =>
      have calm := piped.calm
      have next : Piped done { w with ac := { w.ac with c := c, rev := true }, received := w.received ++ given nread } := by
        refine ⟨piped.freed, piped.taken, piped.runs, piped.replies.trans (decoded_append _ _), ?_,
          calm.same rfl, ?_⟩
        · rcases redisBufferRead_feeds read with ⟨_, rfl⟩ | rfl
          · exact piped.written
          · exact piped.written
        · rcases redisBufferRead_feeds read with ⟨nothing, rfl⟩ | rfl
          · rw [nothing, List.append_nil]
            exact piped.reading
          · exact piped.reading.feed _ room
      refine ⟨{ w with ac := { w.ac with c := c, rev := true }, received := w.received ++ given nread },
        ⟨.inr rfl, List.prefix_refl _, .inl, piped.freed⟩, ?_⟩
      exact process_ends plain next (Nat.lt_succ_self _)

private theorem write_happens (plain : PlainProgram hangs_up program) {nwritten : Wrote} (rested : Rested done w) (bytes : Str) :
    Happens hangs_up bytes w (write_connected program nwritten w) := by
  have piped := rested.piped
  unfold write_connected
  cases wrote : redisBufferWrite nwritten w.ac.c with
  | mk ok rest =>
    obtain ⟨taken, c⟩ := rest
    obtain ⟨same, whole, fails⟩ := redisBufferWrite_keeps wrote
    cases ok with
    | none =>
      obtain ⟨w₁, is, ended, later⟩ := piped.ends plain (fails rfl).1
      dsimp only
      rw [is]
      exact piped.ended ended later bytes
    | some ok =>
      have still : Still w { w with ac := { w.ac with c := c, wev := !ok, rev := true }, sent := w.sent ++ taken } :=
        { reader := same, written := by dsimp only; rw [List.append_assoc, whole] }
      exact Rested.goes (still.fed piped rfl bytes) (rested.still still)

/-- The handlers on a context that may not be connected yet. -/
private theorem connected_first_happens (plain : PlainProgram hangs_up program) {check : Checked} {later : World → Option World}
    {bytes : Str} (rested : Rested done w)
    (happens : ∀ w₁, Still w w₁ → w₁.ac.disconnecting = w.ac.disconnecting → Happens hangs_up bytes w₁ (later w₁)) :
    Happens hangs_up bytes w (connected_first program check later w) := by
  obtain ⟨c, connected, log, w₁, is, reader, obuf, taken, runs, cases⟩ := connected_first_cases program check later w
  have still : Still w w₁ := by
    subst is
    exact { taken := taken, runs := runs, reader := reader, written := congrArg (w.sent ++ ·) obuf }
  have asks : w₁.ac.disconnecting = w.ac.disconnecting := by rw [is]
  rcases cases with goes_on | waits | ⟨err, ends⟩
  · rw [goes_on]
    exact (happens w₁ still asks).after still asks
  · rw [waits]
    exact Rested.goes (still.fed rested.piped asks bytes) (rested.still still)
  · have bad : w₁.ac.c.err ≠ 0 := by
      rw [is]
      exact err
    obtain ⟨w₂, is₂, ended, behind⟩ := (rested.piped.still still).ends plain bad
    rw [still.replies] at ended
    rw [ends]
    exact is₂ ▸ rested.piped.ended ended ((still.later asks).trans behind (still.freed.trans rested.piped.freed)) bytes

/-- The program's calls from outside of any callback are plain. -/
def PlainAct (hangs_up : Prop) : Act → Prop
  | .call call => PlainCall hangs_up call
  | .readable _ _ => True
  | .writable _ _ => True

/-- What comes in can be counted by an `int`, together with what is in the buffer. -/
def Room (w : World) (act : Act) : Prop := w.ac.c.reader.buf.length + (brings act).length < 2 ^ 31

instance (w : World) (act : Act) : Decidable (Room w act) := inferInstanceAs (Decidable (_ < _))

theorem step_happens (plain : PlainProgram hangs_up program) {act : Act} (plainAct : PlainAct hangs_up act) (room : Room w act)
    (rested : Rested done w) : Happens hangs_up (brings act) w (Callbacks.step program w act) := by
  have piped := rested.piped
  have calm := piped.calm
  unfold Callbacks.step
  rw [if_neg (by rw [piped.freed]; decide)]
  cases act with
  | call call =>
    cases call with
    | command cb argv =>
      obtain ⟨cmd, plainCmd, rfl⟩ := plainAct
      obtain ⟨w₁, is, asked⟩ := redisAsyncCommandArgv_asked plainCmd cb calm.subscribed
      have next := rested.asked asked
      have later : Later hangs_up w w₁ := later_of_asked asked
      dsimp only
      rw [is]
      exact Rested.goes ⟨.inl later.received, later.taken, later.asks next.piped.freed, next.piped.freed⟩ next
    | disconnect =>
      have next : Rested done { w with ac := { w.ac with disconnecting := true } } := rested.still {}
      have fed : Fed hangs_up [] w { w with ac := { w.ac with disconnecting := true } } :=
        ⟨.inl rfl, List.prefix_refl _, fun _ => .inr plainAct, piped.freed⟩
      dsimp only
      unfold redisAsyncDisconnect
      dsimp only
      split
      · rename_i nobody
        rcases next.piped.disconnects plain (.inl rfl) with ⟨w₁, is, ended, later⟩ | ⟨_, waiting⟩
        · rw [is]
          exact ⟨_, fed, .goes ⟨done, .inr ⟨_, ended⟩⟩ later⟩
        · exact absurd nobody.2 waiting
      · exact Rested.goes fed next
    | free =>
      have next : Piped done { w with ac := { w.ac with freeing := true } } := piped.still {}
      obtain ⟨w₁, is, freed⟩ := asyncFree_freed plain next.calm (.inr rfl)
      dsimp only
      unfold redisAsyncFree
      dsimp only
      rw [if_neg (by rw [calm.in_callback]; decide), is]
      exact ⟨{ w with ac := { w.ac with freeing := true } }, ⟨.inl rfl, List.prefix_refl _, .inl, piped.freed⟩,
        .goes ⟨done, .inr ⟨_, over_of_freed freed next.taken next.runs next.replies⟩⟩ (later_of_freed freed)⟩
  | readable check nread =>
    dsimp only
    split
    · have next : Rested done { w with ac := { w.ac with rev := false } } := rested.still {}
      have same : Still w { w with ac := { w.ac with rev := false } } := {}
      refine Happens.after (connected_first_happens plain next fun w₁ still asks => ?_) same rfl
      refine read_happens plain (next.piped.still still) ?_
      rw [still.reader]
      exact room
    · exact Rested.goes (Still.fed {} piped rfl _) rested
  | writable check nwritten =>
    dsimp only
    split
    · have next : Rested done { w with ac := { w.ac with wev := false } } := rested.still {}
      have same : Still w { w with ac := { w.ac with wev := false } } := {}
      exact (connected_first_happens plain next fun w₁ still asks => write_happens plain (next.still still) _).after same rfl
    · exact Rested.goes (Still.fed {} piped rfl _) rested

/-! ### Runs -/

/-- In every step of the run there is room for what comes in. -/
def Roomy (program : Program) : World → List Act → Prop := Before (Callbacks.step program) Room

/-- What comes in is sent by a server for commands that it has read as a whole. -/
def Honest (serve : Server) (w : World) (act : Act) : Prop :=
  brings act = [] ∨ ∃ cmds : List RedisCmd, cmds.flatMap protocol.message <+: w.sent ∧
    w.received ++ brings act <+: wire (answers serve [] cmds)

/-- All along the run there is room, and what comes in is the server's. -/
def Served (serve : Server) (program : Program) : World → List Act → Prop :=
  Before (Callbacks.step program) fun w act => Room w act ∧ Honest serve w act

/-- A second command once the first has been answered. -/
def again : Program := fun log => if (ran log).length < 2 then [.command { fn := some 0 } (pointed [lit "PING"])] else []

/-- The connection is lost before the second reply. -/
def cut_off : List Act :=
  [.writable .ok (.wrote 0), .call (.command { fn := some 0 } (pointed [lit "PING"])), .writable .ok (.wrote 14),
    .readable .ok (.bytes (lit "+O")), .readable .ok (.bytes (lit "K\r\n")), .readable .ok (.bytes [])]

private theorem ping_plain (hangs_up : Prop) : PlainCall hangs_up (.command { fn := some 0 } (pointed [lit "PING"])) :=
  ⟨_, ⟨by decide, lit "PING", [], rfl, by decide, by decide⟩, rfl⟩

private theorem again_plain (hangs_up : Prop) : PlainProgram hangs_up again := by
  intro log call member
  unfold again at member
  split at member
  · obtain rfl := List.mem_singleton.mp member
    exact ping_plain hangs_up
  · cases member

private theorem cut_off_plain (hangs_up : Prop) : ∀ act ∈ cut_off, PlainAct hangs_up act := by
  simp only [cut_off, List.mem_cons, List.not_mem_nil, or_false, forall_eq_or_imp, forall_eq]
  exact ⟨trivial, ping_plain hangs_up, trivial, trivial, trivial, trivial⟩

private theorem cut_off_served : Served Conversations.obliging again opened cut_off := by
  refine ⟨⟨by decide, .inl rfl⟩, fun w₁ is => ?_⟩
  obtain rfl := Option.some.inj is
  refine ⟨⟨by decide, .inl rfl⟩, fun w₁ is => ?_⟩
  obtain rfl := Option.some.inj is
  refine ⟨⟨by decide, .inl rfl⟩, fun w₁ is => ?_⟩
  obtain rfl := Option.some.inj is
  -- the reply comes in two parts
  refine ⟨⟨by decide, .inr ⟨[[lit "PING"]], ⟨_, rfl⟩, ⟨_, rfl⟩⟩⟩, fun w₁ is => ?_⟩
  obtain rfl := Option.some.inj is
  refine ⟨⟨by decide, .inr ⟨[[lit "PING"]], ⟨_, rfl⟩, ⟨_, rfl⟩⟩⟩, fun w₁ is => ?_⟩
  obtain rfl := Option.some.inj is
  exact ⟨⟨by decide, .inl rfl⟩, fun w₁ is => trivial⟩

theorem opened_rested : Rested [] opened := by
  refine ⟨⟨rfl, rfl, rfl, List.nil_prefix, rfl, ⟨rfl, rfl, rfl, rfl, rfl, rfl⟩, reading_create⟩, ?_⟩
  rw [show opened.received = [] from rfl, decoded_nil]
  rfl

private theorem step_over {left : List RedisCallback} (ended : Over done left w) (act : Act) :
    Callbacks.step program w act = some w := if_pos ended.freed

private theorem step_accounted (plain : PlainProgram True program) {act : Act} (accounted : Accounted w)
    (fits : Room w act ∧ PlainAct True act) (is : Callbacks.step program w act = some w') : Accounted w' := by
  obtain ⟨done, rested | ⟨left, ended⟩⟩ := accounted
  · obtain ⟨w₁, fed, ends⟩ := step_happens plain fits.2 fits.1 rested
    rw [is] at ends
    cases ends with
    | goes accounted _ => exact accounted
  · rw [step_over ended] at is
    cases is
    exact ⟨done, .inr ⟨left, ended⟩⟩

/-- In every run of calls and events, whatever bytes come in and whatever the callbacks
    ask for, the callbacks of the commands that were taken are run once each and in their
    order: the first ones with the replies of the stream, one by one, and the others with
    NULL when the context is freed. -/
theorem callbacks_in_order (plain : PlainProgram True program) {acts : List Act} (plainActs : ∀ act ∈ acts, PlainAct True act)
    (room : Roomy program opened acts) (is : run (Callbacks.step program) opened acts = some w) :
    ∃ (done : List (RedisCallback × RedisReply)) (left : List RedisCallback),
      (accepted w.log).map (·.1) = done.map (·.1) ++ left ∧ done.map (·.2) <+: (decoded w.received).1 ∧
        (w.freed = false → done.map (·.2) = (decoded w.received).1) ∧
          ran w.log = live (answered done ++ if w.freed = true then nulls left else []) := by
  have accounted := run_invariant_before Accounted (fun _ _ _ => step_accounted plain) is (room.and_all plainActs)
    ⟨[], .inl opened_rested⟩
  obtain ⟨done, rested | ⟨left, ended⟩⟩ := accounted
  · have piped := rested.piped
    refine ⟨done, w.ac.replies, piped.taken, piped.replies, fun _ => rested.all, ?_⟩
    rw [if_neg (by rw [piped.freed]; decide), List.append_nil]
    exact piped.runs
  · refine ⟨done, left, ended.taken, ended.replies, fun alive => ?_, ?_⟩
    · rw [ended.freed] at alive
      cases alive
    · rw [if_pos ended.freed]
      exact ended.runs

theorem callbacks_in_order_cut : ∃ w, run (Callbacks.step again) opened cut_off = some w ∧
    ∃ (done : List (RedisCallback × RedisReply)) (left : List RedisCallback),
      (accepted w.log).map (·.1) = done.map (·.1) ++ left ∧ done.map (·.2) <+: (decoded w.received).1 ∧
        (w.freed = false → done.map (·.2) = (decoded w.received).1) ∧
          ran w.log = live (answered done ++ if w.freed = true then nulls left else []) :=
  ⟨_, rfl, callbacks_in_order (again_plain True) (cut_off_plain True) (cut_off_served.mono fun _ _ => And.left) rfl⟩

/-! ### A server -/

/-- The commands that were taken. -/
def commands (log : List Event) : List RedisCmd := (accepted log).map fun command => command.2.denotes

theorem messages_eq (l : List (RedisCallback × Argv)) :
    messages l = (l.map fun command => command.2.denotes).flatMap protocol.message := by
  rw [messages, List.flatMap_map]

/-- The commands that a stream begins with. -/
theorem messages_front {cmds all : List RedisCmd}
    (front : cmds.flatMap protocol.message <+: all.flatMap protocol.message) : cmds <+: all := by
  induction cmds generalizing all with
  | nil => exact List.nil_prefix
  | cons cmd cmds ih =>
    obtain ⟨back, whole⟩ := front
    rw [List.flatMap_cons, List.append_assoc] at whole
    cases all with
    | nil => simp [Format.message, Format.line] at whole
    | cons cmd' all =>
      have here := protocol.read_message_message cmd (cmds.flatMap protocol.message ++ back)
      have there := protocol.read_message_message cmd' (all.flatMap protocol.message)
      rw [whole, List.flatMap_cons, there] at here
      obtain ⟨rfl, rest⟩ := Prod.mk.inj (Option.some.inj here)
      exact List.cons_prefix_cons.mpr ⟨rfl, ih ⟨back, rest.symm⟩⟩

/-- What has come in are replies of the server to commands that were taken. -/
def Heard (serve : Server) (w : World) : Prop :=
  ∃ cmds, cmds <+: commands w.log ∧ w.received <+: wire (answers serve [] cmds)

variable {serve : Server}

theorem answers_length (serve : Server) (before cmds : List RedisCmd) : (answers serve before cmds).length = cmds.length := by
  induction cmds generalizing before with
  | nil => rfl
  | cons cmd cmds ih => simp [answers, ih]

theorem answers_front (serve : Server) {cmds all : List RedisCmd} (front : cmds <+: all) :
    answers serve [] cmds <+: answers serve [] all := by
  obtain ⟨back, rfl⟩ := front
  rw [Conversations.answers_append]
  exact List.prefix_append _ _

private theorem answers_mem {before cmds : List RedisCmd} {p : Part} (member : p ∈ answers serve before cmds) :
    ∃ before cmd, p = serve before cmd := by
  induction cmds generalizing before with
  | nil => cases member
  | cons cmd cmds ih =>
    rcases List.mem_cons.mp member with rfl | member
    · exact ⟨before, cmd, rfl⟩
    · exact ih member

theorem arrived_front (parts : List Part) (n : Nat) : arrived parts n <+: parts.map Part.reply := by
  induction parts generalizing n with
  | nil => exact List.prefix_refl _
  | cons p parts ih =>
    unfold arrived
    split
    · exact List.cons_prefix_cons.mpr ⟨rfl, ih _⟩
    · exact List.nil_prefix

/-- The stream of a server is well formed, and has the replies to commands that were
    taken. -/
private theorem Heard.decoded (orderly : Conversations.Orderly serve) (heard : Heard serve w) :
    (Deliveries.decoded w.received).1 <+: (answers serve [] (commands w.log)).map Part.reply ∧
      (Deliveries.decoded w.received).2 = .pending := by
  obtain ⟨cmds, taken, front⟩ := heard
  have sent : ∀ p ∈ answers serve [] cmds, Sent p := by
    intro p member
    obtain ⟨before, cmd, rfl⟩ := answers_mem member
    exact orderly.sent before cmd
  have shallow : ∀ p ∈ answers serve [] cmds, p.levels ≤ 8 := by
    intro p member
    obtain ⟨before, cmd, rfl⟩ := answers_mem member
    exact orderly.shallow before cmd
  rw [decoded_arrived sent shallow front]
  exact ⟨(arrived_front _ _).trans ((answers_front serve taken).map Part.reply), rfl⟩

theorem commands_front (taken : accepted w.log <+: accepted w'.log) : commands w.log <+: commands w'.log := taken.map _

private theorem Heard.later (heard : Heard serve w) (later : Later hangs_up w w') : Heard serve w' := by
  obtain ⟨cmds, taken, front⟩ := heard
  refine ⟨cmds, taken.trans (commands_front later.taken), ?_⟩
  rw [later.received]
  exact front

private theorem Heard.fed (heard : Heard serve w) (piped : Piped done w) {act : Act} (honest : Honest serve w act)
    (fed : Fed hangs_up (brings act) w w') : Heard serve w' := by
  have more := commands_front fed.taken
  have still : w'.received = w.received → Heard serve w' := by
    intro same
    obtain ⟨cmds, taken, front⟩ := heard
    refine ⟨cmds, taken.trans more, ?_⟩
    rw [same]
    exact front
  rcases fed.received with same | brought
  · exact still same
  · rcases honest with nothing | ⟨cmds, read, front⟩
    · rw [nothing, List.append_nil] at brought
      exact still brought
    · have written : w.sent <+: messages (accepted w.log) := ⟨w.ac.c.obuf, piped.written⟩
      rw [messages_eq] at written
      refine ⟨cmds, (messages_front (read.trans written)).trans more, ?_⟩
      rw [brought]
      exact front

/-- What holds between two events on a connection to a server. -/
structure Sound (hangs_up : Prop) (serve : Server) (w : World) : Prop where
  accounted : Accounted w
  heard : Heard serve w
  asks : w.freed = false → w.ac.disconnecting = true → hangs_up

/-- Such an event has a result, unless somebody has hung up. -/
private theorem step_sound (orderly : Conversations.Orderly serve) (plain : PlainProgram hangs_up program) {act : Act}
    (plainAct : PlainAct hangs_up act) (room : Room w act) (honest : Honest serve w act) (sound : Sound hangs_up serve w) :
    (∀ w', Callbacks.step program w act = some w' → Sound hangs_up serve w') ∧ (Callbacks.step program w act = none → hangs_up) := by
  obtain ⟨done, rested | ⟨left, ended⟩⟩ := sound.accounted
  · obtain ⟨w₁, fed, ends⟩ := step_happens plain plainAct room rested
    have heard := sound.heard.fed rested.piped honest fed
    have asks : w₁.ac.disconnecting = true → hangs_up := fun closing => (fed.asks closing).elim (sound.asks rested.piped.freed) id
    constructor
    · intro w' is
      rw [is] at ends
      cases ends with
      | goes accounted later =>
        refine ⟨accounted, heard.later later, fun alive closing => ?_⟩
        exact (later.asks alive closing).elim asks id
    · intro is
      rw [is] at ends
      cases ends with
      | undefined ends =>
        rw [(heard.decoded orderly).2] at ends
        cases ends
      | @nobody done' w₂ piped' later waiting next =>
        -- as many commands as replies have been taken
        have few := ((heard.later later).decoded orderly).1.length_le
        rw [List.length_map, answers_length, commands, List.length_map, later.received] at few
        have taken := congrArg List.length piped'.taken
        rw [waiting, List.append_nil, List.length_map, List.length_map] at taken
        exact absurd (List.getElem?_eq_none (by omega)) next
      | abandoned piped' later closing waiting => exact (later.asks piped'.freed closing).elim asks id
  · have stays : Callbacks.step program w act = some w := step_over ended act
    rw [stays]
    refine ⟨fun w' is => ?_, fun is => by cases is⟩
    cases is
    exact sound

theorem opened_sound (hangs_up : Prop) (serve : Server) : Sound hangs_up serve opened :=
  ⟨⟨[], .inl opened_rested⟩, ⟨[], List.nil_prefix, List.nil_prefix⟩, fun _ closing => by cases closing⟩

/-- On a connection to a server the callback of each command gets the server's reply to
    this command, in order and as soon as it is whole, or NULL when the context is freed
    before. -/
theorem callbacks_answered (orderly : Conversations.Orderly serve) (plain : PlainProgram True program) {acts : List Act}
    (plainActs : ∀ act ∈ acts, PlainAct True act) (served : Served serve program opened acts)
    (is : run (Callbacks.step program) opened acts = some w) :
    ∃ n ≤ (commands w.log).length, (w.freed = false → n = (decoded w.received).1.length) ∧
      ran w.log = live (answered ((((accepted w.log).map (·.1)).zip ((answers serve [] (commands w.log)).map Part.reply)).take n) ++
        if w.freed = true then nulls (((accepted w.log).map (·.1)).drop n) else []) := by
  have sound := run_invariant_before (Sound True serve)
    (fun _ _ w' sound fits => (step_sound orderly plain fits.2 fits.1.1 fits.1.2 sound).1 w') is (served.and_all plainActs)
    (opened_sound True serve)
  have all := (sound.heard.decoded orderly).1
  have pairs : ∀ {done : List (RedisCallback × RedisReply)} {left : List RedisCallback},
      (accepted w.log).map (·.1) = done.map (·.1) ++ left → done.map (·.2) <+: (Deliveries.decoded w.received).1 →
        done.length ≤ (commands w.log).length ∧
          (((accepted w.log).map (·.1)).zip ((answers serve [] (commands w.log)).map Part.reply)).take done.length = done ∧
            ((accepted w.log).map (·.1)).drop done.length = left := by
    intro done left taken replies
    have here := List.prefix_iff_eq_take.mp (replies.trans all)
    rw [List.length_map] at here
    have count := congrArg List.length taken
    simp only [List.length_append, List.length_map] at count
    refine ⟨?_, ?_, ?_⟩
    · rw [commands, List.length_map]
      omega
    · rw [List.zip, List.take_zipWith, ← here, taken, List.take_append_of_le_length (by simp), List.take_of_length_le (by simp),
        ← List.zip, List.zip_map', List.map_id']
    · rw [taken, List.drop_append_of_le_length (by simp), List.drop_of_length_le (by simp), List.nil_append]
  obtain ⟨done, rested | ⟨left, ended⟩⟩ := sound.accounted
  · have piped := rested.piped
    obtain ⟨few, taken, _⟩ := pairs piped.taken piped.replies
    refine ⟨done.length, few, fun _ => ?_, ?_⟩
    · rw [← rested.all, List.length_map]
    · rw [taken, if_neg (by rw [piped.freed]; decide), List.append_nil]
      exact piped.runs
  · obtain ⟨few, taken, rest⟩ := pairs ended.taken ended.replies
    refine ⟨done.length, few, fun alive => ?_, ?_⟩
    · rw [ended.freed] at alive
      cases alive
    · rw [taken, rest, if_pos ended.freed]
      exact ended.runs

theorem callbacks_answered_cut : ∃ w, run (Callbacks.step again) opened cut_off = some w ∧ ∃ n ≤ (commands w.log).length,
    (w.freed = false → n = (decoded w.received).1.length) ∧
      ran w.log = live (answered ((((accepted w.log).map (·.1)).zip
          ((answers Conversations.obliging [] (commands w.log)).map Part.reply)).take n) ++
        if w.freed = true then nulls (((accepted w.log).map (·.1)).drop n) else []) :=
  ⟨_, rfl, callbacks_answered Conversations.obliging_orderly (again_plain True) (cut_off_plain True) cut_off_served rfl⟩

/-- Where nobody calls `redisAsyncDisconnect`, no assertion fails, whatever else the
    program does and however the server's bytes come in. -/
theorem never_aborts (orderly : Conversations.Orderly serve) (plain : PlainProgram False program) {acts : List Act}
    (plainActs : ∀ act ∈ acts, PlainAct False act) (served : Served serve program opened acts) :
    run (Callbacks.step program) opened acts ≠ none := by
  have goes : ∀ w act, Sound False serve w → (Room w act ∧ Honest serve w act) ∧ PlainAct False act →
      ∃ w', Callbacks.step program w act = some w' ∧ Sound False serve w' := by
    intro w act sound fits
    have sounds := step_sound orderly plain fits.2 fits.1.1 fits.1.2 sound
    obtain ⟨w', is⟩ := Option.ne_none_iff_exists'.mp sounds.2
    exact ⟨w', is, sounds.1 w' is⟩
  obtain ⟨w, is, _⟩ := run_goes (Sound False serve) goes (served.and_all plainActs) (opened_sound False serve)
  rw [is]
  exact Option.some_ne_none w

theorem never_aborts_cut : run (Callbacks.step again) opened cut_off ≠ none :=
  never_aborts Conversations.obliging_orderly (again_plain False) (cut_off_plain False) cut_off_served

end CppRedis.Responses

import CppRedis.Scans

/-!
Commands that are answered one by one on an asynchronous context, where the program sends
none that changes the mode. `Asked` says what the calls of a callback do, and `Freed` what
becomes of the callbacks that wait when the context ends.
-/
namespace CppRedis.Pipelines
open CppRedis.Strings CppRedis.Reply CppRedis.Connection CppRedis.Requests CppRedis.Frames CppRedis.Streams CppRedis.Readers
open CppRedis.ReplyStreams CppRedis.Deliveries CppRedis.Encodings CppRedis.Contexts CppRedis.Dicts
open CppRedis.Callbacks CppRedis.Scans

/-! ### Plain commands -/

/-- A command that can be sent, and that does not change the mode of the context. -/
structure Plain (cmd : RedisCmd) : Prop where
  sendable : Sendable cmd
  named : ∃ name args, cmd = name :: args ∧ 13 ∉ name ∧
    (bare name).map tolower ∉ [lit "subscribe", lit "unsubscribe", lit "monitor"]

/-- Such a call; whether it may be one of `redisAsyncDisconnect` is left open. -/
def PlainCall (hangs_up : Prop) : Call → Prop
  | .command _ argv => ∃ cmd, Plain cmd ∧ argv = pointed cmd
  | .disconnect => hangs_up
  | .free => True

/-- The program's callbacks make such calls. -/
def PlainProgram (hangs_up : Prop) (program : Program) : Prop := ∀ log, ∀ call ∈ program log, PlainCall hangs_up call

def refusing (ac : RedisAsyncContext) : Prop := ac.disconnecting = true ∨ ac.freeing = true

/-- A plain command is sent, and its callback waits behind the others. -/
private theorem redisAsyncCommand_plain {cmd : RedisCmd} (plain : Plain cmd) (cb : RedisCallback) {ac : RedisAsyncContext}
    (mode : ac.subscribed = false) (open_ : ¬ refusing ac) :
    ac.redisAsyncCommand cb (protocol.message cmd) =
      some (true, { ac with replies := ac.replies ++ [cb] }.append (protocol.message cmd)) := by
  obtain ⟨name, args, rfl, one, other⟩ := plain.named
  have short := plain.sendable.short
  have named := short name List.mem_cons_self
  simp only [List.mem_cons, List.not_mem_nil, or_false, not_or] at other
  rw [command_scanned cb one named (fun arg member => short arg (List.mem_cons_of_mem _ member))]
  unfold commanded
  unfold refusing at open_
  rw [if_neg open_, if_neg fun both => other.1 both.2, if_neg other.2.1, if_neg other.2.2, if_neg (by rw [mode]; decide)]

private theorem redisAsyncCommand_refused (cb : RedisCallback) (cmd : Str) {ac : RedisAsyncContext} (closed : refusing ac) :
    ac.redisAsyncCommand cb cmd = some (false, ac) := if_pos closed

/-- hiredis formats the command, if the call has one. -/
def Formattable : Call → Prop
  | .command _ argv => ∃ cmd, redisFormatCommandArgv argv = .command cmd
  | .disconnect => True
  | .free => True

/-- A call on a context that takes no commands any more. -/
theorem called_refused {w : World} {call : Call} (formattable : Formattable call) (closed : refusing w.ac) :
    ∃ ac log, called call w = some { w with ac := ac, log := log } ∧ refusing ac ∧
      ac = { w.ac with disconnecting := ac.disconnecting, freeing := ac.freeing } ∧
      accepted log = accepted w.log ∧ ran log = ran w.log := by
  cases call with
  | command cb argv =>
    obtain ⟨cmd, formatted⟩ := formattable
    refine ⟨w.ac, w.log ++ [.issued cb argv false], ?_, closed, rfl, ?_, ?_⟩
    · simp only [called, redisAsyncCommandArgv, formatted, redisAsyncCommand_refused cb cmd closed, Option.map_some, World.record]
    · simp [accepted]
    · simp [ran]
  | disconnect => exact ⟨{ w.ac with disconnecting := true }, w.log, rfl, .inl rfl, rfl, rfl, rfl⟩
  | free => exact ⟨{ w.ac with freeing := true }, w.log, rfl, .inr rfl, rfl, rfl, rfl⟩

/-! ### What a callback asks for -/

/-- The callbacks that are run. -/
def live (l : List (RedisCallback × Option RedisReply)) : List (RedisCallback × Option RedisReply) :=
  l.filter fun run => run.1.fn.isSome

theorem live_append (l l' : List (RedisCallback × Option RedisReply)) : live (l ++ l') = live l ++ live l' := List.filter_append ..

/-- What calls of the program leave as it is. -/
def masked (w : World) : World :=
  { w with
    ac := { w.ac with c := { w.ac.c with obuf := [] }, replies := [], disconnecting := false, freeing := false, wev := false }
    log := [] }

/-- Commands are taken behind those before, if any are, and such callbacks are run. -/
structure Asked (hangs_up : Prop) (runs : List (RedisCallback × Option RedisReply)) (w w' : World) : Prop where
  more : ∃ l : List (RedisCallback × Argv), accepted w'.log = accepted w.log ++ l ∧
    w'.ac.replies = w.ac.replies ++ l.map (·.1) ∧
    w'.ac.c.obuf = w.ac.c.obuf ++ l.flatMap (fun command => protocol.message command.2.denotes) ∧
    (refusing w.ac → l = []) ∧ (w.ac.wev = true → w'.ac.wev = true) ∧ (l ≠ [] → w'.ac.wev = true)
  runs : ran w'.log = ran w.log ++ runs
  same : masked w' = masked w
  disconnecting : w.ac.disconnecting = true → w'.ac.disconnecting = true
  asks : w'.ac.disconnecting = true → w.ac.disconnecting = true ∨ hangs_up
  freeing : w.ac.freeing = true → w'.ac.freeing = true

variable {hangs_up : Prop} {w w' w'' : World} {program : Program} {runs runs' : List (RedisCallback × Option RedisReply)}

theorem Asked.refl (hangs_up : Prop) (w : World) : Asked hangs_up [] w w :=
  ⟨⟨[], by simp⟩, by simp, rfl, id, .inl, id⟩

theorem Asked.refuses (asked : Asked hangs_up runs w w') (closed : refusing w.ac) : refusing w'.ac :=
  closed.imp asked.disconnecting asked.freeing

theorem Asked.trans (first : Asked hangs_up runs w w') (second : Asked hangs_up runs' w' w'') : Asked hangs_up (runs ++ runs') w w'' := by
  obtain ⟨l, taken, replies, obuf, none, kept, armed⟩ := first.more
  obtain ⟨l', taken', replies', obuf', none', kept', armed'⟩ := second.more
  refine ⟨⟨l ++ l', ?_, ?_, ?_, ?_, ?_, ?_⟩, ?_, second.same.trans first.same, ?_, ?_, ?_⟩
  · rw [taken', taken, List.append_assoc]
  · rw [replies', replies, List.map_append, List.append_assoc]
  · rw [obuf', obuf, List.flatMap_append, List.append_assoc]
  · exact fun closed => by rw [none closed, none' (first.refuses closed), List.append_nil]
  · exact fun wev => kept' (kept wev)
  · intro some
    by_cases here : l = []
    · refine armed' fun nothing => some ?_
      rw [here, nothing, List.append_nil]
    · exact kept' (armed here)
  · rw [second.runs, first.runs, List.append_assoc]
  · exact fun closed => second.disconnecting (first.disconnecting closed)
  · exact fun closed => (second.asks closed).elim first.asks .inr
  · exact fun closed => second.freeing (first.freeing closed)

theorem Asked.subscribed (asked : Asked hangs_up runs w w') : w'.ac.subscribed = w.ac.subscribed :=
  congrArg (fun w => w.ac.subscribed) asked.same

theorem Asked.in_callback (asked : Asked hangs_up runs w w') : w'.ac.in_callback = w.ac.in_callback :=
  congrArg (fun w => w.ac.in_callback) asked.same

theorem redisAsyncCommandArgv_asked {cmd : RedisCmd} (plain : Plain cmd) (cb : RedisCallback)
    (mode : w.ac.subscribed = false) : ∃ w', redisAsyncCommandArgv cb (pointed cmd) w = some w' ∧ Asked hangs_up [] w w' := by
  rw [redisAsyncCommandArgv_sendable plain.sendable]
  by_cases closed : refusing w.ac
  · rw [redisAsyncCommand_refused cb _ closed]
    refine ⟨_, rfl, ⟨[], ?_, ?_, ?_, fun _ => rfl, id, fun some => absurd rfl some⟩, ?_, rfl, id, .inl, id⟩
    · simp [World.record, accepted]
    · simp [World.record]
    · simp [World.record]
    · simp [World.record, ran]
  · rw [redisAsyncCommand_plain plain cb mode closed]
    refine ⟨_, rfl, ⟨[(cb, pointed cmd)], ?_, ?_, ?_, fun refused => absurd refused closed, fun _ => rfl, fun _ => rfl⟩,
      ?_, rfl, id, .inl, id⟩
    · simp [World.record, accepted]
    · simp [World.record, RedisAsyncContext.append]
    · simp [World.record, RedisAsyncContext.append, RedisContext.append, pointed_denotes]
    · simp [World.record, ran]

/-- A plain call from within a callback. -/
private theorem called_asked {call : Call} (plain : PlainCall hangs_up call) (mode : w.ac.subscribed = false) :
    ∃ w', called call w = some w' ∧ Asked hangs_up [] w w' := by
  cases call with
  | command cb argv =>
    obtain ⟨cmd, plain, rfl⟩ := plain
    exact redisAsyncCommandArgv_asked plain cb mode
  | disconnect => exact ⟨_, rfl, ⟨[], by simp⟩, by simp, rfl, fun _ => rfl, fun _ => .inr plain, id⟩
  | free => exact ⟨_, rfl, ⟨[], by simp⟩, by simp, rfl, id, .inl, fun _ => rfl⟩

private theorem called_all_asked {calls : List Call} (plain : ∀ call ∈ calls, PlainCall hangs_up call) (mode : w.ac.subscribed = false) :
    ∃ w', called_all calls w = some w' ∧ Asked hangs_up [] w w' := by
  induction calls generalizing w with
  | nil => exact ⟨w, rfl, .refl hangs_up w⟩
  | cons call calls ih =>
    obtain ⟨w₁, is, asked⟩ := called_asked (plain call List.mem_cons_self) mode
    obtain ⟨w₂, is', asked'⟩ := ih (fun call member => plain call (List.mem_cons_of_mem _ member)) (asked.subscribed.trans mode)
    refine ⟨w₂, ?_, asked.trans asked'⟩
    rw [called_all, is, Option.bind_some, is']

theorem redisRunCallback_asked (plain : PlainProgram hangs_up program) (cb : RedisCallback) (reply : Option RedisReply)
    (mode : w.ac.subscribed = false) (idle : w.ac.in_callback = false) :
    ∃ w', redisRunCallback program cb reply w = some w' ∧ Asked hangs_up (live [(cb, reply)]) w w' := by
  unfold redisRunCallback
  by_cases null : cb.fn = none
  · rw [if_pos null]
    refine ⟨w, rfl, ?_⟩
    have nothing : live [(cb, reply)] = [] := by simp [live, null]
    rw [nothing]
    exact .refl hangs_up w
  · rw [if_neg null]
    have runs : live [(cb, reply)] = [(cb, reply)] := by simp [live, Option.isSome_iff_ne_none.mpr null]
    generalize before : ({ w with ac := { w.ac with in_callback := true } } : World).record (.ran cb reply) = w₁
    have mode₁ : w₁.ac.subscribed = false := by
      rw [← before]
      exact mode
    obtain ⟨w₂, is, asked⟩ := called_all_asked (plain w₁.log) mode₁
    dsimp only
    rw [is]
    refine ⟨_, rfl, ?_⟩
    subst before
    rw [runs]
    obtain ⟨l, taken, replies, obuf, none, kept, armed⟩ := asked.more
    refine ⟨⟨l, ?_, replies, obuf, none, kept, armed⟩, ?_, ?_, asked.disconnecting, asked.asks, asked.freeing⟩
    · refine taken.trans ?_
      simp [World.record, accepted]
    · refine asked.runs.trans ?_
      simp [World.record, ran]
    · have same := congrArg (fun w : World => { w with ac := { w.ac with in_callback := false } }) asked.same
      refine same.trans ?_
      simp only [masked, World.record, ← idle]

/-! ### The end of a context -/

/-- No command has changed the mode, and no callback is running. -/
structure Calm (ac : RedisAsyncContext) : Prop where
  subscribed : ac.subscribed = false
  monitoring : ac.monitoring = false
  invalid : ac.invalid = []
  channels : ac.channels = {}
  patterns : ac.patterns = {}
  in_callback : ac.in_callback = false

def mode (ac : RedisAsyncContext) : Bool × Bool × List RedisCallback × Dict Str RedisCallback × Dict Str RedisCallback × Bool :=
  (ac.subscribed, ac.monitoring, ac.invalid, ac.channels, ac.patterns, ac.in_callback)

theorem Calm.same {ac ac' : RedisAsyncContext} (calm : Calm ac) (same : mode ac' = mode ac) : Calm ac' := by
  simp only [mode, Prod.mk.injEq] at same
  obtain ⟨subscribed, monitoring, invalid, channels, patterns, in_callback⟩ := same
  exact ⟨subscribed.trans calm.subscribed, monitoring.trans calm.monitoring, invalid.trans calm.invalid,
    channels.trans calm.channels, patterns.trans calm.patterns, in_callback.trans calm.in_callback⟩

theorem Calm.masked (calm : Calm w.ac) (same : masked w' = masked w) : Calm w'.ac :=
  calm.same (congrArg (fun w => mode w.ac) same)

/-- The callbacks of a list have been run with NULL. -/
structure Nulled (left : List RedisCallback) (w w' : World) : Prop where
  taken : accepted w'.log = accepted w.log
  runs : ran w'.log = ran w.log ++ live (left.map fun cb => (cb, none))
  same : masked w' = masked w

private theorem run_replies_nulled (plain : PlainProgram hangs_up program) {left : List RedisCallback} (waiting : w.ac.replies = left)
    (calm : Calm w.ac) (closed : refusing w.ac) :
    ∃ w', run_replies program left.length w = some w' ∧ Nulled left w w' := by
  induction left generalizing w with
  | nil => exact ⟨w, rfl, rfl, by simp [live], rfl⟩
  | cons cb rest ih =>
    obtain ⟨w₁, is, asked⟩ := @redisRunCallback_asked hangs_up { w with ac := { w.ac with replies := rest } } program plain cb none
      calm.subscribed calm.in_callback
    obtain ⟨l, taken, replies, _, none, _⟩ := asked.more
    obtain rfl := none closed
    have same₁ : masked w₁ = masked w := asked.same
    obtain ⟨w₂, is', nulled⟩ := ih (replies.trans (List.append_nil rest)) (calm.masked same₁) (asked.refuses closed)
    refine ⟨w₂, ?_, ?_, ?_, nulled.same.trans same₁⟩
    · simp only [List.length_cons, run_replies, waiting, is, Option.bind_some, is']
    · rw [nulled.taken, taken, List.append_nil]
    · rw [nulled.runs, asked.runs, List.append_assoc, ← live_append]
      rfl

/-- A context is freed: the callbacks that wait are run with NULL. -/
structure Freed (left : List RedisCallback) (w w' : World) : Prop where
  freed : w'.freed = true
  taken : accepted w'.log = accepted w.log
  runs : ran w'.log = ran w.log ++ live (left.map fun cb => (cb, none))
  received : w'.received = w.received

theorem asyncFree_freed (plain : PlainProgram hangs_up program) (calm : Calm w.ac) (closed : refusing w.ac) :
    ∃ w', asyncFree program w = some w' ∧ Freed w.ac.replies w w' := by
  obtain ⟨w₁, is, nulled⟩ := run_replies_nulled plain rfl calm closed
  have calm₁ := calm.masked nulled.same
  have nothing : (w₁.ac.channels.walk.map (·.2)) = [] ∧ (w₁.ac.patterns.walk.map (·.2)) = [] := by
    rw [calm₁.channels, calm₁.patterns]
    exact ⟨rfl, rfl⟩
  unfold asyncFree
  simp only [is, Option.bind_some, calm₁.invalid, List.length_nil, run_invalid, nothing.1, nothing.2, run_nulls, Option.map_some]
  refine ⟨_, rfl, rfl, ?_, ?_, ?_⟩
  · refine Eq.trans ?_ nulled.taken
    split <;> simp [World.record, accepted]
  · refine Eq.trans ?_ nulled.runs
    split <;> simp [World.record, ran]
  · have received : w₁.received = w.received := congrArg (fun w => w.received) nulled.same
    refine Eq.trans ?_ received
    split <;> rfl

/-- After an error, or where no callback waits. -/
theorem asyncDisconnect_freed (plain : PlainProgram hangs_up program) (calm : Calm w.ac)
    (ready : w.ac.c.err ≠ 0 ∨ (w.ac.replies = [] ∧ refusing w.ac)) :
    ∃ w', asyncDisconnect program w = some w' ∧ Freed w.ac.replies w w' := by
  unfold asyncDisconnect
  by_cases sound : w.ac.c.err = 0
  · obtain ⟨nobody, closed⟩ := ready.resolve_left (not_not.mpr sound)
    have copied : Calm (redisAsyncCopyError w.ac) := calm.same rfl
    obtain ⟨w', is, freed⟩ := @asyncFree_freed hangs_up { w with ac := redisAsyncCopyError w.ac } program plain copied closed
    refine ⟨w', ?_, freed.freed, freed.taken, freed.runs, freed.received⟩
    dsimp only
    rw [if_pos (show (redisAsyncCopyError w.ac).err = 0 from sound), if_pos (show (redisAsyncCopyError w.ac).replies = [] from nobody), is]
  · have copied : Calm { redisAsyncCopyError w.ac with disconnecting := true } := calm.same rfl
    obtain ⟨w', is, freed⟩ :=
      @asyncFree_freed hangs_up { w with ac := { redisAsyncCopyError w.ac with disconnecting := true } } program plain copied (.inl rfl)
    refine ⟨w', ?_, freed.freed, freed.taken, freed.runs, freed.received⟩
    dsimp only
    rw [if_neg (show ¬ (redisAsyncCopyError w.ac).err = 0 from sound), is]

end CppRedis.Pipelines

import CppRedis.Callbacks

/-!
The life of an asynchronous context, for every program: its callbacks may send any
command, disconnect and free. `Busy` says what calls and callbacks leave as it is. From it
follows in which order the program is told of its connection (`told_in_order`), and that
libevent waits for all events that are needed (`awake`).
-/
namespace CppRedis.Lifecycles
open CppRedis.Strings CppRedis.Reply CppRedis.Requests CppRedis.Readers CppRedis.Contexts CppRedis.Dicts CppRedis.Callbacks CppRedis.Runs

variable {w w' w'' : World} {program : Program}

/-! ### Calls and callbacks -/

/-- What no call and no callback changes. -/
def frame (w : World) : Bool × Bool × Bool × Bool × Str × Str × Bool :=
  (w.ac.connected, w.ac.rev, w.ac.onConnect, w.ac.onDisconnect, w.sent, w.received, w.freed)

/-- Commands may have been written, and the context told to end; only such events have
    happened. -/
structure Busy (kind : Event → Prop) (w w' : World) : Prop where
  same : frame w' = frame w
  behind : w.ac.c.obuf <+: w'.ac.c.obuf
  armed : w.ac.wev = true → w'.ac.wev = true
  arms : w'.ac.c.obuf ≠ w.ac.c.obuf → w'.ac.wev = true
  closing : w.ac.disconnecting = true → w'.ac.disconnecting = true
  freeing : w.ac.freeing = true → w'.ac.freeing = true
  events : ∃ events, w'.log = w.log ++ events ∧ ∀ e ∈ events, kind e

variable {kind : Event → Prop}

namespace Busy

theorem refl (kind : Event → Prop) (w : World) : Busy kind w w :=
  ⟨rfl, List.prefix_refl _, id, fun other => absurd rfl other, id, id, [], by simp⟩

theorem trans (first : Busy kind w w') (second : Busy kind w' w'') : Busy kind w w'' := by
  obtain ⟨events, log, kinds⟩ := first.events
  obtain ⟨events', log', kinds'⟩ := second.events
  refine ⟨second.same.trans first.same, first.behind.trans second.behind, fun armed => second.armed (first.armed armed), ?_,
    fun closing => second.closing (first.closing closing), fun freeing => second.freeing (first.freeing freeing),
    events ++ events', ?_, ?_⟩
  · intro other
    by_cases here : w'.ac.c.obuf = w.ac.c.obuf
    · exact second.arms (here ▸ other)
    · exact second.armed (first.arms here)
  · rw [log', log, List.append_assoc]
  · intro e member
    rcases List.mem_append.mp member with member | member
    · exact kinds e member
    · exact kinds' e member

variable (busy : Busy kind w w')
include busy

theorem connected : w'.ac.connected = w.ac.connected := congrArg (·.1) busy.same
theorem rev : w'.ac.rev = w.ac.rev := congrArg (·.2.1) busy.same
theorem onConnect : w'.ac.onConnect = w.ac.onConnect := congrArg (·.2.2.1) busy.same
theorem onDisconnect : w'.ac.onDisconnect = w.ac.onDisconnect := congrArg (·.2.2.2.1) busy.same
theorem freed : w'.freed = w.freed := congrArg (·.2.2.2.2.2.2) busy.same

end Busy

/-- A command, or a callback that is run without a reply. -/
def Quiet : Event → Prop
  | .issued .. => True
  | .ran _ reply => reply = none
  | .connected _ => False
  | .disconnected _ => False

/-- A command, or a callback. -/
def Ordinary : Event → Prop
  | .issued .. => True
  | .ran .. => True
  | .connected _ => False
  | .disconnected _ => False

/-- Whether a command is MONITOR. -/
def monitors (cmd : Str) : Bool :=
  match nextArgument cmd with
  | some (some (cstr, _, _)) => strncasecmp_eq (if tolower (cstr.headD 0) = 112 then cstr.tail else cstr) (lit "monitor\r\n") 9
  | _ => false

/-- A command is refused, or written after a change of what the context keeps of its
    commands. -/
theorem redisAsyncCommand_cases {ac ac' : RedisAsyncContext} {cb : RedisCallback} {cmd : Str} {ok : Bool}
    (is : ac.redisAsyncCommand cb cmd = some (ok, ac')) :
    ac' = ac ∨ ∃ subscribed monitoring replies invalid channels patterns,
      ac.disconnecting = false ∧ (replies = ac.replies ∨ replies = ac.replies ++ [cb]) ∧
        (monitors cmd = false → monitoring = ac.monitoring) ∧
          ac' = { ac with
            subscribed := subscribed, monitoring := monitoring, replies := replies, invalid := invalid
            channels := channels, patterns := patterns }.append cmd := by
  have names : ∀ (pvariant : Bool) (fuel : Nat) (p : Str) (ac₁ ac₂ : RedisAsyncContext),
      ac₁.subscribe_all pvariant cb fuel p = some ac₂ →
        ∃ channels patterns, ac₂ = { ac₁ with channels := channels, patterns := patterns } := by
    intro pvariant fuel
    induction fuel with
    | zero => exact fun _ _ _ none => by cases none
    | succ fuel ih =>
      intro p ac₁ ac₂ is
      unfold RedisAsyncContext.subscribe_all at is
      split at is
      · cases is
      · cases is
        exact ⟨_, _, rfl⟩
      · split at is
        · cases is
        · obtain ⟨channels, patterns, rfl⟩ := ih _ _ _ is
          cases pvariant <;> exact ⟨_, _, rfl⟩
  unfold RedisAsyncContext.redisAsyncCommand at is
  split at is
  · cases is
    exact .inl rfl
  · rename_i open_
    have open_ : ac.disconnecting = false := Bool.eq_false_iff.mpr fun closed => open_ (.inl closed)
    split at is
    · rename_i cstr alen p scanned
      have same : monitors cmd = strncasecmp_eq (if tolower (cstr.headD 0) = 112 then cstr.tail else cstr) (lit "monitor\r\n") 9 := by
        unfold monitors
        rw [scanned]
      have pvariant : (if tolower (cstr.headD 0) = 112 then cstr.tail else cstr) =
          if decide (tolower (cstr.headD 0) = 112) = true then cstr.tail else cstr := by simp only [decide_eq_true_eq]
      rw [pvariant] at same
      generalize decide (tolower (cstr.headD 0) = 112) = pvariant at is same
      dsimp only at is
      generalize (if pvariant = true then cstr.tail else cstr) = name at is same
      split at is
      · obtain ⟨ac₁, all, taken⟩ := Option.map_eq_some_iff.mp is
        obtain ⟨channels, patterns, rfl⟩ := names _ _ _ _ _ all
        cases taken
        exact .inr ⟨_, _, _, _, _, _, open_, .inl rfl, fun _ => rfl, rfl⟩
      · split at is
        · split at is
          · cases is
            exact .inr ⟨_, _, _, _, _, _, open_, .inl rfl, fun _ => rfl, rfl⟩
          · cases is
            exact .inl rfl
        · split at is
          · rename_i monitor
            cases is
            exact .inr ⟨_, _, _, _, _, _, open_, .inr rfl, fun no => absurd (same.symm.trans no) (by rw [monitor]; decide), rfl⟩
          · split at is
            · cases is
              exact .inr ⟨_, _, _, _, _, _, open_, .inl rfl, fun _ => rfl, rfl⟩
            · cases is
              exact .inr ⟨_, _, _, _, _, _, open_, .inr rfl, fun _ => rfl, rfl⟩
    · cases is

section
variable (commands : ∀ cb argv ok, kind (.issued cb argv ok))
include commands

theorem redisAsyncCommandArgv_busy {cb : RedisCallback} {argv : Argv} (is : redisAsyncCommandArgv cb argv w = some w') :
    Busy kind w w' := by
  obtain ⟨_, ok, ac, -, taken, rfl⟩ := redisAsyncCommandArgv_some is
  have issued : ∃ events, w.log ++ [.issued cb argv ok] = w.log ++ events ∧ ∀ e ∈ events, kind e :=
    ⟨_, rfl, fun e member => List.mem_singleton.mp member ▸ commands cb argv ok⟩
  rcases redisAsyncCommand_cases taken with rfl | ⟨subscribed, monitoring, replies, invalid, channels, patterns, -, -, -, rfl⟩
  · exact ⟨rfl, List.prefix_refl _, id, fun other => absurd rfl other, id, id, issued⟩
  · exact ⟨rfl, List.prefix_append _ _, fun _ => rfl, fun _ => rfl, id, id, issued⟩

private theorem called_busy {call : Call} (is : called call w = some w') : Busy kind w w' := by
  cases call with
  | command cb argv => exact redisAsyncCommandArgv_busy commands is
  | disconnect =>
    cases is
    exact ⟨rfl, List.prefix_refl _, id, fun other => absurd rfl other, fun _ => rfl, id, [], by simp⟩
  | free =>
    cases is
    exact ⟨rfl, List.prefix_refl _, id, fun other => absurd rfl other, id, fun _ => rfl, [], by simp⟩

private theorem called_all_busy {calls : List Call} (is : called_all calls w = some w') : Busy kind w w' := by
  induction calls generalizing w with
  | nil =>
    cases is
    exact .refl kind _
  | cons call calls ih =>
    obtain ⟨w₁, first, later⟩ := Option.bind_eq_some_iff.mp is
    exact (called_busy commands first).trans (ih later)

theorem redisRunCallback_busy {cb : RedisCallback} {reply : Option RedisReply} (runs : kind (.ran cb reply))
    (is : redisRunCallback program cb reply w = some w') : Busy kind w w' := by
  unfold redisRunCallback at is
  split at is
  · cases is
    exact .refl kind _
  · obtain ⟨w₁, calls, rfl⟩ := Option.map_eq_some_iff.mp is
    obtain ⟨same, behind, armed, arms, closing, freeing, events, log, kinds⟩ := called_all_busy commands calls
    refine ⟨same, behind, armed, arms, closing, freeing, .ran cb reply :: events, ?_, ?_⟩
    · refine log.trans ?_
      simp [World.record]
    · intro e member
      rcases List.mem_cons.mp member with rfl | member
      · exact runs
      · exact kinds e member

end

/-! ### The end of a context -/

private theorem quiet_runs {cb : RedisCallback} (is : redisRunCallback program cb none w = some w') : Busy Quiet w w' :=
  redisRunCallback_busy (fun _ _ _ => trivial) rfl is

private theorem run_nulls_busy {l : List RedisCallback} (is : run_nulls program l w = some w') : Busy Quiet w w' := by
  induction l generalizing w with
  | nil =>
    cases is
    exact .refl Quiet _
  | cons cb rest ih =>
    obtain ⟨w₁, first, later⟩ := Option.bind_eq_some_iff.mp is
    exact (quiet_runs first).trans (ih later)

private theorem run_replies_busy {fuel : Nat} (is : run_replies program fuel w = some w') : Busy Quiet w w' := by
  induction fuel generalizing w with
  | zero =>
    cases is
    exact .refl Quiet _
  | succ fuel ih =>
    unfold run_replies at is
    split at is
    · cases is
      exact .refl Quiet _
    · rename_i cb rest waiting
      obtain ⟨w₁, first, later⟩ := Option.bind_eq_some_iff.mp is
      obtain ⟨same, behind, armed, arms, closing, freeing, events⟩ := quiet_runs first
      exact Busy.trans ⟨same, behind, armed, arms, closing, freeing, events⟩ (ih later)

private theorem run_invalid_busy {fuel : Nat} (is : run_invalid program fuel w = some w') : Busy Quiet w w' := by
  induction fuel generalizing w with
  | zero =>
    cases is
    exact .refl Quiet _
  | succ fuel ih =>
    unfold run_invalid at is
    split at is
    · cases is
      exact .refl Quiet _
    · rename_i cb rest waiting
      obtain ⟨w₁, first, later⟩ := Option.bind_eq_some_iff.mp is
      obtain ⟨same, behind, armed, arms, closing, freeing, events⟩ := quiet_runs first
      exact Busy.trans ⟨same, behind, armed, arms, closing, freeing, events⟩ (ih later)

/-- The context is freed, and the program told so if it had been connected. -/
structure Ended (w w' : World) : Prop where
  freed : w'.freed = true
  connected : w'.ac.connected = w.ac.connected
  events : ∃ events ok, (∀ e ∈ events, Quiet e) ∧
    w'.log = w.log ++ events ++ (if w.ac.onDisconnect = true ∧ w.ac.connected = true then [.disconnected ok] else [])

theorem asyncFree_ends (is : asyncFree program w = some w') : Ended w w' := by
  obtain ⟨w₁, first, is⟩ := Option.bind_eq_some_iff.mp is
  obtain ⟨w₂, second, is⟩ := Option.bind_eq_some_iff.mp is
  obtain ⟨w₃, third, is⟩ := Option.bind_eq_some_iff.mp is
  obtain ⟨w₄, fourth, rfl⟩ := Option.map_eq_some_iff.mp is
  have busy := (((run_replies_busy first).trans (run_invalid_busy second)).trans (run_nulls_busy third)).trans (run_nulls_busy fourth)
  obtain ⟨events, log, quiet⟩ := busy.events
  have told : (w₄.ac.onDisconnect = true ∧ w₄.ac.connected = true) = (w.ac.onDisconnect = true ∧ w.ac.connected = true) := by
    rw [busy.onDisconnect, busy.connected]
  refine ⟨rfl, ?_, events, decide (w₄.ac.freeing = true ∨ w₄.ac.err = 0), quiet, ?_⟩
  · refine Eq.trans ?_ busy.connected
    dsimp only
    split <;> rfl
  · simp only [told]
    split
    · exact congrArg (· ++ _) log
    · rw [log, List.append_nil]

theorem asyncDisconnect_ends (is : asyncDisconnect program w = some w') : Ended w w' := by
  unfold asyncDisconnect at is
  dsimp only at is
  split at is
  · split at is
    · obtain ⟨freed, connected, events⟩ := asyncFree_ends is
      exact ⟨freed, connected, events⟩
    · cases is
  · obtain ⟨freed, connected, events⟩ := asyncFree_ends is
    exact ⟨freed, connected, events⟩

/-! ### The loop -/

/-- What `redisProcessCallbacks` does not change itself. -/
def visible (ac : RedisAsyncContext) : Str × Bool × Bool × Bool × Bool × Bool × Bool × Bool :=
  (ac.c.obuf, ac.connected, ac.disconnecting, ac.freeing, ac.rev, ac.wev, ac.onConnect, ac.onDisconnect)

theorem busy_of_visible (kind : Event → Prop) {ac : RedisAsyncContext} (same : visible ac = visible w.ac) :
    Busy kind w { w with ac := ac } := by
  simp only [visible, Prod.mk.injEq] at same
  obtain ⟨obuf, connected, disconnecting, freeing, rev, wev, onConnect, onDisconnect⟩ := same
  refine ⟨?_, ?_, ?_, ?_, ?_, ?_, [], by simp⟩
  · simp only [frame, connected, rev, onConnect, onDisconnect]
  · exact ⟨[], by rw [List.append_nil, obuf]⟩
  · exact fun armed => wev.trans armed
  · exact fun other => absurd obuf other
  · exact fun closing => disconnecting.trans closing
  · exact fun free => freeing.trans free

/-- The output buffer is left alone, and so is the error unless there is a new one. -/
private theorem redisGetReplyFromReader_keeps {c c' : RedisContext} {result : Except Unit (Option RedisReply)}
    (is : redisGetReplyFromReader c = some (result, c')) :
    c'.obuf = c.obuf ∧ ((result = .error () ∧ c'.err ≠ 0) ∨ ((∃ reply, result = .ok reply) ∧ c'.err = c.err)) := by
  unfold redisGetReplyFromReader at is
  split at is
  · cases is
  · rename_i reader got
    cases is
    refine ⟨rfl, .inl ⟨rfl, ?_⟩⟩
    show reader.err ≠ 0
    unfold redisReaderGetReply at got
    split at got
    · rename_i failed
      cases got
      exact failed
    · split at got
      · cases got
      · dsimp only at got
        split at got
        · cases got
        · split at got
          · rename_i failed
            cases got
            exact failed
          · split at got <;> split at got <;> cases got
  · cases is
    exact ⟨rfl, .inr ⟨⟨_, rfl⟩, rfl⟩⟩

/-- A push changes nothing but what the context keeps of its subscriptions. -/
private theorem redisGetSubscribeCallback_cases {reply : RedisReply} {cb cb' : RedisCallback} {ac ac' : RedisAsyncContext}
    (is : redisGetSubscribeCallback reply cb ac = some (cb', ac')) :
    ∃ subscribed invalid channels patterns,
      ac' = { ac with subscribed := subscribed, invalid := invalid, channels := channels, patterns := patterns } := by
  unfold redisGetSubscribeCallback at is
  split at is
  · rename_i stype name rest
    generalize decide (tolower (stype.headD 0) = 112) = pvariant at is
    dsimp only at is
    generalize (if pvariant = true then stype.tail else stype) = word at is
    split at is
    · cases is
      exact ⟨_, _, _, _, rfl⟩
    · split at is
      · split at is
        · cases is
          split
          · cases pvariant <;> exact ⟨_, _, _, _, rfl⟩
          · cases pvariant <;> exact ⟨_, _, _, _, rfl⟩
        · cases is
      · cases is
        exact ⟨_, _, _, _, rfl⟩
  · cases is
  · cases is
  · split at is
    · cases is
      exact ⟨_, _, _, _, rfl⟩
    · cases is
      exact ⟨_, _, _, _, rfl⟩

/-- A reply is for the first callback that waits, for one of a subscription, or the
    context is refused. -/
theorem chosen_cases {reply : RedisReply} {cb : RedisCallback} {ac : RedisAsyncContext} {choice : Chosen}
    (is : chosen reply cb ac = some choice) :
    (∃ first rest, ac.replies = first :: rest ∧ choice = .callback first { ac with replies := rest }) ∨
      (∃ cb' subscribed invalid channels patterns,
        choice = .callback cb'
          { ac with subscribed := subscribed, invalid := invalid, channels := channels, patterns := patterns }) ∨
      ∃ str, choice = .refused { ac with c := ac.c.setError REDIS_ERR_OTHER str } := by
  unfold chosen at is
  split at is
  · rename_i first rest waiting
    cases is
    exact .inl ⟨first, rest, waiting, rfl⟩
  · split at is
    · cases is
      exact .inr (.inr ⟨_, rfl⟩)
    · split at is
      · obtain ⟨⟨cb', ac'⟩, got, rfl⟩ := Option.map_eq_some_iff.mp is
        obtain ⟨_, _, _, _, rfl⟩ := redisGetSubscribeCallback_cases got
        exact .inr (.inl ⟨_, _, _, _, _, rfl⟩)
      · split at is
        · cases is
          exact .inr (.inl ⟨_, _, _, _, _, rfl⟩)
        · cases is

/-- All that a round of the loop can do, where `later` are the rounds behind it. -/
inductive Rounds (program : Program) (cb : RedisCallback) (later : RedisCallback → World → Option World) (w w' : World) : Prop
  | fails {c : RedisContext} (obuf : c.obuf = w.ac.c.obuf) (failed : c.err ≠ 0)
      (is : asyncDisconnect program { w with ac := { w.ac with c := c } } = some w')
  | finishes {c : RedisContext} (obuf : c.obuf = w.ac.c.obuf) (err : c.err = w.ac.c.err)
      (last : w.ac.disconnecting = true ∧ c.obuf = [])
      (is : asyncDisconnect program { w with ac := { w.ac with c := c } } = some w')
  | monitors {c : RedisContext} (obuf : c.obuf = w.ac.c.obuf) (err : c.err = w.ac.c.err) (monitoring : w.ac.monitoring = true)
      (is : w' = { w with ac := { w.ac with c := c, replies := w.ac.replies ++ [cb] } })
  | waits {c : RedisContext} (obuf : c.obuf = w.ac.c.obuf) (err : c.err = w.ac.c.err)
      (is : w' = { w with ac := { w.ac with c := c } })
  | answers {c : RedisContext} {reply : RedisReply} {cb' : RedisCallback} {ac : RedisAsyncContext} {w₁ : World}
      (obuf : c.obuf = w.ac.c.obuf) (err : c.err = w.ac.c.err)
      (choice : chosen reply cb { w.ac with c := c } = some (.callback cb' ac))
      (runs : redisRunCallback program cb' (some reply) { w with ac := ac } = some w₁) (is : later cb' w₁ = some w')
  | frees {c : RedisContext} {reply : RedisReply} {cb' : RedisCallback} {ac : RedisAsyncContext} {w₁ : World}
      (obuf : c.obuf = w.ac.c.obuf) (err : c.err = w.ac.c.err)
      (choice : chosen reply cb { w.ac with c := c } = some (.callback cb' ac))
      (runs : redisRunCallback program cb' (some reply) { w with ac := ac } = some w₁) (freeing : w₁.ac.freeing = true)
      (is : asyncFree program w₁ = some w')

theorem process_rounds {fuel : Nat} {cb : RedisCallback} (is : process program (fuel + 1) cb w = some w') :
    Rounds program cb (process program fuel) w w' := by
  unfold process at is
  split at is
  · cases is
  · rename_i c got
    obtain ⟨obuf, ⟨-, failed⟩ | ⟨⟨_, other⟩, -⟩⟩ := redisGetReplyFromReader_keeps got
    · exact .fails obuf failed is
    · cases other
  · rename_i c got
    obtain ⟨obuf, ⟨other, -⟩ | ⟨-, err⟩⟩ := redisGetReplyFromReader_keeps got
    · cases other
    · dsimp only at is
      split at is
      · rename_i last
        exact .finishes obuf err last is
      · split at is
        · rename_i monitoring
          exact .monitors obuf err monitoring (Option.some.inj is).symm
        · exact .waits obuf err (Option.some.inj is).symm
  · rename_i reply c got
    obtain ⟨obuf, ⟨other, -⟩ | ⟨-, err⟩⟩ := redisGetReplyFromReader_keeps got
    · cases other
    · split at is
      · cases is
      · rename_i ac choice
        rcases chosen_cases choice with ⟨_, _, -, other⟩ | ⟨_, _, _, _, _, other⟩ | ⟨str, same⟩
        · cases other
        · cases other
        · cases same
          have failed : (c.setError REDIS_ERR_OTHER str).err ≠ 0 := show REDIS_ERR_OTHER ≠ 0 by decide
          exact .fails (show (c.setError REDIS_ERR_OTHER str).obuf = _ from obuf) failed is
      · rename_i cb' ac choice
        split at is
        · rename_i silent
          exact .answers obuf err choice (if_pos silent) is
        · split at is
          · cases is
          · rename_i w₁ runs
            split at is
            · rename_i freeing
              exact .frees obuf err choice runs freeing is
            · exact .answers obuf err choice runs is

private theorem chosen_visible {reply : RedisReply} {cb cb' : RedisCallback} {ac ac' : RedisAsyncContext}
    (is : chosen reply cb ac = some (.callback cb' ac')) : visible ac' = visible ac := by
  rcases chosen_cases is with ⟨first, rest, -, same⟩ | ⟨_, _, _, _, _, same⟩ | ⟨str, other⟩
  · cases same
    rfl
  · cases same
    rfl
  · cases other

/-- The context goes on, or it ends. -/
inductive Goes (w w' : World) : Prop
  | on (busy : Busy Ordinary w w')
  | ends {w₁ : World} (busy : Busy Ordinary w w₁) (ended : Ended w₁ w')

private theorem Goes.behind (busy : Busy Ordinary w w') (goes : Goes w' w'') : Goes w w'' := by
  cases goes with
  | on busy' => exact .on (busy.trans busy')
  | ends busy' ended => exact .ends (busy.trans busy') ended

private theorem process_goes {fuel : Nat} {cb : RedisCallback} (is : process program fuel cb w = some w') : Goes w w' := by
  induction fuel generalizing w cb with
  | zero => cases is
  | succ fuel ih =>
    have still : ∀ {c : RedisContext}, c.obuf = w.ac.c.obuf → visible { w.ac with c := c } = visible w.ac := fun obuf => by
      simp only [visible, obuf]
    cases process_rounds is with
    | fails obuf _ is => exact .ends (busy_of_visible Ordinary (still obuf)) (asyncDisconnect_ends is)
    | finishes obuf _ _ is => exact .ends (busy_of_visible Ordinary (still obuf)) (asyncDisconnect_ends is)
    | monitors obuf _ _ is =>
      rw [is]
      exact .on (busy_of_visible Ordinary (still obuf))
    | waits obuf _ is =>
      rw [is]
      exact .on (busy_of_visible Ordinary (still obuf))
    | answers obuf _ choice runs is =>
      have here := busy_of_visible Ordinary ((chosen_visible choice).trans (still obuf))
      exact (ih is).behind (here.trans (redisRunCallback_busy (fun _ _ _ => trivial) trivial runs))
    | frees obuf _ choice runs _ is =>
      have here := busy_of_visible Ordinary ((chosen_visible choice).trans (still obuf))
      exact .ends (here.trans (redisRunCallback_busy (fun _ _ _ => trivial) trivial runs)) (asyncFree_ends is)

/-! ### Events -/

/-- The attempt has succeeded, now or before. -/
inductive Connects (w : World) : World → Prop
  | before (connected : w.ac.connected = true) : Connects w w
  | now (connected : w.ac.connected = false) :
      Connects w ({ w with ac := { w.ac with connected := true } }.record (.connected true))

/-- What becomes of the front part of the two handlers. -/
inductive Passes (later : World → Option World) (check : Checked) (w w' : World) : Prop
  | goes {w₁ : World} (connects : Connects w w₁) (is : later w₁ = some w')
  | waits {errstr : Str} (progress : check = .error true errstr) (connected : w.ac.connected = false)
      (is : w' = { w with ac := { w.ac with c := w.ac.c.setError REDIS_ERR_IO errstr } })
  | refused {c : RedisContext} (connected : w.ac.connected = false)
      (ended : Ended ({ w with ac := { w.ac with c := c } }.record (.connected false)) w')

theorem connected_first_passes {check : Checked} {later : World → Option World} (told : w.ac.onConnect = true)
    (is : connected_first program check later w = some w') : Passes later check w w' := by
  unfold connected_first at is
  by_cases connected : w.ac.connected = true
  · rw [if_pos connected] at is
    exact .goes (.before connected) is
  · have off := Bool.eq_false_iff.mpr connected
    rw [if_neg connected] at is
    cases check with
    | ok =>
      dsimp only [redisAsyncHandleConnect] at is
      rw [if_pos told] at is
      exact .goes (.now off) is
    | error in_progress errstr =>
      unfold redisAsyncHandleConnect at is
      cases in_progress with
      | true =>
        dsimp only at is
        rw [if_pos rfl] at is
        dsimp only at is
        rw [if_neg connected] at is
        cases is
        exact .waits rfl off rfl
      | false =>
        dsimp only at is
        rw [if_neg Bool.false_ne_true, if_pos told] at is
        split at is
        · cases is
        · rename_i w₁ done
          obtain ⟨w₂, ends, both⟩ := Option.map_eq_some_iff.mp done
          cases both
          cases is
          exact .refused off (asyncDisconnect_ends ends)
        · rename_i w₁ done
          obtain ⟨w₂, ends, both⟩ := Option.map_eq_some_iff.mp done
          cases both

private theorem Ended.context {c : RedisContext} (ended : Ended { w with ac := { w.ac with c := c } } w') : Ended w w' :=
  ⟨ended.freed, ended.connected, ended.events⟩

/-- What becomes of a read on a connected context. -/
inductive Reads (w w' : World) : Prop
  | ends (ended : Ended w w')
  | goes {c : RedisContext} {bytes : Str} (obuf : c.obuf = w.ac.c.obuf)
      (goes : Goes { w with ac := { w.ac with c := c, rev := true }, received := w.received ++ bytes } w')

/-- What becomes of a write on a connected context. -/
inductive Writes (w w' : World) : Prop
  | ends (ended : Ended w w')
  | goes {c : RedisContext} {taken : Str} {done : Bool} (written : done = true → c.obuf = [])
      (is : w' = { w with ac := { w.ac with c := c, wev := !done, rev := true }, sent := w.sent ++ taken })

private theorem redisBufferRead_obuf {nread : Nread} {c c' : RedisContext} {ok : Bool} (is : redisBufferRead nread c = (ok, c')) :
    c'.obuf = c.obuf := by
  unfold redisBufferRead at is
  split at is
  · cases is
    rfl
  · split at is
    · split at is <;> cases is <;> rfl
    · cases is
      rfl
    · split at is <;> cases is <;> rfl

private theorem redisBufferWrite_done {nwritten : Wrote} {c c' : RedisContext} {taken : Str}
    (is : redisBufferWrite nwritten c = (some true, taken, c')) : c'.obuf = [] := by
  by_cases sound : c.err = 0
  · rcases redisBufferWrite_takes nwritten sound with ⟨n, wrote⟩ | ⟨strerror, failed⟩
    · rw [wrote, redisBufferWrite_wrote n sound] at is
      simp only [Prod.mk.injEq, Option.some.injEq, decide_eq_true_eq] at is
      obtain ⟨all, _, rfl⟩ := is
      exact all
    · rw [failed] at is
      cases is
  · unfold redisBufferWrite at is
    rw [if_pos sound] at is
    cases is

private theorem read_connected_reads {nread : Nread} (is : read_connected program nread w = some w') : Reads w w' := by
  unfold read_connected at is
  split at is
  · exact .ends (asyncDisconnect_ends is).context
  · rename_i c read
    exact .goes (redisBufferRead_obuf read) (process_goes is)

private theorem write_connected_writes {nwritten : Wrote} (is : write_connected program nwritten w = some w') : Writes w w' := by
  unfold write_connected at is
  split at is
  · exact .ends (asyncDisconnect_ends is).context
  · rename_i done taken c wrote
    refine .goes (fun all => ?_) (Option.some.inj is).symm
    rw [all] at wrote
    exact redisBufferWrite_done wrote

/-- All that a step on a context that is not freed can do. -/
inductive Happens (w : World) (act : Act) (w' : World) : Prop
  | idle (is : w' = w)
  | calls (busy : Busy Quiet w w')
  | ends (ended : Ended w w')
  | reads {w₁ : World} (connects : Connects { w with ac := { w.ac with rev := false } } w₁) (reads : Reads w₁ w')
  | writes {w₁ : World} (connects : Connects { w with ac := { w.ac with wev := false } } w₁) (writes : Writes w₁ w')
  | refused {ac : RedisAsyncContext} (ended : Ended ({ w with ac := ac }.record (.connected false)) w')
      (connected : w.ac.connected = false) (off : ac.connected = false)
  | read_waits {errstr : Str} (connected : w.ac.connected = false)
      (is : w' = { w with ac := { w.ac with c := w.ac.c.setError REDIS_ERR_IO errstr, rev := false } })
  | write_waits {errstr : Str} {nwritten : Wrote} (connected : w.ac.connected = false)
      (event : act = .writable (.error true errstr) nwritten)
      (is : w' = { w with ac := { w.ac with c := w.ac.c.setError REDIS_ERR_IO errstr, wev := false } })

theorem step_happens {act : Act} (alive : w.freed = false) (told : w.ac.onConnect = true) (is : step program w act = some w') :
    Happens w act w' := by
  unfold step at is
  rw [if_neg (by rw [alive]; decide)] at is
  cases act with
  | call call =>
    cases call with
    | command cb argv => exact .calls (redisAsyncCommandArgv_busy (fun _ _ _ => trivial) is)
    | disconnect =>
      dsimp only [redisAsyncDisconnect] at is
      split at is
      · obtain ⟨freed, connected, events⟩ := asyncDisconnect_ends is
        exact .ends ⟨freed, connected, events⟩
      · cases is
        exact .calls ⟨rfl, List.prefix_refl _, id, fun other => absurd rfl other, fun _ => rfl, id, [], by simp⟩
    | free =>
      dsimp only [redisAsyncFree] at is
      split at is
      · cases is
        exact .calls ⟨rfl, List.prefix_refl _, id, fun other => absurd rfl other, id, fun _ => rfl, [], by simp⟩
      · obtain ⟨freed, connected, events⟩ := asyncFree_ends is
        exact .ends ⟨freed, connected, events⟩
  | readable check nread =>
    dsimp only at is
    split at is
    · cases @connected_first_passes { w with ac := { w.ac with rev := false } } w' program check _ told is with
      | goes connects is => exact .reads connects (read_connected_reads is)
      | waits progress connected is => exact .read_waits connected is
      | refused connected ended => exact .refused ended connected connected
    · cases is
      exact .idle rfl
  | writable check nwritten =>
    dsimp only at is
    split at is
    · cases @connected_first_passes { w with ac := { w.ac with wev := false } } w' program check _ told is with
      | goes connects is => exact .writes connects (write_connected_writes is)
      | waits progress connected is =>
        rw [progress]
        exact .write_waits connected rfl is
      | refused connected ended => exact .refused ended connected connected
    · cases is
      exact .idle rfl

/-! ### What the program is told -/

/-- How far the program has been told of its connection. -/
inductive Phase
  | connecting
  | connected
  | refused
  | ended
  deriving DecidableEq

/-- The order of events: replies come on a connection only, and nothing comes behind its
    end. -/
def advance : Phase → Event → Option Phase
  | .connecting, .issued .. => some .connecting
  | .connecting, .ran _ none => some .connecting
  | .connecting, .connected true => some .connected
  | .connecting, .connected false => some .refused
  | .connected, .issued .. => some .connected
  | .connected, .ran .. => some .connected
  | .connected, .disconnected _ => some .ended
  | .refused, .issued .. => some .refused
  | .refused, .ran _ none => some .refused
  | _, _ => none

/-- What the context is in a phase; one that is freed before it is connected says
    nothing. -/
def Phase.Of (w : World) : Phase → Prop
  | .connecting => w.ac.connected = false
  | .connected => w.ac.connected = true ∧ w.freed = false
  | .refused => w.ac.connected = false ∧ w.freed = true
  | .ended => w.ac.connected = true ∧ w.freed = true

/-- The events so far are in order, and end in the phase. -/
structure Lives (p : Phase) (w : World) : Prop where
  log : run advance .connecting w.log = some p
  here : p.Of w
  told : w.freed = false → w.ac.onConnect = true ∧ w.ac.onDisconnect = true

theorem advances_append {p p' : Phase} {before events : List Event} (log : run advance .connecting before = some p)
    (later : run advance p events = some p') : run advance .connecting (before ++ events) = some p' :=
  run_append_some.mpr ⟨p, log, later⟩

private theorem advances_stay {p : Phase} (stays : ∀ e, kind e → advance p e = some p) {events : List Event}
    (kinds : ∀ e ∈ events, kind e) : run advance p events = some p := by
  induction events with
  | nil => rfl
  | cons e events ih =>
    exact run_cons_some.mpr ⟨p, stays e (kinds e List.mem_cons_self), ih fun e member => kinds e (List.mem_cons_of_mem _ member)⟩

private theorem quiet_stays {p : Phase} (other : p ≠ .ended) (e : Event) (quiet : Quiet e) : advance p e = some p := by
  cases e with
  | issued => cases p <;> first | rfl | exact absurd rfl other
  | ran cb reply =>
    obtain rfl : reply = none := quiet
    cases p <;> first | rfl | exact absurd rfl other
  | connected => cases quiet
  | disconnected => cases quiet

private theorem ordinary_stays (e : Event) (ordinary : Ordinary e) : advance .connected e = some .connected := by
  cases e with
  | issued => rfl
  | ran => rfl
  | connected => cases ordinary
  | disconnected => cases ordinary

private theorem Ended.silent (ended : Ended w w') {p : Phase} (log : run advance .connecting w.log = some p) (other : p ≠ .ended)
    (off : w.ac.connected = false) : run advance .connecting w'.log = some p := by
  obtain ⟨events, ok, quiet, same⟩ := ended.events
  rw [if_neg (by rw [off]; simp), List.append_nil] at same
  rw [same]
  exact advances_append log (advances_stay (quiet_stays other) quiet)

private theorem Ended.loud (ended : Ended w w') (log : run advance .connecting w.log = some .connected)
    (on : w.ac.connected = true) (told : w.ac.onDisconnect = true) : run advance .connecting w'.log = some .ended := by
  obtain ⟨events, ok, quiet, same⟩ := ended.events
  rw [if_pos ⟨told, on⟩] at same
  rw [same]
  exact advances_append (advances_append log (advances_stay (quiet_stays (by decide)) quiet)) rfl

private theorem Busy.log (busy : Busy kind w w') {p : Phase} (log : run advance .connecting w.log = some p)
    (stays : ∀ e, kind e → advance p e = some p) : run advance .connecting w'.log = some p := by
  obtain ⟨events, same, kinds⟩ := busy.events
  rw [same]
  exact advances_append log (advances_stay stays kinds)

/-- A context that is alive and connected. -/
structure On (w : World) : Prop where
  log : run advance .connecting w.log = some .connected
  connected : w.ac.connected = true
  alive : w.freed = false
  told : w.ac.onConnect = true ∧ w.ac.onDisconnect = true

private theorem On.lives (on : On w) : Lives .connected w := ⟨on.log, ⟨on.connected, on.alive⟩, fun _ => on.told⟩

private theorem On.busy (on : On w) (busy : Busy Ordinary w w') : On w' :=
  ⟨busy.log on.log ordinary_stays, busy.connected.trans on.connected, busy.freed.trans on.alive,
    busy.onConnect.trans on.told.1, busy.onDisconnect.trans on.told.2⟩

private theorem On.ends (on : On w) (ended : Ended w w') : Lives .ended w' := by
  refine ⟨ended.loud on.log on.connected on.told.2, ⟨ended.connected.trans on.connected, ended.freed⟩, fun alive => ?_⟩
  rw [ended.freed] at alive
  cases alive

/-- The context is connected, or was before. -/
private theorem Connects.on {p : Phase} (connects : Connects w w') (lives : Lives p w) (alive : w.freed = false) : On w' := by
  cases connects with
  | before connected =>
    cases p with
    | connected => exact ⟨lives.log, connected, alive, lives.told alive⟩
    | connecting =>
      rw [show w.ac.connected = false from lives.here] at connected
      cases connected
    | refused | ended =>
      rw [lives.here.2] at alive
      cases alive
  | now off =>
    cases p with
    | connecting => exact ⟨advances_append lives.log rfl, rfl, alive, lives.told alive⟩
    | connected =>
      rw [lives.here.1] at off
      cases off
    | refused | ended =>
      rw [lives.here.2] at alive
      cases alive

private theorem step_lives {p : Phase} {act : Act} (lives : Lives p w) (is : step program w act = some w') :
    ∃ p', Lives p' w' := by
  by_cases dead : w.freed = true
  · have stays : step program w act = some w := if_pos dead
    rw [stays] at is
    cases is
    exact ⟨p, lives⟩
  · have alive := Bool.eq_false_iff.mpr dead
    have told := lives.told alive
    -- a context that is not freed is connecting or connected
    have live : p ≠ .ended := by
      rintro rfl
      exact dead lives.here.2
    have connecting : w.ac.connected = false → run advance .connecting w.log = some .connecting := by
      intro off
      cases p with
      | connecting => exact lives.log
      | connected | ended =>
        rw [lives.here.1] at off
        cases off
      | refused => exact absurd lives.here.2 dead
    have still : ∀ {ac : RedisAsyncContext}, ac.connected = w.ac.connected → ac.onConnect = w.ac.onConnect →
        ac.onDisconnect = w.ac.onDisconnect → Lives p { w with ac := ac } := by
      intro ac connected onConnect onDisconnect
      refine ⟨lives.log, ?_, fun _ => ⟨onConnect.trans told.1, onDisconnect.trans told.2⟩⟩
      have here := lives.here
      cases p <;> simp only [Phase.Of, connected] at here ⊢ <;> exact here
    cases step_happens alive told.1 is with
    | idle is =>
      rw [is]
      exact ⟨p, lives⟩
    | calls busy =>
      refine ⟨p, busy.log lives.log (quiet_stays live), ?_, fun _ => ?_⟩
      · have here := lives.here
        cases p <;> simp only [Phase.Of, busy.connected, busy.freed] at here ⊢ <;> exact here
      · exact ⟨busy.onConnect.trans told.1, busy.onDisconnect.trans told.2⟩
    | ends ended =>
      by_cases on : w.ac.connected = true
      · exact ⟨_, ((Connects.before on).on lives alive).ends ended⟩
      · have off := Bool.eq_false_iff.mpr on
        refine ⟨.connecting, ended.silent (connecting off) (by decide) off, ended.connected.trans off, fun alive => ?_⟩
        rw [ended.freed] at alive
        cases alive
    | @reads w₁ connects reads =>
      have on := connects.on (still rfl rfl rfl) alive
      cases reads with
      | ends ended => exact ⟨_, on.ends ended⟩
      | @goes c bytes obuf goes =>
        have on₁ : On { w₁ with ac := { w₁.ac with c := c, rev := true }, received := w₁.received ++ bytes } :=
          ⟨on.log, on.connected, on.alive, on.told⟩
        cases goes with
        | on busy => exact ⟨_, (on₁.busy busy).lives⟩
        | ends busy ended => exact ⟨_, (on₁.busy busy).ends ended⟩
    | writes connects writes =>
      have on := connects.on (still rfl rfl rfl) alive
      cases writes with
      | ends ended => exact ⟨_, on.ends ended⟩
      | goes written is =>
        rw [is]
        exact ⟨.connected, on.log, ⟨on.connected, on.alive⟩, fun _ => on.told⟩
    | refused ended connected off =>
      have log : run advance .connecting (w.log ++ [.connected false]) = some .refused :=
        advances_append (connecting connected) rfl
      refine ⟨.refused, ended.silent log (by decide) off, ⟨ended.connected.trans off, ended.freed⟩, fun alive => ?_⟩
      rw [ended.freed] at alive
      cases alive
    | read_waits connected is | write_waits connected _ is =>
      rw [is]
      exact ⟨p, still rfl rfl rfl⟩

theorem opened_lives : Lives .connecting opened := ⟨rfl, rfl, fun _ => ⟨rfl, rfl⟩⟩

private theorem lives_kept (w : World) (act : Act) (w' : World) (lives : ∃ p, Lives p w) (is : step program w act = some w') :
    ∃ p, Lives p w' := by
  obtain ⟨p, lives⟩ := lives
  exact step_lives lives is

/-- In every run the program is told in order: of the connection once, before any reply,
    and of its end once, after everything else, if it had been told of the connection. -/
theorem told_in_order {acts : List Act} (is : run (step program) opened acts = some w) :
    ∃ p : Phase, run advance .connecting w.log = some p ∧ p.Of w := by
  obtain ⟨p, lives⟩ := run_invariant (fun w => ∃ p, Lives p w) lives_kept is ⟨.connecting, opened_lives⟩
  exact ⟨p, lives.log, lives.here⟩

/-- A callback that frees the context while another one waits. -/
def freeing : Program := fun _ => [.free]

def freed_early : List Act :=
  [.writable .ok (.wrote 0), .call (.command { fn := some 0 } ⟨1, [lit "PING"], [4]⟩),
    .call (.command { fn := some 1 } ⟨1, [lit "PING"], [4]⟩), .writable .ok (.wrote 28), .readable .ok (.bytes (lit "+OK\r\n"))]

theorem told_in_order_freed : ∃ w, run (step freeing) opened freed_early = some w ∧
    ∃ p : Phase, run advance .connecting w.log = some p ∧ p.Of w :=
  ⟨_, rfl, @told_in_order _ freeing freed_early rfl⟩

/-! ### What libevent waits for -/

/-- A connected context waits for replies, and one with something to write, or that is not
    connected yet, for being able to write. -/
def Awake (w : World) : Prop :=
  w.freed = false → (w.ac.connected = true → w.ac.rev = true) ∧
    (w.ac.connected = false ∨ w.ac.c.obuf ≠ [] → w.ac.wev = true)

/-- The event is not one to write while `connect` is still in progress. -/
def Clear (w : World) (act : Act) : Prop :=
  w.freed = false → w.ac.connected = false → ∀ errstr nwritten, act ≠ .writable (.error true errstr) nwritten

private theorem awake_of_freed (freed : w.freed = true) : Awake w := fun alive => by
  rw [freed] at alive
  cases alive

private theorem Awake.busy (awake : Awake w) (busy : Busy kind w w') : Awake w' := by
  intro alive
  obtain ⟨reads, writes⟩ := awake (busy.freed.symm.trans alive)
  rw [busy.connected, busy.rev]
  refine ⟨reads, fun needed => ?_⟩
  by_cases same : w'.ac.c.obuf = w.ac.c.obuf
  · rw [same] at needed
    exact busy.armed (writes needed)
  · exact busy.arms same

private theorem Connects.awake (connects : Connects w w') : w'.ac.connected = true ∧ w'.ac.wev = w.ac.wev ∧
    w'.ac.c.obuf = w.ac.c.obuf ∧ w'.freed = w.freed := by
  cases connects with
  | before connected => exact ⟨connected, rfl, rfl, rfl⟩
  | now => exact ⟨rfl, rfl, rfl, rfl⟩

private theorem step_awake {act : Act} (told : w.freed = false → w.ac.onConnect = true) (awake : Awake w)
    (is : step program w act = some w') : Awake w' ↔ Clear w act := by
  by_cases dead : w.freed = true
  · have stays : step program w act = some w := if_pos dead
    rw [stays] at is
    cases is
    refine iff_of_true awake fun alive => ?_
    rw [dead] at alive
    cases alive
  · have alive := Bool.eq_false_iff.mpr dead
    obtain ⟨reads, writes⟩ := awake alive
    -- only a write event on a context that is not connected can find `connect` in progress
    by_cases clear : Clear w act
    · refine iff_of_true ?_ clear
      cases step_happens alive (told alive) is with
      | idle is => exact is ▸ awake
      | calls busy => exact awake.busy busy
      | ends ended => exact awake_of_freed ended.freed
      | @reads w₁ connects reads =>
        obtain ⟨connected, wev, obuf, freed⟩ := connects.awake
        cases reads with
        | ends ended => exact awake_of_freed ended.freed
        | @goes c bytes same goes =>
          have here : Awake { w₁ with ac := { w₁.ac with c := c, rev := true }, received := w₁.received ++ bytes } := by
            refine fun _ => ⟨fun _ => rfl, fun needed => ?_⟩
            refine wev.trans (writes ?_)
            rcases needed with off | filled
            · exact absurd (connected.symm.trans off) (by decide)
            · exact .inr fun empty => filled (same.trans (obuf.trans empty))
          cases goes with
          | on busy => exact here.busy busy
          | ends _ ended => exact awake_of_freed ended.freed
      | @writes w₁ connects writes =>
        obtain ⟨connected, _, _, _⟩ := connects.awake
        cases writes with
        | ends ended => exact awake_of_freed ended.freed
        | @goes c taken done written is =>
          rw [is]
          refine fun _ => ⟨fun _ => rfl, fun needed => ?_⟩
          rcases needed with off | filled
          · exact absurd (connected.symm.trans off) (by decide)
          · cases done with
            | false => rfl
            | true => exact absurd (written rfl) filled
      | refused ended => exact awake_of_freed ended.freed
      | read_waits connected is =>
        rw [is]
        refine fun _ => ⟨fun on => ?_, fun _ => writes (.inl connected)⟩
        exact absurd (connected.symm.trans on) (by decide)
      | write_waits connected event is => exact absurd event (clear alive connected _ _)
    · refine iff_of_false (fun awake' => ?_) clear
      simp only [Clear, not_forall, not_not] at clear
      obtain ⟨_, off, errstr, nwritten, rfl⟩ := clear
      have waits : step program w (.writable (.error true errstr) nwritten) =
          some { w with ac := { w.ac with c := w.ac.c.setError REDIS_ERR_IO errstr, wev := false } } := by
        simp [step, alive, writes (.inl off), redisAsyncHandleWrite, connected_first, off, redisAsyncHandleConnect]
      rw [waits] at is
      cases is
      exact absurd ((awake' alive).2 (.inl off)) Bool.false_ne_true

/-- All along a run libevent waits for what the context needs, exactly if no event to write
    comes while `connect` is in progress: after such an event it waits for nothing. -/
theorem awake_iff (acts : List Act) : Along (step program) Awake opened acts ↔ Meets (step program) Clear opened acts := by
  refine along_iff_each (fun w => ∃ p, Lives p w) lives_kept ?_ ⟨.connecting, opened_lives⟩ ?_ acts
  · rintro w act w' ⟨p, lives⟩ awake is
    exact step_awake (fun alive => (lives.told alive).1) awake is
  · exact fun _ => ⟨fun on => (by cases on), fun _ => rfl⟩

end CppRedis.Lifecycles

import CppRedis.Subscriptions
import CppRedis.Responses

/-!
The names that a subscriber has asked an asynchronous context for. `Steady` is about what
is still to be confirmed: a name that is given up has been subscribed to, it is not asked
for again meanwhile, and nothing is asked for behind what gives up the last name. Such
requests (`Fair`) keep a callback in the context's tables for every push that is to come,
and the flag of the context set (`Registered`).
-/
namespace CppRedis.Registers
open CppRedis.Strings CppRedis.Reply CppRedis.Connection CppRedis.Clients CppRedis.Requests CppRedis.Frames CppRedis.Readers
open CppRedis.Contexts CppRedis.Dicts CppRedis.Buckets CppRedis.Pushes CppRedis.Subscriptions CppRedis.Callbacks CppRedis.Scans
open CppRedis.Pipelines CppRedis.Responses

/-! ### Requests -/

/-- One name of a command. -/
structure Entry where
  kind : Kind
  add : Bool
  name : Str
  deriving DecidableEq

/-- What a request changes. -/
def Entry.change (e : Entry) (t : Topics) : Topics := t.change e.kind e.add e.name

/-- The topics once all is confirmed. -/
def settle (pending : List Entry) (t : Topics) : Topics := pending.foldl (fun t e => e.change t) t

/-- The names that are there, or asked for. -/
def kept (pending : List Entry) (t : Topics) : Topics := pending.foldl (fun t e => if e.add = true then e.change t else t) t

/-- What is to be confirmed can be, one after the other. -/
def Steady : Topics → List Entry → Prop
  | _, [] => True
  | t, e :: rest =>
    (e.add = false → e.name ∈ t.of e.kind ∧ ⟨e.kind, true, e.name⟩ ∉ rest ∧ (e.change t = {} → ∀ e' ∈ rest, e'.add = false)) ∧
      Steady (e.change t) rest

/-- A request that may follow. -/
def Fair (t : Topics) (pending : List Entry) (e : Entry) : Prop :=
  if e.add = true then ⟨e.kind, false, e.name⟩ ∉ pending ∧ (settle pending t ≠ {} ∨ ∀ e' ∈ pending, e'.add = true)
  else e.name ∈ (settle pending t).of e.kind

instance (t : Topics) (pending : List Entry) (e : Entry) : Decidable (Fair t pending e) := by
  unfold Fair
  infer_instance

/-- Requests that may follow, one after the other. -/
def Fairs (t : Topics) : List Entry → List Entry → Prop
  | _, [] => True
  | pending, e :: es => Fair t pending e ∧ Fairs t (pending ++ [e]) es

variable {t : Topics} {pending : List Entry} {e : Entry} {kind : Kind} {name : Str}

theorem settle_append (pending later : List Entry) (t : Topics) : settle (pending ++ later) t = settle later (settle pending t) :=
  List.foldl_append

theorem kept_append (pending later : List Entry) (t : Topics) : kept (pending ++ later) t = kept later (kept pending t) :=
  List.foldl_append

theorem change_of (kind other : Kind) (add : Bool) (name : Str) (t : Topics) :
    (t.change kind add name).of other =
      if other = kind then if add = true then insert name (t.of other) else (t.of other).erase name else t.of other := by
  cases kind <;> cases other <;> cases add <;> rfl

theorem mem_change {other : Kind} {n : Str} {add : Bool} :
    n ∈ (t.change kind add name).of other ↔
      (other = kind ∧ n = name ∧ add = true) ∨ (n ∈ t.of other ∧ ¬ (other = kind ∧ n = name ∧ add = false)) := by
  rw [change_of]
  by_cases same : other = kind
  · cases add
    · simp [same, and_comm]
    · simp [same]
  · simp [same]

theorem topics_ext {t t' : Topics} (same : ∀ kind name, name ∈ t.of kind ↔ name ∈ t'.of kind) : t = t' := by
  obtain ⟨channels, patterns⟩ := t
  obtain ⟨channels', patterns'⟩ := t'
  have first : channels = channels' := Finset.ext (same .channel)
  have second : patterns = patterns' := Finset.ext (same .pattern)
  rw [first, second]

theorem topics_nonempty : t ≠ {} ↔ ∃ kind name, name ∈ t.of kind := by
  constructor
  · intro filled
    by_contra none
    push Not at none
    refine filled (topics_ext fun kind name => ?_)
    refine iff_of_false (none kind name) ?_
    cases kind <;> exact Finset.notMem_empty name
  · rintro ⟨kind, name, member⟩ rfl
    cases kind <;> exact Finset.notMem_empty name member

/-- Nothing that is there is forgotten. -/
theorem mem_kept : name ∈ (kept pending t).of kind ↔ name ∈ t.of kind ∨ ⟨kind, true, name⟩ ∈ pending := by
  induction pending generalizing t with
  | nil => simp [kept]
  | cons e rest ih =>
    have step : kept (e :: rest) t = kept rest (if e.add = true then e.change t else t) := rfl
    obtain ⟨kind', add, name'⟩ := e
    rw [step, ih]
    cases add
    · simp
    · simp only [↓reduceIte, Entry.change, mem_change, List.mem_cons, Entry.mk.injEq, and_true, Bool.true_eq_false, and_false,
        not_false_eq_true]
      tauto

/-- What is there in the end is there already, or asked for. -/
theorem settle_le_kept (member : name ∈ (settle pending t).of kind) : name ∈ (kept pending t).of kind := by
  induction pending generalizing t with
  | nil => exact member
  | cons e rest ih =>
    rw [mem_kept]
    rcases mem_kept.mp (ih member) with there | asked
    · rcases mem_change.mp there with ⟨same, is, add⟩ | ⟨before, _⟩
      · obtain ⟨kind', add', name'⟩ := e
        cases same
        cases is
        cases add
        exact .inr List.mem_cons_self
      · exact .inl before
    · exact .inr (List.mem_cons_of_mem _ asked)

/-! ### Steady requests -/

/-- If all is given up in the end, and nothing is left now, then nothing is to come. -/
private theorem settle_removals (steady : Steady {} pending) (removals : ∀ e ∈ pending, e.add = false) : pending = [] := by
  cases pending with
  | nil => rfl
  | cons e rest =>
    have there := (steady.1 (removals e List.mem_cons_self)).1
    exact absurd there (by cases e.kind <;> exact Finset.notMem_empty _)

theorem Steady.append (steady : Steady t pending) (fair : Fair t pending e) : Steady t (pending ++ [e]) := by
  induction pending generalizing t with
  | nil =>
    refine ⟨fun removes => ⟨?_, List.not_mem_nil, fun _ _ none => (List.not_mem_nil none).elim⟩, trivial⟩
    unfold Fair at fair
    rw [if_neg (by rw [removes]; decide)] at fair
    exact fair
  | cons first rest ih =>
    have next : Fair (first.change t) rest e := by
      unfold Fair at fair ⊢
      split at fair
      · rename_i adds
        rw [if_pos adds]
        refine ⟨fun member => fair.1 (List.mem_cons_of_mem _ member), fair.2.imp id fun all e' member => ?_⟩
        exact all e' (List.mem_cons_of_mem _ member)
      · rename_i removes
        rw [if_neg removes]
        exact fair
    refine ⟨fun removes => ?_, ih steady.2 next⟩
    obtain ⟨there, apart, last⟩ := steady.1 removes
    refine ⟨there, ?_, fun empty => ?_⟩
    · intro member
      rcases List.mem_append.mp member with member | member
      · exact apart member
      · -- the name that is given up is not the one that is asked for
        obtain rfl := List.mem_singleton.mp member
        unfold Fair at fair
        rw [if_pos rfl] at fair
        refine fair.1 ?_
        rw [← removes]
        exact List.mem_cons_self
    · obtain rfl := settle_removals (empty ▸ steady.2) (last empty)
      intro e' member
      obtain rfl := List.mem_singleton.mp member
      -- nothing is asked for behind the end of the last name
      by_contra adds
      unfold Fair at fair
      rw [if_pos (by simpa using adds)] at fair
      rcases fair.2 with left | all
      · exact left empty
      · rw [all first List.mem_cons_self] at removes
        cases removes

theorem Steady.appends {es : List Entry} (steady : Steady t pending) (fairs : Fairs t pending es) : Steady t (pending ++ es) := by
  induction es generalizing pending with
  | nil => rwa [List.append_nil]
  | cons e es ih =>
    have later := ih (steady.append fairs.1) fairs.2
    rwa [List.append_assoc] at later

/-! ### The tables -/

/-- The table has the callback under each of the names, and nothing else. -/
structure Keyed (cb : RedisCallback) (ht : Dict Str RedisCallback) (names : Finset Str) : Prop where
  wf : Dict.Wf callbackDict ht
  entries : (ht.entries : Multiset (Str × RedisCallback)) = names.val.map fun name => (name, cb)
  short : ∀ name ∈ names, name.length < 2 ^ 31

variable {cb : RedisCallback} {ht : Dict Str RedisCallback} {names : Finset Str}

/-- Keys that an `int` can count are the same only if they are equal. -/
private theorem compare_short {a b : Str} (short : a.length < 2 ^ 31) (short' : b.length < 2 ^ 31) :
    callbackDict.keyCompare a b = true ↔ a = b := by
  show callbackKeyCompare a b = true ↔ a = b
  rw [callbackKeyCompare_iff, int_of_size_small short, int_of_size_small short', Int.toNat_natCast, Int.toNat_natCast, List.take_length,
    List.take_length]
  constructor
  · exact And.right
  · rintro rfl
    exact ⟨rfl, rfl⟩

theorem keyed_empty (cb : RedisCallback) : Keyed cb {} ∅ :=
  ⟨Dict.wf_create callbackDict, rfl, fun _ member => absurd member (Finset.notMem_empty _)⟩

namespace Keyed

variable (keyed : Keyed cb ht names)
include keyed

theorem mem_entries {e : Str × RedisCallback} : e ∈ ht.entries ↔ e.1 ∈ names ∧ e.2 = cb := by
  rw [← Multiset.mem_coe, keyed.entries, Multiset.mem_map]
  constructor
  · rintro ⟨name, member, rfl⟩
    exact ⟨member, rfl⟩
  · rintro ⟨member, rfl⟩
    exact ⟨e.1, member, rfl⟩

theorem used : ht.used = names.card := by
  have counted := congrArg Multiset.card keyed.entries
  rw [Multiset.coe_card, Multiset.card_map] at counted
  exact keyed.wf.counted.trans counted

theorem has (short : name.length < 2 ^ 31) : ht.Has callbackDict name ↔ name ∈ names := by
  constructor
  · rintro ⟨e, member, equal⟩
    have there := (keyed.mem_entries.mp member).1
    rwa [(compare_short short (keyed.short _ there)).mp equal]
  · intro member
    exact ⟨(name, cb), keyed.mem_entries.mpr ⟨member, rfl⟩, (compare_short short short).mpr rfl⟩

theorem find (member : name ∈ names) : ht.dictFind callbackDict name = some (name, cb) := by
  have short := keyed.short name member
  cases found : ht.dictFind callbackDict name with
  | none => exact absurd ((keyed.has short).mpr member) (Dict.dictFind_none keyed.wf found)
  | some e =>
    obtain ⟨there, equal⟩ := Dict.dictFind_some keyed.wf found
    obtain ⟨named, called⟩ := keyed.mem_entries.mp there
    have same := (compare_short short (keyed.short _ named)).mp equal
    rw [← called, same]

theorem replace (short : name.length < 2 ^ 31) (few : names.card < 2 ^ 30) :
    ∃ ok ht', ht.dictReplace callbackDict name cb = some (ok, ht') ∧ Keyed cb ht' (insert name names) := by
  have shorts : ∀ n ∈ insert name names, n.length < 2 ^ 31 := by
    intro n member
    rcases Finset.mem_insert.mp member with rfl | member
    · exact short
    · exact keyed.short n member
  obtain ⟨ht', wf', ⟨present, is, _, k, old, others, equal, before, after⟩ | ⟨absent, is, _, order⟩⟩ :=
    Dict.dictReplace_wf keyed.wf (by rw [keyed.used]; exact few) name cb
  · refine ⟨false, ht', is, wf', ?_, shorts⟩
    have called : old = cb := (keyed.mem_entries.mp (before.mem_iff.mpr List.mem_cons_self)).2
    rw [called] at before
    rw [Finset.insert_eq_of_mem ((keyed.has short).mp present), ← keyed.entries, Multiset.coe_eq_coe]
    exact after.trans before.symm
  · have fresh : name ∉ names := fun member => absent ((keyed.has short).mpr member)
    refine ⟨true, ht', is, wf', ?_, shorts⟩
    rw [Finset.insert_val_of_notMem fresh, Multiset.map_cons, ← keyed.entries, Multiset.cons_coe, Multiset.coe_eq_coe]
    exact order

theorem delete (member : name ∈ names) : Keyed cb (ht.dictDelete callbackDict name).2 (names.erase name) := by
  have short := keyed.short name member
  obtain ⟨ht', wf', ⟨absent, _, _⟩ | ⟨is, _, e, equal, order⟩⟩ := Dict.dictDelete_wf keyed.wf name
  · exact absurd ((keyed.has short).mpr member) absent
  · rw [is]
    refine ⟨wf', ?_, fun n there => keyed.short n (Finset.mem_of_mem_erase there)⟩
    obtain ⟨named, called⟩ := keyed.mem_entries.mp (order.mem_iff.mpr List.mem_cons_self)
    have same := (compare_short short (keyed.short _ named)).mp equal
    have all := keyed.entries
    rw [Multiset.coe_eq_coe.mpr order, ← Multiset.cons_coe, ← Finset.insert_erase member,
      Finset.insert_val_of_notMem (Finset.notMem_erase name names), Multiset.map_cons] at all
    have first : e = (name, cb) := by rw [← called, same]
    rw [first] at all
    exact (Multiset.cons_inj_right _).mp all

end Keyed

/-! ### What is asked for -/

/-- The names of commands, one by one. -/
def entries (cmds : List RedisCmd) : List Entry :=
  cmds.flatMap fun cmd =>
    match requested cmd with
    | none => []
    | some (kind, add, names) => names.map (Entry.mk kind add)

theorem entries_append (cmds cmds' : List RedisCmd) : entries (cmds ++ cmds') = entries cmds ++ entries cmds' := List.flatMap_append

theorem entries_command (kind : Kind) (add : Bool) (names : List Str) :
    entries [command kind add names] = names.map (Entry.mk kind add) := by
  simp [entries, requested_command]

/-- The confirmations among pushes. -/
def changes (pushes : List Push) : List Entry :=
  pushes.filterMap fun
    | .changed kind add name _ => some ⟨kind, add, name⟩
    | _ => none

theorem changes_append (pushes pushes' : List Push) : changes (pushes ++ pushes') = changes pushes ++ changes pushes' :=
  List.filterMap_append

/-- Confirmations tell what was asked for. -/
theorem toldAll_changes (pushes : List Push) (t : Topics) : toldAll pushes t = settle (changes pushes) t := by
  induction pushes generalizing t with
  | nil => rfl
  | cons push pushes ih =>
    cases push with
    | changed kind add name count => exact ih (t.change kind add name)
    | message | pmessage => exact ih t

/-- The subscriber hears what its callback is run with. -/
def heard (sub : Subscriber) (run : RedisCallback × Option RedisReply) : Subscriber :=
  match sub_callback run.2 sub with
  | .ok sub => sub
  | .error _ => sub

/-- The subscriber as its callback has left it. -/
def subscriber (log : List Event) : Subscriber := (ran log).foldl heard { listener_ := some 0 }

/-- The reply confirms a name. -/
def confirms : Option RedisReply → Bool
  | some (.array [_, _, .integer _]) => true
  | _ => false

/-- The names that were asked for and are not confirmed. -/
def pendingIn (log : List Event) : List Entry := (entries (commands log)).drop ((ran log).countP fun run => confirms run.2)

/-- A call of a subscriber with such a callback: one of its four methods with names that
    may follow, and not too many in all; or one that ends the context. -/
inductive Asks (cb : RedisCallback) (log : List Event) : Call → Prop
  | command {kind : Kind} {add : Bool} {names : List Str} (filled : names ≠ []) (sendable : Sendable (command kind add names))
      (few : (entries (commands log)).length + names.length ≤ 2 ^ 30)
      (fairs : Fairs (subscriber log).topics (pendingIn log) (names.map (Entry.mk kind add))) :
      Asks cb log (.command cb (pointed (command kind add names)))
  | disconnect : Asks cb log .disconnect
  | free : Asks cb log .free

/-- Such calls in a row; once a command is refused, so are those behind it. -/
def AsksAll (cb : RedisCallback) : List Event → List Call → Prop
  | _, [] => True
  | log, call :: calls =>
    Asks cb log call ∧
      match call with
      | .command cb' argv => AsksAll cb (log ++ [.issued cb' argv true]) calls
      | .disconnect => AsksAll cb log calls
      | .free => AsksAll cb log calls

theorem Asks.formattable {cb : RedisCallback} {log : List Event} {call : Call} (asks : Asks cb log call) : Formattable call := by
  cases asks with
  | command filled sendable few fairs => exact ⟨_, format_sendable sendable⟩
  | disconnect | free => trivial

theorem AsksAll.formattable {cb : RedisCallback} {log : List Event} {calls : List Call} (asks : AsksAll cb log calls) :
    ∀ call ∈ calls, Formattable call := by
  induction calls generalizing log with
  | nil => exact fun call member => by cases member
  | cons first calls ih =>
    obtain ⟨here, later⟩ := asks
    refine List.forall_mem_cons.mpr ⟨here.formattable, ?_⟩
    cases first with
    | command | disconnect | free => exact ih later

/-- The callbacks make such calls, whenever what is asked for is steady. -/
def Orderly (cb : RedisCallback) (program : Program) : Prop :=
  ∀ log, Steady (subscriber log).topics (pendingIn log) → AsksAll cb log (program log)

/-! ### What the context keeps -/

/-- The names and their number are small enough. -/
structure Small (es : List Entry) : Prop where
  few : es.length ≤ 2 ^ 30
  short : ∀ e ∈ es, e.name.length < 2 ^ 31

/-- What is still to be confirmed once these pushes have been handed over. -/
def waiting (handed : List Push) (log : List Event) : List Entry := (entries (commands log)).drop (changes handed).length

/-- The names for which the context has a callback. -/
def named (handed : List Push) (log : List Event) : Topics := kept (waiting handed log) (toldAll handed {})

/-- The pushes have been handed to the callback, and the context has it for all that are
    to come. -/
structure Registered (cb : RedisCallback) (handed : List Push) (w : World) : Prop where
  runs : ran w.log = handed.map fun push => (cb, some push.reply)
  told : changes handed <+: entries (commands w.log)
  steady : Steady (toldAll handed {}) (waiting handed w.log)
  channels : Keyed cb w.ac.channels (named handed w.log).channels
  patterns : Keyed cb w.ac.patterns (named handed w.log).patterns
  flag : w.ac.subscribed = true ↔ named handed w.log ≠ {}
  small : Small (entries (commands w.log))
  replies : w.ac.replies = []
  invalid : w.ac.invalid = []
  monitoring : w.ac.monitoring = false
  written : w.sent ++ w.ac.c.obuf = messages (accepted w.log)

variable {handed : List Push} {w w' w'' : World} {program : Program} {log : List Event}

private theorem subscriber_pushes (handed : List Push) {sub : Subscriber} (listens : sub.listener_.isSome = true) :
    ((handed.map fun push => (cb, some push.reply)).foldl heard sub).topics = toldAll handed sub.topics := by
  induction handed generalizing sub with
  | nil => rfl
  | cons push handed ih =>
    obtain ⟨sub', is⟩ := (sub_callback_returns push sub).mpr fun _ => listens
    obtain ⟨topics, listener⟩ := sub_callback_push is
    simp only [List.map_cons, List.foldl_cons, heard, is]
    rw [ih (by rw [listener]; exact listens), topics]
    rfl

/-- The subscriber has been told what the pushes tell. -/
theorem topics_of_runs (runs : ran log = handed.map fun push => (cb, some push.reply)) :
    (subscriber log).topics = toldAll handed {} := by
  unfold subscriber
  rw [runs]
  exact subscriber_pushes handed rfl

private theorem confirms_count (handed : List Push) :
    handed.countP (fun push => confirms (some push.reply)) = (changes handed).length := by
  induction handed with
  | nil => rfl
  | cons push handed ih =>
    rw [List.countP_cons, ih]
    cases push with
    | changed kind add name count => cases kind <;> cases add <;> rfl
    | message | pmessage => rfl

theorem pending_of_runs (runs : ran log = handed.map fun push => (cb, some push.reply)) : pendingIn log = waiting handed log := by
  rw [pendingIn, runs, List.countP_map]
  exact congrArg (fun n => (entries (commands log)).drop n) (confirms_count handed)

/-! ### Commands -/

/-- What calls leave as it is, and what they only add to. -/
structure Beside (w w' : World) : Prop where
  reader : w'.ac.c.reader = w.ac.c.reader := by rfl
  received : w'.received = w.received := by rfl
  sent : w'.sent = w.sent := by rfl
  freed : w'.freed = w.freed := by rfl
  in_callback : w'.ac.in_callback = w.ac.in_callback := by rfl
  taken : accepted w.log <+: accepted w'.log
  closed : refusing w.ac → refusing w'.ac

theorem Beside.refl (w : World) : Beside w w := { taken := List.prefix_refl _, closed := id }

theorem Beside.trans (first : Beside w w') (second : Beside w' w'') : Beside w w'' where
  reader := second.reader.trans first.reader
  received := second.received.trans first.received
  sent := second.sent.trans first.sent
  freed := second.freed.trans first.freed
  in_callback := second.in_callback.trans first.in_callback
  taken := first.taken.trans second.taken
  closed closed := second.closed (first.closed closed)

/-- The four methods differ in the name of their command. -/
private theorem command_word (kind : Kind) (add : Bool) (names : List Str) :
    ∃ word, command kind add names = word :: names ∧ 13 ∉ word ∧ word.length < 2 ^ 31 ∧
      pattern word = decide (kind = .pattern) ∧ (bare word).map tolower = lit (if add = true then "subscribe" else "unsubscribe") := by
  cases kind <;> cases add <;> exact ⟨_, rfl, by decide, by decide, rfl, rfl⟩

theorem settle_card (es : List Entry) (t : Topics) (kind : Kind) :
    ((settle es t).of kind).card ≤ (t.of kind).card + es.length := by
  induction es generalizing t with
  | nil => exact Nat.le_refl _
  | cons e es ih =>
    have step : ((e.change t).of kind).card ≤ (t.of kind).card + 1 := by
      unfold Entry.change
      rw [change_of]
      split
      · split
        · exact Finset.card_insert_le _ _
        · exact (Finset.card_erase_le).trans (Nat.le_succ _)
      · exact Nat.le_succ _
    have later := ih (e.change t)
    have same : settle (e :: es) t = settle es (e.change t) := rfl
    rw [same, List.length_cons]
    omega

private theorem kept_card (es : List Entry) (t : Topics) (kind : Kind) :
    ((kept es t).of kind).card ≤ (t.of kind).card + es.length := by
  have adds : kept es t = settle (es.filter (·.add)) t := by
    induction es generalizing t with
    | nil => rfl
    | cons e es ih =>
      have step : kept (e :: es) t = kept es (if e.add = true then e.change t else t) := rfl
      rw [step, ih, List.filter_cons]
      split <;> rfl
  rw [adds]
  exact (settle_card _ t kind).trans (Nat.add_le_add_left (List.length_filter_le _ _) _)

/-- Not more names have a callback than were asked for. -/
theorem named_card (told : changes handed <+: entries (commands log)) (kind : Kind) :
    ((named handed log).of kind).card ≤ (entries (commands log)).length := by
  have later := kept_card (waiting handed log) (toldAll handed {}) kind
  have now := settle_card (changes handed) {} kind
  have none : ((({} : Topics).of kind)).card = 0 := by cases kind <;> rfl
  have length := told.length_le
  rw [toldAll_changes] at later
  rw [none] at now
  unfold named waiting at *
  rw [List.length_drop] at later
  rw [toldAll_changes]
  omega

/-- Each name of a command gets the callback. -/
private theorem subscribe_names_keyed (kind : Kind) {names : List Str} (short : ∀ name ∈ names, name.length < 2 ^ 31)
    {ac : RedisAsyncContext} (channels : Keyed cb ac.channels t.channels) (patterns : Keyed cb ac.patterns t.patterns)
    (few : (t.of kind).card + names.length ≤ 2 ^ 30) :
    ∃ channels patterns, subscribe_names (decide (kind = .pattern)) cb names ac =
        some { ac with channels := channels, patterns := patterns } ∧
      Keyed cb channels (kept (names.map (Entry.mk kind true)) t).channels ∧
      Keyed cb patterns (kept (names.map (Entry.mk kind true)) t).patterns := by
  induction names generalizing ac t with
  | nil => exact ⟨ac.channels, ac.patterns, rfl, channels, patterns⟩
  | cons name names ih =>
    have here := short name List.mem_cons_self
    have others : ∀ n ∈ names, n.length < 2 ^ 31 := fun n member => short n (List.mem_cons_of_mem _ member)
    have step : kept ((name :: names).map (Entry.mk kind true)) t = kept (names.map (Entry.mk kind true)) (t.change kind true name) := rfl
    have room : ((t.change kind true name).of kind).card ≤ (t.of kind).card + 1 := by
      rw [change_of, if_pos rfl, if_pos rfl]
      exact Finset.card_insert_le _ _
    rw [List.length_cons] at few
    rw [step]
    unfold subscribe_names
    cases kind with
    | channel =>
      obtain ⟨ok, ht, is, keyed⟩ := channels.replace here (by change t.channels.card + _ ≤ _ at few; omega)
      obtain ⟨channels', patterns', later, keyed', keyed''⟩ :=
        @ih (t.change .channel true name) others { ac with channels := ht } keyed patterns (by omega)
      refine ⟨channels', patterns', ?_, keyed', keyed''⟩
      rw [← later]
      show (ac.channels.dictReplace callbackDict name cb).bind _ = _
      rw [is]
      rfl
    | pattern =>
      obtain ⟨ok, ht, is, keyed⟩ := patterns.replace here (by change t.patterns.card + _ ≤ _ at few; omega)
      obtain ⟨channels', patterns', later, keyed', keyed''⟩ :=
        @ih (t.change .pattern true name) others { ac with patterns := ht } channels keyed (by omega)
      refine ⟨channels', patterns', ?_, keyed', keyed''⟩
      rw [← later]
      show (ac.patterns.dictReplace callbackDict name cb).bind _ = _
      rw [is]
      rfl

private theorem kept_removals (kind : Kind) (names : List Str) (t : Topics) : kept (names.map (Entry.mk kind false)) t = t := by
  refine topics_ext fun kind' name => ?_
  rw [mem_kept]
  simp

/-- All that `Registered` is about is the same. -/
theorem Registered.still (registered : Registered cb handed w) (written : w'.sent ++ w'.ac.c.obuf = w.sent ++ w.ac.c.obuf)
    (runs : ran w'.log = ran w.log := by rfl) (taken : accepted w'.log = accepted w.log := by rfl) (channels : w'.ac.channels = w.ac.channels := by rfl)
    (patterns : w'.ac.patterns = w.ac.patterns := by rfl) (flag : w'.ac.subscribed = w.ac.subscribed := by rfl)
    (replies : w'.ac.replies = w.ac.replies := by rfl) (invalid : w'.ac.invalid = w.ac.invalid := by rfl)
    (monitoring : w'.ac.monitoring = w.ac.monitoring := by rfl) : Registered cb handed w' := by
  have same : commands w'.log = commands w.log := congrArg (List.map _) taken
  refine ⟨runs.trans registered.runs, ?_, ?_, ?_, ?_, ?_, ?_, replies.trans registered.replies, invalid.trans registered.invalid,
    monitoring.trans registered.monitoring, ?_⟩
  · rw [same]
    exact registered.told
  · rw [waiting, same]
    exact registered.steady
  · rw [channels, named, waiting, same]
    exact registered.channels
  · rw [patterns, named, waiting, same]
    exact registered.patterns
  · rw [flag, named, waiting, same]
    exact registered.flag
  · rw [same]
    exact registered.small
  · rw [written, taken]
    exact registered.written

/-- A command is taken, and its names have the callback. -/
private theorem Registered.accepts (registered : Registered cb handed w) {kind : Kind} {add : Bool} {names : List Str}
    (short : ∀ name ∈ names, name.length < 2 ^ 31) (few : (entries (commands w.log)).length + names.length ≤ 2 ^ 30)
    (fairs : Fairs (toldAll handed {}) (waiting handed w.log) (names.map (Entry.mk kind add)))
    {ac : RedisAsyncContext} (channels : Keyed cb ac.channels (kept (names.map (Entry.mk kind add)) (named handed w.log)).channels)
    (patterns : Keyed cb ac.patterns (kept (names.map (Entry.mk kind add)) (named handed w.log)).patterns)
    (flag : ac.subscribed = true) (some : kept (names.map (Entry.mk kind add)) (named handed w.log) ≠ {})
    (replies : ac.replies = w.ac.replies) (invalid : ac.invalid = w.ac.invalid) (monitoring : ac.monitoring = w.ac.monitoring)
    (obuf : ac.c.obuf = w.ac.c.obuf ++ protocol.message (command kind add names)) :
    Registered cb handed ({ w with ac := ac }.record (.issued cb (pointed (command kind add names)) true)) := by
  generalize log : ({ w with ac := ac }.record (.issued cb (pointed (command kind add names)) true)).log = log'
  have taken : accepted log' = accepted w.log ++ [(cb, pointed (command kind add names))] := by
    rw [← log]
    simp [World.record, accepted]
  have all : entries (commands log') = entries (commands w.log) ++ names.map (Entry.mk kind add) := by
    rw [commands, taken, List.map_append, entries_append]
    refine congrArg _ ?_
    rw [← entries_command kind add names, List.map_singleton, pointed_denotes]
  have later : waiting handed log' = waiting handed w.log ++ names.map (Entry.mk kind add) := by
    rw [waiting, all, List.drop_append_of_le_length registered.told.length_le, waiting]
  have more : named handed log' = kept (names.map (Entry.mk kind add)) (named handed w.log) := by
    rw [named, later, kept_append, named]
  refine ⟨?_, ?_, ?_, ?_, ?_, ?_, ?_, replies.trans registered.replies, invalid.trans registered.invalid,
    monitoring.trans registered.monitoring, ?_⟩
  · refine Eq.trans ?_ registered.runs
    simp [World.record, ran]
  · rw [log, all]
    exact registered.told.trans (List.prefix_append _ _)
  · rw [log, later]
    exact registered.steady.appends fairs
  · rw [log, more]
    exact channels
  · rw [log, more]
    exact patterns
  · rw [log, more]
    exact iff_of_true flag some
  · rw [log, all]
    refine ⟨by rw [List.length_append, List.length_map]; exact few, fun e member => ?_⟩
    rcases List.mem_append.mp member with member | member
    · exact registered.small.short e member
    · obtain ⟨name, there, rfl⟩ := List.mem_map.mp member
      exact short name there
  · rw [log, taken]
    show w.sent ++ ac.c.obuf = _
    rw [obuf, ← List.append_assoc, registered.written, messages, messages, List.flatMap_append]
    simp [pointed_denotes]

/-- One of the four methods with names that may follow. -/
theorem Registered.command (registered : Registered cb handed w) {kind : Kind} {add : Bool} {names : List Str} (filled : names ≠ [])
    (sendable : Sendable (command kind add names)) (few : (entries (commands w.log)).length + names.length ≤ 2 ^ 30)
    (fairs : refusing w.ac ∨ Fairs (toldAll handed {}) (waiting handed w.log) (names.map (Entry.mk kind add))) :
    ∃ ok w', redisAsyncCommandArgv cb (pointed (command kind add names)) w = some w' ∧ Registered cb handed w' ∧ Beside w w' ∧
      w'.log = w.log ++ [.issued cb (pointed (command kind add names)) ok] ∧ (ok = true ∨ refusing w'.ac) := by
  rw [redisAsyncCommandArgv_sendable sendable]
  by_cases closed : refusing w.ac
  · have refused : w.ac.redisAsyncCommand cb (protocol.message (Subscriptions.command kind add names)) = some (false, w.ac) :=
      if_pos closed
    rw [refused]
    refine ⟨false, _, rfl, ?_, ?_, rfl, .inr closed⟩
    · exact registered.still rfl (by simp [World.record, ran]) (by simp [World.record, accepted])
    · exact { taken := by simp [World.record, accepted], closed := id }
  · have fairs := fairs.resolve_left closed
    obtain ⟨word, is, one, named', variant, keyword⟩ := command_word kind add names
    have short : ∀ name ∈ names, name.length < 2 ^ 31 := by
      intro name member
      refine sendable.short name ?_
      rw [is]
      exact List.mem_cons_of_mem _ member
    have scanned := command_scanned cb one named' short w.ac
    rw [← is] at scanned
    rw [scanned]
    obtain ⟨first, rest, rfl⟩ := List.exists_cons_of_ne_nil filled
    unfold commanded
    dsimp only
    unfold refusing at closed
    rw [if_neg closed, keyword, variant, ← is]
    cases add with
    | true =>
      have room := named_card registered.told kind
      obtain ⟨channels, patterns, subscribes, keyed, keyed'⟩ :=
        @subscribe_names_keyed _ cb kind _ short { w.ac with subscribed := true } registered.channels registered.patterns (by omega)
      have some : kept ((first :: rest).map (Entry.mk kind true)) (named handed w.log) ≠ {} :=
        topics_nonempty.mpr ⟨kind, first, mem_kept.mpr (.inr (List.mem_map_of_mem List.mem_cons_self))⟩
      rw [if_pos ⟨by simp, rfl⟩, subscribes]
      refine ⟨true, _, rfl, ?_, ?_, rfl, .inl rfl⟩
      · exact registered.accepts short few fairs keyed keyed' rfl some rfl rfl rfl rfl
      · exact { taken := by simp [World.record, accepted], closed := id }
    | false =>
      -- a name that is given up has a callback
      have there : first ∈ (settle (waiting handed w.log) (toldAll handed {})).of kind := by
        have fair := fairs.1
        unfold Fair at fair
        exact fair
      have some : named handed w.log ≠ {} := topics_nonempty.mpr ⟨kind, first, settle_le_kept there⟩
      have still := kept_removals kind (first :: rest) (named handed w.log)
      have gives_up : lit (if false = true then "subscribe" else "unsubscribe") = lit "unsubscribe" := rfl
      rw [if_neg (fun both => absurd both.2 (by decide)), if_pos gives_up, if_pos (registered.flag.mpr some)]
      refine ⟨true, _, rfl, ?_, ?_, rfl, .inl rfl⟩
      · refine registered.accepts short few fairs ?_ ?_ (registered.flag.mpr some) ?_ rfl rfl rfl rfl
        · rw [still]
          exact registered.channels
        · rw [still]
          exact registered.patterns
        · rw [still]
          exact some
      · exact { taken := by simp [World.record, accepted], closed := id }

/-! ### Calls in a row -/

theorem Registered.called_closed (registered : Registered cb handed w) (closed : refusing w.ac) {call : Call}
    (formattable : Formattable call) : ∃ w', called call w = some w' ∧ Registered cb handed w' ∧ Beside w w' := by
  obtain ⟨ac, log, is, closed', same, taken, runs⟩ := called_refused formattable closed
  refine ⟨_, is, ?_, ?_⟩
  · rw [same]
    exact registered.still rfl runs taken
  · rw [same] at closed' ⊢
    exact { taken := taken ▸ List.prefix_refl _, closed := fun _ => closed' }

theorem Registered.calls (registered : Registered cb handed w) {calls : List Call}
    (asks : (refusing w.ac ∧ ∀ call ∈ calls, Formattable call) ∨ AsksAll cb w.log calls) :
    ∃ w', called_all calls w = some w' ∧ Registered cb handed w' ∧ Beside w w' := by
  induction calls generalizing w with
  | nil => exact ⟨w, rfl, registered, .refl w⟩
  | cons call calls ih =>
    have goes_on : ∀ w₁, called call w = some w₁ → Registered cb handed w₁ → Beside w w₁ →
        ((refusing w₁.ac ∧ ∀ call ∈ calls, Formattable call) ∨ AsksAll cb w₁.log calls) →
        ∃ w', called_all (call :: calls) w = some w' ∧ Registered cb handed w' ∧ Beside w w' := by
      intro w₁ is registered₁ beside asks₁
      obtain ⟨w₂, is', registered₂, beside'⟩ := ih registered₁ asks₁
      refine ⟨w₂, ?_, registered₂, beside.trans beside'⟩
      rw [called_all, is, Option.bind_some, is']
    rcases asks with ⟨closed, formattable⟩ | ⟨here, later⟩
    · have others : ∀ call ∈ calls, Formattable call := fun call member => formattable call (List.mem_cons_of_mem _ member)
      obtain ⟨w₁, is, registered₁, beside⟩ := registered.called_closed closed (formattable call List.mem_cons_self)
      exact goes_on w₁ is registered₁ beside (.inl ⟨beside.closed closed, others⟩)
    · cases here with
      | command filled sendable few fairs =>
        rw [topics_of_runs registered.runs, pending_of_runs registered.runs] at fairs
        obtain ⟨ok, w₁, is, registered₁, beside, log, taken⟩ := registered.command filled sendable few (.inr fairs)
        refine goes_on w₁ is registered₁ beside ?_
        rcases taken with rfl | closed
        · exact .inr (log ▸ later)
        · exact .inl ⟨closed, AsksAll.formattable later⟩
      | disconnect =>
        exact goes_on { w with ac := { w.ac with disconnecting := true } } rfl (registered.still rfl)
          { taken := List.prefix_refl _, closed := fun _ => .inl rfl } (.inl ⟨.inl rfl, AsksAll.formattable later⟩)
      | free =>
        exact goes_on { w with ac := { w.ac with freeing := true } } rfl (registered.still rfl)
          { taken := List.prefix_refl _, closed := fun _ => .inr rfl } (.inl ⟨.inr rfl, AsksAll.formattable later⟩)

/-! ### A push -/

/-- What a server sends that keeps such topics. -/
def Proper (t : Topics) : Push → Prop
  | .changed kind add name count => count = (t.change kind add name).count
  | .message channel _ => channel ∈ t.channels
  | .pmessage pattern _ _ => pattern ∈ t.patterns

/-- The name whose callback is run. -/
def Push.about : Push → Str
  | .changed _ _ name _ => name
  | .message channel _ => channel
  | .pmessage pattern _ _ => pattern

/-- The callback for a push is that of its name, which is forgotten when it is given up. -/
private theorem redisGetSubscribeCallback_push (push : Push) (dstcb : RedisCallback) (ac : RedisAsyncContext) :
    redisGetSubscribeCallback push.reply dstcb ac =
      match (ac.callbacks (decide (push.kind = .pattern))).dictFind callbackDict (Push.about push) with
      | none => some (dstcb, ac)
      | some de =>
        match push with
        | .changed kind false name n =>
          let ac := ac.setCallbacks (decide (kind = .pattern))
            ((ac.callbacks (decide (kind = .pattern))).dictDelete callbackDict name).2
          some (de.2, if n = 0 then { ac with subscribed := false } else ac)
        | _ => some (de.2, ac) := by
  cases push with
  | changed kind add name n => cases kind <;> cases add <;> rfl
  | message | pmessage => rfl

theorem count_zero : t.count = 0 ↔ t = {} := by
  obtain ⟨channels, patterns⟩ := t
  constructor
  · intro none
    have sum : (channels.card : Int) + patterns.card = 0 := none
    have first : channels.card = 0 := by omega
    have second : patterns.card = 0 := by omega
    rw [Finset.card_eq_zero.mp first, Finset.card_eq_zero.mp second]
  · intro is
    cases is
    rfl

theorem toldAll_concat (handed : List Push) (push : Push) (t : Topics) : toldAll (handed ++ [push]) t = told push (toldAll handed t) := by
  rw [toldAll_append]
  rfl

/-- What remains when the first name is confirmed. -/
private theorem waiting_changed {kind : Kind} {add : Bool} {name : Str} {count : Int}
    (next : changes (handed ++ [.changed kind add name count]) <+: entries (commands log)) :
    waiting handed log = ⟨kind, add, name⟩ :: waiting (handed ++ [.changed kind add name count]) log := by
  obtain ⟨rest, all⟩ := next
  have one_more : changes (handed ++ [.changed kind add name count]) = changes handed ++ [⟨kind, add, name⟩] := changes_append ..
  rw [waiting, waiting, ← all, List.drop_left, one_more, List.append_assoc, List.drop_left]
  rfl

private theorem kept_all_removals {es : List Entry} (removals : ∀ e ∈ es, e.add = false) (t : Topics) : kept es t = t := by
  refine topics_ext fun kind name => ?_
  rw [mem_kept]
  refine or_iff_left fun member => ?_
  cases removals _ member

/-- The name that is given up loses its callback, and no other. -/
private theorem kept_given_up {kind : Kind} {name : Str} {rest : List Entry} (apart : (⟨kind, true, name⟩ : Entry) ∉ rest) (t : Topics) :
    kept rest (t.change kind false name) = (kept rest t).change kind false name := by
  refine topics_ext fun kind' name' => ?_
  rw [mem_kept, mem_change, mem_change, mem_kept]
  constructor
  · rintro ((⟨_, _, add⟩ | ⟨there, other⟩) | asked)
    · cases add
    · exact .inr ⟨.inl there, other⟩
    · refine .inr ⟨.inr asked, ?_⟩
      rintro ⟨rfl, rfl, _⟩
      exact apart asked
  · rintro (⟨_, _, add⟩ | ⟨there | asked, other⟩)
    · cases add
    · exact .inl (.inr ⟨there, other⟩)
    · exact .inr asked

/-- The context is as it has to be once the push has been handed over. -/
private theorem Registered.record_push (registered : Registered cb handed w) {push : Push}
    (next : changes (handed ++ [push]) <+: entries (commands w.log))
    (steady : Steady (toldAll (handed ++ [push]) {}) (waiting (handed ++ [push]) w.log)) {ac : RedisAsyncContext}
    (channels : Keyed cb ac.channels (named (handed ++ [push]) w.log).channels)
    (patterns : Keyed cb ac.patterns (named (handed ++ [push]) w.log).patterns)
    (flag : ac.subscribed = true ↔ named (handed ++ [push]) w.log ≠ {}) (replies : ac.replies = w.ac.replies)
    (invalid : ac.invalid = w.ac.invalid) (monitoring : ac.monitoring = w.ac.monitoring) (obuf : ac.c.obuf = w.ac.c.obuf) :
    Registered cb (handed ++ [push]) ({ w with ac := ac }.record (.ran cb (some push.reply))) := by
  have taken : accepted (w.log ++ [.ran cb (some push.reply)]) = accepted w.log := by simp [accepted]
  have same : commands (w.log ++ [.ran cb (some push.reply)]) = commands w.log := congrArg (List.map _) taken
  have later : waiting (handed ++ [push]) (w.log ++ [.ran cb (some push.reply)]) = waiting (handed ++ [push]) w.log := by
    rw [waiting, same, waiting]
  have more : named (handed ++ [push]) (w.log ++ [.ran cb (some push.reply)]) = named (handed ++ [push]) w.log := by
    rw [named, later, named]
  refine ⟨?_, ?_, ?_, ?_, ?_, ?_, ?_, replies.trans registered.replies, invalid.trans registered.invalid,
    monitoring.trans registered.monitoring, ?_⟩
  · have before := registered.runs
    show ran (w.log ++ [.ran cb (some push.reply)]) = _
    rw [List.map_append, ← before]
    simp [ran]
  · show changes _ <+: entries (commands (w.log ++ [.ran cb (some push.reply)]))
    rw [same]
    exact next
  · exact later ▸ steady
  · exact more ▸ channels
  · exact more ▸ patterns
  · exact more ▸ flag
  · show Small (entries (commands (w.log ++ [.ran cb (some push.reply)])))
    rw [same]
    exact registered.small
  · show w.sent ++ ac.c.obuf = messages (accepted (w.log ++ [.ran cb (some push.reply)]))
    rw [obuf, taken]
    exact registered.written

/-- A message changes nothing. -/
private theorem Registered.hands_message (registered : Registered cb handed w) {push : Push} (told : Pushes.told push = id)
    (silent : changes [push] = []) :
    Registered cb (handed ++ [push]) ({ w with ac := w.ac }.record (.ran cb (some push.reply))) := by
  have quiet : changes (handed ++ [push]) = changes handed := by rw [changes_append, silent, List.append_nil]
  have topics : toldAll (handed ++ [push]) {} = toldAll handed {} := by rw [toldAll_concat, told, id]
  have later : waiting (handed ++ [push]) w.log = waiting handed w.log := by rw [waiting, quiet, waiting]
  have more : named (handed ++ [push]) w.log = named handed w.log := by rw [named, later, topics, named]
  refine registered.record_push ?_ ?_ ?_ ?_ ?_ rfl rfl rfl rfl
  · rw [quiet]
    exact registered.told
  · rw [topics, later]
    exact registered.steady
  · rw [more]
    exact registered.channels
  · rw [more]
    exact registered.patterns
  · rw [more]
    exact registered.flag

private theorem Registered.table (registered : Registered cb handed w) (kind : Kind) :
    Keyed cb (w.ac.callbacks (decide (kind = .pattern))) ((named handed w.log).of kind) := by
  cases kind with
  | channel => exact registered.channels
  | pattern => exact registered.patterns

/-- A name is confirmed that was asked for. -/
private theorem Registered.hands_added (registered : Registered cb handed w) {kind : Kind} {name : Str} {count : Int}
    (next : changes (handed ++ [.changed kind true name count]) <+: entries (commands w.log)) :
    Registered cb (handed ++ [.changed kind true name count])
      ({ w with ac := w.ac }.record (.ran cb (some (Push.changed kind true name count).reply))) := by
  have steady := registered.steady
  have first := waiting_changed next
  rw [first] at steady
  have topics := toldAll_concat handed (.changed kind true name count) {}
  have more : named (handed ++ [.changed kind true name count]) w.log = named handed w.log := by
    rw [named, topics, named, first]
    rfl
  refine registered.record_push next ?_ ?_ ?_ ?_ rfl rfl rfl rfl
  · rw [topics]
    exact steady.2
  · rw [more]
    exact registered.channels
  · rw [more]
    exact registered.patterns
  · rw [more]
    exact registered.flag

/-- A name is given up: its callback is forgotten, and the flag if it was the last. -/
private theorem Registered.hands_removed (registered : Registered cb handed w) {kind : Kind} {name : Str} {count : Int}
    (proper : Proper (toldAll handed {}) (.changed kind false name count))
    (next : changes (handed ++ [.changed kind false name count]) <+: entries (commands w.log)) :
    let ac := w.ac.setCallbacks (decide (kind = .pattern))
      ((w.ac.callbacks (decide (kind = .pattern))).dictDelete callbackDict name).2
    Registered cb (handed ++ [.changed kind false name count])
      ({ w with ac := if count = 0 then { ac with subscribed := false } else ac }.record
        (.ran cb (some (Push.changed kind false name count).reply))) := by
  have steady := registered.steady
  have first := waiting_changed next
  rw [first] at steady
  obtain ⟨there, apart, last⟩ := steady.1 rfl
  have topics : toldAll (handed ++ [.changed kind false name count]) {} = (toldAll handed {}).change kind false name :=
    toldAll_concat handed (.changed kind false name count) {}
  have more : named (handed ++ [.changed kind false name count]) w.log = (named handed w.log).change kind false name := by
    rw [named, topics, kept_given_up apart, named, first]
    rfl
  have member : name ∈ (named handed w.log).of kind := mem_kept.mpr (.inl there)
  have keyed := (registered.table kind).delete member
  have zero : count = 0 ↔ (toldAll handed {}).change kind false name = {} := by
    rw [show count = _ from proper, count_zero]
  -- nothing has a callback any more exactly if nothing is left
  have empty : named (handed ++ [.changed kind false name count]) w.log = {} ↔ count = 0 := by
    rw [zero]
    constructor
    · intro none
      by_contra some
      obtain ⟨kind', name', left⟩ := topics_nonempty.mp some
      refine topics_nonempty.mpr ⟨kind', name', ?_⟩ none
      rw [named, topics]
      exact mem_kept.mpr (.inl left)
    · intro none
      rw [named, topics, none]
      exact kept_all_removals (last none) {}
  have set : w.ac.subscribed = true := registered.flag.mpr (topics_nonempty.mpr ⟨kind, name, member⟩)
  intro ac
  have channels : Keyed cb ac.channels (named (handed ++ [.changed kind false name count]) w.log).channels := by
    rw [more]
    cases kind with
    | channel => exact keyed
    | pattern => exact registered.channels
  have patterns : Keyed cb ac.patterns (named (handed ++ [.changed kind false name count]) w.log).patterns := by
    rw [more]
    cases kind with
    | channel => exact registered.patterns
    | pattern => exact keyed
  have rest : ac.replies = w.ac.replies ∧ ac.invalid = w.ac.invalid ∧ ac.monitoring = w.ac.monitoring ∧ ac.c.obuf = w.ac.c.obuf ∧
      ac.subscribed = w.ac.subscribed := by
    cases kind <;> exact ⟨rfl, rfl, rfl, rfl, rfl⟩
  have steady' : Steady (toldAll (handed ++ [.changed kind false name count]) {}) (waiting (handed ++ [.changed kind false name count]) w.log) := by
    rw [topics]
    exact steady.2
  by_cases none : count = 0
  · rw [if_pos none]
    refine registered.record_push next steady' channels patterns ?_ rest.1 rest.2.1 rest.2.2.1 rest.2.2.2.1
    exact iff_of_false Bool.false_ne_true (not_not.mpr (empty.mpr none))
  · rw [if_neg none]
    refine registered.record_push next steady' channels patterns ?_ rest.1 rest.2.1 rest.2.2.1 rest.2.2.2.1
    exact iff_of_true (rest.2.2.2.2.trans set) fun nothing => none (empty.mp nothing)

/-- The next push finds the callback, and is handed to it. -/
theorem Registered.hands (registered : Registered cb handed w) {push : Push} (proper : Proper (toldAll handed {}) push)
    (next : changes (handed ++ [push]) <+: entries (commands w.log)) (dstcb : RedisCallback) :
    w.ac.subscribed = true ∧ ∃ ac, redisGetSubscribeCallback push.reply dstcb w.ac = some (cb, ac) ∧
      Registered cb (handed ++ [push]) ({ w with ac := ac }.record (.ran cb (some push.reply))) ∧ Beside w { w with ac := ac } := by
  have member : Push.about push ∈ (named handed w.log).of push.kind := by
    cases push with
    | message | pmessage => exact mem_kept.mpr (.inl proper)
    | changed kind add name count =>
      have first := waiting_changed next
      cases add with
      | true => exact mem_kept.mpr (.inr (by rw [first]; exact List.mem_cons_self))
      | false =>
        have steady := registered.steady
        rw [first] at steady
        exact mem_kept.mpr (.inl (steady.1 rfl).1)
  refine ⟨registered.flag.mpr (topics_nonempty.mpr ⟨_, _, member⟩), ?_⟩
  rw [redisGetSubscribeCallback_push, (registered.table push.kind).find member]
  cases push with
  | message | pmessage => exact ⟨w.ac, rfl, registered.hands_message rfl rfl, .refl w⟩
  | changed kind add name count =>
    cases add with
    | true => exact ⟨w.ac, rfl, registered.hands_added next, .refl w⟩
    | false =>
      refine ⟨_, rfl, registered.hands_removed proper next, ?_⟩
      cases kind <;> split <;> exact { taken := List.prefix_refl _, closed := id }

/-- The callback is run with the push, and makes its calls. -/
theorem Registered.runs_push (registered : Registered cb handed w) (orderly : Orderly cb program) (callable : cb.fn ≠ none)
    (idle : w.ac.in_callback = false) {push : Push} (proper : Proper (toldAll handed {}) push)
    (next : changes (handed ++ [push]) <+: entries (commands w.log)) (dstcb : RedisCallback) :
    w.ac.subscribed = true ∧ ∃ ac, redisGetSubscribeCallback push.reply dstcb w.ac = some (cb, ac) ∧
      ∃ w', redisRunCallback program cb (some push.reply) { w with ac := ac } = some w' ∧ Registered cb (handed ++ [push]) w' ∧
        Beside w w' := by
  obtain ⟨set, ac, found, registered₁, beside⟩ := registered.hands proper next dstcb
  refine ⟨set, ac, found, ?_⟩
  generalize before : ({ w with ac := { ac with in_callback := true } } : World).record (.ran cb (some push.reply)) = w₁
  have here : Registered cb (handed ++ [push]) w₁ := by
    subst before
    exact registered₁.still rfl
  have asks := orderly w₁.log (by rw [topics_of_runs here.runs, pending_of_runs here.runs]; exact here.steady)
  obtain ⟨w₂, is, registered₂, beside₂⟩ := here.calls (.inr asks)
  refine ⟨{ w₂ with ac := { w₂.ac with in_callback := false } }, ?_, registered₂.still rfl, ?_⟩
  · unfold redisRunCallback
    rw [if_neg callable]
    dsimp only
    rw [before, is]
    rfl
  · have taken : accepted w₁.log = accepted w.log := by
      rw [← before]
      simp [World.record, accepted]
    have reader : w₁.ac.c.reader = w.ac.c.reader := by rw [← before]; exact beside.reader
    have others : w₁.received = w.received ∧ w₁.sent = w.sent ∧ w₁.freed = w.freed := by rw [← before]; exact ⟨rfl, rfl, rfl⟩
    have closed : refusing w.ac → refusing w₁.ac := by
      intro closing
      rw [← before]
      exact beside.closed closing
    exact {
      reader := beside₂.reader.trans reader
      received := beside₂.received.trans others.1
      sent := beside₂.sent.trans others.2.1
      freed := beside₂.freed.trans others.2.2
      in_callback := idle.symm
      taken := taken ▸ beside₂.taken
      closed := fun closing => beside₂.closed (closed closing) }

/-! ### The end of the context -/

/-- No command is taken any more, and such callbacks are run. -/
structure Closes (runs : List (RedisCallback × Option RedisReply)) (w w' : World) : Prop where
  taken : accepted w'.log = accepted w.log
  runs : ran w'.log = ran w.log ++ runs
  channels : w'.ac.channels = w.ac.channels := by rfl
  patterns : w'.ac.patterns = w.ac.patterns := by rfl
  received : w'.received = w.received := by rfl
  sent : w'.sent = w.sent := by rfl
  closed : refusing w'.ac

private theorem Closes.trans {runs runs' : List (RedisCallback × Option RedisReply)} (first : Closes runs w w')
    (second : Closes runs' w' w'') : Closes (runs ++ runs') w w'' where
  taken := second.taken.trans first.taken
  runs := by rw [second.runs, first.runs, List.append_assoc]
  channels := second.channels.trans first.channels
  patterns := second.patterns.trans first.patterns
  received := second.received.trans first.received
  sent := second.sent.trans first.sent
  closed := second.closed

private theorem called_all_closes (closed : refusing w.ac) {calls : List Call} (formattable : ∀ call ∈ calls, Formattable call) :
    ∃ w', called_all calls w = some w' ∧ Closes [] w w' := by
  induction calls generalizing w with
  | nil => exact ⟨w, rfl, { taken := rfl, runs := by simp, closed := closed }⟩
  | cons call calls ih =>
    obtain ⟨here, others⟩ := List.forall_mem_cons.mp formattable
    obtain ⟨ac, log, is, closed', same, taken, runs⟩ := called_refused here closed
    have closes : Closes [] w { w with ac := ac, log := log } := by
      rw [same] at closed' ⊢
      exact { taken := taken, runs := by rw [runs, List.append_nil], closed := closed' }
    obtain ⟨w₂, is', closes'⟩ := ih closes.closed others
    refine ⟨w₂, ?_, closes.trans closes'⟩
    rw [called_all, is, Option.bind_some, is']

/-- NULL tells the subscriber nothing. -/
theorem heard_nulls (cb : RedisCallback) (n : Nat) (sub : Subscriber) : (List.replicate n (cb, none)).foldl heard sub = sub := by
  induction n with
  | zero => rfl
  | succ n ih => exact ih

/-- What is asked for stays steady. -/
private theorem Closes.steady {n : Nat} (closes : Closes (List.replicate n (cb, none)) w w')
    (steady : Steady (subscriber w.log).topics (pendingIn w.log)) : Steady (subscriber w'.log).topics (pendingIn w'.log) := by
  have told : subscriber w'.log = subscriber w.log := by
    rw [subscriber, closes.runs, List.foldl_append, heard_nulls, subscriber]
  have same : commands w'.log = commands w.log := congrArg (List.map _) closes.taken
  have pending : pendingIn w'.log = pendingIn w.log := by
    have silent : (List.replicate n (cb, (none : Option RedisReply))).countP (fun run => confirms run.2) = 0 :=
      List.countP_eq_zero.mpr fun run member => by rw [(List.mem_replicate.mp member).2]; exact Bool.false_ne_true
    rw [pendingIn, pendingIn, same, closes.runs, List.countP_append, silent, Nat.add_zero]
  rwa [told, pending]

private theorem redisRunCallback_closes (orderly : Orderly cb program) (closed : refusing w.ac)
    (steady : Steady (subscriber w.log).topics (pendingIn w.log)) (callable : cb.fn ≠ none) :
    ∃ w', redisRunCallback program cb none w = some w' ∧ Closes [(cb, none)] w w' := by
  unfold redisRunCallback
  rw [if_neg callable]
  generalize before : ({ w with ac := { w.ac with in_callback := true } } : World).record (.ran cb none) = w₁
  have first : Closes [(cb, none)] w w₁ := by
    subst before
    exact { taken := by simp [World.record, accepted], runs := by simp [World.record, ran], closed := closed }
  have asks := orderly w₁.log (Closes.steady (n := 1) first steady)
  obtain ⟨w₂, is, closes⟩ := called_all_closes first.closed asks.formattable
  dsimp only
  rw [is]
  obtain ⟨taken, runs, channels, patterns, received, sent, closed'⟩ := first.trans closes
  exact ⟨_, rfl, taken, runs, channels, patterns, received, sent, closed'⟩

private theorem run_nulls_closes (orderly : Orderly cb program) (closed : refusing w.ac)
    (steady : Steady (subscriber w.log).topics (pendingIn w.log)) (callable : cb.fn ≠ none) (n : Nat) :
    ∃ w', run_nulls program (List.replicate n cb) w = some w' ∧ Closes (List.replicate n (cb, none)) w w' := by
  induction n generalizing w with
  | zero => exact ⟨w, rfl, { taken := rfl, runs := by simp, closed := closed }⟩
  | succ n ih =>
    obtain ⟨w₁, is, closes⟩ := redisRunCallback_closes orderly closed steady callable
    obtain ⟨w₂, is', closes'⟩ := ih closes.closed (Closes.steady (n := 1) closes steady)
    refine ⟨w₂, ?_, closes.trans closes'⟩
    rw [List.replicate_succ, run_nulls, is, Option.bind_some, is']

/-- The iterator gives the callback once for each name. -/
private theorem Keyed.walk {ht : Dict Str RedisCallback} {names : Finset Str} (keyed : Keyed cb ht names) :
    ht.walk.map (·.2) = List.replicate names.card cb := by
  rw [Dict.walk_eq keyed.wf, List.eq_replicate_iff, List.length_map, ← keyed.used, keyed.wf.counted]
  refine ⟨rfl, fun cb' member => ?_⟩
  obtain ⟨e, there, rfl⟩ := List.mem_map.mp member
  exact (keyed.mem_entries.mp there).2

/-- How many names there are. -/
def size (t : Topics) : Nat := t.channels.card + t.patterns.card

/-- The context is freed: the callback is run with NULL, once for each name it is kept
    for. -/
structure Dropped (cb : RedisCallback) (names : Topics) (w w' : World) : Prop where
  freed : w'.freed = true
  taken : accepted w'.log = accepted w.log
  runs : ran w'.log = ran w.log ++ List.replicate (size names) (cb, none)
  received : w'.received = w.received
  sent : w'.sent = w.sent

theorem Registered.free (registered : Registered cb handed w) (orderly : Orderly cb program) (callable : cb.fn ≠ none)
    (closed : refusing w.ac) : ∃ w', asyncFree program w = some w' ∧ Dropped cb (named handed w.log) w w' := by
  have steady : Steady (subscriber w.log).topics (pendingIn w.log) := by
    rw [topics_of_runs registered.runs, pending_of_runs registered.runs]
    exact registered.steady
  obtain ⟨w₁, is, closes⟩ := run_nulls_closes orderly closed steady callable (named handed w.log).channels.card
  obtain ⟨w₂, is', closes'⟩ :=
    run_nulls_closes orderly closes.closed (closes.steady steady) callable (named handed w.log).patterns.card
  have all := closes.trans closes'
  unfold asyncFree
  simp only [registered.replies, registered.invalid, List.length_nil, run_replies, run_invalid, Option.bind_some,
    registered.channels.walk, is, closes.patterns, registered.patterns.walk, is', Option.map_some]
  refine ⟨_, rfl, rfl, ?_, ?_, ?_, ?_⟩
  · refine Eq.trans ?_ all.taken
    split <;> simp [World.record, accepted]
  · refine Eq.trans ?_ (all.runs.trans ?_)
    · split <;> simp [World.record, ran]
    · rw [List.replicate_append_replicate, size]
  · refine Eq.trans ?_ all.received
    split <;> rfl
  · refine Eq.trans ?_ all.sent
    split <;> rfl

theorem Registered.disconnects (registered : Registered cb handed w) (orderly : Orderly cb program) (callable : cb.fn ≠ none)
    (closing : w.ac.c.err ≠ 0 ∨ refusing w.ac) :
    ∃ w', asyncDisconnect program w = some w' ∧ Dropped cb (named handed w.log) w w' := by
  unfold asyncDisconnect
  by_cases sound : w.ac.c.err = 0
  · have here : Registered cb handed { w with ac := redisAsyncCopyError w.ac } := registered.still rfl
    obtain ⟨w', is, freed, taken, runs, received, sent⟩ :=
      here.free orderly callable (closing.resolve_left (not_not.mpr sound))
    refine ⟨w', ?_, freed, taken, runs, received, sent⟩
    dsimp only
    rw [if_pos (show (redisAsyncCopyError w.ac).err = 0 from sound),
      if_pos (show (redisAsyncCopyError w.ac).replies = [] from registered.replies), is]
  · have here : Registered cb handed { w with ac := { redisAsyncCopyError w.ac with disconnecting := true } } := registered.still rfl
    obtain ⟨w', is, freed, taken, runs, received, sent⟩ := here.free orderly callable (.inl rfl)
    refine ⟨w', ?_, freed, taken, runs, received, sent⟩
    dsimp only
    rw [if_neg (show ¬ (redisAsyncCopyError w.ac).err = 0 from sound), is]

end CppRedis.Registers

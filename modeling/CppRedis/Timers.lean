import CppRedis.Monitor

/-!
The monitor timers of all Clients. A timer is started with a Sentinel as its
argument and is never removed; `~Client` deletes the Sentinel that `sentinel_`
points to, and a further connect through sentinels leaves the earlier one behind.
`sound_iff` says in which runs every timer has its Sentinel and its Client, and
every Client one monitor at most.
-/
namespace CppRedis.Timers
open CppRedis.Strings CppRedis.Reply CppRedis.Connection CppRedis.Uri CppRedis.Clients CppRedis.Sentinels
open CppRedis.Monitor CppRedis.Runs

abbrev ClientId := Nat
abbrev SentinelId := Nat

/-- A Client that was constructed. -/
structure Owner where
  client : Client := {}
  sentinel_ : Option SentinelId := none
  destroyed : Bool := false

/-- A Sentinel that was allocated, with the Client that it was given. -/
structure Watch where
  sentinel : Sentinel
  client_ : ClientId
  deleted : Bool := false

/-- A run of `timeout_cb`: whether its Sentinel was deleted by then, and whether the
    Sentinel's Client was destroyed. -/
structure Firing where
  sentinel : SentinelId
  deleted : Bool
  destroyed : Bool
  deriving DecidableEq

structure World where
  clients : List Owner := []
  sentinels : List Watch := []
  fired : List Firing := []

inductive Act
  | create
  | connect (c : ClientId) (sentinel_urls : List Str) (master_name : Str) (db : Int) (t : Tick)
  | fire (s : SentinelId) (t : Tick)
  | destroy (c : ClientId) (quits : Nat → Exchange)

/-- The timer that was started for the Sentinel is armed. -/
def Watch.Armed (watch : Watch) : Prop := 0 < watch.sentinel.timers

instance (watch : Watch) : Decidable watch.Armed := inferInstanceAs (Decidable (_ < _))

/-- The program goes on: a result, or an exception that it can catch. -/
def goesOn : Except Fault Bool → Bool
  | .ok _ => true
  | .error (.thrown _) => true
  | .error .terminated => false
  | .error .undefined => false

namespace World

/-- The Client has been destroyed. -/
def destroyed (w : World) (c : ClientId) : Bool :=
  match w.clients[c]? with
  | none => false
  | some owner => owner.destroyed

/-- `connect(sentinel_urls, master_name, db)` of a Client that is not destroyed. -/
def connect (c : ClientId) (sentinel_urls : List Str) (master_name : Str) (db : Int) (t : Tick) (w : World) :
    Option World :=
  match w.clients[c]? with
  | none => none
  | some owner =>
    if owner.destroyed then none
    else
      match Sentinel.start_client_connect t { urls_ := sentinel_urls, master_name_ := master_name, db_ := db }
          owner.client with
      | (result, se, cl) =>
        if goesOn result then
          some { w with
            clients := w.clients.set c { owner with client := cl, sentinel_ := some w.sentinels.length }
            sentinels := w.sentinels ++ [⟨se, c, false⟩] }
        else none

/-- `timeout_cb`, which nothing is said of where it uses what is gone; an exception
    of `check_master` leaves the event loop. -/
def timeout_cb (s : SentinelId) (watch : Watch) (t : Tick) (w : World) : Option World :=
  if watch.deleted || w.destroyed watch.client_ then
    some { w with fired := w.fired ++ [⟨s, watch.deleted, w.destroyed watch.client_⟩] }
  else
    match w.clients[watch.client_]? with
    | none => none
    | some owner =>
      match Monitor.step ⟨watch.sentinel, owner.client⟩ (.tick t) with
      | none => none
      | some site =>
        some { w with
          clients := w.clients.set watch.client_ { owner with client := site.client }
          sentinels := w.sentinels.set s { watch with sentinel := site.sentinel }
          fired := w.fired ++ [⟨s, false, false⟩] }

/-- An armed timer runs out. -/
def fire (s : SentinelId) (t : Tick) (w : World) : Option World :=
  match w.sentinels[s]? with
  | none => none
  | some watch => if watch.Armed then w.timeout_cb s watch t else none

/-- `if (sentinel_) delete sentinel_;`. -/
def delete_sentinel (sentinel_ : Option SentinelId) (sentinels : List Watch) : List Watch :=
  match sentinel_ with
  | none => sentinels
  | some s => sentinels.modify s fun watch => { watch with deleted := true }

/-- `~Client`. -/
def destroy (c : ClientId) (quits : Nat → Exchange) (w : World) : Option World :=
  match w.clients[c]? with
  | none => none
  | some owner =>
    if owner.destroyed then none
    else
      match owner.client.delete_pool quits with
      | .error _ => none
      | .ok cl =>
        some { w with
          clients := w.clients.set c { owner with client := cl, destroyed := true }
          sentinels := delete_sentinel owner.sentinel_ w.sentinels }

end World

def step (w : World) : Act → Option World
  | .create => some { w with clients := w.clients ++ [{}] }
  | .connect c sentinel_urls master_name db t => w.connect c sentinel_urls master_name db t
  | .fire s t => w.fire s t
  | .destroy c quits => w.destroy c quits

/-! ### What starts a timer -/

/-- Discovery names an address without a fault before, and the Client connects to
    it. -/
def Starts (sentinel_urls : List Str) (db : Int) (t : Tick) (cl : Client) : Prop :=
  Sentinels.Sound sentinel_urls t.probes ∧ ∃ url addr, First sentinel_urls t.probes url addr ∧
    (cl.connect t.connecting addr.1 addr.2 db).1 = .ok 0

private theorem subscribes (asyncFails : Bool) (se : Sentinel) {url : Str} {uri : URI}
    (parses : parsed url = .ok (some uri)) :
    ∃ se', se.subscribe_sentinel_notification asyncFails url = (.ok (), se') := by
  simp only [Sentinel.subscribe_sentinel_notification, Subscriber.connect, parses]
  cases asyncFails <;> exact ⟨_, rfl⟩

/-- `start_client_connect` starts one timer exactly if discovery and connect
    succeed. -/
theorem start_timers (t : Tick) (se : Sentinel) (cl : Client) :
    (Starts se.urls_ se.db_ t cl ∧ (se.start_client_connect t cl).2.1.timers = se.timers + 1) ∨
    (¬ Starts se.urls_ se.db_ t cl ∧ (se.start_client_connect t cl).2.1.timers = se.timers) := by
  rcases se.discover_master_cases t.probes with
    ⟨sound, addr, url, urls, first, outcome⟩ | ⟨_, dark, outcome⟩ | ⟨unsound, fault, addr, url, outcome⟩
  · have starts : Starts se.urls_ se.db_ t cl ↔ (cl.connect t.connecting addr.1 addr.2 se.db_).1 = .ok 0 := by
      constructor
      · rintro ⟨_, url', addr', other, zero⟩
        rw [(first_unique first other).2]
        exact zero
      · exact fun zero => ⟨sound, url, addr, first, zero⟩
    rw [starts]
    simp only [Sentinel.start_client_connect, outcome]
    cases connected : cl.connect t.connecting addr.1 addr.2 se.db_ with
    | mk result cl' =>
      cases result with
      | error fault => exact .inr ⟨by simp, rfl⟩
      | ok n =>
        by_cases zero : n = 0
        · obtain ⟨_, _, _, ⟨⟨uri, parses⟩, _⟩, _⟩ := first
          obtain ⟨se', subscribed⟩ := subscribes t.asyncFails
            { se with urls_ := urls, master_ip_ := addr.1, master_port_ := addr.2, sentinel_url_ := url } parses
          obtain ⟨sub, is, _⟩ := Sentinel.subscribe_gives subscribed
          simp only [zero, ↓reduceIte, subscribed]
          exact .inl ⟨trivial, by rw [is]; rfl⟩
        · simp only [if_neg zero]
          exact .inr ⟨fun same => zero (Except.ok.inj same), trivial⟩
  · refine .inr ⟨?_, by simp [Sentinel.start_client_connect, outcome]⟩
    rintro ⟨_, url, addr, first, _⟩
    exact first.not_dark dark
  · exact .inr ⟨fun starts => unsound starts.1, by simp [Sentinel.start_client_connect, outcome]⟩

/-- A tick starts no timer. -/
theorem tick_timers {t : Tick} {s s' : Site} (taken : Monitor.step s (.tick t) = some s') :
    s'.sentinel.timers = s.sentinel.timers := by
  obtain ⟨_, _, _, _, _, _, is, _⟩ := tick_cases taken
  rw [is]

/-! ### What a run keeps -/

/-- The number of Sentinels that monitor the Client. -/
def World.monitors (w : World) (c : ClientId) : Nat := w.sentinels.countP fun watch => watch.client_ = c ∧ watch.Armed

/-- Every run of `timeout_cb` found its Sentinel and its Client, and so will every
    further one; no Client has two monitors. -/
structure Sound (w : World) : Prop where
  ran : ∀ f ∈ w.fired, f.deleted = false ∧ f.destroyed = false
  armed : ∀ watch ∈ w.sentinels, watch.Armed → watch.deleted = false ∧ w.destroyed watch.client_ = false
  one : ∀ c, w.monitors c ≤ 1

/-- No timer is armed for the Client. -/
def Unmonitored (w : World) (c : ClientId) : Prop := ∀ watch ∈ w.sentinels, watch.client_ = c → ¬ watch.Armed

instance (w : World) (c : ClientId) : Decidable (Unmonitored w c) :=
  inferInstanceAs (Decidable (∀ watch ∈ w.sentinels, _))

/-- A Client is destroyed, or connects again with a timer, only while no timer is
    armed for it. -/
def Orderly (w : World) : Act → Prop
  | .connect c sentinel_urls _ db t =>
    ∀ owner ∈ w.clients[c]?, Starts sentinel_urls db t owner.client → Unmonitored w c
  | .destroy c _ => Unmonitored w c
  | _ => True

private theorem monitors_zero (w : World) (c : ClientId) : w.monitors c = 0 ↔ Unmonitored w c := by
  simp [World.monitors, Unmonitored, List.countP_eq_zero]

private theorem destroyed_eq {w : World} {c : ClientId} {owner : Owner} (at_c : w.clients[c]? = some owner) :
    w.destroyed c = owner.destroyed := by
  simp [World.destroyed, at_c]

/-- A Client's entry changes without its destruction. -/
private theorem destroyed_set {w : World} (w' : World) {c : ClientId} {owner owner' : Owner} (at_c : w.clients[c]? = some owner)
    (same : w'.clients = w.clients.set c owner') (keeps : owner'.destroyed = owner.destroyed) (d : ClientId) :
    w'.destroyed d = w.destroyed d := by
  have inside := (List.getElem?_eq_some_iff.mp at_c).1
  by_cases here : d = c
  · subst here
    rw [destroyed_eq at_c, destroyed_eq (by rw [same, List.getElem?_set_self inside]), keeps]
  · simp only [World.destroyed, same, List.getElem?_set_ne fun e => here e.symm]

private theorem destroyed_create (w : World) (c : ClientId) :
    World.destroyed { w with clients := w.clients ++ [{}] } c = w.destroyed c := by
  simp only [World.destroyed]
  rcases Nat.lt_trichotomy c w.clients.length with old | rfl | beyond
  · rw [List.getElem?_append_left old]
  · simp
  · rw [List.getElem?_eq_none (by simp; omega), List.getElem?_eq_none (by omega)]

/-- What `connect` leaves. -/
theorem connect_cases {w w' : World} {c : ClientId} {sentinel_urls : List Str} {master_name : Str} {db : Int}
    {t : Tick} (done : w.connect c sentinel_urls master_name db t = some w') :
    ∃ owner se cl, w.clients[c]? = some owner ∧ owner.destroyed = false ∧
      (Starts sentinel_urls db t owner.client ↔ 0 < se.timers) ∧
      w' = { w with
        clients := w.clients.set c { owner with client := cl, sentinel_ := some w.sentinels.length }
        sentinels := w.sentinels ++ [⟨se, c, false⟩] } := by
  simp only [World.connect] at done
  cases at_c : w.clients[c]? with
  | none => simp [at_c] at done
  | some owner =>
    cases gone : owner.destroyed with
    | true => simp [at_c, gone] at done
    | false =>
      have timers := start_timers t { urls_ := sentinel_urls, master_name_ := master_name, db_ := db } owner.client
      cases started : Sentinel.start_client_connect t
          { urls_ := sentinel_urls, master_name_ := master_name, db_ := db } owner.client with
      | mk result rest =>
        simp only [at_c, gone, started, Bool.false_eq_true, ↓reduceIte] at done
        rw [started] at timers
        split at done
        · refine ⟨owner, rest.1, rest.2, rfl, gone, ?_, by simpa [gone] using done.symm⟩
          rcases timers with ⟨starts, more⟩ | ⟨none, same⟩
          · exact iff_of_true starts (by simp only at more; omega)
          · exact iff_of_false none (by simp only at same; omega)
        · cases done

/-- What a run of the timer leaves. -/
theorem fire_cases {w w' : World} {s : SentinelId} {t : Tick} (done : w.fire s t = some w') :
    ∃ watch, w.sentinels[s]? = some watch ∧ watch.Armed ∧
      (((watch.deleted = true ∨ w.destroyed watch.client_ = true) ∧
        w' = { w with fired := w.fired ++ [⟨s, watch.deleted, w.destroyed watch.client_⟩] }) ∨
       (∃ owner cl se, w.clients[watch.client_]? = some owner ∧ se.timers = watch.sentinel.timers ∧
        w' = { w with
          clients := w.clients.set watch.client_ { owner with client := cl }
          sentinels := w.sentinels.set s { watch with sentinel := se }
          fired := w.fired ++ [⟨s, false, false⟩] })) := by
  simp only [World.fire] at done
  cases at_s : w.sentinels[s]? with
  | none => simp [at_s] at done
  | some watch =>
    by_cases armed : watch.Armed
    · refine ⟨watch, rfl, armed, ?_⟩
      simp only [at_s, armed, ↓reduceIte, World.timeout_cb] at done
      split at done
      · rename_i gone
        exact .inl ⟨by simpa using gone, (Option.some.inj done).symm⟩
      · cases at_c : w.clients[watch.client_]? with
        | none => simp [at_c] at done
        | some owner =>
          cases ticked : Monitor.step ⟨watch.sentinel, owner.client⟩ (.tick t) with
          | none => simp [at_c, ticked] at done
          | some site =>
            simp only [at_c, ticked, Option.some.injEq] at done
            exact .inr ⟨owner, site.client, site.sentinel, rfl, tick_timers ticked, done.symm⟩
    · simp [at_s, armed] at done

/-- What the destructor leaves. -/
theorem destroy_cases {w w' : World} {c : ClientId} {quits : Nat → Exchange} (done : w.destroy c quits = some w') :
    ∃ owner cl, w.clients[c]? = some owner ∧ owner.destroyed = false ∧ w' = { w with
      clients := w.clients.set c { owner with client := cl, destroyed := true }
      sentinels := World.delete_sentinel owner.sentinel_ w.sentinels } := by
  simp only [World.destroy] at done
  cases at_c : w.clients[c]? with
  | none => simp [at_c] at done
  | some owner =>
    cases gone : owner.destroyed with
    | true => simp [at_c, gone] at done
    | false =>
      cases deleted : owner.client.delete_pool quits with
      | error fault => simp [at_c, gone, deleted] at done
      | ok cl =>
        simp only [at_c, gone, deleted, Bool.false_eq_true, ↓reduceIte, Option.some.injEq] at done
        exact ⟨owner, cl, rfl, gone, done.symm⟩

/-- The Sentinel that a Client's `sentinel_` points to was given that Client. -/
def Linked (w : World) : Prop :=
  ∀ (c : ClientId) (owner : Owner) (s : SentinelId), w.clients[c]? = some owner → owner.sentinel_ = some s →
    ∃ watch : Watch, w.sentinels[s]? = some watch ∧ watch.client_ = c

/-- What a Sentinel is to the timers. -/
private def mark (watch : Watch) : ClientId × Nat := (watch.client_, watch.sentinel.timers)

private theorem armed_marked {watch watch' : Watch} (same : mark watch' = mark watch) :
    watch'.client_ = watch.client_ ∧ (watch'.Armed ↔ watch.Armed) := by
  simp only [mark, Prod.mk.injEq] at same
  exact ⟨same.1, by rw [Watch.Armed, same.2, Watch.Armed]⟩

private theorem monitors_marked {w w' : World} (same : w'.sentinels.map mark = w.sentinels.map mark) (c : ClientId) :
    w'.monitors c = w.monitors c := by
  have counted : ∀ w : World, w.monitors c = (w.sentinels.map mark).countP fun m => m.1 = c ∧ 0 < m.2 := by
    intro w
    rw [List.countP_map]
    rfl
  rw [counted, counted, same]

/-- Deleting a Sentinel changes the mark of none, and only its own flag. -/
private theorem delete_sentinel_at (sentinel_ : Option SentinelId) (sentinels : List Watch) (i : SentinelId) :
    ((World.delete_sentinel sentinel_ sentinels)[i]?).map mark = (sentinels[i]?).map mark ∧
      (sentinel_ ≠ some i → (World.delete_sentinel sentinel_ sentinels)[i]? = sentinels[i]?) := by
  cases sentinel_ with
  | none => exact ⟨rfl, fun _ => rfl⟩
  | some s =>
    simp only [World.delete_sentinel, List.getElem?_modify]
    constructor
    · cases sentinels[i]? with
      | none => rfl
      | some watch =>
        by_cases here : s = i
        · simp [here, mark]
        · simp [here]
    · intro other
      have apart : s ≠ i := fun here => other (by rw [here])
      simp [apart]

private theorem delete_sentinel_marks (sentinel_ : Option SentinelId) (sentinels : List Watch) :
    (World.delete_sentinel sentinel_ sentinels).map mark = sentinels.map mark := by
  apply List.ext_getElem?
  intro i
  rw [List.getElem?_map, List.getElem?_map, (delete_sentinel_at sentinel_ sentinels i).1]

private theorem linked_clients {w : World} (linked : Linked w) {c : ClientId} {owner owner' : Owner}
    (at_c : w.clients[c]? = some owner) (same : owner'.sentinel_ = owner.sentinel_) {sentinels : List Watch}
    (marks : ∀ i : Nat, (sentinels[i]?).map mark = (w.sentinels[i]?).map mark) {fired : List Firing} :
    Linked ⟨w.clients.set c owner', sentinels, fired⟩ := by
  intro d other s at_d is
  have before : ∃ watch, w.sentinels[s]? = some watch ∧ watch.client_ = d := by
    by_cases here : d = c
    · subst here
      rw [List.getElem?_set_self (List.getElem?_eq_some_iff.mp at_c).1, Option.some.injEq] at at_d
      subst at_d
      exact linked d owner s at_c (same ▸ is)
    · rw [List.getElem?_set_ne fun e => here e.symm] at at_d
      exact linked d other s at_d is
  obtain ⟨watch, at_s, is_d⟩ := before
  have marked := marks s
  rw [at_s, Option.map_some, Option.map_eq_some_iff] at marked
  obtain ⟨watch', at_s', same⟩ := marked
  exact ⟨watch', at_s', (armed_marked same).1.trans is_d⟩

private theorem set_marks {sentinels : List Watch} {s : SentinelId} {watch watch' : Watch}
    (at_s : sentinels[s]? = some watch) (same : mark watch' = mark watch) (i : SentinelId) :
    ((sentinels.set s watch')[i]?).map mark = (sentinels[i]?).map mark := by
  by_cases here : i = s
  · subst here
    rw [List.getElem?_set_self (List.getElem?_eq_some_iff.mp at_s).1, at_s, Option.map_some, Option.map_some, same]
  · rw [List.getElem?_set_ne fun e => here e.symm]

theorem step_linked {w w' : World} {act : Act} (linked : Linked w) (taken : step w act = some w') : Linked w' := by
  cases act with
  | create =>
    obtain rfl := Option.some.inj taken
    intro c owner s at_c is
    rw [List.getElem?_append] at at_c
    split at at_c
    · exact linked c owner s at_c is
    · have fresh : owner = {} := List.mem_singleton.mp (List.mem_of_getElem? at_c)
      rw [fresh] at is
      cases is
  | connect c sentinel_urls master_name db t =>
    obtain ⟨owner, se, cl, at_c, _, _, is⟩ := connect_cases taken
    subst is
    intro d other s at_d is
    by_cases here : d = c
    · subst here
      simp only [List.getElem?_set_self (List.getElem?_eq_some_iff.mp at_c).1, Option.some.injEq] at at_d
      subst at_d
      obtain rfl : w.sentinels.length = s := Option.some.inj is
      exact ⟨⟨se, d, false⟩, by simp, rfl⟩
    · simp only [List.getElem?_set_ne fun e => here (Eq.symm e)] at at_d
      obtain ⟨watch, at_s, is_d⟩ := linked d other s at_d is
      exact ⟨watch, by rw [List.getElem?_append_left (List.getElem?_eq_some_iff.mp at_s).1, at_s], is_d⟩
  | fire s t =>
    obtain ⟨watch, at_s, armed, ⟨_, rfl⟩ | ⟨owner, cl, se, at_c, timers, rfl⟩⟩ := fire_cases taken
    · exact linked
    · refine linked_clients linked at_c ?_ (set_marks at_s ?_)
      · rfl
      · simp [mark, timers]
  | destroy c quits =>
    obtain ⟨owner, cl, at_c, _, rfl⟩ := destroy_cases taken
    refine linked_clients linked at_c ?_ fun i => (delete_sentinel_at owner.sentinel_ w.sentinels i).1
    rfl

/-- A connect keeps soundness exactly if it starts no second timer. -/
private theorem connect_sound {w : World} {c : ClientId} {owner owner' : Owner} {se : Sentinel} (sound : Sound w)
    (at_c : w.clients[c]? = some owner) (live : owner.destroyed = false) (same : owner'.destroyed = owner.destroyed) :
    Sound ⟨w.clients.set c owner', w.sentinels ++ [⟨se, c, false⟩], w.fired⟩ ↔ (0 < se.timers → Unmonitored w c) := by
  have flags := destroyed_set ⟨w.clients.set c owner', w.sentinels ++ [⟨se, c, false⟩], w.fired⟩ at_c rfl same
  have monitors : ∀ d, World.monitors ⟨w.clients.set c owner', w.sentinels ++ [⟨se, c, false⟩], w.fired⟩ d =
      w.monitors d + if c = d ∧ 0 < se.timers then 1 else 0 := by
    intro d
    by_cases started : c = d ∧ 0 < se.timers
    · simp [World.monitors, Watch.Armed, List.countP_append, started]
    · simp [World.monitors, Watch.Armed, List.countP_append, started]
  constructor
  · intro after started
    have one := after.one c
    rw [monitors, if_pos ⟨rfl, started⟩] at one
    exact (monitors_zero w c).mp (by omega)
  · intro spaced
    refine ⟨sound.ran, ?_, ?_⟩
    · intro watch member armed
      rw [flags]
      rcases List.mem_append.mp member with old | new
      · exact sound.armed watch old armed
      · obtain rfl := List.mem_singleton.mp new
        exact ⟨rfl, (destroyed_eq at_c).trans live⟩
    · intro d
      rw [monitors]
      split
      · rename_i here
        obtain ⟨rfl, started⟩ := here
        rw [(monitors_zero w c).mpr (spaced started)]
      · exact sound.one d

/-- A run of the timer that finds its objects keeps soundness. -/
private theorem fire_sound {w : World} {s : SentinelId} {watch watch' : Watch} {owner owner' : Owner} (sound : Sound w)
    (at_s : w.sentinels[s]? = some watch) (marked : mark watch' = mark watch) (deleted : watch'.deleted = watch.deleted)
    (at_c : w.clients[watch.client_]? = some owner) (same : owner'.destroyed = owner.destroyed) :
    Sound ⟨w.clients.set watch.client_ owner', w.sentinels.set s watch', w.fired ++ [⟨s, false, false⟩]⟩ := by
  have flags := destroyed_set
    ⟨w.clients.set watch.client_ owner', w.sentinels.set s watch', w.fired ++ [⟨s, false, false⟩]⟩ at_c rfl same
  constructor
  · intro f member
    rcases List.mem_append.mp member with old | new
    · exact sound.ran f old
    · obtain rfl := List.mem_singleton.mp new
      exact ⟨rfl, rfl⟩
  · intro other member armed
    rw [flags]
    rcases List.mem_or_eq_of_mem_set member with old | rfl
    · exact sound.armed other old armed
    · have before := sound.armed watch (List.mem_of_getElem? at_s) ((armed_marked marked).2.mp armed)
      rw [deleted, (armed_marked marked).1]
      exact before
  · intro d
    rw [monitors_marked (w := w)]
    · exact sound.one d
    · apply List.ext_getElem?
      intro i
      rw [List.getElem?_map, List.getElem?_map, set_marks at_s marked]

/-- A destruction keeps soundness exactly if the Client has no monitor. -/
private theorem destroy_sound {w : World} {c : ClientId} {owner owner' : Owner} (sound : Sound w) (linked : Linked w)
    (at_c : w.clients[c]? = some owner) (gone : owner'.destroyed = true) :
    Sound ⟨w.clients.set c owner', World.delete_sentinel owner.sentinel_ w.sentinels, w.fired⟩ ↔ Unmonitored w c := by
  have inside := (List.getElem?_eq_some_iff.mp at_c).1
  have marks := delete_sentinel_marks owner.sentinel_ w.sentinels
  have ended : World.destroyed ⟨w.clients.set c owner', World.delete_sentinel owner.sentinel_ w.sentinels, w.fired⟩ c =
      true := by
    rw [destroyed_eq (List.getElem?_set_self inside), gone]
  constructor
  · intro after watch member is_c armed
    obtain ⟨i, at_i⟩ := List.getElem?_of_mem member
    have marked := (delete_sentinel_at owner.sentinel_ w.sentinels i).1
    rw [at_i, Option.map_some, Option.map_eq_some_iff] at marked
    obtain ⟨watch', at_i', same⟩ := marked
    have found := (after.armed watch' (List.mem_of_getElem? at_i') ((armed_marked same).2.mpr armed)).2
    rw [(armed_marked same).1, is_c, ended] at found
    cases found
  · intro none
    refine ⟨sound.ran, ?_, ?_⟩
    · intro watch' member armed
      obtain ⟨i, at_i'⟩ := List.getElem?_of_mem member
      have marked := (delete_sentinel_at owner.sentinel_ w.sentinels i).1
      rw [at_i', Option.map_some, eq_comm, Option.map_eq_some_iff] at marked
      obtain ⟨watch, at_i, same⟩ := marked
      have armed' := (armed_marked same.symm).2.mp armed
      have other : watch.client_ ≠ c := fun here => none watch (List.mem_of_getElem? at_i) here armed'
      -- the Sentinel that is deleted was given this Client
      have kept : owner.sentinel_ ≠ some i := by
        intro points
        obtain ⟨mine, at_mine, is_c⟩ := linked c owner i at_c points
        rw [at_i, Option.some.injEq] at at_mine
        exact other (at_mine ▸ is_c)
      have unchanged := (delete_sentinel_at owner.sentinel_ w.sentinels i).2 kept
      obtain rfl : watch' = watch := Option.some.inj (at_i'.symm.trans (unchanged.trans at_i))
      obtain ⟨deleted, flag⟩ := sound.armed watch' (List.mem_of_getElem? at_i) armed'
      refine ⟨deleted, ?_⟩
      simp only [World.destroyed, List.getElem?_set_ne fun e => other (Eq.symm e)]
      exact flag
    · intro d
      rw [monitors_marked (w := w) marks]
      exact sound.one d

/-- A run is sound exactly if a Client is destroyed, or connected once more with a
    timer, only while no timer is armed for it. -/
theorem sound_iff (acts : List Act) : Along step Sound {} acts ↔ Meets step Orderly {} acts := by
  refine along_iff_each Linked (fun _ _ _ linked taken => step_linked linked taken) ?_
    (fun _ _ _ at_c => by simp at at_c) ⟨by simp, by simp, fun _ => Nat.zero_le 1⟩ acts
  intro w act w' linked sound taken
  cases act with
  | create =>
    obtain rfl := Option.some.inj taken
    refine iff_of_true ⟨sound.ran, ?_, sound.one⟩ trivial
    intro watch member armed
    obtain ⟨deleted, flag⟩ := sound.armed watch member armed
    exact ⟨deleted, (destroyed_create w watch.client_).trans flag⟩
  | connect c sentinel_urls master_name db t =>
    obtain ⟨owner, se, cl, at_c, live, starts, is⟩ := connect_cases taken
    subst is
    have orderly : Orderly w (.connect c sentinel_urls master_name db t) ↔ (0 < se.timers → Unmonitored w c) := by
      simp [Orderly, at_c, starts]
    rw [orderly]
    refine connect_sound sound at_c live ?_
    rfl
  | fire s t =>
    obtain ⟨watch, at_s, armed, ⟨bad, _⟩ | ⟨owner, cl, se, at_c, timers, rfl⟩⟩ := fire_cases taken
    · obtain ⟨deleted, flag⟩ := sound.armed watch (List.mem_of_getElem? at_s) armed
      rw [deleted, flag] at bad
      simp at bad
    · refine iff_of_true (fire_sound sound at_s ?_ ?_ at_c ?_) trivial
      · simp [mark, timers]
      · rfl
      · rfl
  | destroy c quits =>
    obtain ⟨owner, cl, at_c, _, rfl⟩ := destroy_cases taken
    exact destroy_sound sound linked at_c rfl

/-- A connect through the sentinel that names a master. -/
def connects (ip : String) : Act := .connect 0 [lit "redis://s:26379"] (lit "m") 0 (naming ip)

/-- The timer runs after its Client was destroyed; and a Client that connects twice
    has two monitors. -/
theorem timer_outlives_client :
    (∃ w, run step {} [.create, connects "10.0.0.1", .destroy 0 (fun _ => fine), .fire 0 (naming "10.0.0.1")] = some w ∧
      w.fired = [⟨0, true, true⟩] ∧ ¬ Sound w) ∧
    (∃ w, run step {} [.create, connects "10.0.0.1", connects "10.0.0.2"] = some w ∧
      w.monitors 0 = 2 ∧ ¬ Sound w) := by
  refine ⟨⟨_, rfl, rfl, ?_⟩, ⟨_, rfl, rfl, ?_⟩⟩
  · intro sound
    have found := sound.ran ⟨0, true, true⟩ (List.mem_singleton_self _)
    cases found.1
  · intro sound
    have two : 2 ≤ 1 := sound.one 0
    omega

end CppRedis.Timers

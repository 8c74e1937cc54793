import CppRedis.Runs
import CppRedis.Urls

/-!
Discovery of the master: which URLs a call of `discover_master` contacts, in which
order, and what it leaves of the list. `discover_tracing` is its loop with the URLs
it has contacted, and `discover_course` lists the courses that it can take. Every
run of calls keeps the URLs (`urls_kept`), and the first sentinel that names an
address is heard unless an attempt before it does not return
(`first_named_found_iff`).
-/
namespace CppRedis.Discovery
open CppRedis.Strings CppRedis.Reply CppRedis.Uri CppRedis.Connection CppRedis.Clients CppRedis.Sentinels CppRedis.Runs

/-- The loop of `discover_master`, with the URLs on which `connect` is called. -/
def discover_tracing (master_name : Str) (probes : Nat → Probe) : List Str → List Str → Nat → Str →
    (Except Fault Bool × (Str × Int) × Str × List Str) × List Str
  | tried, [], _, url => ((.ok false, ([], 0), url, tried), [])
  | tried, it :: rest, i, _ =>
    match probe master_name it (probes i) with
    | .error fault => ((.error fault, ([], 0), it, tried ++ it :: rest), [it])
    | .ok (some addr) => ((.ok true, addr, it, it :: (tried ++ rest)), [it])
    | .ok none =>
      match discover_tracing master_name probes (tried ++ [it]) rest (i + 1) it with
      | (out, contacts) => (out, it :: contacts)

theorem discover_tracing_fst (master_name : Str) (probes : Nat → Probe) (tried urls : List Str) (i : Nat) (url : Str) :
    (discover_tracing master_name probes tried urls i url).1 = discover_from master_name probes tried urls i url := by
  induction urls generalizing tried i url with
  | nil => rfl
  | cons it rest ih =>
    unfold discover_tracing discover_from
    cases probe master_name it (probes i) with
    | error fault => rfl
    | ok found =>
      cases found with
      | some addr => rfl
      | none => exact ih (tried ++ [it]) (i + 1) it

/-- The attempts at these URLs return without an address. -/
def Passed (master_name : Str) (probes : Nat → Probe) (urls : List Str) : Prop :=
  ∀ (j : Nat) url, urls[j]? = some url → probe master_name url (probes j) = .ok none

/-- The courses of the loop: it stops at the first URL that yields an address, it comes
    to the end, or an attempt does not return. -/
inductive Course (master_name : Str) (probes : Nat → Probe) (tried : List Str) (url : Str) :
    List Str → (Except Fault Bool × (Str × Int) × Str × List Str) × List Str → Prop
  | found {front back : List Str} {it : Str} {addr : Str × Int} (passed : Passed master_name probes front)
      (answered : probe master_name it (probes front.length) = .ok (some addr)) :
      Course master_name probes tried url (front ++ it :: back)
        ((.ok true, addr, it, it :: (tried ++ front ++ back)), front ++ [it])
  | dark {urls : List Str} (passed : Passed master_name probes urls) :
      Course master_name probes tried url urls ((.ok false, ([], 0), urls.getLastD url, tried ++ urls), urls)
  | faulted {front back : List Str} {it : Str} {fault : Fault} (passed : Passed master_name probes front)
      (failed : probe master_name it (probes front.length) = .error fault) :
      Course master_name probes tried url (front ++ it :: back)
        ((.error fault, ([], 0), it, tried ++ (front ++ it :: back)), front ++ [it])

private theorem passed_cons {master_name : Str} {probes : Nat → Probe} {it : Str} {rest : List Str}
    (here : probe master_name it (probes 0) = .ok none) (later : Passed master_name (fun j => probes (j + 1)) rest) :
    Passed master_name probes (it :: rest) := by
  intro j url at_j
  cases j with
  | zero =>
    obtain rfl : it = url := by simpa using at_j
    exact here
  | succ j => exact later j url (by simpa using at_j)

/-- A round that passes on comes before the course of the rounds after it. -/
private theorem Course.later {master_name : Str} {probes : Nat → Probe} {tried : List Str} {it url : Str}
    (here : probe master_name it (probes 0) = .ok none) {rest : List Str}
    {out : Except Fault Bool × (Str × Int) × Str × List Str} {contacts : List Str}
    (course : Course master_name (fun j => probes (j + 1)) (tried ++ [it]) it rest (out, contacts)) :
    Course master_name probes tried url (it :: rest) (out, it :: contacts) := by
  cases course with
  | @found front back last addr passed answered =>
    have moved := @Course.found _ _ tried url _ back _ _ (passed_cons here passed) answered
    simpa using moved
  | dark passed =>
    have moved := @Course.dark _ _ tried url _ (passed_cons here passed)
    rw [List.getLastD_cons] at moved
    simpa using moved
  | @faulted front back last fault passed failed =>
    have moved := @Course.faulted _ _ tried url _ back _ _ (passed_cons here passed) failed
    simpa using moved

theorem discover_course (master_name : Str) (probes : Nat → Probe) (tried urls : List Str) (i : Nat) (url : Str) :
    Course master_name (fun j => probes (j + i)) tried url urls (discover_tracing master_name probes tried urls i url) := by
  induction urls generalizing tried i url with
  | nil =>
    have none_left : Passed master_name (fun j => probes (j + i)) [] := fun j u at_j => by simp at at_j
    simpa [discover_tracing] using @Course.dark _ _ tried url _ none_left
  | cons it rest ih =>
    have none_before : Passed master_name (fun j => probes (j + i)) [] := fun j u at_j => by simp at at_j
    have here : probes (0 + i) = probes i := by rw [Nat.zero_add]
    cases tried_it : probe master_name it (probes i) with
    | error fault =>
      have stopped := @Course.faulted _ _ tried url _ rest it _ none_before (here.symm ▸ tried_it)
      simpa [discover_tracing, tried_it] using stopped
    | ok result =>
      cases result with
      | some addr =>
        have stopped := @Course.found _ _ tried url _ rest it _ none_before (here.symm ▸ tried_it)
        simpa [discover_tracing, tried_it] using stopped
      | none =>
        have shift : (fun j => probes (j + (i + 1))) = fun j => probes (j + 1 + i) := by
          funext j
          rw [Nat.add_assoc, Nat.add_comm 1 i]
        have later := ih (tried ++ [it]) (i + 1) it
        rw [shift] at later
        simp only [discover_tracing, tried_it]
        exact Course.later (here.symm ▸ tried_it) later

/-! ### A call of `discover_master` -/

/-- The URLs that a call contacts. -/
def contacts (probes : Nat → Probe) (se : Sentinel) : List Str :=
  (discover_tracing se.master_name_ probes [] se.urls_ 0 []).2

theorem discover_master_course (probes : Nat → Probe) (se : Sentinel) :
    ∃ out, Course se.master_name_ probes [] [] se.urls_ (out, contacts probes se) ∧
      se.discover_master probes = (out.1, out.2.1, out.2.2.1, { se with urls_ := out.2.2.2 }) := by
  refine ⟨discover_from se.master_name_ probes [] se.urls_ 0 [], ?_, rfl⟩
  rw [← discover_tracing_fst]
  exact discover_course se.master_name_ probes [] se.urls_ 0 []

/-- The sentinel at the URL replies with an address. -/
def Names (url : Str) (pr : Probe) (addr : Str × Int) : Prop :=
  Reached url pr ∧ ∃ element switched ip port rest, pr.answer = .reply (.array element) switched ∧
    stringsOf element = ip :: port :: rest ∧ addr = (ip, atoi port)

theorem answers_iff_names (url : Str) (pr : Probe) (addr : Str × Int) :
    Answers url pr addr ↔ Names url pr addr ∧ pr.quit.Quits := by
  constructor
  · rintro ⟨reached, quits, named⟩
    exact ⟨⟨reached, named⟩, quits⟩
  · rintro ⟨⟨reached, named⟩, quits⟩
    exact ⟨reached, quits, named⟩

/-- A sentinel that refuses QUIT ends the call, whatever it has replied before. -/
private theorem names_faulty {url : Str} {pr : Probe} {addr : Str × Int} (names : Names url pr addr)
    (refuses : ¬ pr.quit.Quits) : Faulty url pr := by
  obtain ⟨reached, element, switched, _, _, _, answer, _⟩ := names
  exact .inr ⟨reached, .inr (.inr (.inr ⟨⟨_, switched, answer⟩, refuses⟩))⟩

/-- The loop does not pass on from a sentinel that replies with an address. -/
theorem names_stops {master_name url : Str} {pr : Probe} {addr : Str × Int} (names : Names url pr addr) :
    probe master_name url pr ≠ .ok none := by
  intro passed
  by_cases quits : pr.quit.Quits
  · have answered := (probe_answers master_name url pr addr).mpr ((answers_iff_names _ _ _).mpr ⟨names, quits⟩)
    rw [answered] at passed
    cases passed
  · obtain ⟨fault, failed⟩ := (probe_faults master_name url pr).mpr (names_faulty names quits)
    rw [failed] at passed
    cases passed

theorem names_unique {url : Str} {pr : Probe} {addr addr' : Str × Int} (one : Names url pr addr)
    (other : Names url pr addr') : addr = addr' := by
  obtain ⟨_, element, _, ip, port, rest, answer, strings, rfl⟩ := one
  obtain ⟨_, element', _, ip', port', rest', answer', strings', rfl⟩ := other
  rw [answer] at answer'
  cases answer'
  rw [strings] at strings'
  cases strings'
  rfl

private theorem passed_unnamed {master_name : Str} {probes : Nat → Probe} {front : List Str}
    (passed : Passed master_name probes front) {j : Nat} {url : Str} {addr : Str × Int} (at_j : front[j]? = some url) :
    ¬ Names url (probes j) addr := fun names => names_stops names (passed j url at_j)

/-- A URL that replies with an address stands no earlier than the last one contacted. -/
private theorem named_after {master_name : Str} {probes : Nat → Probe} {front back : List Str} {it : Str}
    (passed : Passed master_name probes front) {j : Nat} {url : Str} {addr : Str × Int}
    (at_j : (front ++ it :: back)[j]? = some url) (names : Names url (probes j) addr) : front.length ≤ j := by
  by_contra before
  rw [List.getElem?_append_left (by omega)] at at_j
  exact passed_unnamed passed at_j names

private theorem named_behind {master_name : Str} {probes : Nat → Probe} {front back : List Str} {it : Str}
    (passed : Passed master_name probes front) {j : Nat} {url : Str} {addr : Str × Int}
    (at_j : (front ++ it :: back)[j]? = some url) (names : Names url (probes j) addr) : (front ++ [it]).length ≤ j + 1 := by
  have after := named_after passed at_j names
  simp only [List.length_append, List.length_singleton]
  omega

/-- What a call does: the URLs are contacted from the first one on, none of them twice,
    and none after one that replies with an address; success moves the one that has
    replied to the front, and nothing else changes the list. -/
structure Orderly (se : Sentinel) (probes : Nat → Probe) (contacted : List Str)
    (out : Except Fault Bool × (Str × Int) × Str × Sentinel) : Prop where
  in_order : contacted <+: se.urls_
  stops : ∀ (j : Nat) url addr, se.urls_[j]? = some url → Names url (probes j) addr → contacted.length ≤ j + 1
  success : out.1 = .ok true → ∃ front back, se.urls_ = front ++ out.2.2.1 :: back ∧
    contacted = front ++ [out.2.2.1] ∧ Names out.2.2.1 (probes front.length) out.2.1 ∧
    out.2.2.2.urls_ = out.2.2.1 :: (front ++ back)
  exhausted : out.1 = .ok false → contacted = se.urls_
  unchanged : out.1 ≠ .ok true → out.1 ≠ .error .terminated → out.2.2.2.urls_ = se.urls_

theorem call_orderly (probes : Nat → Probe) (se : Sentinel) :
    Orderly se probes (contacts probes se) (se.discover_master probes) := by
  obtain ⟨out, course, is⟩ := discover_master_course probes se
  rw [is]
  generalize contacts probes se = contacted at course
  generalize urls_is : se.urls_ = urls at course
  cases course with
  | @found front back it addr passed answered =>
    have names := ((answers_iff_names _ _ _).mp ((probe_answers _ _ _ _).mp answered)).1
    refine ⟨?_, ?_, fun _ => ⟨front, back, urls_is, rfl, names, rfl⟩, ?_, fun no => absurd rfl no⟩
    · rw [urls_is]
      simp
    · intro j url addr at_j named
      rw [urls_is] at at_j
      exact named_behind passed at_j named
    · intro no
      cases no
  | dark passed =>
    refine ⟨urls_is ▸ List.prefix_rfl, ?_, ?_, fun _ => urls_is.symm, fun _ _ => urls_is.symm⟩
    · intro j url addr at_j named
      rw [urls_is] at at_j
      exact absurd named (passed_unnamed passed at_j)
    · intro no
      cases no
  | @faulted front back it fault passed failed =>
    refine ⟨?_, ?_, ?_, ?_, fun _ _ => urls_is.symm⟩
    · rw [urls_is]
      simp
    · intro j url addr at_j named
      rw [urls_is] at at_j
      exact named_behind passed at_j named
    · intro no
      cases no
    · intro no
      cases no

/-- A call of `discover_master`, unless it ends the program. -/
def step (se : Sentinel) (probes : Nat → Probe) : Option Sentinel :=
  match se.discover_master probes with
  | (.error .terminated, _, _, _) => none
  | (_, _, _, se) => some se

private theorem step_perm {se se' : Sentinel} {probes : Nat → Probe} (taken : step se probes = some se') :
    se'.urls_.Perm se.urls_ := by
  obtain ⟨out, course, is⟩ := discover_master_course probes se
  unfold step at taken
  rw [is] at taken
  generalize contacts probes se = contacted at course
  generalize urls_is : se.urls_ = urls at course
  cases course with
  | found passed answered =>
    cases taken
    exact List.perm_middle.symm
  | dark passed =>
    cases taken
    exact List.Perm.refl _
  | @faulted front back it fault passed failed =>
    cases fault with
    | terminated => cases taken
    | thrown e =>
      cases taken
      exact List.Perm.refl _
    | undefined =>
      cases taken
      exact List.Perm.refl _

/-- In every state of every run of calls the URLs are those of the beginning, and the
    next call is orderly. -/
theorem urls_kept (se : Sentinel) (calls : List (Nat → Probe)) :
    Along step (fun se' => se'.urls_.Perm se.urls_ ∧
      ∀ probes, Orderly se' probes (contacts probes se') (se'.discover_master probes)) se calls := by
  refine along_invariant (fun se' => se'.urls_.Perm se.urls_) ?_ ?_ (List.Perm.refl _) calls
  · intro mid probes se' kept taken
    exact (step_perm taken).trans kept
  · intro se' kept
    exact ⟨kept, fun probes => call_orderly probes se'⟩

/-! ### Whether the first sentinel that can answer is heard -/

/-- The first URL whose sentinel replies with an address. -/
structure FirstNamed (urls : List Str) (probes : Nat → Probe) (i : Nat) (url : Str) (addr : Str × Int) : Prop where
  at_i : urls[i]? = some url
  names : Names url (probes i) addr
  before : ∀ (j : Nat) url', j < i → urls[j]? = some url' → ∀ addr', ¬ Names url' (probes j) addr'

/-- No attempt at a URL up to this one fails to return. -/
def Uninterrupted (urls : List Str) (probes : Nat → Probe) (i : Nat) : Prop :=
  ∀ (j : Nat) url, j ≤ i → urls[j]? = some url → ¬ Faulty url (probes j)

theorem first_named_found_iff (se : Sentinel) (probes : Nat → Probe) (i : Nat) (url : Str) (addr : Str × Int)
    (first : FirstNamed se.urls_ probes i url addr) :
    ((se.discover_master probes).1 = .ok true ∧ (se.discover_master probes).2.1 = addr) ↔
      Uninterrupted se.urls_ probes i := by
  obtain ⟨at_i, names, before⟩ := first
  obtain ⟨out, course, is⟩ := discover_master_course probes se
  rw [is]
  generalize contacts probes se = contacted at course
  generalize se.urls_ = urls at course at_i before ⊢
  cases course with
  | @found front back it addr' passed answered =>
    have answers := (probe_answers _ _ _ _).mp answered
    have after := named_after passed at_i names
    have at_it : (front ++ it :: back)[front.length]? = some it := by simp
    obtain rfl : i = front.length := by
      rcases Nat.lt_or_ge front.length i with earlier | later
      · exact absurd ((answers_iff_names _ _ _).mp answers).1 (before _ it earlier at_it addr')
      · omega
    obtain rfl : it = url := Option.some.inj (at_it.symm.trans at_i)
    obtain rfl : addr' = addr := names_unique ((answers_iff_names _ _ _).mp answers).1 names
    refine ⟨?_, fun _ => ⟨rfl, rfl⟩⟩
    intro _ j url le at_j faulty
    obtain ⟨fault, failed⟩ := (probe_faults se.master_name_ _ _).mpr faulty
    rcases Nat.lt_or_ge j front.length with earlier | later
    · rw [List.getElem?_append_left earlier] at at_j
      rw [passed j url at_j] at failed
      cases failed
    · obtain rfl : j = front.length := by omega
      obtain rfl : it = url := Option.some.inj (at_it.symm.trans at_j)
      rw [answered] at failed
      cases failed
  | dark passed => exact absurd names (passed_unnamed passed at_i)
  | @faulted front back it fault passed failed =>
    have after := named_after passed at_i names
    constructor
    · rintro ⟨no, _⟩
      cases no
    · intro uninterrupted
      have faulty := (probe_faults se.master_name_ it (probes front.length)).mp ⟨fault, failed⟩
      exact absurd faulty (uninterrupted front.length it after (by simp))

def twoSentinels : Sentinel :=
  { urls_ := [lit "redis://s:26379", lit "redis://t:26379"], master_name_ := lit "mymaster", db_ := 0 }

/-- The second sentinel names the master. -/
def secondAnswers (first : Probe) : Nat → Probe
  | 0 => first
  | _ => ⟨true, .reply (.array [.string (lit "m"), .string (lit "6379")]) false, .reply (.status (lit "OK")) false⟩

private theorem second_first {first : Probe} (silent : ∀ addr, ¬ Names (lit "redis://s:26379") first addr) :
    FirstNamed twoSentinels.urls_ (secondAnswers first) 1 (lit "redis://t:26379") (lit "m", 6379) := by
  have parses : parsed (lit "redis://t:26379") = .ok (some ⟨[], lit "t", 26379, 0⟩) := by decide
  have number : atoi (lit "6379") = 6379 := by decide
  refine ⟨rfl, ⟨⟨⟨_, parses⟩, rfl⟩, _, false, lit "m", lit "6379", [], rfl, rfl, by rw [number]⟩, ?_⟩
  intro j url lt at_j
  obtain rfl : j = 0 := by omega
  obtain rfl : lit "redis://s:26379" = url := Option.some.inj at_j
  exact silent

private theorem not_faulty {url : Str} {pr : Probe} (returns : (probe [] url pr).toOption.isSome = true) : ¬ Faulty url pr := by
  intro faulty
  obtain ⟨fault, failed⟩ := (probe_faults [] url pr).mpr faulty
  rw [failed] at returns
  cases returns

/-- The first sentinel refuses the connection. -/
theorem first_named_found_iff_refused :
    (twoSentinels.discover_master (secondAnswers ⟨false, .noReply [], .noReply []⟩)).1 = .ok true ∧
      (twoSentinels.discover_master (secondAnswers ⟨false, .noReply [], .noReply []⟩)).2.1 = (lit "m", 6379) := by
  have silent : ∀ addr, ¬ Names (lit "redis://s:26379") ⟨false, .noReply [], .noReply []⟩ addr :=
    fun addr names => absurd names.1.2 (by decide)
  have first := second_first silent
  refine (first_named_found_iff twoSentinels _ 1 _ _ first).mpr ?_
  intro j url le at_j
  cases j with
  | zero =>
    obtain rfl : lit "redis://s:26379" = url := Option.some.inj at_j
    exact not_faulty (by decide)
  | succ j =>
    obtain rfl : j = 0 := by omega
    obtain rfl : lit "redis://t:26379" = url := Option.some.inj at_j
    exact not_faulty (by decide)

/-- The first sentinel drops the connection before its reply. -/
theorem dropped_reply_ends_discovery :
    ¬ ∀ (se : Sentinel) (probes : Nat → Probe) (i : Nat) (url : Str) (addr : Str × Int),
      FirstNamed se.urls_ probes i url addr →
        (se.discover_master probes).1 = .ok true ∧ (se.discover_master probes).2.1 = addr := by
  intro found
  have silent : ∀ addr, ¬ Names (lit "redis://s:26379") ⟨true, .noReply (lit "Server closed the connection"), .noReply []⟩ addr := by
    rintro addr ⟨_, element, switched, _, _, _, answer, _⟩
    cases answer
  have fails : (twoSentinels.discover_master (secondAnswers ⟨true, .noReply (lit "Server closed the connection"), .noReply []⟩)).1.toOption =
      none := by decide
  rw [(found twoSentinels _ 1 _ _ (second_first silent)).1] at fails
  cases fails

end CppRedis.Discovery

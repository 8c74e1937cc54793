import Mathlib.Logic.Relation

/-!
Runs of a machine given by a partial step function: `run` takes a list of
actions, `Each` holds a relation at every step of a run, and `Along` holds a
property in every state that a run passes. What one step keeps, a run keeps
(`run_invariant`, `run_invariant_of`, `run_relation`), and a property that a step
keeps exactly under a condition holds along a run exactly if every step meets
the condition (`along_iff_each`, `each_iff_meets`). A simulation of each step by an abstract relation
simulates every run (`run_simulates`).
-/
namespace CppRedis.Runs
universe u v w

variable {State : Type u} {Action : Type v} (step : State → Action → Option State)

/-- The state after the actions in order, when each of them is enabled. -/
def run : State → List Action → Option State
  | s, [] => some s
  | s, a :: rest =>
    match step s a with
    | some s' => run s' rest
    | none => none

/-- The relation holds of source, action and target of every step of the run. -/
def Each (R : State → Action → State → Prop) : State → List Action → Prop
  | _, [] => True
  | s, a :: rest => ∀ s', step s a = some s' → R s a s' ∧ Each R s' rest

/-- Every step of the run meets a condition on its source and its action. -/
def Meets (cond : State → Action → Prop) : State → List Action → Prop :=
  Each step (fun s a _ => cond s a)

/-- The same also of a step that has no result. -/
def Before (cond : State → Action → Prop) : State → List Action → Prop
  | _, [] => True
  | s, a :: rest => cond s a ∧ ∀ s', step s a = some s' → Before cond s' rest

/-- The property holds in every state of the run, the first one included. -/
def Along (P : State → Prop) (s : State) (acts : List Action) : Prop :=
  P s ∧ Each step (fun _ _ s' => P s') s acts

variable {step}

instance Each.decidable {R : State → Action → State → Prop} [∀ s a s', Decidable (R s a s')] :
    (s : State) → (acts : List Action) → Decidable (Each step R s acts)
  | _, [] => .isTrue trivial
  | s, a :: rest =>
    match taken : step s a with
    | none => .isTrue fun _ is => nomatch taken.symm.trans is
    | some s' =>
      have : Decidable (Each step R s' rest) := Each.decidable s' rest
      decidable_of_iff (R s a s' ∧ Each step R s' rest)
        ⟨fun both _ is => Option.some.inj (taken.symm.trans is) ▸ both, fun all => all s' taken⟩

instance Meets.decidable {cond : State → Action → Prop} [∀ s a, Decidable (cond s a)] (s : State)
    (acts : List Action) : Decidable (Meets step cond s acts) := Each.decidable s acts

instance Before.decidable {cond : State → Action → Prop} [∀ s a, Decidable (cond s a)] :
    (s : State) → (acts : List Action) → Decidable (Before step cond s acts)
  | _, [] => .isTrue trivial
  | s, a :: rest =>
    match taken : step s a with
    | none => decidable_of_iff (cond s a) ⟨fun here => ⟨here, fun _ is => nomatch taken.symm.trans is⟩, And.left⟩
    | some s' =>
      have : Decidable (Before step cond s' rest) := Before.decidable s' rest
      decidable_of_iff (cond s a ∧ Before step cond s' rest)
        ⟨fun both => ⟨both.1, fun _ is => Option.some.inj (taken.symm.trans is) ▸ both.2⟩, fun all => ⟨all.1, all.2 s' taken⟩⟩

@[simp] theorem run_nil (s : State) : run step s [] = some s := rfl

theorem run_cons_some {s s' : State} {a : Action} {rest : List Action} :
    run step s (a :: rest) = some s' ↔ ∃ mid, step s a = some mid ∧ run step mid rest = some s' := by
  simp only [run]
  cases step s a with
  | none => simp
  | some mid => simp

theorem run_append_some {s s' : State} {before after : List Action} :
    run step s (before ++ after) = some s' ↔
      ∃ mid, run step s before = some mid ∧ run step mid after = some s' := by
  induction before generalizing s with
  | nil => simp
  | cons a rest ih =>
    simp only [List.cons_append, run_cons_some, ih]
    constructor
    · rintro ⟨first, taken, mid, left, right⟩
      exact ⟨mid, ⟨first, taken, left⟩, right⟩
    · rintro ⟨mid, ⟨first, taken, left⟩, right⟩
      exact ⟨first, taken, mid, left, right⟩

/-! ### What every step keeps -/

theorem run_invariant (Inv : State → Prop)
    (keeps : ∀ s a s', Inv s → step s a = some s' → Inv s')
    {s s' : State} {acts : List Action} (runs : run step s acts = some s') (holds : Inv s) : Inv s' := by
  induction acts generalizing s with
  | nil => cases runs; exact holds
  | cons a rest ih =>
    obtain ⟨mid, taken, later⟩ := run_cons_some.mp runs
    exact ih later (keeps s a mid holds taken)

/-- A reflexive and transitive relation that every step is in relates the ends
    of every run. -/
theorem run_relation {R : State → State → Prop} (refl : ∀ s, R s s)
    (trans : ∀ s t u, R s t → R t u → R s u) (keeps : ∀ s a s', step s a = some s' → R s s')
    {s s' : State} {acts : List Action} (runs : run step s acts = some s') : R s s' := by
  induction acts generalizing s with
  | nil => cases runs; exact refl _
  | cons a rest ih =>
    obtain ⟨mid, taken, later⟩ := run_cons_some.mp runs
    exact trans s mid s' (keeps s a mid taken) (ih later)

/-- What the steps that a run takes keep, the run keeps. -/
theorem run_invariant_of (Inv : State → Prop) {ok : Action → Prop}
    (keeps : ∀ s a s', Inv s → ok a → step s a = some s' → Inv s')
    {s s' : State} {acts : List Action} (runs : run step s acts = some s') (all : ∀ a ∈ acts, ok a)
    (holds : Inv s) : Inv s' := by
  induction acts generalizing s with
  | nil => cases runs; exact holds
  | cons a rest ih =>
    obtain ⟨mid, taken, later⟩ := run_cons_some.mp runs
    exact ih later (fun b member => all b (List.mem_cons_of_mem a member))
      (keeps s a mid holds (all a List.mem_cons_self) taken)

/-! ### Under a condition on each step -/

theorem Before.mono {cond cond' : State → Action → Prop} (weaker : ∀ s a, cond s a → cond' s a) {s : State} {acts : List Action}
    (before : Before step cond s acts) : Before step cond' s acts := by
  induction acts generalizing s with
  | nil => trivial
  | cons a rest ih => exact ⟨weaker s a before.1, fun s' taken => ih (before.2 s' taken)⟩

theorem Before.and_all {cond : State → Action → Prop} {ok : Action → Prop} {s : State} {acts : List Action}
    (before : Before step cond s acts) (all : ∀ a ∈ acts, ok a) : Before step (fun s a => cond s a ∧ ok a) s acts := by
  induction acts generalizing s with
  | nil => trivial
  | cons a rest ih =>
    refine ⟨⟨before.1, all a List.mem_cons_self⟩, ?_⟩
    exact fun s' taken => ih (before.2 s' taken) fun b member => all b (List.mem_cons_of_mem a member)

theorem run_invariant_before (Inv : State → Prop) {cond : State → Action → Prop}
    (keeps : ∀ s a s', Inv s → cond s a → step s a = some s' → Inv s')
    {s s' : State} {acts : List Action} (runs : run step s acts = some s') (before : Before step cond s acts)
    (holds : Inv s) : Inv s' := by
  induction acts generalizing s with
  | nil => cases runs; exact holds
  | cons a rest ih =>
    obtain ⟨mid, taken, later⟩ := run_cons_some.mp runs
    exact ih later (before.2 mid taken) (keeps s a mid holds before.1 taken)

/-- Where each step has a result, the run has one. -/
theorem run_goes (Inv : State → Prop) {cond : State → Action → Prop}
    (goes : ∀ s a, Inv s → cond s a → ∃ s', step s a = some s' ∧ Inv s')
    {s : State} {acts : List Action} (before : Before step cond s acts) (holds : Inv s) :
    ∃ s', run step s acts = some s' ∧ Inv s' := by
  induction acts generalizing s with
  | nil => exact ⟨s, rfl, holds⟩
  | cons a rest ih =>
    obtain ⟨mid, taken, next⟩ := goes s a holds before.1
    obtain ⟨s', later, last⟩ := ih (before.2 mid taken) next
    exact ⟨s', run_cons_some.mpr ⟨mid, taken, later⟩, last⟩

/-! ### Relations along a run -/

/-- A property that each step keeps exactly under a condition holds along a run
    exactly if all steps meet the condition. -/
theorem along_iff_each (Inv : State → Prop) {P : State → Prop} {cond : State → Action → Prop}
    (keeps : ∀ s a s', Inv s → step s a = some s' → Inv s')
    (exact_step : ∀ s a s', Inv s → P s → step s a = some s' → (P s' ↔ cond s a))
    {s : State} (holds : Inv s) (starts : P s) (acts : List Action) :
    Along step P s acts ↔ Meets step cond s acts := by
  induction acts generalizing s with
  | nil => exact ⟨fun _ => trivial, fun _ => ⟨starts, trivial⟩⟩
  | cons a rest ih =>
    constructor
    · rintro ⟨_, later⟩ s' taken
      obtain ⟨here, following⟩ := later s' taken
      have again := ih (keeps s a s' holds taken) here
      exact ⟨(exact_step s a s' holds starts taken).mp here, again.mp ⟨here, following⟩⟩
    · intro met
      refine ⟨starts, ?_⟩
      intro s' taken
      obtain ⟨here, following⟩ := met s' taken
      have good := (exact_step s a s' holds starts taken).mpr here
      exact ⟨good, ((ih (keeps s a s' holds taken) good).mpr following).2⟩

/-- A relation that each step is in exactly under a condition, which keeps the
    invariant, is one of every step of a run exactly if all steps meet the condition. -/
theorem each_iff_meets (Inv : State → Prop) {R : State → Action → State → Prop} {cond : State → Action → Prop}
    (keeps : ∀ s a s', Inv s → cond s a → step s a = some s' → Inv s')
    (exact_step : ∀ s a s', Inv s → step s a = some s' → (R s a s' ↔ cond s a))
    {s : State} (holds : Inv s) (acts : List Action) : Each step R s acts ↔ Meets step cond s acts := by
  induction acts generalizing s with
  | nil => exact Iff.rfl
  | cons a rest ih =>
    apply forall_congr'
    intro s'
    apply forall_congr'
    intro taken
    have here := exact_step s a s' holds taken
    constructor
    · rintro ⟨related, later⟩
      have good := here.mp related
      exact ⟨good, (ih (keeps s a s' holds good taken)).mp later⟩
    · rintro ⟨good, later⟩
      exact ⟨here.mpr good, (ih (keeps s a s' holds good taken)).mpr later⟩

theorem along_of_each (Inv : State → Prop) {P : State → Prop} {cond : State → Action → Prop}
    (keeps : ∀ s a s', Inv s → cond s a → step s a = some s' → Inv s') (gives : ∀ s, Inv s → P s)
    {s : State} (holds : Inv s) (acts : List Action) (met : Meets step cond s acts) : Along step P s acts := by
  induction acts generalizing s with
  | nil => exact ⟨gives s holds, trivial⟩
  | cons a rest ih =>
    refine ⟨gives s holds, ?_⟩
    intro s' taken
    obtain ⟨here, following⟩ := met s' taken
    have next := keeps s a s' holds here taken
    exact ⟨gives s' next, (ih next following).2⟩

theorem along_invariant (Inv : State → Prop) {P : State → Prop}
    (keeps : ∀ s a s', Inv s → step s a = some s' → Inv s') (gives : ∀ s, Inv s → P s)
    {s : State} (holds : Inv s) (acts : List Action) : Along step P s acts := by
  induction acts generalizing s with
  | nil => exact ⟨gives s holds, trivial⟩
  | cons a rest ih =>
    refine ⟨gives s holds, ?_⟩
    intro s' taken
    have next := keeps s a s' holds taken
    exact ⟨gives s' next, (ih next).2⟩

/-! ### Simulation -/

/-- If every step is matched by steps of an abstract relation, so is every run. -/
theorem run_simulates {Abstract : Type w} {Step : Abstract → Abstract → Prop} {Sim : State → Abstract → Prop}
    (simulates : ∀ s a s' A, Sim s A → step s a = some s' → ∃ A', Relation.ReflTransGen Step A A' ∧ Sim s' A')
    {s s' : State} {acts : List Action} (runs : run step s acts = some s') {A : Abstract} (related : Sim s A) :
    ∃ A', Relation.ReflTransGen Step A A' ∧ Sim s' A' := by
  induction acts generalizing s A with
  | nil => cases runs; exact ⟨A, .refl, related⟩
  | cons a rest ih =>
    obtain ⟨mid, taken, later⟩ := run_cons_some.mp runs
    obtain ⟨B, first, relatedB⟩ := simulates s a mid A related taken
    obtain ⟨C, second, relatedC⟩ := ih later relatedB
    exact ⟨C, first.trans second, relatedC⟩

end CppRedis.Runs

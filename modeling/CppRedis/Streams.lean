import Mathlib.Data.List.Basic

/-!
Machines that read a stream. A step takes symbols from the front of what is unread
and may put something out; it is `stable`: what comes later does not change it.
`settle` takes all steps that there are. However a stream comes in and its outputs are
taken, the outputs are those of the whole of it (`Ahead.feed`, `Ahead.next`).
-/
namespace CppRedis.Streams

/-- A step makes something smaller, and is the same when more comes in behind. -/
structure Transducer (σ α β : Type) where
  step : σ → List α → Option (σ × List α × Option β)
  size : σ → List α → Nat
  decreases : ∀ {s l s' l' b}, step s l = some (s', l', b) → size s' l' < size s l
  stable : ∀ {s l s' l' b} (more : List α), step s l = some (s', l', b) → step s (l ++ more) = some (s', l' ++ more, b)

/-- What was put out, and where the machine stands. -/
structure Settled (σ α β : Type) where
  outputs : List β
  state : σ
  unread : List α

/-- What was put out before comes first. -/
def Settled.after {σ α β : Type} (bs : List β) (r : Settled σ α β) : Settled σ α β := { r with outputs := bs ++ r.outputs }

namespace Transducer
variable {σ α β : Type} (m : Transducer σ α β)

/-- So many steps at most. -/
def settling : Nat → σ → List α → Settled σ α β
  | 0, s, l => ⟨[], s, l⟩
  | fuel + 1, s, l =>
    match m.step s l with
    | none => ⟨[], s, l⟩
    | some (s', l', b) => (settling fuel s' l').after b.toList

def settle (s : σ) (l : List α) : Settled σ α β := m.settling (m.size s l) s l

/-- Steps in a row, with what they put out. -/
inductive Steps : σ → List α → List β → σ → List α → Prop
  | refl (s : σ) (l : List α) : Steps s l [] s l
  | step {s s' s'' : σ} {l l' l'' : List α} {b : Option β} {bs : List β} (taken : m.step s l = some (s', l', b))
      (later : Steps s' l' bs s'' l'') : Steps s l (b.toList ++ bs) s'' l''

variable {m} {s s' s'' : σ} {l l' l'' : List α} {b : Option β} {bs bs' : List β}

theorem Steps.one (taken : m.step s l = some (s', l', b)) : m.Steps s l b.toList s' l' := by
  simpa using Steps.step taken (.refl s' l')

theorem Steps.trans (first : m.Steps s l bs s' l') (second : m.Steps s' l' bs' s'' l'') :
    m.Steps s l (bs ++ bs') s'' l'' := by
  induction first with
  | refl => exact second
  | step taken _ ih =>
    rw [List.append_assoc]
    exact .step taken (ih second)

theorem Steps.extend (steps : m.Steps s l bs s' l') (more : List α) : m.Steps s (l ++ more) bs s' (l' ++ more) := by
  induction steps with
  | refl => exact .refl _ _
  | step taken _ ih => exact .step (m.stable more taken) ih

private theorem settling_steps (fuel : Nat) (s : σ) (l : List α) :
    m.Steps s l (m.settling fuel s l).outputs (m.settling fuel s l).state (m.settling fuel s l).unread := by
  induction fuel generalizing s l with
  | zero => exact .refl s l
  | succ fuel ih =>
    cases taken : m.step s l with
    | none =>
      simp only [settling, taken]
      exact .refl s l
    | some r =>
      obtain ⟨s', l', b⟩ := r
      simp only [settling, taken, Settled.after]
      exact .step taken (ih s' l')

private theorem settling_stops {fuel : Nat} (enough : m.size s l ≤ fuel) :
    m.step (m.settling fuel s l).state (m.settling fuel s l).unread = none := by
  induction fuel generalizing s l with
  | zero =>
    cases taken : m.step s l with
    | none => exact taken
    | some r => exact absurd (m.decreases taken) (by omega)
  | succ fuel ih =>
    cases taken : m.step s l with
    | none => simp only [settling, taken]
    | some r =>
      obtain ⟨s', l', b⟩ := r
      have smaller := m.decreases taken
      simp only [settling, taken, Settled.after]
      exact ih (show m.size s' l' ≤ fuel by omega)

theorem settle_steps (s : σ) (l : List α) :
    m.Steps s l (m.settle s l).outputs (m.settle s l).state (m.settle s l).unread := settling_steps _ s l

theorem settle_stops (s : σ) (l : List α) : m.step (m.settle s l).state (m.settle s l).unread = none :=
  settling_stops (Nat.le_refl _)

/-- There are no steps where there is no next one. -/
theorem Steps.stopped (steps : m.Steps s l bs s' l') (stops : m.step s l = none) : bs = [] ∧ s = s' ∧ l = l' := by
  cases steps with
  | refl => exact ⟨rfl, rfl, rfl⟩
  | step taken _ => cases stops.symm.trans taken

/-- The machine does not choose. -/
private theorem Steps.stop_unique (first : m.Steps s l bs s' l') (stops : m.step s' l' = none)
    (second : m.Steps s l bs' s'' l'') (stops' : m.step s'' l'' = none) : bs = bs' ∧ s' = s'' ∧ l' = l'' := by
  induction first generalizing bs' with
  | refl =>
    obtain ⟨rfl, rfl, rfl⟩ := second.stopped stops
    exact ⟨rfl, rfl, rfl⟩
  | step taken _ ih =>
    cases second with
    | refl => cases stops'.symm.trans taken
    | step taken' later =>
      cases taken.symm.trans taken'
      obtain ⟨rfl, same⟩ := ih stops later
      exact ⟨rfl, same⟩

theorem settle_eq (steps : m.Steps s l bs s' l') (stops : m.step s' l' = none) : m.settle s l = ⟨bs, s', l'⟩ := by
  obtain ⟨outputs, state, unread⟩ := Steps.stop_unique (settle_steps s l) (settle_stops s l) steps stops
  rw [← outputs, ← state, ← unread]

theorem settle_stopped (stops : m.step s l = none) : m.settle s l = ⟨[], s, l⟩ := settle_eq (.refl s l) stops

/-- What is put out after some steps comes behind what they have put out. -/
theorem settle_after (steps : m.Steps s l bs s' l') : m.settle s l = (m.settle s' l').after bs :=
  settle_eq (steps.trans (settle_steps s' l')) (settle_stops s' l')

/-- A stream that comes in two parts. -/
theorem settle_append (s : σ) (l more : List α) :
    m.settle s (l ++ more) =
      (m.settle (m.settle s l).state ((m.settle s l).unread ++ more)).after (m.settle s l).outputs :=
  settle_after ((settle_steps s l).extend more)

/-- The steps up to the first output, and those behind it. -/
theorem Steps.first {b : β} (steps : m.Steps s l (b :: bs) s' l') :
    ∃ s₁ l₁ s₂ l₂, m.Steps s l [] s₁ l₁ ∧ m.step s₁ l₁ = some (s₂, l₂, some b) ∧ m.Steps s₂ l₂ bs s' l' := by
  generalize all : b :: bs = outputs at steps
  induction steps with
  | refl => cases all
  | @step s s₁ s'' l l₁ l'' c cs taken later ih =>
    cases c with
    | none =>
      obtain ⟨t, k, t', k', silent, puts, rest⟩ := ih all
      exact ⟨t, k, t', k', .step taken silent, puts, rest⟩
    | some c =>
      cases all
      exact ⟨s, l, s₁, l₁, .refl s l, taken, later⟩

private theorem Steps.silent_cases (silent : m.Steps s l [] s' l') :
    (s = s' ∧ l = l') ∨ ∃ s₁ l₁, m.step s l = some (s₁, l₁, none) ∧ m.Steps s₁ l₁ [] s' l' := by
  generalize all : ([] : List β) = outputs at silent
  cases silent with
  | refl => exact .inl ⟨rfl, rfl⟩
  | @step _ s₁ _ _ l₁ _ c cs taken later =>
    cases c with
    | none =>
      obtain rfl : [] = cs := all
      exact .inr ⟨s₁, l₁, taken, later⟩
    | some c => cases all

/-- There is one first output. -/
theorem Steps.first_unique {s₁ s₂ t₁ t₂ : σ} {l₁ l₂ k₁ k₂ : List α} {b c : β} (silent : m.Steps s l [] s₁ l₁)
    (puts : m.step s₁ l₁ = some (t₁, k₁, some b)) (silent' : m.Steps s l [] s₂ l₂)
    (puts' : m.step s₂ l₂ = some (t₂, k₂, some c)) : t₁ = t₂ ∧ k₁ = k₂ ∧ b = c := by
  generalize none : ([] : List β) = outputs at silent
  induction silent with
  | refl =>
    rcases silent'.silent_cases with ⟨rfl, rfl⟩ | ⟨_, _, taken, _⟩
    · cases puts.symm.trans puts'
      exact ⟨rfl, rfl, rfl⟩
    · cases puts.symm.trans taken
  | @step _ _ _ _ _ _ d ds taken later ih =>
    cases d with
    | some d => cases none
    | none =>
      rcases silent'.silent_cases with ⟨rfl, rfl⟩ | ⟨_, _, taken', later'⟩
      · cases taken.symm.trans puts'
      · cases taken.symm.trans taken'
        exact ih puts later' none

/-! ### One output at a time -/

variable (m) in
/-- The machine has been fed `fed` since it was at `s₀`, and so many outputs have been
    taken. -/
def Ahead (s₀ : σ) (fed : List α) (taken : Nat) (s : σ) (l : List α) : Prop :=
  ∃ bs, bs.length = taken ∧ m.settle s₀ fed = (m.settle s l).after bs

variable {s₀ : σ} {fed : List α} {taken : Nat}

theorem Ahead.start (s₀ : σ) : m.Ahead s₀ [] 0 s₀ [] := ⟨[], rfl, rfl⟩

/-- Steps that put nothing out make no difference. -/
theorem Ahead.silent (ahead : m.Ahead s₀ fed taken s l) (steps : m.Steps s l [] s' l') : m.Ahead s₀ fed taken s' l' := by
  obtain ⟨bs, length, same⟩ := ahead
  refine ⟨bs, length, ?_⟩
  rw [same, settle_after steps]
  rfl

theorem Ahead.feed (ahead : m.Ahead s₀ fed taken s l) (more : List α) :
    m.Ahead s₀ (fed ++ more) taken s (l ++ more) := by
  obtain ⟨bs, length, same⟩ := ahead
  refine ⟨bs, length, ?_⟩
  rw [settle_append s₀ fed more, settle_append s l more, same]
  simp only [Settled.after, List.append_assoc]

/-- The output that is found is the next one of the whole stream. -/
theorem Ahead.next {b : β} (ahead : m.Ahead s₀ fed taken s l) (found : m.Steps s l [b] s' l') :
    m.Ahead s₀ fed (taken + 1) s' l' ∧ (m.settle s₀ fed).outputs[taken]? = some b := by
  obtain ⟨bs, length, same⟩ := ahead
  have later := settle_after found
  refine ⟨⟨bs ++ [b], by simp [length], ?_⟩, ?_⟩
  · rw [same, later]
    simp [Settled.after]
  · rw [same, later, ← length]
    simp [Settled.after]

/-- Where none is found, the whole stream has no more, and the machine stands as after
    the whole stream. -/
theorem Ahead.none (ahead : m.Ahead s₀ fed taken s l) (stops : m.step s l = none) :
    (m.settle s₀ fed).outputs[taken]? = none ∧ (m.settle s₀ fed).state = s := by
  obtain ⟨bs, length, same⟩ := ahead
  rw [same, settle_stopped stops, ← length]
  exact ⟨by simp [Settled.after], rfl⟩

end Transducer

end CppRedis.Streams

import Mathlib.Data.List.TakeWhile

/-!
A sequence cut at the first occurrence of a symbol: what stands before it and what
stands after it. Where the symbol does not occur, everything stands before it.
-/
namespace CppRedis.Cuts

variable {α : Type} [DecidableEq α] {c d : α} {s front back : List α}

def before (c : α) (s : List α) : List α := s.takeWhile (· ≠ c)

def after (c : α) (s : List α) : List α := (s.dropWhile (· ≠ c)).tail

private theorem differs (absent : c ∉ front) : ∀ b ∈ front, decide (b ≠ c) = true := by
  intro b member
  simpa using fun is : b = c => absent (is ▸ member)

theorem before_of_not_mem (absent : c ∉ s) : before c s = s := List.takeWhile_eq_self_iff.mpr (differs absent)

theorem after_of_not_mem (absent : c ∉ s) : after c s = [] := by
  unfold after
  rw [List.dropWhile_eq_nil_iff.mpr (differs absent)]
  rfl

theorem before_append (absent : c ∉ front) : before c (front ++ c :: back) = front := by
  unfold before
  rw [List.takeWhile_append_of_pos (differs absent)]
  simp

theorem after_append (absent : c ∉ front) : after c (front ++ c :: back) = back := by
  unfold after
  rw [List.dropWhile_append_of_pos (differs absent)]
  simp

theorem not_mem_before : c ∉ before c s := fun member => by simpa using List.mem_takeWhile_imp member

/-- The two parts and the symbol make up the sequence. -/
theorem before_after (present : c ∈ s) : before c s ++ c :: after c s = s := by
  obtain ⟨front, back, rfl, absent⟩ := List.eq_append_cons_of_mem present
  rw [before_append absent, after_append absent]

theorem mem_of_mem_before (member : d ∈ before c s) : d ∈ s := (List.takeWhile_sublist _).subset member

theorem mem_of_mem_after (member : d ∈ after c s) : d ∈ s :=
  (List.dropWhile_sublist _).subset (List.mem_of_mem_tail member)

/-- The part before the symbol ends where its first occurrence is. -/
theorem take_before : s.take (before c s).length = before c s := (List.prefix_iff_eq_take.mp (List.takeWhile_prefix _)).symm

theorem drop_before : s.drop ((before c s).length + 1) = after c s := by
  by_cases present : c ∈ s
  · obtain ⟨front, back, rfl, absent⟩ := List.eq_append_cons_of_mem present
    rw [before_append absent, after_append absent]
    simp
  · rw [before_of_not_mem present, after_of_not_mem present]
    exact List.drop_eq_nil_of_le (Nat.le_succ _)

end CppRedis.Cuts

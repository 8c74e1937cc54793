import Mathlib.Data.Multiset.AddSub
import Mathlib.Data.Multiset.UnionInter
import Mathlib.Logic.Relation

/-!
Lending distinct resources. A ledger says which resources are idle and which
are lent; that no resource is entered twice is part of the ledger, so every
resource that was ever issued is either idle or lent, once (`in_one_place`), and
two borrowers never share one (`lent_apart`). Resources come in by `issue` and
move between the two sides by `lend` and `giveBack`; none leaves
(`steps_issued`).
-/
namespace CppRedis.Ledgers
universe u

/-- The books of a lender: every resource is entered once. -/
structure Ledger (R : Type u) where
  idle : Multiset R
  lent : Multiset R
  distinct : (idle + lent).Nodup

namespace Ledger
variable {R : Type u}

/-- All resources in the books. -/
def issued (L : Ledger R) : Multiset R := L.idle + L.lent

/-- A resource is entered that was in no book before. -/
def issue (L : Ledger R) (r : R) (fresh : r ∉ L.issued) : Ledger R where
  idle := r ::ₘ L.idle
  lent := L.lent
  distinct := by
    rw [Multiset.cons_add]
    exact Multiset.nodup_cons.mpr ⟨fresh, L.distinct⟩

variable [DecidableEq R]

theorem erase_add_cons {r : R} {source : Multiset R} (member : r ∈ source) (target : Multiset R) :
    source.erase r + r ::ₘ target = source + target := by
  rw [Multiset.add_cons, ← Multiset.cons_add, Multiset.cons_erase member]

/-- An idle resource goes to a borrower. -/
def lend (L : Ledger R) (r : R) (free : r ∈ L.idle) : Ledger R where
  idle := L.idle.erase r
  lent := r ::ₘ L.lent
  distinct := by
    rw [erase_add_cons free]
    exact L.distinct

/-- A borrower brings a resource back. -/
def giveBack (L : Ledger R) (r : R) (out : r ∈ L.lent) : Ledger R where
  idle := r ::ₘ L.idle
  lent := L.lent.erase r
  distinct := by
    rw [Multiset.add_comm, erase_add_cons out, Multiset.add_comm]
    exact L.distinct

/-- What a lender does in one step. -/
inductive Step : Ledger R → Ledger R → Prop
  | issue {L : Ledger R} {r : R} (fresh : r ∉ L.issued) : Step L (L.issue r fresh)
  | lend {L : Ledger R} {r : R} (free : r ∈ L.idle) : Step L (L.lend r free)
  | giveBack {L : Ledger R} {r : R} (out : r ∈ L.lent) : Step L (L.giveBack r out)

omit [DecidableEq R] in
theorem issued_issue (L : Ledger R) (r : R) (fresh : r ∉ L.issued) :
    (L.issue r fresh).issued = r ::ₘ L.issued := Multiset.cons_add r L.idle L.lent

theorem issued_lend (L : Ledger R) (r : R) (free : r ∈ L.idle) : (L.lend r free).issued = L.issued := by
  exact erase_add_cons free L.lent

theorem issued_giveBack (L : Ledger R) (r : R) (out : r ∈ L.lent) : (L.giveBack r out).issued = L.issued := by
  simp only [issued, giveBack]
  rw [Multiset.add_comm, erase_add_cons out, Multiset.add_comm]

/-- No resource leaves the books. -/
theorem steps_issued {L L' : Ledger R} (steps : Relation.ReflTransGen Step L L') : L.issued ≤ L'.issued := by
  induction steps with
  | refl => exact le_rfl
  | tail _ last ih =>
    refine ih.trans ?_
    cases last with
    | issue fresh => rw [issued_issue]; exact Multiset.le_cons_self _ _
    | lend free => rw [issued_lend]
    | giveBack out => rw [issued_giveBack]

/-- A resource in the books is idle or lent, and entered once. -/
theorem in_one_place (L : Ledger R) {r : R} (entered : r ∈ L.issued) : L.idle.count r + L.lent.count r = 1 := by
  rw [← Multiset.count_add]
  exact Multiset.count_eq_one_of_mem L.distinct entered

omit [DecidableEq R] in
/-- What is idle is lent to nobody. -/
theorem idle_not_lent (L : Ledger R) {r : R} (free : r ∈ L.idle) : r ∉ L.lent :=
  fun out => Multiset.disjoint_left.mp (Multiset.nodup_add.mp L.distinct).2.2 free out

omit [DecidableEq R] in
/-- Two borrowers share no resource. -/
theorem lent_apart (L : Ledger R) {mine yours rest : Multiset R} (split : L.lent = mine + (yours + rest))
    {r : R} (held : r ∈ mine) : r ∉ yours := by
  have distinct := (Multiset.nodup_add.mp L.distinct).2.1
  rw [split] at distinct
  have apart := (Multiset.nodup_add.mp distinct).2.2
  exact fun other => Multiset.disjoint_left.mp apart held (Multiset.mem_add.mpr (Or.inl other))

end Ledger
end CppRedis.Ledgers

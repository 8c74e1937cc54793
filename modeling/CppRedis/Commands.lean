import Mathlib.Data.List.TakeWhile
import Mathlib.Data.Nat.Digits.Lemmas
import CppRedis.Connection

/-!
The numbers among a command's arguments: as `ostringstream` writes them, and as the
server reads them (`string2ll_number`).
-/
namespace CppRedis.Commands
open CppRedis.Strings CppRedis.Connection

def digit (d : Nat) : UInt8 := (48 + d).toUInt8

/-- The decimal digits of a number, the first one not zero unless it is the only
    one. -/
def digits (n : Nat) : Str := if n = 0 then [48] else (Nat.digits 10 n).reverse.map digit

/-- `oss << n` for an integer. -/
def number (n : Int) : Str := if n < 0 then 45 :: digits n.natAbs else digits n.natAbs

theorem digits_length {n : Nat} (small : n < 10 ^ 10) : (digits n).length ≤ 10 := by
  unfold digits
  split
  · simp
  · rw [List.length_map, List.length_reverse]
    exact (Nat.digits_length_le_iff (by decide) n).mpr small

theorem number_natCast (n : Nat) : number (n : Int) = digits n := if_neg (by omega)

/-- How the server reads an integer: it takes the canonical form of a `long long` and
    nothing else. -/
def string2ll (s : Str) : Option Int :=
  match strtol s with
  | none => none
  | some n => if number n = s ∧ -2 ^ 63 ≤ n ∧ n < 2 ^ 63 then some n else none

private theorem digit_toNat {d : Nat} (lt : d < 10) : (digit d).toNat = 48 + d := by
  rw [digit, Nat.toUInt8_eq, UInt8.toNat_ofNat']
  exact Nat.mod_eq_of_lt (by omega)

private theorem digit_isdigit {d : Nat} (lt : d < 10) : isdigit (digit d) = true := by
  simp only [isdigit, Bool.and_eq_true, decide_eq_true_eq, UInt8.le_iff_toNat_le, digit_toNat lt]
  constructor
  · exact Nat.le_add_right 48 d
  · show 48 + d ≤ 57
    omega

theorem digits_isdigit (n : Nat) : ∀ b ∈ digits n, isdigit b = true := by
  intro b member
  unfold digits at member
  split at member
  · obtain rfl := List.mem_singleton.mp member
    decide
  · obtain ⟨d, of, rfl⟩ := List.mem_map.mp member
    exact digit_isdigit (Nat.digits_lt_base (by decide) (List.mem_reverse.mp of))

theorem digits_ne_nil (n : Nat) : digits n ≠ [] := by
  unfold digits
  split
  · exact List.cons_ne_nil _ _
  · rename_i some
    simpa [Nat.digits_ne_nil_iff_ne_zero] using some

/-- The value of the digits, from the last one to the first. -/
private theorem decimal_map {l : List Nat} (small : ∀ d ∈ l, d < 10) : decimal (l.reverse.map digit) = Nat.ofDigits 10 l := by
  rw [decimal, List.foldl_map, List.foldl_reverse]
  induction l with
  | nil => rfl
  | cons d rest ih =>
    rw [List.foldr_cons, ih fun e member => small e (List.mem_cons_of_mem d member), Nat.ofDigits_cons,
      digit_toNat (small d List.mem_cons_self)]
    omega

theorem decimal_digits (n : Nat) : decimal (digits n) = n := by
  unfold digits
  split
  · rename_i zero
    rw [zero]
    rfl
  · rw [decimal_map fun d => Nat.digits_lt_base (by decide), Nat.ofDigits_digits]

private theorem isdigit_bounds {b : UInt8} (is : isdigit b = true) : 48 ≤ b.toNat ∧ b.toNat ≤ 57 := by
  simpa [isdigit, UInt8.le_iff_toNat_le] using is

private theorem byte_ne {b c : UInt8} (differ : b.toNat ≠ c.toNat) : b ≠ c := fun same => differ (by rw [same])

private theorem isdigit_plain {b : UInt8} (is : isdigit b = true) : b ≠ 0 ∧ isspace b = false ∧ b ≠ 45 ∧ b ≠ 43 := by
  obtain ⟨low, high⟩ := isdigit_bounds is
  refine ⟨byte_ne ?_, ?_, byte_ne ?_, byte_ne ?_⟩
  · simp; omega
  · have blank : b ≠ 32 := byte_ne (by simp; omega)
    have above : ¬ b ≤ 13 := by
      intro le
      rw [UInt8.le_iff_toNat_le] at le
      have : b.toNat ≤ 13 := le
      omega
    simp [isspace, blank, above]
  · simp; omega
  · simp; omega

private theorem cstr_digits {s : Str} (all : ∀ b ∈ s, isdigit b = true) : cstr s = s :=
  List.takeWhile_eq_self_iff.mpr fun b member => by simpa using (isdigit_plain (all b member)).1

private theorem signed_digits {s : Str} (all : ∀ b ∈ s, isdigit b = true) (nonempty : s ≠ []) (sign : Int) :
    strtol.signed sign s = some (sign * decimal s) := by
  simp only [strtol.signed, List.takeWhile_eq_self_iff.mpr all, nonempty, ↓reduceIte]

/-- `strtol` reads digits as the number that they stand for. -/
theorem strtol_digits {s : Str} (all : ∀ b ∈ s, isdigit b = true) (nonempty : s ≠ []) : strtol s = some (decimal s : Int) := by
  obtain ⟨d, rest, rfl⟩ := List.exists_cons_of_ne_nil nonempty
  obtain ⟨_, space, minus, plus⟩ := isdigit_plain (all d List.mem_cons_self)
  have front : (d :: rest).dropWhile isspace = d :: rest := List.dropWhile_cons_of_neg (by simp [space])
  have read := signed_digits all nonempty 1
  simp only [strtol, cstr_digits all, front]
  split
  · rename_i is
    exact absurd (List.cons.inj is).1 minus
  · rename_i is
    exact absurd (List.cons.inj is).1 plus
  · rw [read, one_mul]

/-- `strtol` reads back the number that was written. -/
theorem strtol_number (n : Int) : strtol (number n) = some n := by
  have all := digits_isdigit n.natAbs
  have nonempty := digits_ne_nil n.natAbs
  by_cases negative : n < 0
  · have whole : cstr (45 :: digits n.natAbs) = 45 :: digits n.natAbs := by
      rw [cstr, List.takeWhile_cons_of_pos (by decide)]
      exact congrArg _ (cstr_digits all)
    have front : (45 :: digits n.natAbs).dropWhile isspace = 45 :: digits n.natAbs :=
      List.dropWhile_cons_of_neg (by decide)
    simp only [number, negative, ↓reduceIte, strtol, whole, front, signed_digits all nonempty, decimal_digits]
    congr 1
    omega
  · simp only [number, negative, ↓reduceIte, strtol_digits all nonempty, decimal_digits]
    congr 1
    omega

theorem string2ll_number {n : Int} (low : -2 ^ 63 ≤ n) (high : n < 2 ^ 63) : string2ll (number n) = some n := by
  simp only [string2ll, strtol_number, low, high, and_self, ↓reduceIte]

end CppRedis.Commands

import Mathlib.Algebra.Order.Ring.Int
import Mathlib.Data.List.Basic

/-!
Strings as the C++ code has them: a `std::string` is any list of bytes, and the
C functions it is handed to through `c_str()` read it up to its first NUL.
-/
namespace CppRedis.Strings

/-- A `std::string`. -/
abbrev Str := List UInt8

/-- A literal of the source. -/
def lit (text : String) : Str := text.toList.map fun c => c.toNat.toUInt8

/-- What a C function sees of `s.c_str()`. -/
def cstr (s : Str) : Str := s.takeWhile (· ≠ 0)

/-- `strncmp(a, b, n) == 0`; the byte after the last one of a string is its NUL. -/
def strncmp_eq (a b : Str) : Nat → Bool
  | 0 => true
  | n + 1 =>
    if a.headD 0 ≠ b.headD 0 then false
    else if a.headD 0 = 0 then true
    else strncmp_eq a.tail b.tail n

theorem strncmp_eq_comm (a b : Str) (n : Nat) : strncmp_eq a b n = strncmp_eq b a n := by
  induction n generalizing a b with
  | zero => rfl
  | succ n ih =>
    rw [strncmp_eq, strncmp_eq, ih]
    by_cases same : a.headD 0 = b.headD 0
    · rw [same]
    · rw [if_pos same, if_pos (Ne.symm same)]

/-- Over the length of the second string, it takes this for the other one where it is a
    front part of it, or goes on behind a NUL. -/
theorem strncmp_eq_iff {keyword s : Str} (plain : 0 ∉ keyword) :
    strncmp_eq keyword s s.length = true ↔ s <+: keyword ∨ keyword ++ [0] <+: s := by
  induction s generalizing keyword with
  | nil => simp [strncmp_eq]
  | cons b rest ih =>
    cases keyword with
    | nil => simp [strncmp_eq, eq_comm]
    | cons k keyword =>
      obtain ⟨first, plain⟩ := not_or.mp (List.mem_cons.not.mp plain)
      have whole : k ≠ 0 := Ne.symm first
      by_cases same : k = b
      · subst same
        have next : strncmp_eq (k :: keyword) (k :: rest) (k :: rest).length = strncmp_eq keyword rest rest.length := by
          simp [strncmp_eq, whole]
        rw [next, ih plain, List.cons_append, List.cons_prefix_cons, List.cons_prefix_cons]
        simp
      · have differ : strncmp_eq (k :: keyword) (b :: rest) (b :: rest).length = false := by
          simp [strncmp_eq, same]
        rw [differ, List.cons_append, List.cons_prefix_cons, List.cons_prefix_cons]
        simp [same, Ne.symm same]

/-- `tolower` in the C locale. -/
def tolower (b : UInt8) : UInt8 := if 65 ≤ b ∧ b ≤ 90 then b + 32 else b

/-- `strcasecmp(a, b) == 0`. -/
def strcasecmp_eq (a b : Str) : Bool := (cstr a).map tolower == (cstr b).map tolower

def isspace (b : UInt8) : Bool := b == 32 || (9 ≤ b && b ≤ 13)
def isdigit (b : UInt8) : Bool := 48 ≤ b && b ≤ 57

/-- The value of a string of decimal digits. -/
def decimal (digits : Str) : Nat := digits.foldl (fun n d => 10 * n + (d.toNat - 48)) 0

/-- The number that `strtol` in base 10 reads, before it is fitted into a
    `long`; none when there is no digit to read. -/
def strtol (s : Str) : Option Int :=
  match (cstr s).dropWhile isspace with
  | 45 :: rest => signed (-1) rest
  | 43 :: rest => signed 1 rest
  | rest => signed 1 rest
where
  signed (sign : Int) (rest : Str) : Option Int :=
    let digits := rest.takeWhile isdigit
    if digits = [] then none else some (sign * decimal digits)

/-- `atoi`: `strtol` fitted into a `long` and cut down to an `int`; 0 when there
    is nothing to read. -/
def atoi (s : Str) : Int :=
  match strtol s with
  | none => 0
  | some n => (max (-2 ^ 63) (min n (2 ^ 63 - 1))).bmod (2 ^ 32)

/-- The range of an `int`. -/
def FitsInt (n : Int) : Prop := -2 ^ 31 ≤ n ∧ n ≤ 2 ^ 31 - 1

instance (n : Int) : Decidable (FitsInt n) := inferInstanceAs (Decidable (_ ∧ _))

example : atoi (lit "6379") = 6379 := by decide
example : strtol (lit " +12x") = some 12 := by decide

end CppRedis.Strings

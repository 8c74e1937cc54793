import CppRedis.Cuts

/-!
Messages on a stream, each a number of items and each item a number of symbols. A
number is written behind a mark and ends with two symbols of which the first occurs
in no number; an item may hold any symbols. What is written is read back, whatever
follows it (`read_message_message`), and so is a stream of messages
(`read_stream_messages`).
-/
namespace CppRedis.Frames
open CppRedis.Cuts

/-- The marks before the number of items and before the length of one, the two symbols
    that end a line, and how numbers are written and read. -/
structure Format (α : Type) where
  count : α
  length : α
  stop : α
  next : α
  write : Nat → List α
  read : List α → Option Nat
  read_write : ∀ n, read (write n) = some n
  stop_not_mem : ∀ n, stop ∉ write n

variable {α : Type}

namespace Format

def line (f : Format α) (mark : α) (n : Nat) : List α := mark :: (f.write n ++ [f.stop, f.next])

def item (f : Format α) (s : List α) : List α := f.line f.length s.length ++ (s ++ [f.stop, f.next])

def message (f : Format α) (items : List (List α)) : List α := f.line f.count items.length ++ items.flatMap f.item

variable [DecidableEq α]

def read_line (f : Format α) (mark : α) : List α → Option (Nat × List α)
  | [] => none
  | b :: s =>
    if b = mark then
      match f.read (before f.stop s), after f.stop s with
      | some n, c :: rest => if c = f.next then some (n, rest) else none
      | _, _ => none
    else none

/-- The item is taken by its length, and a line ends behind it. -/
def read_item (f : Format α) (s : List α) : Option (List α × List α) :=
  match f.read_line f.length s with
  | none => none
  | some (n, rest) =>
    if [f.stop, f.next] <+: rest.drop n then some (rest.take n, rest.drop (n + 2)) else none

def read_items (f : Format α) : Nat → List α → Option (List (List α) × List α)
  | 0, s => some ([], s)
  | n + 1, s =>
    match f.read_item s with
    | none => none
    | some (item, rest) => (f.read_items n rest).map fun (items, rest) => (item :: items, rest)

def read_message (f : Format α) (s : List α) : Option (List (List α) × List α) :=
  match f.read_line f.count s with
  | none => none
  | some (n, rest) => f.read_items n rest

/-- So many messages at most. -/
def read_messages (f : Format α) : Nat → List α → Option (List (List (List α)))
  | _, [] => some []
  | 0, _ :: _ => none
  | fuel + 1, b :: s =>
    match f.read_message (b :: s) with
    | none => none
    | some (items, rest) => (f.read_messages fuel rest).map (items :: ·)

/-- All messages of a stream; each takes one symbol at least. -/
def read_stream (f : Format α) (s : List α) : Option (List (List (List α))) := f.read_messages s.length s

theorem read_line_line (f : Format α) (mark : α) (n : Nat) (rest : List α) :
    f.read_line mark (f.line mark n ++ rest) = some (n, rest) := by
  have shape : f.line mark n ++ rest = mark :: (f.write n ++ f.stop :: f.next :: rest) := by simp [line]
  simp only [shape, read_line, ↓reduceIte, before_append (f.stop_not_mem n), after_append (f.stop_not_mem n), f.read_write]

theorem read_item_item (f : Format α) (s rest : List α) : f.read_item (f.item s ++ rest) = some (s, rest) := by
  have shape : f.item s ++ rest = f.line f.length s.length ++ (s ++ ([f.stop, f.next] ++ rest)) := by simp [item]
  have beyond : (s ++ ([f.stop, f.next] ++ rest)).drop (s.length + 2) = rest := by
    rw [← List.drop_drop, List.drop_left]
    rfl
  simp only [shape, read_item, f.read_line_line, List.drop_left, List.take_left, beyond, List.prefix_append, ↓reduceIte]

theorem read_items_items (f : Format α) (items : List (List α)) (rest : List α) :
    f.read_items items.length (items.flatMap f.item ++ rest) = some (items, rest) := by
  induction items with
  | nil => rfl
  | cons item items ih =>
    simp only [List.length_cons, List.flatMap_cons, List.append_assoc, read_items, f.read_item_item, ih, Option.map_some]

theorem read_message_message (f : Format α) (items : List (List α)) (rest : List α) :
    f.read_message (f.message items ++ rest) = some (items, rest) := by
  simp only [message, List.append_assoc, read_message, f.read_line_line, f.read_items_items]

theorem read_messages_messages (f : Format α) (messages : List (List (List α))) (fuel : Nat)
    (enough : messages.length ≤ fuel) : f.read_messages fuel (messages.flatMap f.message) = some messages := by
  induction messages generalizing fuel with
  | nil => cases fuel <;> rfl
  | cons items messages ih =>
    obtain ⟨fuel, rfl⟩ : ∃ n, fuel = n + 1 := ⟨fuel - 1, by simp at enough; omega⟩
    have here := f.read_message_message items (messages.flatMap f.message)
    have later := ih fuel (by simpa using enough)
    obtain ⟨b, s, shape⟩ : ∃ b s, f.message items ++ messages.flatMap f.message = b :: s := ⟨_, _, rfl⟩
    rw [shape] at here
    simp only [List.flatMap_cons, shape, read_messages, here, later, Option.map_some]

theorem read_stream_messages (f : Format α) (messages : List (List (List α))) :
    f.read_stream (messages.flatMap f.message) = some messages := by
  refine f.read_messages_messages messages _ ?_
  induction messages with
  | nil => exact Nat.le_refl 0
  | cons items messages ih =>
    simp only [List.flatMap_cons, List.length_cons, List.length_append, message, line]
    omega

end Format

end CppRedis.Frames

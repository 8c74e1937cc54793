import CppRedis.Outcomes

/-!
What becomes of an error that the server replies. Nine of the ten decoders throw it
(`decode_error`); `recv_string_reply` takes it for the missing string of a nil reply,
and so do the methods that use it. `errors_surface_iff` says which errors reach the
caller as they are, and which methods return where the server has replied an error.
-/
namespace CppRedis.Errors
open CppRedis.Strings CppRedis.Reply CppRedis.Connection CppRedis.Pool CppRedis.Clients CppRedis.Decoders
open CppRedis.Methods CppRedis.Outcomes CppRedis.Runs

/-- The decoder is `recv_string_reply`. -/
def IsString : Decoder → Prop
  | .string _ => True
  | .ok | .status | .int | .float | .array | .set | .map _ | .pairs | .fields _ => False

/-- The methods whose reply goes to `recv_string_reply`. -/
def ReadsString : Command → Prop
  | .get .. | .getset .. | .getrange .. | .spop .. | .hget .. | .lindex .. | .lpop .. | .rpop .. => True
  | _ => False

/-- An error reaches the caller of the decoder, and of each method that uses it, with its
    text. -/
structure Surfaces (decoder : Decoder) (text : Str) : Prop where
  decoded : decoder.decode (.error text) = .error (.thrown (.ValueException text))
  reported : ∀ a m cl, Answered (.error text) a m decoder cl → (perform a m cl).1 = .error (.thrown (.ValueException text))

/-- The method returns for no error of the server. -/
def Reports (m : Command) : Prop :=
  ∀ text a decoder cl, Answered (.error text) a m decoder cl → ∀ v, (perform a m cl).1 ≠ .ok v

/-! ### The decoders -/

theorem decode_error {decoder : Decoder} (other : ¬ IsString decoder) (text : Str) :
    decoder.decode (.error text) = .error (.thrown (.ValueException (cstr text))) := by
  cases decoder with
  | string value => exact absurd trivial other
  | ok | status | int | float | array | set | map | pairs | fields => rfl

/-- `ValueException(reply->str)` takes the text up to its first NUL. -/
private theorem cstr_eq_iff (s : Str) : cstr s = s ↔ 0 ∉ s := by
  rw [cstr, List.takeWhile_eq_self_iff]
  constructor
  · intro all member
    simpa using all 0 member
  · intro absent b member
    have differ : b ≠ 0 := fun is => absent (is ▸ member)
    simpa using differ

private theorem decoder_throws_iff (decoder : Decoder) (text : Str) :
    decoder.decode (.error text) = .error (.thrown (.ValueException text)) ↔ ¬ IsString decoder ∧ 0 ∉ text := by
  by_cases string : IsString decoder
  · refine iff_of_false ?_ fun both => both.1 string
    intro thrown
    cases decoder with
    | string value => cases thrown
    | ok | status | int | float | array | set | map | pairs | fields => exact string
  · rw [decode_error string, ← cstr_eq_iff, and_iff_right string]
    simp

/-! ### The methods -/

/-- These are the methods with that decoder. -/
private theorem isString_iff {m : Command} {cmd : RedisCmd} {decoder : Decoder} (sends : m.call = .sends cmd decoder) :
    IsString decoder ↔ ReadsString m := by
  obtain rfl := call_decoder sends
  cases m <;> exact Iff.rfl

private theorem reports_iff (m : Command) : Reports m ↔ ¬ (ReadsString m ∧ m.Sent) := by
  constructor
  · rintro reports ⟨reads, cmd, decoder, sends, sendable⟩
    obtain ⟨cl, answered⟩ := accepted_answers sends sendable (.error [])
    have string := (isString_iff sends).mpr reads
    cases decoder with
    | string value => exact reports [] _ _ cl answered (.string (-1) value) answered.decodes
    | ok | status | int | float | array | set | map | pairs | fields => exact string
  · intro other text a decoder cl answered v returned
    obtain ⟨cmd, sends, sendable⟩ := answered.sends
    have thrown := answered.decodes
    rw [decode_error (fun string => other ⟨(isString_iff sends).mp string, cmd, decoder, sends, sendable⟩), returned] at thrown
    cases thrown

/-- An error surfaces with its text exactly if the decoder is not `recv_string_reply` and
    the text has no NUL; a method returns for an error exactly if it reads a string, and
    can be sent. -/
theorem errors_surface_iff (decoder : Decoder) (text : Str) (m : Command) :
    (Surfaces decoder text ↔ ¬ IsString decoder ∧ 0 ∉ text) ∧ (Reports m ↔ ¬ (ReadsString m ∧ m.Sent)) := by
  refine ⟨?_, reports_iff m⟩
  rw [← decoder_throws_iff]
  constructor
  · exact Surfaces.decoded
  · exact fun decoded => ⟨decoded, fun a m cl answered => answered.decodes.trans decoded⟩

/-- `get` of a list returns as it does for a key that is not there. -/
theorem wrong_type_returned : ¬ Reports (.get (lit "list") []) := by
  intro reports
  have sends : (Command.get (lit "list") []).call = .sends [lit "GET", lit "list"] (.string []) := send_eq (by decide)
  obtain ⟨cl, answered⟩ :=
    accepted_answers sends (by decide +kernel) (.error (lit "WRONGTYPE Operation against a key holding the wrong kind of value"))
  exact reports _ _ _ cl answered (.string (-1) []) (answered.decodes.trans rfl)

end CppRedis.Errors

import CppRedis.Urls

/-!
What `URI::parse` leaves of an object that was filled in before. `parse_accepted`
and `parse_refused` give the object after a call for any object before it; a URL
leaves nothing of the old fields and of its own where it is refused exactly if it
names a password and a database and is not given up after its password
(`oblivious_iff`).
-/
namespace CppRedis.Residues
open CppRedis.Strings CppRedis.Reply CppRedis.Uri CppRedis.Cuts CppRedis.Urls

/-- The call depends on the URL only: what is returned, and the object where that is true;
    where it is false, the object stays as it was. -/
structure Oblivious (url : Str) : Prop where
  result : ∀ uri uri', (URI.parse url uri).1 = (URI.parse url uri').1
  fields : ∀ uri uri', (URI.parse url uri).1 = .ok true → (URI.parse url uri).2 = (URI.parse url uri').2
  kept : ∀ uri, (URI.parse url uri).1 = .ok false → (URI.parse url uri).2 = uri

/-- If the URL is accepted, it has a login, and something follows the '/'. -/
def Complete (url : Str) : Prop :=
  ∀ p, cuts url = some p → Readable p.port → (p.path = [] ∨ Readable p.path) → p.login ≠ none ∧ p.remain ≠ []

/-- There is a login, and no ':' in the address after it. -/
def Abandoned (url : Str) : Prop :=
  ∃ pos user password address, find (lit "://") url = some pos ∧ strcasecmp_eq REDIS_SCHEME (url.take pos) = true ∧
    cut_login (before slash (url.drop (pos + 3))) = some (some (user, password), address) ∧ colon ∉ address

/-! ### The object after a call -/

theorem parse_accepted {url : Str} {p : Parts} {port db : Int} (cut : cuts url = some p) (port_is : stoi p.port = .ok port)
    (db_is : p.db = .ok db) (uri : URI) :
    URI.parse url uri =
      (.ok true, ⟨(p.login.map Prod.snd).getD uri.password, p.host, port, if p.remain = [] then uri.db else db⟩) := by
  have sep := ((cuts_iff url p).mp cut).1
  rw [parse_some cut]
  simp only [port_is, parse_db_eq sep, db_is, Parts.addressed]
  by_cases nothing : p.remain = []
  · rw [if_pos nothing, if_pos nothing]
  · rw [if_neg nothing, if_neg nothing]

/-- A URL that is refused leaves the object as it was, unless it is given up after its
    password. -/
theorem parse_refused {url : Str} (cut : cuts url = none) :
    ¬ Abandoned url ∧ (∀ uri, (URI.parse url uri).2 = uri) ∨
      Abandoned url ∧ ∃ password, ∀ uri, (URI.parse url uri).2 = { uri with password := password } := by
  simp only [parse_text]
  unfold cuts at cut
  cases found : find (lit "://") url with
  | none =>
    refine .inl ⟨?_, fun uri => rfl⟩
    rintro ⟨pos, user, password, address, at_pos, -⟩
    cases found.symm.trans at_pos
  | some pos =>
    simp only [found] at cut ⊢
    by_cases redis : strcasecmp_eq REDIS_SCHEME (url.take pos) = true
    · simp only [if_pos redis] at cut ⊢
      cases login_is : cut_login (before slash (url.drop (pos + 3))) with
      | none =>
        refine .inl ⟨?_, ?_⟩
        · rintro ⟨pos', user, password, address, at_pos, -, login, -⟩
          cases found.symm.trans at_pos
          cases login_is.symm.trans login
        · intro uri
          simp only [parse_userinfo_eq, login_is, Option.map_none]
      | some cut_off =>
        obtain ⟨login, address⟩ := cut_off
        simp only [login_is] at cut
        have unnumbered : colon ∉ address := fun member => by
          rw [if_pos member] at cut
          cases cut
        simp only [parse_userinfo_eq, login_is, Option.map_some, parse_host_eq, if_neg unnumbered]
        cases login with
        | none =>
          refine .inl ⟨?_, fun uri => rfl⟩
          rintro ⟨pos', user, password, address', at_pos, -, login, -⟩
          cases found.symm.trans at_pos
          cases login_is.symm.trans login
        | some login =>
          obtain ⟨user, password⟩ := login
          exact .inr ⟨⟨pos, user, password, address, found, redis, login_is, unnumbered⟩, password, fun uri => rfl⟩
    · simp only [if_neg redis]
      refine .inl ⟨?_, fun _ => trivial⟩
      rintro ⟨pos', user, password, address, at_pos, accepted, -⟩
      cases found.symm.trans at_pos
      exact redis accepted

/-- A URL that has all its parts is not given up. -/
theorem not_abandoned {url : Str} {p : Parts} (cut : cuts url = some p) : ¬ Abandoned url := by
  rintro ⟨pos, user, password, address, at_pos, redis, login, unnumbered⟩
  unfold cuts at cut
  simp only [at_pos, if_pos redis, login, if_neg unnumbered] at cut
  cases cut

theorem parse_result (url : Str) (uri uri' : URI) : (URI.parse url uri).1 = (URI.parse url uri').1 := by
  rw [parse_fst url uri, parse_fst url uri']

/-! ### When nothing remains -/

private theorem refused_oblivious {url : Str} (cut : cuts url = none) : Oblivious url ↔ ¬ Abandoned url := by
  have false_is : ∀ uri, (URI.parse url uri).1 = .ok false := parse_none cut
  constructor
  · intro oblivious
    rcases parse_refused cut with ⟨whole, -⟩ | ⟨-, password, left⟩
    · exact whole
    · -- an object with another password shows that it is written
      have kept := oblivious.kept { password := 0 :: password } (false_is _)
      rw [left] at kept
      exact absurd (congrArg (List.length ∘ URI.password) kept) (by simp)
  · intro whole
    rcases parse_refused cut with ⟨-, same⟩ | ⟨abandoned, -⟩
    · refine ⟨parse_result url, ?_, fun uri _ => same uri⟩
      intro uri uri' accepted
      cases (false_is uri).symm.trans accepted
    · exact absurd abandoned whole

private theorem accepted_oblivious {url : Str} {p : Parts} {port db : Int} (cut : cuts url = some p)
    (port_is : stoi p.port = .ok port) (db_is : p.db = .ok db) : Oblivious url ↔ p.login ≠ none ∧ p.remain ≠ [] := by
  have object := parse_accepted cut port_is db_is
  constructor
  · intro oblivious
    constructor
    · intro missing
      have same := oblivious.fields { password := [] } { password := [0] } (by rw [object])
      rw [object, object, missing] at same
      exact absurd (congrArg URI.password same) (by simp)
    · intro nothing
      have same := oblivious.fields { db := 0 } { db := 1 } (by rw [object])
      rw [object, object, if_pos nothing, if_pos nothing] at same
      exact absurd (congrArg URI.db same) (by simp)
  · rintro ⟨login, remain⟩
    obtain ⟨login, login_is⟩ := Option.ne_none_iff_exists'.mp login
    refine ⟨parse_result url, ?_, ?_⟩
    · intro uri uri' _
      rw [object, object, login_is, if_neg remain, if_neg remain]
      rfl
    · intro uri refused
      rw [object] at refused
      cases refused

/-- Where `stoi` throws, nothing is returned. -/
private theorem thrown_oblivious {url : Str} {e : Exception} (thrown : parsed url = .error e) : Oblivious url := by
  have error_is : ∀ uri, (URI.parse url uri).1 = .error e := fun uri => by rw [parse_fst, thrown]
  refine ⟨parse_result url, ?_, ?_⟩
  · intro uri uri' accepted
    cases (error_is uri).symm.trans accepted
  · intro uri refused
    cases (error_is uri).symm.trans refused

theorem oblivious_iff (url : Str) : Oblivious url ↔ Complete url ∧ ¬ Abandoned url := by
  cases cut : cuts url with
  | none =>
    have complete : Complete url := fun p is => by cases cut.symm.trans is
    rw [refused_oblivious cut]
    exact ⟨fun whole => ⟨complete, whole⟩, And.right⟩
  | some p =>
    have complete_iff : Complete url ↔ (Readable p.port → (p.path = [] ∨ Readable p.path) → p.login ≠ none ∧ p.remain ≠ []) := by
      unfold Complete
      simp only [cut, Option.some.injEq, forall_eq']
    have whole := not_abandoned cut
    rw [complete_iff, ← stoi_readable, ← db_readable]
    cases port_is : stoi p.port with
    | error e =>
      have thrown : parsed url = .error e := by simp only [parsed_eq, cut, port_is]
      simp [thrown_oblivious thrown, whole]
    | ok port =>
      cases db_is : p.db with
      | error e =>
        have thrown : parsed url = .error e := by simp only [parsed_eq, cut, port_is, db_is]
        simp [thrown_oblivious thrown, whole]
      | ok db =>
        rw [accepted_oblivious cut port_is db_is]
        simp [whole]

/-- A URL without a login and a path keeps the password and the database of the one that
    was parsed before. -/
theorem fields_remain : ¬ ∀ url, Oblivious url := by
  intro all
  have same := (all (lit "redis://h:1")).fields {} ⟨lit "p", lit "g", 2, 3⟩ (by decide)
  have first : (URI.parse (lit "redis://h:1") {}).2 = ⟨[], lit "h", 1, 0⟩ := by decide
  have second : (URI.parse (lit "redis://h:1") ⟨lit "p", lit "g", 2, 3⟩).2 = ⟨lit "p", lit "h", 1, 3⟩ := by decide
  rw [first, second] at same
  exact absurd (congrArg URI.db same) (by decide)

end CppRedis.Residues

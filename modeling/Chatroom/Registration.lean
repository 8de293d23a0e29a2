import Chatroom.Login
import Chatroom.StepMachine

/-!
# Registering, and logging in

`UserServiceImpl.saveAndEncode` encodes the password of the user it is given,
puts the encoding into *that* object, and inserts it. An insert that throws is
rolled back in the table; the object is not. A caller that tries again with the
same object has its password encoded a second time, and the row that is stored
in the end has the encoding of an encoding. The login, which compares the
original password with it, refuses (`registered_login_iff`).

The password encoder is a parameter. Its encodings are salted, so a call draws a
salt; `PasswordEncoder.Lawful` says that a password matches its encodings, and
no other password does.
-/

/-- **A password encoder**, with salts `σ`. -/
structure PasswordEncoder (σ : Type) where
  encode : (salt : σ) → (rawPassword : String) → String
  isMatch : (rawPassword encodedPassword : String) → Bool

namespace PasswordEncoder

variable {σ : Type} (encoder : PasswordEncoder σ)

/-- **What is asked of the encoder.** -/
structure Lawful : Prop where
  /-- A password matches its encodings, and nothing else. -/
  isMatch_iff : ∀ p h, encoder.isMatch p h = true ↔ ∃ salt, encoder.encode salt p = h
  /-- Different passwords have different encodings. -/
  encode_injective : ∀ salt salt' p p', encoder.encode salt p = encoder.encode salt' p' → p = p'

/-- The check of a password against a row, which may be without one. -/
def check : String → Option String → Bool
  | p, some h => encoder.isMatch p h
  | _, none => false

end PasswordEncoder

/-- The exceptions of a registration. -/
inductive SaveException where
  /-- There is no password to encode. -/
  | illegalArgumentException
  /-- The insert throws. -/
  | dataAccessException
  deriving DecidableEq, Repr

/-- What a call of `saveAndEncode` meets: the salt it draws, whether the database
takes the row it is to insert, and the id it has for a user without one. -/
structure SaveCall (σ : Type) where
  salt : σ
  available : Bool
  newId : Long
  deriving DecidableEq, Repr

/-- **The user table, and the user object of the caller.** -/
structure Registration where
  db : UserTable
  user : User

/-- The row that is stored for a user object. -/
def User.toRow (user : User) (newId : Long) : User :=
  { user with id := some (user.id.getD newId) }

/-- `UserMapper.insert`: store the row of a user, unless its id is taken. -/
def UserTable.insert (db : UserTable) (user : User) (newId : Long) : Option UserTable :=
  if h : ∀ u ∈ db.rows, u.id ≠ (user.toRow newId).id then
    some
      { rows := db.rows ++ [user.toRow newId]
        id_isSome := by
          intro u hu
          obtain hu | hu := List.mem_append.mp hu
          · exact db.id_isSome u hu
          · rw [List.mem_singleton.mp hu]
            rfl
        ids_nodup := by
          rw [List.map_append, List.map_singleton]
          refine db.ids_nodup.append (List.nodup_singleton _) (List.disjoint_singleton.mpr ?_)
          intro hid
          obtain ⟨u, hu, he⟩ := List.mem_map.mp hid
          exact h u hu he }
  else
    none

namespace UserServiceImpl

variable {σ : Type} (encoder : PasswordEncoder σ)

/-- **`UserServiceImpl.saveAndEncode`**, call after call on one object. -/
def saveAndEncode : StepMachine (SaveCall σ) (Except SaveException Integer) Registration :=
  fun s call =>
    match s.user.password with
    | none => (.error .illegalArgumentException, s)
    | some password =>
      let encode := encoder.encode call.salt password
      let user := { s.user with password := some encode }
      match if call.available then s.db.insert user call.newId else none with
      | some db => (.ok 1, ⟨db, user.toRow call.newId⟩)
      | none => (.error .dataAccessException, { s with user := user })

/-- All the calls throw. -/
def AllThrow (s : Registration) (calls : List (SaveCall σ)) : Prop :=
  ∀ answer ∈ (saveAndEncode encoder).answers s calls, ∃ e, answer = .error e

/-- A password that is encoded by one call after another. -/
def encodings (plain : String) (calls : List (SaveCall σ)) : String :=
  calls.foldl (fun p call => encoder.encode call.salt p) plain

/-- **A login with an account and a password is accepted**, whatever else its
body has. -/
def LoginAccepts {τ : Type} (jwtComponent : JWTComponent τ) (db : UserTable) (now : Date)
    (account plain : String) : Prop :=
  ∀ body : User, body.account = some account → body.password = some plain →
    ∃ response, UserController.login jwtComponent encoder.check db now body = .ok response

variable {encoder} {s : Registration} {call : SaveCall σ} {plain : String}

/-- **A call that throws** leaves the table alone, and its encoding in the
object. -/
theorem state_of_throws (hplain : s.user.password = some plain) {e : SaveException}
    (h : (saveAndEncode encoder s call).1 = .error e) :
    (saveAndEncode encoder s call).2
      = { s with
          user := { s.user with password := some (encoder.encode call.salt plain) } } := by
  simp only [saveAndEncode, hplain] at h ⊢
  split at h
  · exact absurd h (by simp)
  · rfl

/-- **A call that returns** stores one row, with the account of the object and the
encoding of its password. -/
theorem rows_of_returns (hplain : s.user.password = some plain) {n : Integer}
    (h : (saveAndEncode encoder s call).1 = .ok n) :
    ∃ row, (saveAndEncode encoder s call).2.db.rows = s.db.rows ++ [row]
      ∧ row.account = s.user.account
      ∧ row.password = some (encoder.encode call.salt plain) := by
  simp only [saveAndEncode, hplain] at h ⊢
  split at h
  · next db hinsert =>
    split at hinsert
    · unfold UserTable.insert at hinsert
      split at hinsert
      · obtain rfl := Option.some.inj hinsert
        exact ⟨_, rfl, rfl, rfl⟩
      · exact absurd hinsert (by simp)
    · exact absurd hinsert (by simp)
  · exact absurd h (by simp)

theorem encodings_snoc (calls : List (SaveCall σ)) :
    encodings encoder plain (calls ++ [call])
      = encoder.encode call.salt (encodings encoder plain calls) := by
  simp [encodings]

/-- **Calls that all throw** leave the table alone, and the object with its
password encoded as often as there were calls. -/
theorem after_of_allThrow (hplain : s.user.password = some plain) {calls : List (SaveCall σ)}
    (h : AllThrow encoder s calls) :
    (saveAndEncode encoder).after s calls
      = { s with user := { s.user with password := some (encodings encoder plain calls) } } := by
  induction calls using List.reverseRecOn with
  | nil =>
    obtain ⟨db, user⟩ := s
    obtain ⟨id, userName, account, password⟩ := user
    cases hplain
    rfl
  | append_singleton calls call ih =>
    have hbefore : AllThrow encoder s calls := fun answer hanswer =>
      h answer (by simp [hanswer])
    have hafter := ih hbefore
    obtain ⟨e, he⟩ := h (saveAndEncode encoder ((saveAndEncode encoder).after s calls) call).1
      (by simp)
    rw [StepMachine.after_snoc, state_of_throws (by rw [hafter]) he, encodings_snoc, hafter]

/-- The row of a new account is the one its login is compared with. -/
theorem getUserByAccount_of_rows {db db' : UserTable} {row : User} {account : String}
    (hrows : db'.rows = db.rows ++ [row]) (haccount : row.account = some account)
    (hnew : db.selectByAccount (some account) = []) :
    db'.getUserByAccount (some account) = .ok (some row) := by
  have hselect : db'.selectByAccount (some account) = [row] := by
    have hfilter : ∀ db : UserTable, db.selectByAccount (some account)
        = db.rows.filter (fun u => u.account = some account) := fun _ => rfl
    rw [hfilter] at hnew
    rw [hfilter, hrows, List.filter_append, hnew]
    simp [haccount]
  rw [UserTable.getUserByAccount, hselect]

/-- **A login is accepted exactly if the row has an encoding of its password.** -/
theorem loginAccepts_iff {τ : Type} (jwtComponent : JWTComponent τ) (henc : encoder.Lawful)
    {db : UserTable} {row : User} {account h : String} (now : Date)
    (hrow : db.getUserByAccount (some account) = .ok (some row)) (hh : row.password = some h) :
    LoginAccepts encoder jwtComponent db now account plain
      ↔ ∃ salt, encoder.encode salt plain = h := by
  rw [← henc.isMatch_iff]
  constructor
  · intro haccepts
    obtain ⟨response, hresponse⟩ := haccepts ⟨none, none, some account, some plain⟩ rfl rfl
    obtain ⟨⟨u, hu, hmatch⟩, -⟩ := login_eq_ok_iff.mp hresponse
    obtain rfl := Option.some.inj (Except.ok.inj (hrow.symm.trans hu))
    rw [hh] at hmatch
    exact Except.ok.inj hmatch
  · intro hmatch body haccount hpassword
    refine ⟨_, login_eq_ok_iff.mpr ⟨⟨row, ?_, ?_⟩, rfl⟩⟩
    · rw [haccount]
      exact hrow
    · rw [hpassword, hh]
      exact congrArg Except.ok hmatch

/-- The row that is stored after calls that throw matches the original password
exactly if their encodings lead back to it. -/
theorem login_after_iff {τ : Type} (jwtComponent : JWTComponent τ) (henc : encoder.Lawful)
    (now : Date) {account : String} (haccount : s.user.account = some account)
    (hplain : s.user.password = some plain)
    (hnew : s.db.selectByAccount (some account) = []) {failed : List (SaveCall σ)}
    (hfailed : AllThrow encoder s failed) {last : SaveCall σ} {n : Integer}
    (hlast : (saveAndEncode encoder ((saveAndEncode encoder).after s failed) last).1 = .ok n) :
    LoginAccepts encoder jwtComponent ((saveAndEncode encoder).after s (failed ++ [last])).db now
        account plain
      ↔ encodings encoder plain failed = plain := by
  have hafter := after_of_allThrow hplain hfailed
  have hencoded : ((saveAndEncode encoder).after s failed).user.password
      = some (encodings encoder plain failed) := by rw [hafter]
  obtain ⟨row, hrows, hrowAccount, hrowPassword⟩ := rows_of_returns hencoded hlast
  rw [hafter] at hrows hrowAccount
  rw [StepMachine.after_snoc, hafter, loginAccepts_iff jwtComponent henc now
    (getUserByAccount_of_rows hrows (hrowAccount.trans haccount) hnew) hrowPassword]
  constructor
  · rintro ⟨salt, hsalt⟩
    exact (henc.encode_injective _ _ _ _ hsalt).symm
  · intro he
    exact ⟨last.salt, by rw [he]⟩

/-- A password that is no encoding is not led back to by encodings. -/
theorem encodings_eq_self_iff (hplain : ∀ salt p, encoder.encode salt p ≠ plain)
    (calls : List (SaveCall σ)) : encodings encoder plain calls = plain ↔ calls = [] := by
  obtain rfl | ⟨calls, call, rfl⟩ := calls.eq_nil_or_concat
  · simp [encodings]
  · rw [List.concat_eq_append, encodings_snoc]
    exact iff_of_false (hplain _ _) (by simp)

/-- **Register, retry, then log in**: the original password is accepted exactly
if the encodings of the failed attempts lead back to it – which is, unless it is
an encoding itself, if there were none. And an attempt that fails leaves the
object as it was exactly if encoding its password changes nothing. -/
theorem registered_login_iff {τ : Type} (jwtComponent : JWTComponent τ)
    (encoder : PasswordEncoder σ) (henc : encoder.Lawful) (now : Date) (db : UserTable)
    (user : User) (account plain : String) (haccount : user.account = some account)
    (hplain : user.password = some plain) (hnew : db.selectByAccount (some account) = [])
    (failed : List (SaveCall σ)) (last : SaveCall σ) (n : Integer)
    (hfailed : AllThrow encoder ⟨db, user⟩ failed)
    (hlast : (saveAndEncode encoder ((saveAndEncode encoder).after ⟨db, user⟩ failed) last).1
      = .ok n) :
    (LoginAccepts encoder jwtComponent
          ((saveAndEncode encoder).after ⟨db, user⟩ (failed ++ [last])).db now account plain
        ↔ encodings encoder plain failed = plain)
      ∧ ((∀ salt p, encoder.encode salt p ≠ plain) →
          (LoginAccepts encoder jwtComponent
              ((saveAndEncode encoder).after ⟨db, user⟩ (failed ++ [last])).db now account plain
            ↔ failed = []))
      ∧ ∀ call e, (saveAndEncode encoder ⟨db, user⟩ call).1 = .error e →
          ((saveAndEncode encoder ⟨db, user⟩ call).2.user = user
            ↔ encoder.encode call.salt plain = plain) := by
  have hlogin := login_after_iff (s := ⟨db, user⟩) jwtComponent henc now haccount hplain hnew
    hfailed hlast
  refine ⟨hlogin, fun hno => hlogin.trans (encodings_eq_self_iff hno failed),
    fun call e he => ?_⟩
  rw [state_of_throws (s := ⟨db, user⟩) hplain he]
  constructor
  · intro hsame
    have hpassword := congrArg User.password hsame
    exact Option.some.inj (hpassword.trans hplain)
  · intro hsame
    obtain ⟨id, userName, account', password⟩ := user
    cases hplain
    simp [hsame]

/-! ## An encoder to look at -/

/-- The encoding of `123456` with one salt. -/
def encoding : String := "$2a$10$N9qo8uLOickgx2ZMRZoMyeapvT9gqHHhU1pKuMj2cpskE48fM3Kwy"

/-- The encoding of that encoding with another. -/
def encodingTwice : String := "$2a$10$Nb8zSb3lQ3vXkD1rO5fE2uGugeYGVztHMr7NX7FVZ/i9/vIFS8Yh6"

/-- An encoder that agrees with BCrypt on these two, and marks any other
password. -/
def sampleEncoder : PasswordEncoder String where
  encode salt p :=
    if salt = "N9qo8uLOickgx2ZMRZoMye" ∧ p = "123456" then encoding
    else if salt = "Nb8zSb3lQ3vXkD1rO5fE2u" ∧ p = encoding then encodingTwice
    else "noop:" ++ p
  isMatch p h :=
    (p = "123456" ∧ h = encoding) ∨ (p = encoding ∧ h = encodingTwice) ∨ h = "noop:" ++ p

/-- A marked password begins with the mark, and so is no other encoding. -/
theorem noop_ne_encoding (p : String) : "noop:" ++ p ≠ encoding := by
  intro h
  have hlist := congrArg String.toList h
  simp [String.toList_append, encoding] at hlist

theorem noop_ne_encodingTwice (p : String) : "noop:" ++ p ≠ encodingTwice := by
  intro h
  have hlist := congrArg String.toList h
  simp [String.toList_append, encodingTwice] at hlist

theorem sampleEncoder_isMatch_iff (p h : String) :
    sampleEncoder.isMatch p h = true
      ↔ (p = "123456" ∧ h = encoding) ∨ (p = encoding ∧ h = encodingTwice)
        ∨ h = "noop:" ++ p := by
  simp [sampleEncoder]

/-- A password matches what it is encoded as. -/
theorem sampleEncoder_isMatch_encode (salt p : String) :
    sampleEncoder.isMatch p (sampleEncoder.encode salt p) = true := by
  rw [sampleEncoder_isMatch_iff]
  simp only [sampleEncoder]
  split
  · next h => exact Or.inl ⟨h.2, rfl⟩
  · split
    · next h => exact Or.inr (Or.inl ⟨h.2, rfl⟩)
    · exact Or.inr (Or.inr rfl)

theorem lawful_sampleEncoder : sampleEncoder.Lawful where
  isMatch_iff p h := by
    constructor
    · intro hmatch
      obtain ⟨rfl, rfl⟩ | ⟨rfl, rfl⟩ | rfl := (sampleEncoder_isMatch_iff p h).mp hmatch
      · exact ⟨"N9qo8uLOickgx2ZMRZoMye", by simp [sampleEncoder]⟩
      · exact ⟨"Nb8zSb3lQ3vXkD1rO5fE2u", by simp [sampleEncoder]⟩
      · exact ⟨"", by simp [sampleEncoder]⟩
    · rintro ⟨salt, rfl⟩
      exact sampleEncoder_isMatch_encode salt p
  encode_injective salt salt' p p' h := by
    have hp := sampleEncoder_isMatch_encode salt p
    have hp' := sampleEncoder_isMatch_encode salt' p'
    rw [← h] at hp'
    generalize sampleEncoder.encode salt p = e at hp hp'
    rw [sampleEncoder_isMatch_iff] at hp hp'
    have htwice : encoding ≠ encodingTwice := by simp [encoding, encodingTwice]
    obtain ⟨rfl, rfl⟩ | ⟨rfl, rfl⟩ | rfl := hp
    · obtain ⟨rfl, -⟩ | ⟨-, he⟩ | he := hp'
      · rfl
      · exact absurd he htwice
      · exact absurd he.symm (noop_ne_encoding p')
    · obtain ⟨-, he⟩ | ⟨rfl, -⟩ | he := hp'
      · exact absurd he.symm htwice
      · rfl
      · exact absurd he.symm (noop_ne_encodingTwice p')
    · obtain ⟨-, he⟩ | ⟨-, he⟩ | he := hp'
      · exact absurd he (noop_ne_encoding p)
      · exact absurd he (noop_ne_encodingTwice p)
      · exact (String.append_right_inj _).mp he

/-- A user to be registered. -/
def newUser : User := ⟨none, some "ccc", some "1004", some "123456"⟩

/-- A call whose insert throws, with the first salt. -/
def failingCall : SaveCall String := ⟨"N9qo8uLOickgx2ZMRZoMye", false, 3⟩

/-- A call that stores its user, with the second salt. -/
def storingCall : SaveCall String := ⟨"Nb8zSb3lQ3vXkD1rO5fE2u", true, 3⟩

/-- A registration that goes through at once: the password is accepted. -/
theorem registered_login_once :
    LoginAccepts sampleEncoder sampleJWT
      ((saveAndEncode sampleEncoder).after ⟨sampleTable, newUser⟩ ([] ++ [storingCall])).db 0
      "1004" "123456" := by
  refine (registered_login_iff sampleJWT sampleEncoder lawful_sampleEncoder 0 sampleTable newUser
    "1004" "123456" rfl rfl (by decide) [] storingCall 1 ?_ rfl).1.mpr rfl
  exact fun answer hanswer => absurd hanswer List.not_mem_nil

/-- One attempt fails, the next one goes through, and the password is
refused. -/
theorem not_registered_login :
    ¬ ∀ (σ τ : Type) (jwtComponent : JWTComponent τ) (encoder : PasswordEncoder σ),
      encoder.Lawful → ∀ (now : Date) (db : UserTable) (user : User) (account plain : String),
        user.account = some account → user.password = some plain →
        db.selectByAccount (some account) = [] →
        ∀ (failed : List (SaveCall σ)) (last : SaveCall σ) (n : Integer),
          AllThrow encoder ⟨db, user⟩ failed →
          (saveAndEncode encoder ((saveAndEncode encoder).after ⟨db, user⟩ failed) last).1
              = .ok n →
            LoginAccepts encoder jwtComponent
              ((saveAndEncode encoder).after ⟨db, user⟩ (failed ++ [last])).db now account
              plain := by
  intro h
  have hfailed : AllThrow sampleEncoder ⟨sampleTable, newUser⟩ [failingCall] := by
    intro answer hanswer
    exact ⟨.dataAccessException, List.mem_singleton.mp hanswer⟩
  have haccepts := h _ _ sampleJWT sampleEncoder lawful_sampleEncoder 0 sampleTable newUser
    "1004" "123456" rfl rfl (by decide) [failingCall] storingCall 1 hfailed rfl
  have hstored : (saveAndEncode sampleEncoder ((saveAndEncode sampleEncoder).after
      ⟨sampleTable, newUser⟩ [failingCall]) storingCall).1 = .ok 1 := rfl
  have hback := (login_after_iff sampleJWT lawful_sampleEncoder 0 rfl rfl (by decide) hfailed
    hstored).mp haccepts
  exact absurd hback (by simp [encodings, sampleEncoder, failingCall, encoding])

end UserServiceImpl

import Chatroom.ConcurrentHashMap
import Chatroom.Entity

/-!
# From a login to a room query

A login request carries a `User`, and so does the row its account and password
are checked against. `UserController.login` signs an id into a token,
`LoginInterceptor.preHandle` takes it out again and puts it on every later
request, and `RoomController.getRoomListByUser` looks up the rooms of that id.

Two libraries are parameters: the password check is a predicate (an encoder that is
given no password at all throws, `checkPassword`), and the JWT library is a pair of
functions (`JWT`). `JWTComponent.Lawful` says what is
asked of them: a token verifies when it is made, and one that verifies later
gives the claims it was made of, next to its two dates. Nothing here looks into
a token, so the type of the tokens is left open.

The id signed is the one of the *request*, not that of the row. `login_identity`
says what follows from that.
-/

/-- The exceptions of the web layer: the server's own, with code and text, and
what passes through it of the two libraries. -/
inductive WebException where
  | xException (code : Integer) (message : String)
  | tooManyResultsException
  | illegalArgumentException
  | jwtVerificationException
  deriving DecidableEq, Repr

/-- The values that requests and answers are built from. -/
inductive Value where
  | long (n : Option Long)
  | roomList (rooms : Option (List Room))
  deriving DecidableEq, Repr

/-- Maps from names to values. -/
abbrev Params : Type := ConcurrentHashMap String Value

/-- `asLong()` of a claim: null where there is no such claim. -/
def asLong : Option Value → Option Long
  | some (.long n) => n
  | _ => none

/-- Milliseconds since 1970. -/
abbrev Date : Type := Int

/-- **An answer of the server.** -/
structure ResultVO where
  code : Integer
  message : Option String
  data : Option Params

/-- `ResultVO.success`. -/
def ResultVO.success (data : Params) : ResultVO := ⟨200, none, some data⟩

/-- What a servlet request has of interest here: the token header, and the
attribute the interceptor sets. -/
structure HttpServletRequest (τ : Type) where
  token : Option τ
  uid : Option Long

/-! ## Tokens -/

/-- The exceptions of a verification. -/
inductive JWTVerificationException where
  | tokenExpired
  | signatureVerification
  | jwtDecode
  | other
  deriving DecidableEq, Repr

/-- **The JWT library**, with tokens `τ`: make a token of a payload, and verify
one at a time. -/
structure JWT (τ : Type) where
  sign : (secretKey : String) → (payload : Params) → (issuedAt expiresAt : Date) → τ
  verify : (secretKey : String) → (now : Date) → τ → Except JWTVerificationException Params

/-- `JWTComponent`, with the libraries it calls. -/
structure JWTComponent (τ : Type) where
  secretKey : String
  jwt : JWT τ
  /-- The same time a month later, where the server is. -/
  plusMonth : Date → Date

namespace JWTComponent

variable {τ : Type} (jwtComponent : JWTComponent τ)

def encode (now : Date) (map : Params) : τ :=
  jwtComponent.jwt.sign jwtComponent.secretKey map now (jwtComponent.plusMonth now)

def decode (now : Date) (token : τ) : Except WebException Params :=
  match jwtComponent.jwt.verify jwtComponent.secretKey now token with
  | .ok claims => .ok claims
  | .error .tokenExpired => .error (.xException 403 "过期请重新登录")
  | .error .signatureVerification => .error (.xException 403 "无权限")
  | .error .jwtDecode => .error (.xException 403 "无权限")
  | .error .other => .error .jwtVerificationException

/-- **What is asked of the library.** -/
structure Lawful : Prop where
  /-- A token verifies when it is made. -/
  verify_encode : ∀ now map, ∃ claims, jwtComponent.jwt.verify jwtComponent.secretKey now
    (jwtComponent.encode now map) = .ok claims
  /-- A token that verifies gives the claims it was made of, next to its dates. -/
  claims_of_verify : ∀ issued map now claims, jwtComponent.jwt.verify jwtComponent.secretKey now
    (jwtComponent.encode issued map) = .ok claims →
      ∀ name, name ≠ "iat" → name ≠ "exp" → asLong (claims.get name) = asLong (map.get name)

variable {jwtComponent}

theorem Lawful.decode_encode (h : jwtComponent.Lawful) (now : Date) (map : Params) :
    ∃ claims, jwtComponent.decode now (jwtComponent.encode now map) = .ok claims := by
  obtain ⟨claims, hclaims⟩ := h.verify_encode now map
  exact ⟨claims, by rw [decode, hclaims]⟩

theorem Lawful.uid_of_decode (h : jwtComponent.Lawful) {issued now : Date}
    {map claims : Params}
    (hd : jwtComponent.decode now (jwtComponent.encode issued map) = .ok claims) :
    asLong (claims.get "uid") = asLong (map.get "uid") := by
  refine h.claims_of_verify issued map now claims ?_ "uid" (by decide) (by decide)
  unfold decode at hd
  split at hd
  · next c hc =>
    cases hd
    exact hc
  all_goals exact absurd hd (by simp)

end JWTComponent

/-! ## The handlers -/

/-- `UserServiceImpl.getUserByAccount`: null if no row has the account; more than
one is an error. -/
def UserTable.getUserByAccount (db : UserTable) (account : Option String) :
    Except WebException (Option User) :=
  match db.selectByAccount account with
  | [] => .ok none
  | [u] => .ok (some u)
  | _ => .error .tooManyResultsException

/-- The answer to a login: the token header and the body. -/
structure LoginResponse (τ : Type) where
  token : τ
  body : ResultVO

section Handlers

variable {τ : Type} (jwtComponent : JWTComponent τ)
  (matchesPassword : String → Option String → Bool) (db : UserTable)

/-- `PasswordEncoder.matches`, of a request and a row. A request without a password is
an error, a row without one matches nothing. -/
def checkPassword (rawPassword encodedPassword : Option String) : Except WebException Bool :=
  match rawPassword with
  | none => .error .illegalArgumentException
  | some p => .ok (matchesPassword p encodedPassword)

/-- **`UserController.login`**, at a given time. -/
def UserController.login (now : Date) (user : User) : Except WebException (LoginResponse τ) := do
  let u ← db.getUserByAccount user.account
  -- the encoder is asked only if there is a row
  let verified ← match u with
    | none => .ok false
    | some u => checkPassword matchesPassword user.password u.password
  if verified then
    let params := ConcurrentHashMap.empty.put "uid" (.long user.id)
    .ok ⟨jwtComponent.encode now params, ResultVO.success params⟩
  else
    .error (.xException 401 "用户名密码错误！")

/-- **`LoginInterceptor.preHandle`**, at a given time: the request it passes on. -/
def LoginInterceptor.preHandle (now : Date) (request : HttpServletRequest τ) :
    Except WebException (HttpServletRequest τ) :=
  match request.token with
  | none => .error (.xException 401 "未登录")
  | some token => do
      let claims ← jwtComponent.decode now token
      .ok { request with uid := asLong (claims.get "uid") }

/-- **`RoomController.getRoomListByUser`.** -/
def RoomController.getRoomListByUser (tables : RoomTables) (request : HttpServletRequest τ) :
    ResultVO :=
  let roomList := tables.getRoomByUserId request.uid
  ResultVO.success (ConcurrentHashMap.empty.put "roomList" (.roomList roomList))

end Handlers

/-! ## Whose rooms are looked up -/

open UserController LoginInterceptor RoomController

section Identity

variable {τ : Type} (jwtComponent : JWTComponent τ)
  (matchesPassword : String → Option String → Bool) (db : UserTable)

/-- The row a login request is verified against. -/
def Verified (user u : User) : Prop :=
  db.getUserByAccount user.account = .ok (some u)
    ∧ checkPassword matchesPassword user.password u.password = .ok true

/-- **A login keeps the identity**: later requests with its token get the id of
the verified row, and the rooms of that id. -/
def IdentityKept (now : Date) (user : User) : Prop :=
  ∀ response, login jwtComponent matchesPassword db now user = .ok response →
    ∀ later request passed, request.token = some response.token →
      preHandle jwtComponent later request = .ok passed →
      ∃ u, Verified matchesPassword db user u ∧ passed.uid = u.id
        ∧ ∀ tables, getRoomListByUser tables passed
          = getRoomListByUser tables { request with uid := u.id }

/-- **The id of the body is of no consequence**: two logins that differ in it
put the same id on the requests that follow. -/
def IdIgnored (now now' : Date) (user : User) (id' : Option Long) : Prop :=
  ∀ response response', login jwtComponent matchesPassword db now user = .ok response →
    login jwtComponent matchesPassword db now' { user with id := id' } = .ok response' →
    ∀ later later' request request' passed passed', request.token = some response.token →
      request'.token = some response'.token →
      preHandle jwtComponent later request = .ok passed →
      preHandle jwtComponent later' request' = .ok passed' → passed.uid = passed'.uid

variable {jwtComponent matchesPassword db} {now now' : Date} {user : User}

/-- A login with an account that one row has is decided by the encoder. -/
theorem login_of_row {u : User} (hu : db.getUserByAccount user.account = .ok (some u)) :
    login jwtComponent matchesPassword db now user
      = (checkPassword matchesPassword user.password u.password).bind (fun verified =>
          if verified then
            .ok ⟨jwtComponent.encode now (ConcurrentHashMap.empty.put "uid" (.long user.id)),
              ResultVO.success (ConcurrentHashMap.empty.put "uid" (.long user.id))⟩
          else
            .error (.xException 401 "用户名密码错误！")) := by
  unfold login
  rw [hu]
  rfl

/-- A row is verified if it is the one of the account, and the encoder takes it. -/
theorem exists_verified_iff {u : User} (hu : db.getUserByAccount user.account = .ok (some u)) :
    (∃ v, Verified matchesPassword db user v)
      ↔ checkPassword matchesPassword user.password u.password = .ok true := by
  constructor
  · rintro ⟨v, hv, hp⟩
    obtain rfl := Option.some.inj (Except.ok.inj (hu.symm.trans hv))
    exact hp
  · exact fun hp => ⟨u, hu, hp⟩

/-- **A login is accepted exactly for a verified row**, and signs the id of its
request. -/
theorem login_eq_ok_iff {response : LoginResponse τ} :
    login jwtComponent matchesPassword db now user = .ok response
      ↔ (∃ u, Verified matchesPassword db user u)
        ∧ response
          = ⟨jwtComponent.encode now (ConcurrentHashMap.empty.put "uid" (.long user.id)),
            ResultVO.success (ConcurrentHashMap.empty.put "uid" (.long user.id))⟩ := by
  cases hu : db.getUserByAccount user.account with
  | error e =>
    unfold login Verified
    rw [hu]
    exact iff_of_false (fun h => nomatch h) (by simp)
  | ok u =>
    cases u with
    | none =>
      unfold login Verified
      rw [hu]
      exact iff_of_false (fun h => nomatch h) (by simp)
    | some u =>
      rw [login_of_row hu, exists_verified_iff hu]
      cases checkPassword matchesPassword user.password u.password with
      | error e => simp [Except.bind]
      | ok verified =>
        cases verified with
        | false => simp [Except.bind]
        | true => simp [Except.bind, eq_comm]

/-- A request that passes the interceptor with a token gets the id the token was
made of. -/
theorem uid_of_preHandle (hlaw : jwtComponent.Lawful) {id : Option Long} {later : Date}
    {request passed : HttpServletRequest τ}
    (htoken : request.token
      = some (jwtComponent.encode now (ConcurrentHashMap.empty.put "uid" (.long id))))
    (hpass : preHandle jwtComponent later request = .ok passed) :
    passed = { request with uid := id } := by
  unfold preHandle at hpass
  rw [htoken] at hpass
  cases hd : jwtComponent.decode later
      (jwtComponent.encode now (ConcurrentHashMap.empty.put "uid" (.long id))) with
  | error e => simp [hd, bind, Except.bind] at hpass
  | ok claims =>
    have huid := hlaw.uid_of_decode hd
    rw [ConcurrentHashMap.get_put, if_pos rfl] at huid
    simp only [hd, bind, Except.bind, Except.ok.injEq] at hpass
    rw [← hpass, huid, htoken]
    rfl

/-- A request with a fresh token passes. -/
theorem preHandle_fresh (hlaw : jwtComponent.Lawful) (now : Date) (id : Option Long) :
    preHandle jwtComponent now
        ⟨some (jwtComponent.encode now (ConcurrentHashMap.empty.put "uid" (.long id))), none⟩
      = .ok ⟨some (jwtComponent.encode now (ConcurrentHashMap.empty.put "uid" (.long id))),
          id⟩ := by
  obtain ⟨claims, hclaims⟩ :=
    hlaw.decode_encode now (ConcurrentHashMap.empty.put "uid" (.long id))
  have huid := hlaw.uid_of_decode hclaims
  rw [ConcurrentHashMap.get_put, if_pos rfl] at huid
  simp only [preHandle, hclaims, huid, bind, Except.bind]
  rfl

/-- **A login keeps the identity exactly if its body has the id of the row.** -/
theorem identityKept_iff (hlaw : jwtComponent.Lawful) :
    IdentityKept jwtComponent matchesPassword db now user
      ↔ ∀ u, Verified matchesPassword db user u → user.id = u.id := by
  constructor
  · intro h u hu
    obtain ⟨v, hv, huid, -⟩ := h _ (login_eq_ok_iff.mpr ⟨⟨u, hu⟩, rfl⟩) now _ _ rfl
      (preHandle_fresh hlaw now user.id)
    obtain rfl : u = v := by
      have hrow := hu.1.symm.trans hv.1
      exact Option.some.inj (Except.ok.inj hrow)
    exact huid
  · intro h response hlogin later request passed htoken hpass
    obtain ⟨⟨u, hu⟩, rfl⟩ := login_eq_ok_iff.mp hlogin
    have hpassed := uid_of_preHandle hlaw htoken hpass
    rw [h u hu] at hpassed
    rw [hpassed]
    exact ⟨u, hu, rfl, fun _ => rfl⟩

/-- **The id of the body is of no consequence exactly if it is not changed.** -/
theorem idIgnored_iff (hlaw : jwtComponent.Lawful) {id' : Option Long} :
    IdIgnored jwtComponent matchesPassword db now now' user id'
      ↔ ((∃ u, Verified matchesPassword db user u) → user.id = id') := by
  constructor
  · intro h hu
    exact h _ _ (login_eq_ok_iff.mpr ⟨hu, rfl⟩) (login_eq_ok_iff.mpr ⟨hu, rfl⟩) now now' _ _ _ _
      rfl rfl (preHandle_fresh hlaw now user.id) (preHandle_fresh hlaw now' id')
  · intro h response response' hlogin hlogin' later later' request request' passed passed'
      htoken htoken' hpass hpass'
    obtain ⟨hu, rfl⟩ := login_eq_ok_iff.mp hlogin
    obtain ⟨-, rfl⟩ := login_eq_ok_iff.mp hlogin'
    rw [uid_of_preHandle hlaw htoken hpass, uid_of_preHandle hlaw htoken' hpass']
    exact h hu

end Identity

/-- **Whose rooms are looked up after a login**: those of the verified row
exactly if the body of the login has its id, and the same ones for two logins
exactly if their bodies have one id. -/
theorem login_identity {τ : Type} (jwtComponent : JWTComponent τ) (hlaw : jwtComponent.Lawful)
    (matchesPassword : String → Option String → Bool) (db : UserTable)
    (now now' : Date) (user : User) (id' : Option Long) :
    (IdentityKept jwtComponent matchesPassword db now user
        ↔ ∀ u, Verified matchesPassword db user u → user.id = u.id)
      ∧ (IdIgnored jwtComponent matchesPassword db now now' user id'
        ↔ ((∃ u, Verified matchesPassword db user u) → user.id = id')) :=
  ⟨identityKept_iff hlaw, idIgnored_iff hlaw⟩

/-! ## A library to look at -/

/-- Tokens that carry key, payload and dates in the open. -/
def sampleJWT : JWTComponent (String × Params × Date × Date) where
  secretKey := "secret"
  jwt :=
    { sign := fun secretKey payload issuedAt expiresAt =>
        (secretKey, payload, issuedAt, expiresAt)
      verify := fun secretKey now (key, payload, issuedAt, expiresAt) =>
        if key ≠ secretKey then .error .signatureVerification
        else if expiresAt < now then .error .tokenExpired
        else
          let iat := Int64.ofInt (issuedAt / 1000)
          let exp := Int64.ofInt (expiresAt / 1000)
          .ok ((payload.put "iat" (.long iat)).put "exp" (.long exp)) }
  plusMonth := fun now => now + 2678400000

theorem lawful_sampleJWT : sampleJWT.Lawful where
  verify_encode now map := by
    have hmonth : ¬ now + 2678400000 < now :=
      Int.not_lt.mpr (Int.le_add_of_nonneg_right (by decide))
    exact ⟨_, by
      simp only [sampleJWT, JWTComponent.encode, ne_eq, not_true, if_false, hmonth]; rfl⟩
  claims_of_verify issued map now claims h name hiat hexp := by
    by_cases hlate : issued + 2678400000 < now
    · simp [sampleJWT, JWTComponent.encode, hlate] at h
    · simp only [sampleJWT, JWTComponent.encode, ne_eq, not_true, if_false, hlate,
        Except.ok.injEq] at h
      rw [← h, ConcurrentHashMap.get_put, if_neg hexp, ConcurrentHashMap.get_put, if_neg hiat]

/-- The row of a user as `saveAndEncode` stores it, with the encoding of its
password. -/
def encodedAaa : User :=
  { aaa with password := some "$2a$10$N9qo8uLOickgx2ZMRZoMyeapvT9gqHHhU1pKuMj2cpskE48fM3Kwy" }

def encodedTable : UserTable where
  rows := [encodedAaa]
  id_isSome := by decide
  ids_nodup := by decide

/-- The check of a password, as it comes out for this row. -/
def sampleMatches (password : String) (encoded : Option String) : Bool :=
  some password == aaa.password && encoded == encodedAaa.password

/-- The login of this user is verified against the row. -/
theorem verified_encodedAaa (id : Option Long) :
    Verified sampleMatches encodedTable { aaa with id := id } encodedAaa :=
  ⟨rfl, by simp [checkPassword, sampleMatches, aaa, encodedAaa]⟩

/-- A login whose body has the id of the row. -/
theorem login_identity_sample : IdentityKept sampleJWT sampleMatches encodedTable 0 aaa := by
  refine (login_identity sampleJWT lawful_sampleJWT sampleMatches encodedTable 0 0 aaa
    none).1.mpr (fun u hu => ?_)
  have hrow := (verified_encodedAaa aaa.id).1.symm.trans hu.1
  rw [← Option.some.inj (Except.ok.inj hrow)]
  rfl

/-- A body without an id, as the login page sends it, gets a token without
one. -/
theorem not_login_identity :
    ¬ ∀ (τ : Type) (jwtComponent : JWTComponent τ), jwtComponent.Lawful →
      ∀ (matchesPassword : String → Option String → Bool) (db : UserTable)
        (now now' : Date) (user : User) (id' : Option Long),
        IdentityKept jwtComponent matchesPassword db now user
          ∧ IdIgnored jwtComponent matchesPassword db now now' user id' := by
  intro h
  have hkept := (h _ sampleJWT lawful_sampleJWT sampleMatches encodedTable 0 0
    { aaa with id := none } none).1
  have hid := (identityKept_iff lawful_sampleJWT).mp hkept encodedAaa (verified_encodedAaa none)
  exact absurd hid (by decide)

import Chatroom.Login
import Chatroom.PrefixInduction

/-!
# The web server

Every HTTP request is first matched with a handler, by path and method, then
shown to the interceptor if its path is not excluded, and then handled. What is
thrown on the way is answered by `ExceptionController`, with a `ResultVO`.
`WebServer.answer` is that way, over the methods of `Login`. Where the request is for a
file, Spring asks `ExceptionController` only after it has forwarded the request to
`/error`; the interceptor throws there once more, so the answer is the same.

Paths are matched by their segments. `WebMvcConfig` puts everything under the
interceptor and excludes four paths, so those are open to everybody
(`applies_addInterceptors_iff`). All the rest is behind the interceptor, the
files under `static` included, and a browser that follows a link or loads a
script sends no token. So a script never comes with the page that loads it
(`browser_sees_pages`), and that is the script by which the login page logs in.

A login that is refused is to say no more than that (`login_answers`). It says more where
several rows have the account, and where the request has no password: an encoder that
is given none throws, and it is asked only if there is a row.

What a token proves is said over runs. If nobody guesses tokens, whoever passes
the interceptor has one that an accepted login was answered with before, and is
known by the id that the body of this login had (`passed_after_login`).

Spring's own handlers (`/error`, `OPTIONS`) are left out, but for its answers to a
request for a file.
-/

/-- A path, by its segments. A separator at the end counts for nothing, in
patterns as in requests. -/
abbrev RequestPath : Type := List String

/-- The patterns of `WebMvcConfig`: a path, or a path and all below it. -/
inductive PathPattern where
  | exact (path : RequestPath)
  /-- The pattern with `**` at the end. -/
  | below (path : RequestPath)
  deriving DecidableEq, Repr

def PathPattern.fits (path : RequestPath) : PathPattern → Bool
  | exact p => path = p
  | below p => p.isPrefixOf path

/-- Where an interceptor is put. -/
structure InterceptorRegistration where
  pathPatterns : List PathPattern
  excludePathPatterns : List PathPattern

/-- Whether the interceptor sees the requests of a path. -/
def InterceptorRegistration.applies (r : InterceptorRegistration) (path : RequestPath) : Bool :=
  r.pathPatterns.any (PathPattern.fits path)
    && !r.excludePathPatterns.any (PathPattern.fits path)

/-- **`WebMvcConfig.addInterceptors`.** -/
def WebMvcConfig.addInterceptors : InterceptorRegistration where
  pathPatterns := [.below ["api"], .below []]
  excludePathPatterns :=
    [.exact ["api", "user", "login"], .exact ["login"], .exact ["chatroom"], .exact []]

/-- The methods of a request. -/
inductive RequestMethod where
  | get
  | head
  | post
  | put
  | patch
  | delete
  deriving DecidableEq, Repr

/-- The methods of the controllers that have a mapping. -/
inductive HandlerMethod where
  | userLogin
  | test
  | chatroom
  | index
  | login
  deriving DecidableEq, Repr

/-- **The mappings of the controllers.** A mapping for `GET` takes `HEAD` as well. -/
def requestMappings : List (RequestPath × List RequestMethod × HandlerMethod) :=
  [(["api", "user", "login"], [.post], .userLogin), (["test"], [.get, .head], .test),
    (["chatroom"], [.get, .head], .chatroom), ([], [.get, .head], .index),
    (["login"], [.get, .head], .login)]

/-- What goes wrong with a request. -/
inductive RequestException where
  | web (e : WebException)
  /-- The path has mappings, but none for the method. -/
  | methodNotSupported (method : RequestMethod)
  /-- The body is not one that the handler takes. -/
  | messageNotReadable
  deriving DecidableEq, Repr

/-- `ResultVO.error`. -/
def ResultVO.error (code : Integer) (msg : String) : ResultVO := ⟨code, some msg, none⟩

/-- **A request**, as far as it is read. A body that is no `User` is none. -/
structure WebRequest (τ : Type) where
  method : RequestMethod
  path : RequestPath
  token : Option τ
  body : Option User

/-- What the interceptor sees of a request. -/
def WebRequest.toServlet {τ : Type} (request : WebRequest τ) : HttpServletRequest τ :=
  ⟨request.token, none⟩

/-- What a request is answered with. -/
inductive Answer (τ : Type) where
  | view (name : String)
  | login (response : LoginResponse τ)
  /-- The file at a path. -/
  | file (path : RequestPath)
  /-- Spring's own answers, where a file is asked for. -/
  | notFound
  | methodNotAllowed
  /-- What `ExceptionController` makes of an exception. -/
  | error (result : ResultVO)

/-- **The web server**, with the libraries and the data it works on. -/
structure WebServer (τ : Type) where
  jwtComponent : JWTComponent τ
  matchesPassword : String → Option String → Bool
  db : UserTable
  /-- The files under `static`. -/
  resources : List RequestPath
  /-- `getMessage()` of the exceptions that are not the server's own. -/
  getMessage : RequestException → String

namespace WebServer

variable {τ : Type} (server : WebServer τ)

/-- **`ExceptionController`.** -/
def handleException : RequestException → ResultVO
  | .web (.xException code message) => ResultVO.error code message
  | e => ResultVO.error 400 ("请求错误: " ++ server.getMessage e)

/-- The handler of a request: a method of a controller, or else the one that serves
files. -/
def getHandler (path : RequestPath) (method : RequestMethod) :
    Except RequestException (Option HandlerMethod) :=
  match requestMappings.find? (fun m => m.1 = path) with
  | none => .ok none
  | some (_, methods, handler) =>
    if method ∈ methods then .ok (some handler) else .error (.methodNotSupported method)

/-- The handler that serves files. It looks for the file before it looks at the
method. What goes wrong here is not for `ExceptionController`, which answers for the
methods of controllers. -/
def serveFile (request : WebRequest τ) : Answer τ :=
  if request.path ∉ server.resources then .notFound
  else if request.method ∈ [RequestMethod.get, .head] then .file request.path
  else .methodNotAllowed

/-- A handler at work. -/
def runHandler (now : Date) (request : WebRequest τ) :
    Option HandlerMethod → Except RequestException (Answer τ)
  | some .userLogin =>
    match request.body with
    | none => .error .messageNotReadable
    | some user =>
      match UserController.login server.jwtComponent server.matchesPassword server.db now
        user with
      | .ok response => .ok (.login response)
      | .error e => .error (.web e)
  | some .test => .ok (.view "test")
  | some .chatroom => .ok (.view "chat/chatroom")
  | some .index => .ok (.view "index")
  | some .login => .ok (.view "login")
  | none => .ok (server.serveFile request)

/-- The interceptor before a handler, where it is put. -/
def intercept (now : Date) (request : WebRequest τ) : Except RequestException Unit :=
  if WebMvcConfig.addInterceptors.applies request.path then
    match LoginInterceptor.preHandle server.jwtComponent now request.toServlet with
    | .ok _ => .ok ()
    | .error e => .error (.web e)
  else .ok ()

/-- A request on its way: to its handler, past the interceptor, through the handler. -/
def doDispatch (now : Date) (request : WebRequest τ) : Except RequestException (Answer τ) := do
  let handler ← getHandler request.path request.method
  server.intercept now request
  server.runHandler now request handler

/-- **What a request is answered with.** -/
def answer (now : Date) (request : WebRequest τ) : Answer τ :=
  match server.doDispatch now request with
  | .ok a => a
  | .error e => .error (server.handleException e)

end WebServer

/-! ## What is open to everybody -/

open LoginInterceptor WebServer

/-- The paths without the interceptor. -/
def openPaths : List RequestPath := [["api", "user", "login"], ["login"], ["chatroom"], []]

/-- **Four paths are open**, and all the others are not. -/
theorem applies_addInterceptors_iff {path : RequestPath} :
    WebMvcConfig.addInterceptors.applies path = true ↔ path ∉ openPaths := by
  simp [InterceptorRegistration.applies, WebMvcConfig.addInterceptors, PathPattern.fits,
    openPaths]

section Answers

variable {τ : Type} {server : WebServer τ} {now : Date} {request : WebRequest τ}

/-- A path without a mapping is one for files. -/
theorem getHandler_of_not_mem {path : RequestPath} {method : RequestMethod}
    (h : path ∉ requestMappings.map Prod.fst) : getHandler path method = .ok none := by
  have hnone : requestMappings.find? (fun m => m.1 = path) = none := by
    rw [List.find?_eq_none]
    intro m hm hpath
    exact h (List.mem_map.mpr ⟨m, hm, of_decide_eq_true hpath⟩)
  unfold getHandler
  rw [hnone]

/-- A request that the interceptor does not see. -/
theorem intercept_of_mem_openPaths (h : request.path ∈ openPaths) :
    server.intercept now request = .ok () := by
  have hopen : WebMvcConfig.addInterceptors.applies request.path ≠ true :=
    fun happlies => applies_addInterceptors_iff.mp happlies h
  unfold intercept
  rw [if_neg hopen]

/-- A request that the interceptor stops. -/
theorem intercept_of_error {e : WebException} (h : request.path ∉ openPaths)
    (he : preHandle server.jwtComponent now request.toServlet = .error e) :
    server.intercept now request = .error (.web e) := by
  unfold intercept
  rw [if_pos (applies_addInterceptors_iff.mpr h), he]

theorem answer_of_handler {handler : Option HandlerMethod}
    (hhandler : getHandler request.path request.method = .ok handler)
    (hpass : server.intercept now request = .ok ()) :
    server.answer now request
      = match server.runHandler now request handler with
        | .ok a => a
        | .error e => .error (server.handleException e) := by
  unfold answer doDispatch
  rw [hhandler, hpass]
  rfl

theorem answer_of_method {e : RequestException}
    (he : getHandler request.path request.method = .error e) :
    server.answer now request = .error (server.handleException e) := by
  unfold answer doDispatch
  rw [he]
  rfl

theorem answer_of_intercepted {handler : Option HandlerMethod} {e : RequestException}
    (hhandler : getHandler request.path request.method = .ok handler)
    (he : server.intercept now request = .error e) :
    server.answer now request = .error (server.handleException e) := by
  unfold answer doDispatch
  rw [hhandler, he]
  rfl

end Answers

/-! ## What a browser sees -/

/-- The request of a browser that follows a link or loads a script. -/
def browserRequest (τ : Type) (path : RequestPath) : WebRequest τ := ⟨.get, path, none, none⟩

/-- The scripts that a page loads, by the name of its template. -/
def pageScripts (view : String) : List RequestPath :=
  if view ∈ ["login", "chat/chatroom"] then [["js", "jquery-2.2.0.js"]] else []

/-- What a browser gets to see at a path. -/
def browserAnswer {τ : Type} (server : WebServer τ) (path : RequestPath) : Answer τ :=
  if path = [] then .view "index"
  else if path = ["login"] then .view "login"
  else if path = ["chatroom"] then .view "chat/chatroom"
  else if path = ["api", "user", "login"] then
    .error (server.handleException (.methodNotSupported .get))
  else .error (ResultVO.error 401 "未登录")

/-- **A browser sees three pages**, and none of the scripts on them: whatever is under
any other path, there or not, is behind the interceptor. -/
theorem browser_sees_pages {τ : Type} (server : WebServer τ) (now : Date) (path : RequestPath) :
    server.answer now (browserRequest τ path) = browserAnswer server path
      ∧ ∀ view, ∀ script ∈ pageScripts view,
        server.answer now (browserRequest τ script) = .error (ResultVO.error 401 "未登录") := by
  have hguard : ∀ path ∉ openPaths,
      server.answer now (browserRequest τ path) = .error (ResultVO.error 401 "未登录") := by
    intro path hpath
    have hstopped : server.intercept now (browserRequest τ path)
        = .error (.web (.xException 401 "未登录")) := intercept_of_error hpath rfl
    by_cases htest : path = ["test"]
    · subst htest
      have htest : getHandler ["test"] .get = .ok (some .test) := rfl
      exact answer_of_intercepted htest hstopped
    · have hfile : getHandler path .get = .ok none :=
        getHandler_of_not_mem (by simp [requestMappings, openPaths, htest] at hpath ⊢; tauto)
      exact answer_of_intercepted hfile hstopped
  refine ⟨?_, fun view script hscript => ?_⟩
  · unfold browserAnswer
    split
    · next h => subst h; rfl
    · split
      · next h => subst h; rfl
      · split
        · next h => subst h; rfl
        · split
          · next h => subst h; rfl
          · next hindex hlogin hroom hapi =>
            exact hguard path (by simp [openPaths, hindex, hlogin, hroom, hapi])
  · unfold pageScripts at hscript
    split at hscript
    · rw [List.mem_singleton.mp hscript]
      exact hguard _ (by decide)
    · exact absurd hscript (by simp)

/-! ## What a login is answered -/

/-- The request of a login. -/
def loginRequest (τ : Type) (token : Option τ) (user : User) : WebRequest τ :=
  ⟨.post, ["api", "user", "login"], token, some user⟩

section LoginAnswers

variable {τ : Type} {server : WebServer τ} {now : Date} {token : Option τ} {user : User}

/-- A login goes to its handler, with a token or without. -/
theorem answer_loginRequest :
    server.answer now (loginRequest τ token user)
      = match UserController.login server.jwtComponent server.matchesPassword server.db now
          user with
        | .ok response => .login response
        | .error e => .error (server.handleException (.web e)) := by
  have hhandler : getHandler ["api", "user", "login"] .post = .ok (some .userLogin) := rfl
  have hrun : server.runHandler now (loginRequest τ token user) (some .userLogin)
      = match UserController.login server.jwtComponent server.matchesPassword server.db now
          user with
        | .ok response => .ok (.login response)
        | .error e => .error (.web e) := rfl
  rw [answer_of_handler hhandler
    (intercept_of_mem_openPaths (by simp [loginRequest, openPaths])), hrun]
  cases UserController.login server.jwtComponent server.matchesPassword server.db now user with
  | ok response => rfl
  | error e => rfl

/-- The answer to a login is told by how the login comes out. -/
theorem answer_of_login_error {e : WebException}
    (h : UserController.login server.jwtComponent server.matchesPassword server.db now user
      = .error e) :
    server.answer now (loginRequest τ token user)
      = .error (server.handleException (.web e)) := by
  rw [answer_loginRequest, h]

/-- A login with an account that no row has. -/
theorem login_of_no_row (h : server.db.selectByAccount user.account = []) :
    UserController.login server.jwtComponent server.matchesPassword server.db now user
      = .error (.xException 401 "用户名密码错误！") := by
  unfold UserController.login UserTable.getUserByAccount
  rw [h]
  rfl

/-- A login with an account that several rows have. -/
theorem login_of_two_le (h : 2 ≤ (server.db.selectByAccount user.account).length) :
    UserController.login server.jwtComponent server.matchesPassword server.db now user
      = .error .tooManyResultsException := by
  unfold UserController.login UserTable.getUserByAccount
  match hrows : server.db.selectByAccount user.account with
  | [] => exact absurd h (by simp [hrows])
  | [u] => exact absurd h (by simp [hrows])
  | u :: v :: rows => rfl

/-- The row of an account that is the only one. -/
theorem exists_row (h : (server.db.selectByAccount user.account).length = 1) :
    ∃ u, server.db.getUserByAccount user.account = .ok (some u) := by
  obtain ⟨u, hu⟩ := List.length_eq_one_iff.mp h
  exact ⟨u, by rw [UserTable.getUserByAccount, hu]⟩

/-- A login without a password, for an account that there is. -/
theorem login_of_password_none (h : (server.db.selectByAccount user.account).length = 1)
    (hnone : user.password = none) :
    UserController.login server.jwtComponent server.matchesPassword server.db now user
      = .error .illegalArgumentException := by
  obtain ⟨u, hu⟩ := exists_row h
  rw [login_of_row hu, hnone]
  rfl

/-- A login that is refused by the encoder. -/
theorem login_of_not_verified (h : (server.db.selectByAccount user.account).length = 1)
    (hsome : user.password ≠ none)
    (hnot : ¬ ∃ u, Verified server.matchesPassword server.db user u) :
    UserController.login server.jwtComponent server.matchesPassword server.db now user
      = .error (.xException 401 "用户名密码错误！") := by
  obtain ⟨u, hu⟩ := exists_row h
  obtain ⟨p, hp⟩ := Option.ne_none_iff_exists'.mp hsome
  rw [exists_verified_iff hu, hp] at hnot
  rw [login_of_row hu, hp]
  have hrefused : server.matchesPassword p u.password = false := by
    simpa [checkPassword] using hnot
  simp only [checkPassword, hrefused]
  rfl

end LoginAnswers

/-- **What a login is answered.** A verified one gets its token. Of the others, those with
an account that several rows have are told of an error, whatever their password is; and
so are those with no password at all, if one row has the account. All the rest are
answered alike, whether or not there is such an account. -/
theorem login_answers {τ : Type} (server : WebServer τ) (now : Date) (token : Option τ)
    (user : User) :
    ((∃ response, server.answer now (loginRequest τ token user) = .login response)
        ↔ ∃ u, Verified server.matchesPassword server.db user u)
      ∧ (2 ≤ (server.db.selectByAccount user.account).length →
        server.answer now (loginRequest τ token user)
          = .error (server.handleException (.web .tooManyResultsException)))
      ∧ ((server.db.selectByAccount user.account).length = 1 → user.password = none →
        server.answer now (loginRequest τ token user)
          = .error (server.handleException (.web .illegalArgumentException)))
      ∧ ((server.db.selectByAccount user.account).length ≤ 1 →
        (user.password = none → server.db.selectByAccount user.account = []) →
        (¬ ∃ u, Verified server.matchesPassword server.db user u) →
          server.answer now (loginRequest τ token user)
            = .error (ResultVO.error 401 "用户名密码错误！")) := by
  have htwo : 2 ≤ (server.db.selectByAccount user.account).length →
      server.answer now (loginRequest τ token user)
        = .error (server.handleException (.web .tooManyResultsException)) :=
    fun h => answer_of_login_error (login_of_two_le h)
  have hnone : (server.db.selectByAccount user.account).length = 1 → user.password = none →
      server.answer now (loginRequest τ token user)
        = .error (server.handleException (.web .illegalArgumentException)) :=
    fun h hpassword => answer_of_login_error (login_of_password_none h hpassword)
  have hrefused : (server.db.selectByAccount user.account).length ≤ 1 →
      (user.password = none → server.db.selectByAccount user.account = []) →
      (¬ ∃ u, Verified server.matchesPassword server.db user u) →
        server.answer now (loginRequest τ token user)
          = .error (ResultVO.error 401 "用户名密码错误！") := by
    intro h hpassword hnot
    obtain hempty | hone := Nat.le_one_iff_eq_zero_or_eq_one.mp h
    · exact answer_of_login_error (login_of_no_row (List.length_eq_zero_iff.mp hempty))
    · have hsome : user.password ≠ none := by
        intro hpasswordNone
        rw [hpassword hpasswordNone] at hone
        exact absurd hone (by simp)
      exact answer_of_login_error (login_of_not_verified hone hsome hnot)
  refine ⟨⟨?_, fun hu => ?_⟩, htwo, hnone, hrefused⟩
  · rintro ⟨response, hresponse⟩
    rw [answer_loginRequest] at hresponse
    cases hlogin : UserController.login server.jwtComponent server.matchesPassword server.db now
        user with
    | error e =>
      rw [hlogin] at hresponse
      exact absurd hresponse (by simp)
    | ok response' => exact (login_eq_ok_iff.mp hlogin).1
  · refine ⟨⟨server.jwtComponent.encode now (ConcurrentHashMap.empty.put "uid" (.long user.id)),
      ResultVO.success (ConcurrentHashMap.empty.put "uid" (.long user.id))⟩, ?_⟩
    rw [answer_loginRequest, login_eq_ok_iff.mpr ⟨hu, rfl⟩]

/-! ## What a token proves -/

/-- **The requests of a run**, each at its time. -/
abbrev WebRun (τ : Type) : Type := List (Date × WebRequest τ)

/-- The token that a request is answered with, if it is. -/
def tokenOf {τ : Type} : Answer τ → Option τ
  | .login response => some response.token
  | _ => none

/-- **Nobody guesses tokens**: a request of a run that shows a token which verifies shows
one that was an answer before. -/
def NoTokenGuessed {τ : Type} (server : WebServer τ) (es : WebRun τ) : Prop :=
  ∀ pre e, pre ++ [e] <+: es → ∀ token, e.2.token = some token →
    (∃ claims, server.jwtComponent.decode e.1 token = .ok claims) →
      ∃ e' ∈ pre, tokenOf (server.answer e'.1 e'.2) = some token

section Tokens

variable {τ : Type} {server : WebServer τ} {now : Date} {request : WebRequest τ}

/-- The mapping by which a request came to its handler. -/
theorem mem_requestMappings_of_getHandler {path : RequestPath} {method : RequestMethod}
    {handler : HandlerMethod} (h : getHandler path method = .ok (some handler)) :
    ∃ methods, (path, methods, handler) ∈ requestMappings ∧ method ∈ methods := by
  unfold getHandler at h
  split at h
  · exact absurd (Except.ok.inj h) (by simp)
  · next p methods found hfind =>
    have hpath : p = path := by simpa using List.find?_some hfind
    split at h
    · next hmethod =>
      obtain rfl : found = handler := Option.some.inj (Except.ok.inj h)
      exact ⟨methods, hpath ▸ List.mem_of_find?_eq_some hfind, hmethod⟩
    · exact absurd h (by simp)

/-- A request that is not answered with an error came to its handler. -/
theorem handled_of_answer {a : Answer τ} (ha : server.answer now request = a)
    (hne : ∀ result, a ≠ .error result) :
    ∃ handler, getHandler request.path request.method = .ok handler
      ∧ server.intercept now request = .ok ()
      ∧ server.runHandler now request handler = .ok a := by
  cases hhandler : getHandler request.path request.method with
  | error e => exact absurd (ha.symm.trans (answer_of_method hhandler)) (hne _)
  | ok handler =>
    cases hpass : server.intercept now request with
    | error e => exact absurd (ha.symm.trans (answer_of_intercepted hhandler hpass)) (hne _)
    | ok _ =>
      refine ⟨handler, rfl, rfl, ?_⟩
      rw [answer_of_handler hhandler hpass] at ha
      cases hrun : server.runHandler now request handler with
      | error e =>
        rw [hrun] at ha
        exact absurd ha.symm (hne _)
      | ok b =>
        rw [hrun] at ha
        exact congrArg Except.ok ha

/-- **An answer with a token is the answer to a login** that was verified. -/
theorem login_of_tokenOf {token : τ}
    (h : tokenOf (server.answer now request) = some token) :
    ∃ user, request.method = .post ∧ request.path = ["api", "user", "login"]
      ∧ request.body = some user ∧ (∃ u, Verified server.matchesPassword server.db user u)
      ∧ token
        = server.jwtComponent.encode now
          (ConcurrentHashMap.empty.put "uid" (.long user.id)) := by
  generalize ha : server.answer now request = a at h
  cases a with
  | view name => exact absurd h (by simp [tokenOf])
  | file path => exact absurd h (by simp [tokenOf])
  | notFound => exact absurd h (by simp [tokenOf])
  | methodNotAllowed => exact absurd h (by simp [tokenOf])
  | error result => exact absurd h (by simp [tokenOf])
  | login response =>
    obtain rfl : response.token = token := Option.some.inj h
    obtain ⟨handler, hhandler, -, hrun⟩ := handled_of_answer ha (by simp)
    have hlogin : handler = some .userLogin := by
      cases handler with
      | none =>
        have hfile : server.serveFile request = .login response := Except.ok.inj hrun
        unfold serveFile at hfile
        split at hfile
        · exact absurd hfile (by simp)
        · split at hfile
          · exact absurd hfile (by simp)
          · exact absurd hfile (by simp)
      | some handler =>
        cases handler with
        | userLogin => rfl
        | _ => exact absurd hrun (by simp [runHandler])
    subst hlogin
    obtain ⟨methods, hmem, hmethod⟩ := mem_requestMappings_of_getHandler hhandler
    obtain ⟨hpath, rfl⟩ : request.path = ["api", "user", "login"] ∧ methods = [.post] := by
      simpa [requestMappings] using hmem
    unfold runHandler at hrun
    cases hbody : request.body with
    | none =>
      rw [hbody] at hrun
      exact absurd hrun (by simp)
    | some user =>
      rw [hbody] at hrun
      cases hresponse : UserController.login server.jwtComponent server.matchesPassword server.db
          now user with
      | error e =>
        simp only [hresponse] at hrun
        exact absurd hrun (by simp)
      | ok answered =>
        simp only [hresponse, Except.ok.injEq, Answer.login.injEq] at hrun
        subst hrun
        obtain ⟨hu, rfl⟩ := login_eq_ok_iff.mp hresponse
        exact ⟨user, List.mem_singleton.mp hmethod, hpath, rfl, hu, rfl⟩

end Tokens

/-- **Who passes the interceptor has logged in**, if nobody guesses tokens: there was a
login before, with an account and a password that fit a row, and the request is known
by the id that the body of this login had. -/
theorem passed_after_login {τ : Type} {server : WebServer τ} (hlaw : server.jwtComponent.Lawful)
    {es pre : WebRun τ} (hguess : NoTokenGuessed server es) {now : Date} {request : WebRequest τ}
    (hpre : pre ++ [(now, request)] <+: es) {passed : HttpServletRequest τ}
    (hpass : preHandle server.jwtComponent now request.toServlet = .ok passed) :
    ∃ e ∈ pre, ∃ user u, e.2.method = .post ∧ e.2.path = ["api", "user", "login"]
      ∧ e.2.body = some user ∧ Verified server.matchesPassword server.db user u
      ∧ passed.uid = user.id := by
  unfold preHandle at hpass
  cases htoken : request.token with
  | none => simp [WebRequest.toServlet, htoken] at hpass
  | some token =>
    cases hclaims : server.jwtComponent.decode now token with
    | error e => simp [WebRequest.toServlet, htoken, hclaims, bind, Except.bind] at hpass
    | ok claims =>
      obtain ⟨e, he, hanswer⟩ := hguess pre _ hpre token htoken ⟨claims, hclaims⟩
      obtain ⟨user, hmethod, hpath, hbody, ⟨u, hu⟩, rfl⟩ := login_of_tokenOf hanswer
      refine ⟨e, he, user, u, hmethod, hpath, hbody, hu, ?_⟩
      have huid := hlaw.uid_of_decode hclaims
      rw [ConcurrentHashMap.get_put, if_pos rfl] at huid
      simp only [WebRequest.toServlet, htoken, hclaims, bind, Except.bind,
        Except.ok.injEq] at hpass
      rw [← hpass]
      exact huid

/-- The server of one user, with no file. -/
def sampleServer : WebServer (String × Params × Date × Date) where
  jwtComponent := sampleJWT
  matchesPassword := sampleMatches
  db := encodedTable
  resources := []
  getMessage _ := ""

/-- The token that a login of this user is answered with, at the time 0. -/
def sampleToken : String × Params × Date × Date :=
  sampleJWT.encode 0 (ConcurrentHashMap.empty.put "uid" (.long aaa.id))

/-- The answer to this login. -/
theorem login_sampleServer :
    UserController.login sampleServer.jwtComponent sampleServer.matchesPassword
        sampleServer.db 0 aaa
      = .ok ⟨sampleToken, ResultVO.success (ConcurrentHashMap.empty.put "uid" (.long aaa.id))⟩ :=
  login_eq_ok_iff.mpr ⟨⟨encodedAaa, verified_encodedAaa aaa.id⟩, rfl⟩

/-- A user logs in, and asks for a page behind the interceptor. -/
theorem passed_after_login_sample :
    ∃ e ∈ [((0 : Date), loginRequest (String × Params × Date × Date) none aaa)], ∃ user u,
      e.2.method = .post ∧ e.2.path = ["api", "user", "login"] ∧ e.2.body = some user
        ∧ Verified sampleMatches encodedTable user u ∧ aaa.id = user.id := by
  have hlogin :
      tokenOf (sampleServer.answer 0 (loginRequest _ none aaa)) = some sampleToken := by
    rw [answer_loginRequest, login_sampleServer]
    rfl
  have hguess : NoTokenGuessed sampleServer
      [(0, loginRequest _ none aaa), (0, ⟨.get, ["test"], some sampleToken, none⟩)] := by
    simp only [NoTokenGuessed, forall_step_cons, forall_step_nil]
    refine ⟨fun token h => absurd h (by simp [loginRequest]), fun token h _ => ?_, trivial⟩
    obtain rfl : sampleToken = token := Option.some.inj h
    exact ⟨_, List.mem_singleton_self _, hlogin⟩
  have hlaw : sampleServer.jwtComponent.Lawful := lawful_sampleJWT
  have hpass : preHandle sampleServer.jwtComponent 0 ⟨some sampleToken, none⟩
      = .ok ⟨some sampleToken, aaa.id⟩ := preHandle_fresh lawful_sampleJWT 0 aaa.id
  exact @passed_after_login _ sampleServer hlaw _ [(0, loginRequest _ none aaa)] hguess 0
    ⟨.get, ["test"], some sampleToken, none⟩ (List.prefix_refl _) _ hpass

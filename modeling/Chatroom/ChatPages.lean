import Chatroom.ServerPipeline
import Chatroom.WebServer
import Mathlib.Algebra.Group.Int.Defs

/-!
# The pages, as the clients of the chat server

The templates are the clients that come with the server. The login page keeps the
id that its login was answered with, in the session storage of the tab, and a
chat page reads it once, when it is loaded, and puts it into every frame as the
sender. So a page has one sender for as long as its web socket is open, and the
server, which takes the sender of a frame on trust, links the channel of a page as
one user at most (`pages_speak_for_one`). Where no two pages were logged in under
one id, the two channel maps stay inverse – what a client that changes its sender, or
a second tab, would spoil.

But the id that a login is answered with is the one of its own body. The login page
sends a body without one, and Jackson leaves out of the answer what is null; what the
page then keeps is the text `undefined`, and no frame with that sender can be parsed.
Nobody who logs in by the login page is ever linked (`nobody_by_login_page`).

Of the storage, only the id is followed: no page reads the token again.
-/

open ChatroomServerHandler UserController UserTable

/-- **The conversion of a JSON string to a `Long`**, by fastjson: an exception, null, or
a number. -/
structure FastJson where
  castToLong : String → Except Unit (Option Long)

/-- **What is asked of the conversion.** -/
structure FastJson.Lawful (json : FastJson) : Prop where
  /-- The digits of a number are read back. -/
  castToLong_toString : ∀ n : Long, json.castToLong (toString n) = .ok (some n)
  /-- A word is no number. -/
  castToLong_undefined : json.castToLong "undefined" = .error ()

/-! ## The login page -/

/-- The session storage of a tab. -/
abbrev SessionStorage : Type := ConcurrentHashMap String String

/-- `data.data.uid`, when Jackson has written the answer to a login and the page has read
it: a `Long` is written as a string, and an entry that is null is not written. -/
def uidOf (body : ResultVO) : Option String :=
  match body.data.bind (fun data => data.get "uid") with
  | some (.long (some n)) => some (toString n)
  | _ => none

/-- **What the login page keeps** of the answer to its login. `setItem` makes the text
`undefined` of what is not there. -/
def SessionStorage.keep {τ : Type} (storage : SessionStorage) (response : LoginResponse τ) :
    SessionStorage :=
  storage.put "uid" ((uidOf response.body).getD "undefined")

/-- **The body of a login by the login page**: an account and a password. -/
def loginPageBody (account password : String) : User :=
  ⟨none, none, some account, some password⟩

/-! ## The chat page -/

/-- A chat page, by what it has read from the storage. -/
structure ChatroomPage where
  userId : Option String
  deriving DecidableEq, Repr

/-- A chat page is loaded. -/
def ChatroomPage.load (storage : SessionStorage) : ChatroomPage := ⟨storage.get "uid"⟩

/-- The text of a frame, as an object. -/
structure JsonMessage where
  senderId : Option String
  type : Integer
  roomId : String
  content : Option String
  id : Long
  deriving DecidableEq, Repr

/-- What is clicked on a chat page, with the two inputs and the number it draws. -/
inductive Click where
  | createWebSocket (roomId : String) (id : Long)
  | sendMessage (roomId : String) (message : String) (id : Long)
  deriving DecidableEq, Repr

/-- **What a chat page sends.** -/
def ChatroomPage.send (page : ChatroomPage) : Click → JsonMessage
  | .createWebSocket roomId id => ⟨page.userId, 1, roomId, none, id⟩
  | .sendMessage roomId message id => ⟨page.userId, 2, roomId, some message, id⟩

/-- **What `JSON.parseObject` makes of it.** -/
def JsonMessage.parse (json : FastJson) (o : JsonMessage) : TextWebSocketFrame :=
  match o.senderId.elim (.ok none) json.castToLong, json.castToLong o.roomId with
  | .ok senderId, .ok roomId =>
      .message ⟨some o.id, some o.type, o.content, senderId, none, roomId⟩
  | _, _ => .unparsable

/-! ## Whom a page speaks for -/

/-- **The tab of a page was logged in with an id in the body of the login**, if it was
logged in at all, and if there was one. -/
inductive LoadedAs {τ : Type} (server : WebServer τ) : ChatroomPage → Option Long → Prop
  | loggedIn (now : Date) (user : User) (response : LoginResponse τ) (storage : SessionStorage)
      (hlogin :
        login server.jwtComponent server.matchesPassword server.db now user = .ok response) :
      LoadedAs server (.load (storage.keep response)) user.id
  | notLoggedIn : LoadedAs server (.load .empty) none

section Page

variable {τ : Type} {server : WebServer τ} {json : FastJson} {page : ChatroomPage}
  {loginId : Option Long} {db : UserTable} {click : Click} {u : User}

/-- What is kept of a login is the id of its body. -/
theorem userId_of_login {now : Date} {user : User} {response : LoginResponse τ}
    {storage : SessionStorage}
    (hlogin :
      login server.jwtComponent server.matchesPassword server.db now user = .ok response) :
    (ChatroomPage.load (storage.keep response)).userId
      = some ((user.id.map toString).getD "undefined") := by
  obtain ⟨-, rfl⟩ := login_eq_ok_iff.mp hlogin
  show (storage.put "uid" _).get "uid" = _
  rw [ConcurrentHashMap.get_put, if_pos rfl]
  have huid : uidOf (ResultVO.success (ConcurrentHashMap.empty.put "uid" (.long user.id)))
      = user.id.map toString := by
    unfold uidOf ResultVO.success
    rw [Option.bind_some, ConcurrentHashMap.get_put, if_pos rfl]
    cases user.id with
    | none => rfl
    | some n => rfl
  rw [huid]

/-- **The sender of what a page sends** is the id of the login, or there is none. -/
theorem senderId_of_parse (hjson : json.Lawful) (hpage : LoadedAs server page loginId)
    {m : Message} (hm : (page.send click).parse json = .message m) : m.senderId = loginId := by
  have huser : (page.send click).senderId = page.userId := by
    cases click with
    | createWebSocket roomId id => rfl
    | sendMessage roomId message id => rfl
  unfold JsonMessage.parse at hm
  rw [huser] at hm
  split at hm
  · next sender room hsender hroom =>
    obtain rfl := TextWebSocketFrame.message.inj hm
    cases hpage with
    | notLoggedIn => exact (Except.ok.inj hsender).symm
    | loggedIn now user response storage hlogin =>
      rw [userId_of_login hlogin] at hsender
      have hcast : json.castToLong ((user.id.map toString).getD "undefined") = .ok sender :=
        hsender
      cases hid : user.id with
      | none =>
        rw [hid] at hcast
        exact absurd (hjson.castToLong_undefined.symm.trans hcast) (by simp)
      | some n =>
        rw [hid] at hcast
        exact (Except.ok.inj ((hjson.castToLong_toString n).symm.trans hcast)).symm
  · exact absurd hm (by simp)

/-- **A page links as the stored user with the id of its login**, or as nobody. -/
theorem getUserById_of_linkSender (hjson : json.Lawful) (hpage : LoadedAs server page loginId)
    (hu : linkSender db ((page.send click).parse json) = some u) :
    db.getUserById loginId = some u := by
  obtain ⟨m, hm, -, hsender⟩ := linkSender_eq_some hu
  rwa [senderId_of_parse hjson hpage hm] at hsender

end Page

/-! ## Runs with pages for clients -/

/-- **All text frames of a run come from pages**: each channel is the web socket of one
page, whose tab was logged in with the id that is given for the channel. -/
def FromPages {τ : Type} (server : WebServer τ) (json : FastJson)
    (page : ChannelHandlerContext → ChatroomPage) (loginId : ChannelHandlerContext → Option Long)
    (es : ChannelEvents) : Prop :=
  (∀ ctx, LoadedAs server (page ctx) (loginId ctx))
    ∧ ∀ pre e, pre ++ [e] <+: es → ∀ f, e.2 = .channelRead (.textWebSocketFrame f) →
      ∃ click, f = ((page e.1).send click).parse json

/-- **Everybody in the channel maps is who the tab of the channel was logged in as.** -/
structure LinkedAsLoggedIn (db : UserTable) (loginId : ChannelHandlerContext → Option Long)
    (r : Registries) : Prop where
  channelId2User : ∀ ctx u, r.channelId2User.get ctx.channelId = some u →
    db.getUserById (loginId ctx) = some u
  user2ChannelCtx : ∀ ctx u, r.user2ChannelCtx.get u = some ctx →
    db.getUserById (loginId ctx) = some u

section Runs

variable {τ : Type} {server : WebServer τ} {json : FastJson}
  {page : ChannelHandlerContext → ChatroomPage} {loginId : ChannelHandlerContext → Option Long}
  {db : UserTable} {factory : WebSocketServerHandshakerFactory} {es : ChannelEvents}
  {r : Registries}

theorem linkedAsLoggedIn_link (h : LinkedAsLoggedIn db loginId r) {ctx : ChannelHandlerContext}
    {u : User} (hu : db.getUserById (loginId ctx) = some u) (roomId : Option Long) :
    LinkedAsLoggedIn db loginId (r.link ctx u roomId) where
  channelId2User c v hv := by
    rw [Registries.channelId2User_link, ConcurrentHashMap.get_put] at hv
    by_cases hid : c.channelId = ctx.channelId
    · rw [if_pos hid] at hv
      rw [ChannelHandlerContext.ext hid, ← Option.some.inj hv]
      exact hu
    · rw [if_neg hid] at hv
      exact h.channelId2User c v hv
  user2ChannelCtx c v hv := by
    rw [Registries.user2ChannelCtx_link, ConcurrentHashMap.get_put] at hv
    by_cases hvu : v = u
    · rw [if_pos hvu] at hv
      rw [← Option.some.inj hv, hvu]
      exact hu
    · rw [if_neg hvu] at hv
      exact h.user2ChannelCtx c v hv

theorem linkedAsLoggedIn_logout (h : LinkedAsLoggedIn db loginId r) (ctx : ChannelHandlerContext)
    (u : User) : LinkedAsLoggedIn db loginId (r.logout ctx u) where
  channelId2User c v hv := by
    rw [Registries.channelId2User_logout, ConcurrentHashMap.get_remove] at hv
    split at hv
    · exact absurd hv (by simp)
    · exact h.channelId2User c v hv
  user2ChannelCtx c v hv := by
    rw [Registries.user2ChannelCtx_logout, ConcurrentHashMap.get_remove] at hv
    split at hv
    · exact absurd hv (by simp)
    · exact h.user2ChannelCtx c v hv

/-- A call keeps it, if it links its channel as who the tab was logged in as. -/
theorem linkedAsLoggedIn_dispatch (h : LinkedAsLoggedIn db loginId r) {e : Event}
    (he : ∀ u, linkedBy db e = some u → db.getUserById (loginId e.ctx) = some u) :
    LinkedAsLoggedIn db loginId (dispatch db e r).registries :=
  keeps_dispatch h (fun _ => ⟨h.channelId2User, h.user2ChannelCtx⟩)
    (fun u roomId hu => linkedAsLoggedIn_link h (he u hu) roomId)
    (fun _ ctx u h _ => linkedAsLoggedIn_logout h ctx u)

/-- What a frame of a page links its channel as. -/
theorem getUserById_of_linkedBy (hjson : json.Lawful)
    (hpage : ∀ ctx, LoadedAs server (page ctx) (loginId ctx))
    {e : ChannelHandlerContext × InboundEvent}
    (he : ∀ f, e.2 = .channelRead (.textWebSocketFrame f) →
      ∃ click, f = ((page e.1).send click).parse json)
    {call : Event} (hcall : chatCall e = some call) {u : User} (hu : linkedBy db call = some u) :
    db.getUserById (loginId call.ctx) = some u := by
  obtain ⟨c, ev⟩ := e
  cases ev with
  | channelActive => cases hcall; exact absurd hu (by simp [linkedBy])
  | channelInactive => cases hcall; exact absurd hu (by simp [linkedBy])
  | exceptionCaught => exact absurd hcall (by simp [chatCall])
  | channelRead msg =>
    cases msg with
    | textWebSocketFrame f =>
      cases hcall
      obtain ⟨click, hf⟩ := he f rfl
      have hlinked : linkSender db f = some u := hu
      rw [hf] at hlinked
      exact getUserById_of_linkSender hjson (hpage c) hlinked
    | _ => exact absurd hcall (by simp [chatCall])

end Runs

/-- **A channel is linked as who its tab was logged in as**, and as nobody else. -/
theorem linkedAsLoggedIn_serverAfter {τ : Type} {server : WebServer τ} {json : FastJson}
    (hjson : json.Lawful) {page : ChannelHandlerContext → ChatroomPage}
    {loginId : ChannelHandlerContext → Option Long} {es : ChannelEvents}
    (hpages : FromPages server json page loginId es)
    (factory : WebSocketServerHandshakerFactory) :
    LinkedAsLoggedIn server.db loginId (serverAfter server.db factory es).chat.registries := by
  have hstart : LinkedAsLoggedIn server.db loginId Registries.empty :=
    ⟨fun ctx u h => absurd h (by simp [Registries.empty]),
      fun ctx u h => absurd h (by simp [Registries.empty])⟩
  refine registries_invariant hstart (fun pre e call hpre hcall h => ?_)
  exact linkedAsLoggedIn_dispatch h
    (fun u hu => getUserById_of_linkedBy hjson hpages.1 (hpages.2 pre e hpre) hcall hu)

/-! ## One tab for each login -/

/-- **No two open pages were logged in under one id.** -/
def OneTabEach (loginId : ChannelHandlerContext → Option Long) (es : ChannelEvents) : Prop :=
  ∀ pre, pre <+: es → ∀ ctx ctx', ChannelIsOpen pre ctx → ChannelIsOpen pre ctx' →
    loginId ctx ≠ none → loginId ctx = loginId ctx' → ctx = ctx'

/-- A call keeps the maps inverse, if no link replaces an entry of another pair. -/
theorem mapsInverse_dispatch {db : UserTable} {r : Registries} (h : r.MapsInverse) {e : Event}
    (he : LinkIsExclusive db r e) : (dispatch db e r).registries.MapsInverse := by
  refine keeps_dispatch h (fun _ => h) (fun u roomId hu => ?_)
    (fun _ _ _ h hu => mapsInverse_logout h hu)
  obtain ⟨f, hf, hsender⟩ := exists_of_linkedBy hu
  exact (mapsInverse_link_iff h e.ctx u roomId).mpr (he e.ctx f u hf hsender)

/-- A call by a frame comes from a text frame that was read. -/
theorem eq_of_chatCall {e : ChannelHandlerContext × InboundEvent} {ctx : ChannelHandlerContext}
    {f : TextWebSocketFrame} (h : chatCall e = some (.channelRead0 ctx f)) :
    e = (ctx, .channelRead (.textWebSocketFrame f)) := by
  obtain ⟨c, ev⟩ := e
  cases ev with
  | channelActive => exact absurd h (by simp [chatCall])
  | channelInactive => exact absurd h (by simp [chatCall])
  | exceptionCaught => exact absurd h (by simp [chatCall])
  | channelRead msg =>
    cases msg with
    | textWebSocketFrame g => cases h; rfl
    | _ => exact absurd h (by simp [chatCall])

/-- **Pages keep the maps inverse**, where no two open ones were logged in under one id. -/
theorem mapsInverse_serverAfter {τ : Type} {server : WebServer τ} {json : FastJson}
    (hjson : json.Lawful) {page : ChannelHandlerContext → ChatroomPage}
    {loginId : ChannelHandlerContext → Option Long} {es : ChannelEvents}
    (hpages : FromPages server json page loginId es) (hreads : ReadsOpen es)
    (hone : OneTabEach loginId es) (factory : WebSocketServerHandshakerFactory) :
    (serverAfter server.db factory es).chat.registries.MapsInverse := by
  refine registries_invariant (P := Registries.MapsInverse)
    (fun u ctx => by simp [Registries.empty]) (fun pre e call hstep hcall hpre => ?_)
  refine mapsInverse_dispatch hpre (fun ctx f u hread hf => ?_)
  subst hread
  -- what is known of the channels before the call
  have hbefore : pre <+: es := before_of_step hstep
  have hlogged : LinkedAsLoggedIn server.db loginId
      (serverAfter server.db factory pre).chat.registries :=
    linkedAsLoggedIn_serverAfter hjson
      ⟨hpages.1, fun pre' e' h => hpages.2 pre' e' (h.trans hbefore)⟩ factory
  have hself : server.db.getUserById (loginId ctx) = some u :=
    getUserById_of_linkedBy hjson hpages.1 (hpages.2 pre e hstep) hcall hf
  have hopen : ChannelIsOpen pre ctx := by
    obtain rfl := eq_of_chatCall hcall
    exact hreads pre _ hstep _ rfl
  refine ⟨fun c hc => ?_, fun v hv => ?_⟩
  · have hother := hlogged.user2ChannelCtx c u hc
    have hid : loginId c = loginId ctx :=
      (id_eq_of_getUserById hother).symm.trans (id_eq_of_getUserById hself)
    have hotherOpen : ChannelIsOpen pre c :=
      channelIsOpen_of_linked (hreads.of_prefix hbefore) c u ((hpre u c).mp hc)
    refine hone pre hbefore c ctx hotherOpen hopen (fun hnone => ?_) hid
    rw [hnone] at hother
    exact absurd hother (by simp)
  · exact Option.some.inj ((hlogged.channelId2User ctx v hv).symm.trans hself)

/-- **Pages speak for one user each.** In every run whose frames come from pages, whoever
is linked on a channel, or reached there, is the stored user with the id that the tab of
its page was logged in with; and the two channel maps are inverse, as long as no two
open pages were logged in under one id – however often pages are closed and loaded
again, link, or fail. -/
theorem pages_speak_for_one {τ : Type} {server : WebServer τ} {json : FastJson}
    (hjson : json.Lawful) {page : ChannelHandlerContext → ChatroomPage}
    {loginId : ChannelHandlerContext → Option Long} {es : ChannelEvents}
    (hpages : FromPages server json page loginId es) (hreads : ReadsOpen es)
    (factory : WebSocketServerHandshakerFactory) :
    LinkedAsLoggedIn server.db loginId (serverAfter server.db factory es).chat.registries
      ∧ (OneTabEach loginId es →
        (serverAfter server.db factory es).chat.registries.MapsInverse) :=
  ⟨linkedAsLoggedIn_serverAfter hjson hpages factory,
    fun hone => mapsInverse_serverAfter hjson hpages hreads hone factory⟩

/-- The number that decimal digits stand for. -/
def decimalNat (cs : List Char) : Option ℕ :=
  if cs ≠ [] ∧ cs.all Char.isDigit then some (Nat.ofDigitChars 10 cs 0) else none

/-- The number that decimal digits stand for, with a sign or without. -/
def decimalInt : List Char → Option Int
  | '-' :: cs => (decimalNat cs).map (fun n : ℕ => -(n : Int))
  | cs => (decimalNat cs).map Int.ofNat

theorem decimalNat_toDigits (n : ℕ) : decimalNat (Nat.toDigits 10 n) = some n := by
  have hdigits : (Nat.toDigits 10 n).all Char.isDigit = true :=
    List.all_eq_true.mpr
      (fun c hc => Nat.isDigit_of_mem_toDigits (by decide) (Nat.le_refl 10) hc)
  rw [decimalNat, if_pos ⟨Nat.toDigits_ne_nil, hdigits⟩, Nat.ofDigitChars_ten_toDigits]

theorem decimalInt_repr (a : Int) : decimalInt a.repr.toList = some a := by
  rw [Int.repr_eq_if]
  split
  · next ha =>
    -- no digit is the sign
    have hsign : decimalInt (Nat.toDigits 10 a.toNat)
        = (decimalNat (Nat.toDigits 10 a.toNat)).map Int.ofNat := by
      unfold decimalInt
      split
      · next cs hcs =>
        have hdigit : '-'.isDigit = true :=
          Nat.isDigit_of_mem_toDigits (by decide) (Nat.le_refl 10)
            (hcs ▸ List.mem_cons_self : '-' ∈ Nat.toDigits 10 a.toNat)
        exact absurd hdigit (by decide)
      · rfl
    rw [Nat.toList_repr, hsign, decimalNat_toDigits]
    exact congrArg some (Int.toNat_of_nonneg ha)
  · next ha =>
    have hsign : "-".toList = ['-'] := by decide
    rw [String.toList_append, Nat.toList_repr, hsign]
    show (decimalNat (Nat.toDigits 10 (-a).toNat)).map (fun n : ℕ => -(n : Int)) = some a
    rw [decimalNat_toDigits, Option.map_some, Int.toNat_of_nonneg (by omega), Int.neg_neg]

/-- The conversion of decimal digits, dates left aside. -/
def decimalJson : FastJson where
  castToLong s :=
    if s ∈ ["", "null", "NULL"] then .ok none
    else
      match decimalInt s.toList with
      | some n => if -2 ^ 63 ≤ n ∧ n < 2 ^ 63 then .ok (some (Int64.ofInt n)) else .error ()
      | none => .error ()

theorem lawful_decimalJson : decimalJson.Lawful where
  castToLong_toString n := by
    have hdigits : decimalInt (toString n).toList = some n.toInt := decimalInt_repr n.toInt
    have hword : toString n ∉ ["", "null", "NULL"] := by
      intro hmem
      have hnone : decimalInt (toString n).toList = none := by
        simp only [List.mem_cons, List.not_mem_nil, or_false] at hmem
        obtain h | h | h := hmem
        · rw [h]
          decide
        · rw [h]
          decide
        · rw [h]
          decide
      exact absurd (hdigits.symm.trans hnone) (by simp)
    have hrange : -2 ^ 63 ≤ n.toInt ∧ n.toInt < 2 ^ 63 := ⟨n.le_toInt, n.toInt_lt⟩
    unfold decimalJson
    simp only [if_neg hword, hdigits, if_pos hrange, Int64.ofInt_toInt]
  castToLong_undefined := by
    have hword : decimalInt "undefined".toList = none := by decide
    unfold decimalJson
    simp only [hword]
    rfl

/-- A chat page in a tab that was logged in with the id of the row. -/
def samplePage : ChatroomPage :=
  .load (SessionStorage.keep .empty ⟨sampleToken,
    ResultVO.success (ConcurrentHashMap.empty.put "uid" (.long aaa.id))⟩)

/-- The page is opened, and its user enters a room. -/
def pageEvents : ChannelEvents :=
  [(⟨1⟩, .channelActive),
    (⟨1⟩, .channelRead (.textWebSocketFrame
      ((samplePage.send (.createWebSocket "7" 5)).parse decimalJson)))]

/-- Whoever the page is linked as is the user of its tab. -/
theorem pages_speak_for_one_samplePage :
    LinkedAsLoggedIn encodedTable (fun _ => aaa.id)
      (serverAfter encodedTable WebSocketRequestHandler.webSocketFactory
        pageEvents).chat.registries := by
  have hpages : FromPages sampleServer decimalJson (fun _ => samplePage) (fun _ => aaa.id)
      pageEvents := by
    refine ⟨fun _ => .loggedIn 0 aaa _ .empty login_sampleServer, ?_⟩
    simp only [pageEvents, forall_step_cons, forall_step_nil]
    refine ⟨fun f h => absurd h (by simp), fun f h => ⟨.createWebSocket "7" 5, ?_⟩, trivial⟩
    simpa using h.symm
  have hreads : ReadsOpen pageEvents := by
    simp only [ReadsOpen, pageEvents, forall_step_cons, forall_step_nil]
    simp [ChannelIsOpen]
  exact (pages_speak_for_one lawful_decimalJson hpages hreads
    WebSocketRequestHandler.webSocketFactory).1

/-! ## Nobody by the login page -/

/-- **A page whose tab was logged in by the login page**, if it was logged in at all. -/
def ByLoginPage {τ : Type} (server : WebServer τ) (page : ChatroomPage) : Prop :=
  page = .load .empty ∨ ∃ now account password response storage,
    login server.jwtComponent server.matchesPassword server.db now
        (loginPageBody account password) = .ok response
      ∧ page = .load (SessionStorage.keep storage response)

/-- The login page sends no id. -/
theorem loadedAs_of_byLoginPage {τ : Type} {server : WebServer τ} {page : ChatroomPage}
    (h : ByLoginPage server page) : LoadedAs server page none := by
  obtain rfl | ⟨now, account, password, response, storage, hlogin, rfl⟩ := h
  · exact .notLoggedIn
  · exact .loggedIn now (loginPageBody account password) response storage hlogin

/-- **Nobody who logs in by the login page is ever linked**: where all frames come from
pages whose tabs were, no user is in any of the registries, in any run. -/
theorem nobody_by_login_page {τ : Type} {server : WebServer τ} {json : FastJson}
    (hjson : json.Lawful) {page : ChannelHandlerContext → ChatroomPage}
    (hpage : ∀ ctx, ByLoginPage server (page ctx)) {es : ChannelEvents}
    (hclicks : ∀ pre e, pre ++ [e] <+: es → ∀ f, e.2 = .channelRead (.textWebSocketFrame f) →
      ∃ click, f = ((page e.1).send click).parse json)
    (factory : WebSocketServerHandshakerFactory) (u : User) :
    (∀ id, (serverAfter server.db factory es).chat.registries.channelId2User.get id ≠ some u)
      ∧ (serverAfter server.db factory es).chat.registries.user2ChannelCtx.get u = none
      ∧ ∀ room,
          u ∉ (serverAfter server.db factory es).chat.registries.roomStubMap.users room := by
  have hpages : FromPages server json page (fun _ => none) es :=
    ⟨fun ctx => loadedAs_of_byLoginPage (hpage ctx), hclicks⟩
  have hlinked : ∀ id,
      (serverAfter server.db factory es).chat.registries.channelId2User.get id ≠ some u :=
    fun id hid => absurd
      ((linkedAsLoggedIn_serverAfter hjson hpages factory).channelId2User ⟨id⟩ u hid) (by simp)
  have honce : LinksOnce server.db factory es := by
    intro pre e hpre call hcall v hv
    have hrow := getUserById_of_linkedBy hjson hpages.1 (hclicks pre e hpre) hcall hv
    exact absurd hrow (by simp)
  have hcovered := linksCovered_serverAfter honce
  have hcount :
      ¬ 0 < (serverAfter server.db factory es).chat.registries.channelId2User.valueCount u :=
    fun hpos => (ConcurrentHashMap.valueCount_pos_iff.mp hpos).elim hlinked
  refine ⟨hlinked, ?_, fun room hroom => ?_⟩
  · rw [← Option.not_isSome_iff_eq_none]
    exact fun hreached => hcount (hcovered.reached u hreached)
  · exact hcount ((List.count_pos_iff.mpr hroom).trans_le (hcovered.entries room u))

/-- The answer to a login by the login page, at the time 0. -/
def loginPageResponse : LoginResponse (String × Params × Date × Date) :=
  ⟨sampleJWT.encode 0 (ConcurrentHashMap.empty.put "uid" (.long none)),
    ResultVO.success (ConcurrentHashMap.empty.put "uid" (.long none))⟩

/-- The login page logs a user in, and the user tries to enter a room. -/
theorem nobody_by_login_page_sample :
    (serverAfter encodedTable WebSocketRequestHandler.webSocketFactory
      [(⟨1⟩, .channelActive), (⟨1⟩, .channelRead (.textWebSocketFrame
        (((ChatroomPage.load (SessionStorage.keep .empty loginPageResponse)).send
          (.createWebSocket "7" 5)).parse
            decimalJson)))]).chat.registries.user2ChannelCtx.get encodedAaa
      = none := by
  have hverified :
      Verified sampleMatches encodedTable (loginPageBody "1002" "123456") encodedAaa :=
    ⟨rfl, by simp [checkPassword, sampleMatches, loginPageBody, aaa, encodedAaa]⟩
  have hlogin : login sampleServer.jwtComponent sampleServer.matchesPassword sampleServer.db 0
      (loginPageBody "1002" "123456") = .ok loginPageResponse :=
    login_eq_ok_iff.mpr ⟨⟨encodedAaa, hverified⟩, rfl⟩
  have hpage : ByLoginPage sampleServer (.load (SessionStorage.keep .empty loginPageResponse)) :=
    Or.inr ⟨0, "1002", "123456", loginPageResponse, .empty, hlogin, rfl⟩
  refine (nobody_by_login_page lawful_decimalJson (fun _ => hpage) ?_
    WebSocketRequestHandler.webSocketFactory encodedAaa).2.1
  simp only [forall_step_cons, forall_step_nil]
  refine ⟨fun f h => absurd h (by simp), fun f h => ⟨.createWebSocket "7" 5, ?_⟩, trivial⟩
  simpa using h.symm

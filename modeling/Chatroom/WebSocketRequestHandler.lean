import Chatroom.PrefixInduction
import Chatroom.ServerHandler

/-!
# The upgrade handler

`WebSocketRequestHandler` stands before the chat handler in the pipeline of
every channel. It answers the request by which a client upgrades to web
sockets, and later the frame by which the client closes. Both need a handshaker,
which Netty makes for the request and which says how this client wants to be
answered.

There is one instance of the handler for all channels, and it keeps the
handshaker in a field. So the field holds the handshaker of the client that
asked last, or null if that one asked for a version that is not supported. A
client that closes is answered through it all the same (`ownClose_iff`).

Netty's part is a parameter, `WebSocketServerHandshakerFactory`. That a
handshaker is fresh is kept by numbering them in the order in which they are
made.
-/

/-- The versions of the protocol there are handshakers for. -/
inductive WebSocketVersion where
  | v00
  | v07
  | v08
  | v13
  deriving DecidableEq, Repr

/-- **A handshaker object**: its number among those made so far, and the version
it speaks. -/
structure WebSocketServerHandshaker where
  number : ℕ
  version : WebSocketVersion
  deriving DecidableEq, Repr

/-- **A request**, as far as the handler or Netty reads it. -/
structure FullHttpRequest where
  /-- Whether the request could be decoded. -/
  decoderResult : Bool
  /-- The header `Upgrade`. -/
  upgrade : Option String
  /-- The header `Sec-WebSocket-Version`. -/
  secWebSocketVersion : Option String
  /-- The header `Sec-WebSocket-Key`. -/
  secWebSocketKey : Option String
  /-- Whether the connection is to be kept, by `HttpHeaders.isKeepAlive`. -/
  keepAlive : Bool
  deriving DecidableEq, Repr

/-- **What Netty makes of a request.** -/
structure WebSocketServerHandshakerFactory where
  /-- The version of the handshaker made for a request, or null. -/
  newHandshaker : FullHttpRequest → Option WebSocketVersion
  /-- Whether a handshake with a request goes through without an exception. -/
  handshake : WebSocketVersion → FullHttpRequest → Bool

/-- What a channel may read. -/
inductive InboundMessage where
  | fullHttpRequest (req : FullHttpRequest)
  | closeWebSocketFrame
  | pingWebSocketFrame
  | textWebSocketFrame (frame : TextWebSocketFrame)
  /-- A frame of any other kind. -/
  | otherWebSocketFrame
  /-- Neither a request nor a frame. -/
  | other
  deriving DecidableEq, Repr

namespace WebSocketRequestHandler

/-- The exceptions the handler throws. -/
inductive Thrown where
  | nullPointerException
  | unsupportedOperationException
  | webSocketHandshakeException
  deriving DecidableEq, Repr

/-- What the handler does to a channel. -/
inductive Action where
  /-- Send a response with a status, and then close the channel or not. -/
  | sendHttpResponse (ctx : ChannelHandlerContext) (status : ℕ) (close : Bool)
  | sendUnsupportedVersionResponse (ctx : ChannelHandlerContext)
  | handshake (handshaker : WebSocketServerHandshaker) (ctx : ChannelHandlerContext)
  | close (handshaker : WebSocketServerHandshaker) (ctx : ChannelHandlerContext)
  | writePong (ctx : ChannelHandlerContext)
  | fireChannelRead (ctx : ChannelHandlerContext) (frame : TextWebSocketFrame)
  | closeChannel (ctx : ChannelHandlerContext)
  deriving DecidableEq, Repr

/-- **The state of the one handler**: its field, and how many handshakers were
made so far. -/
structure State where
  handshaker : Option WebSocketServerHandshaker
  created : ℕ
  deriving DecidableEq, Repr

/-- The handler before any channel is there. -/
def State.new : State := ⟨none, 0⟩

/-- What a call of the handler does. -/
structure Outcome where
  thrown : Option Thrown
  state : State
  actions : List Action
  deriving DecidableEq, Repr

def badRequest : ℕ := 400

def sendHttpResponse (ctx : ChannelHandlerContext) (req : FullHttpRequest) (status : ℕ) :
    Action :=
  .sendHttpResponse ctx status (!req.keepAlive || status ≠ 200)

/-- A request that asks for an upgrade, and so reaches `newHandshaker`. -/
def AsksUpgrade (req : FullHttpRequest) : Prop :=
  req.decoderResult = true ∧ req.upgrade = some "websocket"

instance (req : FullHttpRequest) : Decidable (AsksUpgrade req) :=
  inferInstanceAs (Decidable (_ ∧ _))

variable (factory : WebSocketServerHandshakerFactory)

def handleHttpRequest (ctx : ChannelHandlerContext) (req : FullHttpRequest) (s : State) :
    Outcome :=
  if ¬ AsksUpgrade req then
    ⟨none, s, [sendHttpResponse ctx req badRequest]⟩
  else
    match factory.newHandshaker req with
    | none => ⟨none, { s with handshaker := none }, [.sendUnsupportedVersionResponse ctx]⟩
    | some version =>
      let handshaker : WebSocketServerHandshaker := ⟨s.created, version⟩
      let s' : State := ⟨some handshaker, s.created + 1⟩
      if factory.handshake version req then
        ⟨none, s', [.handshake handshaker ctx]⟩
      else
        ⟨some .webSocketHandshakeException, s', []⟩

def handleHttpWebSocket (ctx : ChannelHandlerContext) (frame : InboundMessage) (s : State) :
    Outcome :=
  match frame with
  | .closeWebSocketFrame =>
    match s.handshaker with
    | some handshaker => ⟨none, s, [.close handshaker ctx]⟩
    | none => ⟨some .nullPointerException, s, []⟩
  | .pingWebSocketFrame => ⟨none, s, [.writePong ctx]⟩
  | .textWebSocketFrame frame => ⟨none, s, [.fireChannelRead ctx frame]⟩
  | _ => ⟨some .unsupportedOperationException, s, []⟩

def channelRead0 (ctx : ChannelHandlerContext) (msg : InboundMessage) (s : State) : Outcome :=
  match msg with
  | .fullHttpRequest req => handleHttpRequest factory ctx req s
  | .other => ⟨none, s, []⟩
  | frame => handleHttpWebSocket ctx frame s

def exceptionCaught (ctx : ChannelHandlerContext) : List Action := [.closeChannel ctx]

/-- **One call of the handler**, with what Netty makes of its exception. -/
def dispatch (ctx : ChannelHandlerContext) (msg : InboundMessage) (s : State) : Outcome :=
  let o := channelRead0 factory ctx msg s
  if o.thrown = none then o else { o with actions := o.actions ++ exceptionCaught ctx }

/-! ## Runs -/

/-- **What was read, in order**, and on which channel. -/
abbrev Reads : Type := List (ChannelHandlerContext × InboundMessage)

/-- The state of the handler after a run. -/
def stateAfter (es : Reads) : State :=
  es.foldl (fun s e => (dispatch factory e.1 e.2 s).state) .new

/-- A request that reaches `newHandshaker`. -/
def IsUpgrade : InboundMessage → Prop
  | .fullHttpRequest req => AsksUpgrade req
  | _ => False

/-- The handshaker of a request whose upgrade succeeds, if it does. -/
def upgraded (s : State) : InboundMessage → Option WebSocketServerHandshaker
  | .fullHttpRequest req =>
    if AsksUpgrade req then
      ((factory.newHandshaker req).filter (fun v => factory.handshake v req)).map
        (fun v => ⟨s.created, v⟩)
    else none
  | _ => none

/-- **The handshaker of a channel's own upgrade**: the one that was made for the
latest of its requests that succeeded. -/
def ownHandshaker (es : Reads) (ctx : ChannelHandlerContext) :
    Option WebSocketServerHandshaker :=
  (es.foldl (fun (p : State × Option WebSocketServerHandshaker) e =>
    ((dispatch factory e.1 e.2 p.1).state,
      if e.1 = ctx then (upgraded factory p.1 e.2).or p.2 else p.2)) (.new, none)).2

/-- **The upgrade a request asks for succeeds.** -/
def Succeeds (req : FullHttpRequest) : Prop :=
  AsksUpgrade req ∧ ∃ v, factory.newHandshaker req = some v ∧ factory.handshake v req = true

/-- **The latest upgrade a run asks for is one of the given channel, and
succeeded.** -/
def UpgradedLast (es : Reads) (ctx : ChannelHandlerContext) : Prop :=
  ∃ pre req later, es = pre ++ (ctx, .fullHttpRequest req) :: later ∧ Succeeds factory req
    ∧ ∀ e ∈ later, ¬ IsUpgrade e.2

/-- **A close is answered through the handshaker of the channel's own
upgrade**, after a run. -/
def CloseIsOwn (es : Reads) (ctx : ChannelHandlerContext) : Prop :=
  ∀ h, ownHandshaker factory es ctx = some h →
    dispatch factory ctx .closeWebSocketFrame (stateAfter factory es)
      = ⟨none, stateAfter factory es, [.close h ctx]⟩

section Step

variable {factory} {ctx : ChannelHandlerContext} {msg : InboundMessage} {req : FullHttpRequest}
  {s : State}

theorem state_dispatch :
    (dispatch factory ctx msg s).state = (channelRead0 factory ctx msg s).state := by
  simp only [dispatch]
  split <;> rfl

/-- Only a request for an upgrade changes the field. -/
theorem state_dispatch_of_not_isUpgrade (h : ¬ IsUpgrade msg) :
    (dispatch factory ctx msg s).state = s := by
  rw [state_dispatch]
  cases msg with
  | fullHttpRequest req => rw [channelRead0, handleHttpRequest,
    if_pos (show ¬ AsksUpgrade req from h)]
  | closeWebSocketFrame =>
    cases hs : s.handshaker with
    | none => simp [channelRead0, handleHttpWebSocket, hs]
    | some handshaker => simp [channelRead0, handleHttpWebSocket, hs]
  | pingWebSocketFrame => rfl
  | textWebSocketFrame frame => rfl
  | otherWebSocketFrame => rfl
  | other => rfl

/-- **A request for an upgrade** leaves its handshaker in the field, or null. -/
theorem state_dispatch_of_asksUpgrade (h : AsksUpgrade req) :
    (dispatch factory ctx (.fullHttpRequest req) s).state
      = ⟨(factory.newHandshaker req).map (fun v => ⟨s.created, v⟩),
        (factory.newHandshaker req).elim s.created (fun _ => s.created + 1)⟩ := by
  rw [state_dispatch, channelRead0, handleHttpRequest, if_neg (not_not_intro h)]
  cases factory.newHandshaker req with
  | none => rfl
  | some v =>
    show (if factory.handshake v req = true then _ else _ : Outcome).state = _
    split <;> rfl

/-- The handshaker of a successful upgrade. -/
theorem upgraded_eq_some_iff {h : WebSocketServerHandshaker} :
    upgraded factory s msg = some h
      ↔ ∃ req, msg = .fullHttpRequest req ∧ AsksUpgrade req
        ∧ factory.newHandshaker req = some h.version
        ∧ factory.handshake h.version req = true ∧ h.number = s.created := by
  cases msg with
  | fullHttpRequest req =>
    by_cases hreq : AsksUpgrade req
    · simp only [upgraded, hreq, if_true, Option.map_eq_some_iff, Option.filter_eq_some_iff]
      constructor
      · rintro ⟨v, ⟨hv, hshake⟩, rfl⟩
        exact ⟨req, rfl, hreq, hv, hshake, rfl⟩
      · rintro ⟨req', he, -, hv, hshake, hnumber⟩
        cases he
        exact ⟨h.version, ⟨hv, hshake⟩, by rw [← hnumber]⟩
    · simp only [upgraded, hreq, if_false]
      refine iff_of_false (by simp) ?_
      rintro ⟨req', he, hreq', -⟩
      cases he
      exact hreq hreq'
  | _ => simp [upgraded]

end Step

section Run

variable (es : Reads) (e : ChannelHandlerContext × InboundMessage) (ctx : ChannelHandlerContext)

@[simp] theorem stateAfter_nil : stateAfter factory [] = .new := rfl

@[simp] theorem stateAfter_snoc :
    stateAfter factory (es ++ [e])
      = (dispatch factory e.1 e.2 (stateAfter factory es)).state := by
  simp [stateAfter]

@[simp] theorem ownHandshaker_nil : ownHandshaker factory [] ctx = none := rfl

/-- The state that a channel's own handshaker is looked up along is the state
of the handler. -/
theorem fold_fst (own : Option WebSocketServerHandshaker) (s : State) :
    (es.foldl (fun (p : State × Option WebSocketServerHandshaker) e =>
      ((dispatch factory e.1 e.2 p.1).state,
        if e.1 = ctx then (upgraded factory p.1 e.2).or p.2 else p.2)) (s, own)).1
      = es.foldl (fun s e => (dispatch factory e.1 e.2 s).state) s := by
  induction es generalizing own s with
  | nil => rfl
  | cons e es ih => exact ih _ _

/-- **A channel's own handshaker** is replaced by a successful upgrade of that
channel, and by nothing else. -/
@[simp] theorem ownHandshaker_snoc :
    ownHandshaker factory (es ++ [e]) ctx
      = if e.1 = ctx then (upgraded factory (stateAfter factory es) e.2).or
          (ownHandshaker factory es ctx)
        else ownHandshaker factory es ctx := by
  unfold ownHandshaker
  rw [List.foldl_append, List.foldl_cons, List.foldl_nil, fold_fst]
  rfl

variable {es e ctx}

theorem upgradedLast_snoc_of_not_isUpgrade (h : ¬ IsUpgrade e.2) :
    UpgradedLast factory (es ++ [e]) ctx ↔ UpgradedLast factory es ctx := by
  constructor
  · rintro ⟨pre, req, later, he, hreq, hlater⟩
    obtain rfl | ⟨later, e', rfl⟩ := later.eq_nil_or_concat
    · obtain ⟨-, he⟩ := List.append_inj' he rfl
      obtain rfl : e = _ := by simpa using he
      exact absurd hreq.1 h
    · rw [List.concat_eq_append, ← List.cons_append, ← List.append_assoc] at he
      obtain ⟨rfl, -⟩ := List.append_inj' he rfl
      refine ⟨pre, req, later, rfl, hreq, fun e' he' => hlater e' ?_⟩
      simp [he']
  · rintro ⟨pre, req, later, rfl, hreq, hlater⟩
    refine ⟨pre, req, later ++ [e], by simp, hreq, fun e' he' => ?_⟩
    obtain he' | he' := List.mem_append.mp he'
    · exact hlater e' he'
    · rw [List.mem_singleton.mp he']
      exact h

theorem upgradedLast_snoc_of_isUpgrade (h : IsUpgrade e.2) :
    UpgradedLast factory (es ++ [e]) ctx
      ↔ e.1 = ctx ∧ ∃ req, e.2 = .fullHttpRequest req ∧ Succeeds factory req := by
  constructor
  · rintro ⟨pre, req, later, he, hreq, hlater⟩
    obtain rfl | ⟨later, e', rfl⟩ := later.eq_nil_or_concat
    · obtain ⟨-, he⟩ := List.append_inj' he rfl
      obtain rfl : e = _ := by simpa using he
      exact ⟨rfl, req, rfl, hreq⟩
    · rw [List.concat_eq_append, ← List.cons_append, ← List.append_assoc] at he
      obtain ⟨-, he⟩ := List.append_inj' he rfl
      obtain rfl : e = e' := by simpa using he
      exact absurd h (hlater e (by simp))
  · obtain ⟨c, msg⟩ := e
    rintro ⟨rfl, req, rfl, hreq⟩
    exact ⟨es, req, [], rfl, hreq, by simp⟩

end Run

section Upgrade

variable {factory} {es : Reads} {c ctx : ChannelHandlerContext} {req : FullHttpRequest}
  {h : WebSocketServerHandshaker}

/-- A channel's own handshaker stays when no upgrade is asked for. -/
theorem ownHandshaker_snoc_of_not_isUpgrade {msg : InboundMessage} (hup : ¬ IsUpgrade msg) :
    ownHandshaker factory (es ++ [(c, msg)]) ctx = ownHandshaker factory es ctx := by
  have hnone : upgraded factory (stateAfter factory es) msg = none := by
    cases hu : upgraded factory (stateAfter factory es) msg with
    | none => rfl
    | some h' =>
      obtain ⟨req, rfl, hreq, -⟩ := upgraded_eq_some_iff.mp hu
      exact absurd hreq hup
  rw [ownHandshaker_snoc, hnone, Option.none_or, ite_self]

/-- A successful upgrade of the channel makes its handshaker. -/
theorem ownHandshaker_snoc_of_succeeds {v : WebSocketVersion} (hreq : AsksUpgrade req)
    (hv : factory.newHandshaker req = some v) (hshake : factory.handshake v req = true) :
    ownHandshaker factory (es ++ [(ctx, .fullHttpRequest req)]) ctx
      = some ⟨(stateAfter factory es).created, v⟩ := by
  have hup : upgraded factory (stateAfter factory es) (.fullHttpRequest req)
      = some ⟨(stateAfter factory es).created, v⟩ :=
    upgraded_eq_some_iff.mpr ⟨req, rfl, hreq, hv, hshake, rfl⟩
  rw [ownHandshaker_snoc, if_pos rfl, hup, Option.some_or]

/-- It stays when another channel asks, or the channel asks in vain. -/
theorem ownHandshaker_snoc_of_not_succeeds (hc : ¬ (c = ctx ∧ Succeeds factory req)) :
    ownHandshaker factory (es ++ [(c, .fullHttpRequest req)]) ctx
      = ownHandshaker factory es ctx := by
  rw [ownHandshaker_snoc]
  split
  · next hctx =>
    cases hu : upgraded factory (stateAfter factory es) (.fullHttpRequest req) with
    | none => rfl
    | some h' =>
      obtain ⟨req', he, hreq, hv, hshake, -⟩ := upgraded_eq_some_iff.mp hu
      cases he
      exact absurd ⟨hctx, hreq, h'.version, hv, hshake⟩ hc
  · rfl

/-- What an upgrade leaves in the field is none of the handshakers made
before. -/
theorem lt_created_and_ne_of_asksUpgrade (hreq : AsksUpgrade req)
    (hnumber : h.number < (stateAfter factory es).created) :
    h.number < (stateAfter factory (es ++ [(c, .fullHttpRequest req)])).created
      ∧ (stateAfter factory (es ++ [(c, .fullHttpRequest req)])).handshaker ≠ some h := by
  rw [stateAfter_snoc, state_dispatch_of_asksUpgrade hreq]
  refine ⟨?_, fun hfield => ?_⟩
  · cases factory.newHandshaker req with
    | none => exact hnumber
    | some v => exact Nat.lt_succ_of_lt hnumber
  · obtain ⟨v, -, rfl⟩ := Option.map_eq_some_iff.mp hfield
    exact absurd hnumber (lt_irrefl _)

end Upgrade

/-- **The field holds the handshaker of a channel's own upgrade exactly if that
upgrade was the last one asked for.** Every handshaker made so far has a number
below the next one's, so that a later one is another. -/
theorem handshaker_eq_own_iff (es : Reads) (ctx : ChannelHandlerContext) :
    ∀ h, ownHandshaker factory es ctx = some h →
      h.number < (stateAfter factory es).created
        ∧ ((stateAfter factory es).handshaker = some h ↔ UpgradedLast factory es ctx) := by
  induction es using List.reverseRecOn with
  | nil => exact fun h hown => absurd hown (by simp)
  | append_singleton es e ih =>
    obtain ⟨c, msg⟩ := e
    intro h hown
    by_cases hup : IsUpgrade msg
    · obtain ⟨req, rfl⟩ : ∃ req, msg = .fullHttpRequest req := by
        cases msg <;> first | exact ⟨_, rfl⟩ | exact absurd hup id
      rw [upgradedLast_snoc_of_isUpgrade factory hup]
      by_cases hc : c = ctx ∧ Succeeds factory req
      · -- the channel's own upgrade: its handshaker is the new one
        obtain ⟨rfl, hreq, v, hv, hshake⟩ := hc
        rw [ownHandshaker_snoc_of_succeeds hreq hv hshake] at hown
        rw [stateAfter_snoc, state_dispatch_of_asksUpgrade hreq, hv, ← Option.some.inj hown]
        exact ⟨Nat.lt_succ_self _, iff_of_true rfl ⟨rfl, req, rfl, hreq, v, hv, hshake⟩⟩
      · rw [ownHandshaker_snoc_of_not_succeeds hc] at hown
        obtain ⟨hnumber, hfield⟩ := lt_created_and_ne_of_asksUpgrade (c := c) hup (ih h hown).1
        refine ⟨hnumber, iff_of_false hfield ?_⟩
        rintro ⟨hctx, req', he, hreq⟩
        cases he
        exact hc ⟨hctx, hreq⟩
    · rw [ownHandshaker_snoc_of_not_isUpgrade hup] at hown
      rw [stateAfter_snoc, state_dispatch_of_not_isUpgrade hup,
        upgradedLast_snoc_of_not_isUpgrade factory hup]
      exact ih h hown

/-- A close is answered through the field. -/
theorem closeIsOwn_iff (es : Reads) (ctx : ChannelHandlerContext) :
    CloseIsOwn factory es ctx
      ↔ (ownHandshaker factory es ctx ≠ none → UpgradedLast factory es ctx) := by
  have hfield := handshaker_eq_own_iff factory es ctx
  unfold CloseIsOwn
  cases hown : ownHandshaker factory es ctx with
  | none => simp
  | some h =>
    rw [← (hfield h hown).2]
    simp only [Option.some_inj, forall_eq', ne_eq, reduceCtorEq, not_false_eq_true, true_imp_iff]
    cases hs : (stateAfter factory es).handshaker with
    | none => simp [dispatch, channelRead0, handleHttpWebSocket, hs]
    | some h' => simp [dispatch, channelRead0, handleHttpWebSocket, hs]

/-- **Every close of a run is answered through the handshaker of the channel's
own upgrade exactly if no other upgrade was asked for in between.** -/
theorem ownClose_iff (es : Reads) :
    (∀ pre ctx, pre ++ [(ctx, .closeWebSocketFrame)] <+: es → CloseIsOwn factory pre ctx)
      ↔ ∀ pre ctx, pre ++ [(ctx, .closeWebSocketFrame)] <+: es →
          ownHandshaker factory pre ctx ≠ none → UpgradedLast factory pre ctx :=
  forall₃_congr (fun pre ctx _ => closeIsOwn_iff factory pre ctx)

/-! ## Two clients -/

/-- What the real factory does: a request without a version is taken for the
oldest one, and the versions that need a key throw without one. -/
def webSocketFactory : WebSocketServerHandshakerFactory where
  newHandshaker req :=
    match req.secWebSocketVersion with
    | none => some .v00
    | some version =>
      if version = "13" then some .v13
      else if version = "8" then some .v08
      else if version = "7" then some .v07
      else none
  handshake version req := version = .v00 || req.secWebSocketKey.isSome

/-- The request a browser upgrades with. -/
def upgradeRequest : FullHttpRequest :=
  ⟨true, some "websocket", some "13", some "dGhlIHNhbXBsZSBub25jZQ==", true⟩

/-- Two clients upgrade, and the first one closes: it is answered through the
handshaker of the second. -/
theorem not_ownClose :
    ¬ ∀ (factory : WebSocketServerHandshakerFactory) (es : Reads) (ctx : ChannelHandlerContext),
      CloseIsOwn factory es ctx := by
  intro h
  have hclose := h webSocketFactory
    [(⟨1⟩, .fullHttpRequest upgradeRequest), (⟨2⟩, .fullHttpRequest upgradeRequest)] ⟨1⟩
    ⟨0, .v13⟩ (by decide)
  exact absurd hclose (by decide)

end WebSocketRequestHandler

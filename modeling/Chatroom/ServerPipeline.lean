import Chatroom.EventLoops
import Chatroom.FailedFrames
import Chatroom.HandlerPipeline
import Chatroom.LinkedSessions

/-!
# The pipeline of the server

Netty gives every channel the same five handlers, in the order of `initChannel`.
The first three make requests and frames of the bytes, and pass everything else
on. The upgrade handler and the chat handler are one object each, for all
channels, and so the state that the events of all channels go through is a pair:
the field of the one and the registries of the other.

`fire` lets an event go along these five. What comes of it is `fire_eq`: the chat
handler is called for a channel that comes or goes and for a text frame, with
`exceptionCaught` after its own exceptions and after no others, and the rest is
the upgrade handler's. So a run of the server is two runs side by side, of either
handler alone (`serverAfter_eq`), and no exchange about the protocol, failed or
not, is ever seen in a registry.

With the life of the channels in view, the registries can be measured against
it. `sessions_need_open_channels` says that a channel that has gone is linked as
nobody, whatever its calls were; and that nobody at all is left behind if no
client links twice on one channel. Under the same condition no frame is ever
written to a channel that has gone (`frames_reach_open_channels`).
-/

open ChatroomServerHandler

/-- An event in the pipeline of a channel. -/
inductive InboundEvent where
  | channelActive
  | channelInactive
  | channelRead (msg : InboundMessage)
  | exceptionCaught
  deriving DecidableEq, Repr

/-- **What the events of all channels go through**: the state of either handler, and
what each has done so far. -/
structure PipelineState where
  upgrade : WebSocketRequestHandler.State
  actions : List WebSocketRequestHandler.Action
  chat : ServerState

/-- The server before the first channel. -/
def PipelineState.new : PipelineState := ⟨.new, [], .empty⟩

/-- What the upgrade handler fires by an action. -/
def WebSocketRequestHandler.Action.fired : WebSocketRequestHandler.Action → Option InboundEvent
  | .fireChannelRead _ frame => some (.channelRead (.textWebSocketFrame frame))
  | _ => none

section Handlers

variable (db : UserTable) (factory : WebSocketServerHandshakerFactory)
  (ctx : ChannelHandlerContext)

/-- **The upgrade handler**, in the pipeline of a channel. It has no method for a
channel that goes, and hands on that one comes. -/
def WebSocketRequestHandler.receive : Handler PipelineState InboundEvent := fun ev s =>
  match ev with
  | .channelActive | .channelInactive => ⟨s, [ev], false⟩
  | .channelRead msg =>
    let o := channelRead0 factory ctx msg s.upgrade
    ⟨{ s with upgrade := o.state, actions := s.actions ++ o.actions },
      o.actions.filterMap Action.fired, o.thrown.isSome⟩
  | .exceptionCaught => ⟨{ s with actions := s.actions ++ exceptionCaught ctx }, [], false⟩

/-- A method of the chat handler is called, and fires its event in its last line. -/
def ChatroomServerHandler.call (e : Event) : Handler PipelineState InboundEvent := fun ev s =>
  let o := invoke db e s.chat.registries
  ⟨{ s with chat := ⟨o.registries, s.chat.written ++ o.written⟩ },
    if o.thrown = none then [ev] else [], o.thrown.isSome⟩

/-- **The chat handler**, in the pipeline of a channel. It accepts text frames, and
passes other messages on. -/
def ChatroomServerHandler.receive : Handler PipelineState InboundEvent := fun ev s =>
  match ev with
  | .channelActive => call db (.channelActive ctx) ev s
  | .channelInactive => call db (.channelInactive ctx) ev s
  | .channelRead (.textWebSocketFrame f) =>
    { call db (.channelRead0 ctx f) ev s with fired := [] }
  | .channelRead _ => ⟨s, [ev], false⟩
  | .exceptionCaught => call db (.exceptionCaught ctx) ev s

/-- **Each handler of the pipeline.** What the first three make of the bytes is in the
messages; an event that is none passes through. -/
def PipelineHandler.receive : PipelineHandler → Handler PipelineState InboundEvent
  | httpCodec | httpChunked | aggregator => Handler.passOn
  | wsRequestHandler => WebSocketRequestHandler.receive factory ctx
  | wsMessageHandler => ChatroomServerHandler.receive db ctx

/-- **An event of a channel goes along its pipeline.** -/
def fire (ev : InboundEvent) (s : PipelineState) : PipelineState :=
  propagate .exceptionCaught (initChannel.map (PipelineHandler.receive db factory ctx)) ev s

end Handlers

/-- **What has happened to the channels**, in order. -/
abbrev ChannelEvents : Type := List (ChannelHandlerContext × InboundEvent)

/-- The state of the server after a run. -/
def serverAfter (db : UserTable) (factory : WebSocketServerHandshakerFactory)
    (es : ChannelEvents) : PipelineState :=
  es.foldl (fun s e => fire db factory e.1 e.2 s) .new

/-! ## What reaches which handler -/

/-- **The call of the chat handler that an event leads to.** -/
def chatCall : ChannelHandlerContext × InboundEvent → Option Event
  | (ctx, .channelActive) => some (.channelActive ctx)
  | (ctx, .channelInactive) => some (.channelInactive ctx)
  | (ctx, .channelRead (.textWebSocketFrame f)) => some (.channelRead0 ctx f)
  | _ => none

/-- **What an event has the upgrade handler do.** -/
def upgradeStep (factory : WebSocketServerHandshakerFactory)
    (p : WebSocketRequestHandler.State × List WebSocketRequestHandler.Action) :
    ChannelHandlerContext × InboundEvent →
      WebSocketRequestHandler.State × List WebSocketRequestHandler.Action
  | (ctx, .channelRead msg) =>
    let o := WebSocketRequestHandler.dispatch factory ctx msg p.1
    (o.state, p.2 ++ o.actions)
  | (ctx, .exceptionCaught) => (p.1, p.2 ++ WebSocketRequestHandler.exceptionCaught ctx)
  | _ => p

section Fire

variable {db : UserTable} {factory : WebSocketServerHandshakerFactory}
  {ctx : ChannelHandlerContext} {s : PipelineState}

/-- **The chat handler at the end of the pipeline** does what Netty makes of its call. -/
theorem propagate_receive {ev : InboundEvent} {e : Event} (he : chatCall (ctx, ev) = some e) :
    propagate .exceptionCaught [ChatroomServerHandler.receive db ctx] ev s
      = { s with chat := dispatchState db s.chat e } := by
  obtain ⟨hstate, hthrew, hev, hexc, hctx⟩ :
      (ChatroomServerHandler.receive db ctx ev s).state
          = { s with chat := ⟨(invoke db e s.chat.registries).registries,
              s.chat.written ++ (invoke db e s.chat.registries).written⟩ }
        ∧ (ChatroomServerHandler.receive db ctx ev s).threw
          = (invoke db e s.chat.registries).thrown.isSome
        ∧ ev ≠ .exceptionCaught ∧ (∀ c, e ≠ .exceptionCaught c) ∧ e.ctx = ctx := by
    cases ev with
    | channelActive => cases he; exact ⟨rfl, rfl, by simp, by simp, rfl⟩
    | channelInactive => cases he; exact ⟨rfl, rfl, by simp, by simp, rfl⟩
    | exceptionCaught => exact absurd he (by simp [chatCall])
    | channelRead msg =>
      cases msg with
      | textWebSocketFrame f => cases he; exact ⟨rfl, rfl, by simp, by simp, rfl⟩
      | _ => exact absurd he (by simp [chatCall])
  rw [propagate_last, hstate, hthrew]
  unfold dispatchState
  cases hthrown : (invoke db e s.chat.registries).thrown with
  | none => rw [if_neg (by simp), dispatch_of_thrown_none db _ hthrown]
  | some t =>
    rw [if_pos ⟨rfl, hev⟩, dispatch_of_thrown db _ hexc (by rw [hthrown]; simp), hctx]
    simp only [ChatroomServerHandler.receive, ChatroomServerHandler.call, List.append_assoc]

/-- The first three handlers drop out. -/
theorem fire_eq_propagate {ev : InboundEvent} :
    fire db factory ctx ev s
      = propagate .exceptionCaught
          [WebSocketRequestHandler.receive factory ctx, ChatroomServerHandler.receive db ctx]
          ev s := by
  unfold fire initChannel
  simp only [List.map_cons, List.map_nil, PipelineHandler.receive, propagate_cons_passOn]

/-- **Nothing but a text frame** gets past the upgrade handler. -/
theorem fired_channelRead0 {msg : InboundMessage} (htext : ∀ f, msg ≠ .textWebSocketFrame f)
    (u : WebSocketRequestHandler.State) :
    (WebSocketRequestHandler.channelRead0 factory ctx msg u).actions.filterMap
      WebSocketRequestHandler.Action.fired = [] := by
  cases msg with
  | textWebSocketFrame f => exact absurd rfl (htext f)
  | pingWebSocketFrame => rfl
  | otherWebSocketFrame => rfl
  | other => rfl
  | closeWebSocketFrame =>
    unfold WebSocketRequestHandler.channelRead0 WebSocketRequestHandler.handleHttpWebSocket
    cases u.handshaker <;> rfl
  | fullHttpRequest req =>
    show (WebSocketRequestHandler.handleHttpRequest factory ctx req u).actions.filterMap _ = []
    unfold WebSocketRequestHandler.handleHttpRequest
    split
    · rfl
    · cases factory.newHandshaker req with
      | none => rfl
      | some version =>
        show (if factory.handshake version req = true then _ else _ :
          WebSocketRequestHandler.Outcome).actions.filterMap _ = []
        split <;> rfl

/-- **A message that is read** goes through the upgrade handler, and on from there if it
is a text frame. -/
theorem fire_channelRead (msg : InboundMessage) :
    fire db factory ctx (.channelRead msg) s
      = ⟨(WebSocketRequestHandler.dispatch factory ctx msg s.upgrade).state,
          s.actions ++ (WebSocketRequestHandler.dispatch factory ctx msg s.upgrade).actions,
          (chatCall (ctx, .channelRead msg)).elim s.chat (dispatchState db s.chat)⟩ := by
  rw [fire_eq_propagate]
  by_cases htext : ∃ f, msg = .textWebSocketFrame f
  · obtain ⟨f, rfl⟩ := htext
    rw [propagate_cons_of_not_threw rfl]
    show propagate .exceptionCaught [ChatroomServerHandler.receive db ctx]
      (.channelRead (.textWebSocketFrame f)) _ = _
    rw [propagate_receive (e := .channelRead0 ctx f) rfl]
    rfl
  · have htext : ∀ f, msg ≠ .textWebSocketFrame f := fun f h => htext ⟨f, h⟩
    have hcall : chatCall (ctx, .channelRead msg) = none := by
      cases msg with
      | textWebSocketFrame f => exact absurd rfl (htext f)
      | _ => rfl
    have hfired :
        (WebSocketRequestHandler.receive factory ctx (.channelRead msg) s).fired = [] :=
      fired_channelRead0 htext s.upgrade
    rw [hcall]
    unfold WebSocketRequestHandler.dispatch
    cases hthrown : (WebSocketRequestHandler.channelRead0 factory ctx msg s.upgrade).thrown with
    | none =>
      have hthrew :
          (WebSocketRequestHandler.receive factory ctx (.channelRead msg) s).threw = false :=
        congrArg Option.isSome hthrown
      rw [propagate_cons_of_not_threw hthrew, hfired]
      simp only [hthrown, if_pos]
      rfl
    | some t =>
      have hthrew :
          (WebSocketRequestHandler.receive factory ctx (.channelRead msg) s).threw = true :=
        congrArg Option.isSome hthrown
      rw [propagate_cons_of_threw hthrew (by simp), hfired]
      simp only [hthrown, reduceCtorEq, if_false, ← List.append_assoc]
      rfl

/-- **An event goes through either handler alone.** -/
theorem fire_eq (e : ChannelHandlerContext × InboundEvent) :
    fire db factory e.1 e.2 s
      = ⟨(upgradeStep factory (s.upgrade, s.actions) e).1,
          (upgradeStep factory (s.upgrade, s.actions) e).2,
          (chatCall e).elim s.chat (dispatchState db s.chat)⟩ := by
  obtain ⟨c, ev⟩ := e
  cases ev with
  | channelRead msg => exact fire_channelRead msg
  | channelActive =>
    rw [fire_eq_propagate, propagate_cons_of_not_threw rfl]
    exact propagate_receive
      (show chatCall (c, .channelActive) = some (.channelActive c) from rfl)
  | channelInactive =>
    rw [fire_eq_propagate, propagate_cons_of_not_threw rfl]
    exact propagate_receive
      (show chatCall (c, .channelInactive) = some (.channelInactive c) from rfl)
  | exceptionCaught =>
    rw [fire_eq_propagate, propagate_cons_of_not_threw rfl]
    rfl

end Fire

/-! ## Runs of the server -/

section Runs

variable {db : UserTable} {factory : WebSocketServerHandshakerFactory} {es : ChannelEvents}

theorem serverAfter_snoc (e : ChannelHandlerContext × InboundEvent) :
    serverAfter db factory (es ++ [e])
      = fire db factory e.1 e.2 (serverAfter db factory es) := by
  simp [serverAfter]

/-- The messages of a run that the upgrade handler reads. -/
def readsOf (es : ChannelEvents) : WebSocketRequestHandler.Reads :=
  es.filterMap (fun
    | (ctx, .channelRead msg) => some (ctx, msg)
    | _ => none)

/-- The state of the upgrade handler depends on what it has read. -/
theorem upgrade_foldl_upgradeStep (es : ChannelEvents) :
    (es.foldl (upgradeStep factory) (.new, [])).1
      = WebSocketRequestHandler.stateAfter factory (readsOf es) := by
  induction es using List.reverseRecOn with
  | nil => rfl
  | append_singleton es e ih =>
    obtain ⟨c, ev⟩ := e
    rw [List.foldl_append, readsOf, List.filterMap_append, ← readsOf]
    cases ev with
    | channelRead msg =>
      show (WebSocketRequestHandler.dispatch factory c msg _).state
        = WebSocketRequestHandler.stateAfter factory (readsOf es ++ [(c, msg)])
      rw [ih, WebSocketRequestHandler.stateAfter_snoc]
    | channelActive => exact ih.trans (congrArg _ (List.append_nil _).symm)
    | channelInactive => exact ih.trans (congrArg _ (List.append_nil _).symm)
    | exceptionCaught => exact ih.trans (congrArg _ (List.append_nil _).symm)

end Runs

/-- **A run of the server is a run of either handler**, side by side: the chat handler's
is the sequential run of the calls that events lead to, with what Netty makes of its
own exceptions, and the upgrade handler's field is told from the messages. -/
theorem serverAfter_eq (db : UserTable) (factory : WebSocketServerHandshakerFactory)
    (es : ChannelEvents) :
    (serverAfter db factory es).chat = (es.filterMap chatCall).foldl (dispatchState db) .empty
      ∧ (serverAfter db factory es).chat.registries = afterDispatch db (es.filterMap chatCall)
      ∧ (serverAfter db factory es).upgrade
        = WebSocketRequestHandler.stateAfter factory (readsOf es)
      ∧ (serverAfter db factory es).actions = (es.foldl (upgradeStep factory) (.new, [])).2 := by
  have hsides : serverAfter db factory es
      = ⟨(es.foldl (upgradeStep factory) (.new, [])).1,
          (es.foldl (upgradeStep factory) (.new, [])).2,
          (es.filterMap chatCall).foldl (dispatchState db) .empty⟩ := by
    induction es using List.reverseRecOn with
    | nil => rfl
    | append_singleton es e ih =>
      rw [serverAfter_snoc, fire_eq, ih, List.foldl_append, List.filterMap_append,
        List.foldl_append]
      congr 1
      cases hcall : chatCall e with
      | none => rw [List.filterMap_cons_none hcall]; rfl
      | some call => rw [List.filterMap_cons_some hcall]; rfl
  refine ⟨congrArg PipelineState.chat hsides, ?_, ?_, congrArg PipelineState.actions hsides⟩
  · rw [congrArg PipelineState.chat hsides]
    exact registries_foldl_dispatchState db _
  · rw [congrArg PipelineState.upgrade hsides]
    exact upgrade_foldl_upgradeStep es

/-! ## The life of the channels -/

/-- A channel is open once it became active, until it becomes inactive. -/
def ChannelIsOpen (es : ChannelEvents) (ctx : ChannelHandlerContext) : Prop :=
  (ctx, .channelActive) ∈ es ∧ (ctx, .channelInactive) ∉ es

instance (es : ChannelEvents) (ctx : ChannelHandlerContext) : Decidable (ChannelIsOpen es ctx) :=
  inferInstanceAs (Decidable (_ ∧ _))

/-- **What Netty grants**: a message is read from a channel that is open. -/
def ReadsOpen (es : ChannelEvents) : Prop :=
  ∀ pre e, pre ++ [e] <+: es → ∀ msg, e.2 = .channelRead msg → ChannelIsOpen pre e.1

/-- **No client links twice on one channel**, unless it was logged out in between. -/
def LinksOnce (db : UserTable) (factory : WebSocketServerHandshakerFactory)
    (es : ChannelEvents) : Prop :=
  ∀ pre e, pre ++ [e] <+: es → ∀ call, chatCall e = some call →
    LinksAfresh db (serverAfter db factory pre).chat.registries call

section Lives

variable {db : UserTable} {factory : WebSocketServerHandshakerFactory} {es : ChannelEvents}

/-- Other events leave an open channel open. -/
theorem ChannelIsOpen.snoc {ctx : ChannelHandlerContext} (h : ChannelIsOpen es ctx)
    {e : ChannelHandlerContext × InboundEvent} (he : e ≠ (ctx, .channelInactive)) :
    ChannelIsOpen (es ++ [e]) ctx := by
  refine ⟨List.mem_append_left _ h.1, fun hin => ?_⟩
  obtain hin | hin := List.mem_append.mp hin
  · exact h.2 hin
  · exact he (List.mem_singleton.mp hin).symm

/-- What an event does to the registries. -/
theorem registries_serverAfter_snoc (e : ChannelHandlerContext × InboundEvent) :
    (serverAfter db factory (es ++ [e])).chat.registries
      = (chatCall e).elim (serverAfter db factory es).chat.registries
          (fun call =>
            (dispatch db call (serverAfter db factory es).chat.registries).registries) := by
  rw [serverAfter_snoc, fire_eq]
  cases chatCall e with
  | none => rfl
  | some call => rfl

/-- **The invariant rule for the registries** in a run of the server: what holds of empty
registries, and is kept by the call of each event that leads to one. -/
theorem registries_invariant {P : Registries → Prop} (h₀ : P Registries.empty)
    (hstep : ∀ pre e call, pre ++ [e] <+: es → chatCall e = some call →
      P (serverAfter db factory pre).chat.registries →
        P (dispatch db call (serverAfter db factory pre).chat.registries).registries) :
    P (serverAfter db factory es).chat.registries := by
  refine forall_prefix_of_step (P := fun es => P (serverAfter db factory es).chat.registries)
    (C := fun _ _ => True) h₀ (fun pre e hpre hbefore _ => ?_) (fun _ _ _ => trivial) es
    (List.prefix_refl es)
  rw [registries_serverAfter_snoc]
  cases hcall : chatCall e with
  | none => exact hbefore
  | some call => exact hstep pre e call hpre hcall hbefore

/-- Only what is read from a channel, or its end, writes what it is linked as. -/
theorem channelWrite_of_chatCall {r : Registries} {ctx : ChannelHandlerContext}
    {e : ChannelHandlerContext × InboundEvent} {call : Event} (hcall : chatCall e = some call)
    (hread : ∀ msg, e ≠ (ctx, .channelRead msg)) (hend : e ≠ (ctx, .channelInactive)) :
    channelWrite db r ctx call = none := by
  rw [channelWrite_eq_none_iff]
  intro hctx
  obtain ⟨c, ev⟩ := e
  cases ev with
  | channelActive => cases hcall; exact ⟨not_willLogOut_channelActive, rfl⟩
  | channelInactive => cases hcall; exact absurd (congrArg (·, _) hctx) hend
  | exceptionCaught => exact absurd hcall (by simp [chatCall])
  | channelRead msg =>
    cases msg with
    | textWebSocketFrame f => cases hcall; exact absurd (congrArg (·, _) hctx) (hread _)
    | _ => exact absurd hcall (by simp [chatCall])

/-- **A linked channel is open.** -/
theorem channelIsOpen_of_linked (hreads : ReadsOpen es) (ctx : ChannelHandlerContext) :
    ∀ u, (serverAfter db factory es).chat.registries.channelId2User.get ctx.channelId = some u →
      ChannelIsOpen es ctx := by
  refine forall_prefix_of_step (P := fun es => ∀ u,
      (serverAfter db factory es).chat.registries.channelId2User.get ctx.channelId = some u →
        ChannelIsOpen es ctx)
    (fun u h => absurd h (by simp [serverAfter, PipelineState.new, ServerState.empty,
      Registries.empty])) (fun pre e _ ih hread u hu => ?_)
    hreads es (List.prefix_refl es)
  rw [registries_serverAfter_snoc] at hu
  by_cases hmsg : ∃ msg, e = (ctx, .channelRead msg)
  · obtain ⟨msg, rfl⟩ := hmsg
    exact (hread msg rfl).snoc (e := (ctx, .channelRead msg)) (by simp)
  by_cases hend : e = (ctx, .channelInactive)
  · -- the channel ends, and is linked as nobody
    subst hend
    have hnone : (dispatch db (.channelInactive ctx)
          (serverAfter db factory pre).chat.registries).registries.channelId2User.get
            ctx.channelId
        = some u := hu
    rw [channelId2User_dispatch, channelWrite,
      if_neg (show ¬ (Event.channelInactive ctx).ctx ≠ ctx from not_not_intro rfl),
      if_pos (show WillLogOut db _ (.channelInactive ctx) from Or.inl trivial)] at hnone
    exact absurd hnone (by simp)
  · refine (ih u ?_).snoc hend
    cases hcall : chatCall e with
    | none =>
      rw [hcall] at hu
      exact hu
    | some call =>
      have hkept : (dispatch db call
            (serverAfter db factory pre).chat.registries).registries.channelId2User.get
              ctx.channelId
          = some u := by
        rw [hcall] at hu
        exact hu
      rwa [channelId2User_dispatch, channelWrite_of_chatCall hcall
        (fun msg he => hmsg ⟨msg, he⟩) hend] at hkept

/-- **Where no client links twice on one channel**, the links are covered. -/
theorem linksCovered_serverAfter (honce : LinksOnce db factory es) :
    LinksCovered (serverAfter db factory es).chat.registries :=
  registries_invariant linksCovered_empty (fun pre e call hpre hcall h =>
    linksCovered_dispatch h (honce pre e hpre call hcall))

end Lives

/-- **Sessions need open channels.** Only an open channel is linked; and if no client
links twice on one channel, whoever is reached or is in a room is linked on some open
channel. So once all channels have gone, nobody is left. -/
theorem sessions_need_open_channels {db : UserTable} {factory : WebSocketServerHandshakerFactory}
    {es : ChannelEvents} (hreads : ReadsOpen es) :
    (∀ ctx u,
        (serverAfter db factory es).chat.registries.channelId2User.get ctx.channelId = some u →
          ChannelIsOpen es ctx)
      ∧ (LinksOnce db factory es → ∀ u,
        ((serverAfter db factory es).chat.registries.user2ChannelCtx.get u ≠ none
            ∨ ∃ room, u ∈ (serverAfter db factory es).chat.registries.roomStubMap.users room) →
          ∃ ctx, ChannelIsOpen es ctx ∧
            (serverAfter db factory es).chat.registries.channelId2User.get ctx.channelId
              = some u) := by
  refine ⟨fun ctx u hu => channelIsOpen_of_linked hreads ctx u hu, fun honce u hu => ?_⟩
  have hcovered := linksCovered_serverAfter honce
  have hpos : 0 < (serverAfter db factory es).chat.registries.channelId2User.valueCount u := by
    obtain hreached | ⟨room, hroom⟩ := hu
    · exact hcovered.reached u (Option.isSome_iff_ne_none.mpr hreached)
    · exact (List.count_pos_iff.mpr hroom).trans_le (hcovered.entries room u)
  obtain ⟨id, hid⟩ := ConcurrentHashMap.valueCount_pos_iff.mp hpos
  exact ⟨⟨id⟩, channelIsOpen_of_linked hreads ⟨id⟩ u hid, hid⟩

/-- One client upgrades, links and speaks. -/
def oneClient : ChannelEvents :=
  [(⟨1⟩, .channelActive),
    (⟨1⟩, .channelRead (.fullHttpRequest WebSocketRequestHandler.upgradeRequest)),
    (⟨1⟩, .channelRead (.textWebSocketFrame (.message (.link 1 7)))),
    (⟨1⟩, .channelRead (.textWebSocketFrame (.message (.groupSend 1 7 "hi"))))]

/-- When the client has gone, so has its user. -/
theorem sessions_need_open_channels_oneClient :
    (serverAfter sampleTable WebSocketRequestHandler.webSocketFactory
        (oneClient ++ [(⟨1⟩, .channelInactive)])).chat.registries.channelId2User.get 1
      = none := by
  have hreads : ReadsOpen (oneClient ++ [(⟨1⟩, .channelInactive)]) := by
    simp only [ReadsOpen, oneClient, List.cons_append, List.nil_append, forall_step_cons,
      forall_step_nil]
    simp [ChannelIsOpen]
  have hopen : ∀ u, (serverAfter sampleTable WebSocketRequestHandler.webSocketFactory
      (oneClient ++ [(⟨1⟩, .channelInactive)])).chat.registries.channelId2User.get 1 = some u →
        ChannelIsOpen (oneClient ++ [(⟨1⟩, .channelInactive)]) ⟨1⟩ :=
    (sessions_need_open_channels hreads).1 ⟨1⟩
  refine Option.eq_none_iff_forall_ne_some.mpr (fun u hu => ?_)
  exact absurd (hopen u hu) (by decide)

/-! ## Where the frames go -/

section Frames

variable {db : UserTable} {factory : WebSocketServerHandshakerFactory} {es pre : ChannelEvents}

theorem ReadsOpen.of_prefix (h : ReadsOpen es) (hpre : pre <+: es) : ReadsOpen pre :=
  fun pre' e hstep => h pre' e (hstep.trans hpre)

theorem LinksOnce.of_prefix (h : LinksOnce db factory es) (hpre : pre <+: es) :
    LinksOnce db factory pre :=
  fun pre' e hstep => h pre' e (hstep.trans hpre)

/-- What an event has written. -/
theorem written_serverAfter_snoc (e : ChannelHandlerContext × InboundEvent) :
    (serverAfter db factory (es ++ [e])).chat.written
      = (serverAfter db factory es).chat.written ++ (chatCall e).elim []
          (fun call =>
            (dispatch db call (serverAfter db factory es).chat.registries).written) := by
  rw [serverAfter_snoc, fire_eq]
  cases chatCall e with
  | none => exact (List.append_nil _).symm
  | some call => rfl

/-- **Where no client links twice on one channel**, users are reached where they are
linked. -/
theorem reachedWhereLinked_serverAfter (honce : LinksOnce db factory es) :
    ReachedWhereLinked (serverAfter db factory es).chat.registries :=
  registries_invariant reachedWhereLinked_empty (fun pre e call hpre hcall h =>
    reachedWhereLinked_dispatch h (honce pre e hpre call hcall))

/-- A target of the call that an event leads to is open, and the event does not end it. -/
theorem channelIsOpen_of_isTarget (hreads : ReadsOpen es) (honce : LinksOnce db factory es)
    {e : ChannelHandlerContext × InboundEvent} {call : Event} (hcall : chatCall e = some call)
    (hread : ∀ msg, e.2 = .channelRead msg → ChannelIsOpen es e.1) {ctx : ChannelHandlerContext}
    (hctx : IsTarget (serverAfter db factory es).chat.registries call ctx) :
    ChannelIsOpen (es ++ [e]) ctx := by
  obtain ⟨c, ev⟩ := e
  obtain ⟨f, rfl⟩ | ⟨u, hget, hother⟩ := hctx
  · -- back on the channel of the frame, from which the frame was read
    cases ev with
    | channelRead msg =>
      cases msg with
      | textWebSocketFrame f' =>
        cases hcall
        exact (hread _ rfl).snoc (by simp)
      | _ => exact absurd hcall (by simp [chatCall])
    | _ => exact absurd hcall (by simp [chatCall])
  · have hlinked := reachedWhereLinked_serverAfter honce u ctx hget
    refine (channelIsOpen_of_linked hreads ctx u hlinked).snoc ?_
    rintro ⟨rfl, rfl⟩
    cases hcall
    exact hother trivial hlinked

end Frames

/-- **No frame is written to a channel that has gone**, or is just going, where no client
links twice on one channel: whatever an event has the handler write, the relayed
messages, the notices of a logout and those of a failed frame, goes to open channels. -/
theorem frames_reach_open_channels {db : UserTable} {factory : WebSocketServerHandshakerFactory}
    {es : ChannelEvents} (hreads : ReadsOpen es) (honce : LinksOnce db factory es)
    {pre : ChannelEvents} {e : ChannelHandlerContext × InboundEvent} (hpre : pre ++ [e] <+: es) :
    ∃ new, (serverAfter db factory (pre ++ [e])).chat.written
        = (serverAfter db factory pre).chat.written ++ new
      ∧ ∀ w ∈ new, ChannelIsOpen (pre ++ [e]) w.1 := by
  refine ⟨_, written_serverAfter_snoc e, fun w hw => ?_⟩
  cases hcall : chatCall e with
  | none =>
    rw [hcall] at hw
    exact absurd hw List.not_mem_nil
  | some call =>
    rw [hcall] at hw
    have hbefore : pre <+: es := before_of_step hpre
    exact channelIsOpen_of_isTarget (hreads.of_prefix hbefore) (honce.of_prefix hbefore) hcall
      (hreads pre e hpre) (isTarget_of_mem_dispatch hw)

/-- Two clients link to one room. -/
def linkLinkLeave : ChannelEvents :=
  [(⟨1⟩, .channelActive), (⟨1⟩, .channelRead (.textWebSocketFrame (.message (.link 1 7)))),
    (⟨2⟩, .channelActive), (⟨2⟩, .channelRead (.textWebSocketFrame (.message (.link 2 7)))),
    (⟨1⟩, .channelInactive)]

/-- When one of them goes, the notice does not go to its own channel. -/
theorem frames_reach_open_channels_linkLinkLeave :
    ∃ new,
      (serverAfter sampleTable WebSocketRequestHandler.webSocketFactory
          linkLinkLeave).chat.written
        = (serverAfter sampleTable WebSocketRequestHandler.webSocketFactory
            (linkLinkLeave.take 4)).chat.written ++ new
      ∧ ∀ w ∈ new, ChannelIsOpen linkLinkLeave w.1 := by
  have hreads : ReadsOpen linkLinkLeave := by
    simp only [ReadsOpen, linkLinkLeave, forall_step_cons, forall_step_nil]
    simp [ChannelIsOpen]
  refine frames_reach_open_channels hreads ?_
    (show linkLinkLeave.take 4 ++ [(⟨1⟩, .channelInactive)] <+: linkLinkLeave from
      List.prefix_refl _)
  simp only [LinksOnce, linkLinkLeave, forall_step_cons, forall_step_nil, and_true]
  refine ⟨?_, ?_, ?_, ?_, ?_⟩
  · rintro call ⟨⟩ u hu
    exact absurd hu (by simp [linkedBy])
  · rintro call ⟨⟩ u hu
    decide
  · rintro call ⟨⟩ u hu
    exact absurd hu (by simp [linkedBy])
  · rintro call ⟨⟩ u hu
    decide
  · rintro call ⟨⟩ u hu
    exact absurd hu (by simp [linkedBy])

import Chatroom.ChannelMaps
import Chatroom.RoomMembers
import Chatroom.WebSocketRequestHandler

/-!
# Frames that fail

A frame whose handling throws is followed by `exceptionCaught`, and that is a
logout: the client keeps its connection and loses its session. The upgrade
handler closes a channel whose exception it catches, but an exception goes on
to the *later* handlers of the pipeline only, and the chat handler is the last.

So the channel stays open, whatever its frame was, and two things are asked.

* Is anything left of the failure in the registries? `Registries.Same` is the
  sameness that can be observed: registries that are the same answer every later
  call the same (`invoke_same`).
* Has anybody else noticed? A frame may throw in the middle of a loop, after it was
  passed on to some; and the logout after a link tells everybody who is online that
  the user is gone.

`failedFrame_iff` says when the answer to both is no, and it is the rare case: the
channel is linked as nobody, and the frame is either passed on to no other channel
or is a link – of a user who has no channel, on a channel that is not in the list of
the connected ones any more, where nobody else is reached and the user's way into
the room and out again leaves every room as it was.
-/

open ChatroomServerHandler

/-! ## Where an exception goes -/

/-- The handlers in the pipeline of a channel. -/
inductive PipelineHandler where
  | httpCodec
  | httpChunked
  | aggregator
  | wsRequestHandler
  | wsMessageHandler
  deriving DecidableEq, Repr

/-- **The pipeline of a channel**, in the order in which `initChannel` adds the
handlers. -/
def initChannel : List PipelineHandler :=
  [.httpCodec, .httpChunked, .aggregator, .wsRequestHandler, .wsMessageHandler]

/-- Whether the `exceptionCaught` of a handler closes the channel. That of the
upgrade handler does; the others hand the exception on. -/
def PipelineHandler.closes (ctx : ChannelHandlerContext) : PipelineHandler → Bool
  | wsRequestHandler => .closeChannel ctx ∈ WebSocketRequestHandler.exceptionCaught ctx
  | _ => false

/-- **Whether an exception that a handler throws closes the channel**: the
handler gets it first, and then those after it. -/
def exceptionCloses (ctx : ChannelHandlerContext) (h : PipelineHandler) : Bool :=
  (initChannel.dropWhile (· ≠ h)).any (PipelineHandler.closes ctx)

/-- **Only an exception of the last handler leaves the channel open.** -/
theorem exceptionCloses_iff (ctx : ChannelHandlerContext) (h : PipelineHandler) :
    exceptionCloses ctx h = true ↔ h ≠ .wsMessageHandler := by
  cases h <;> simp [exceptionCloses, initChannel, PipelineHandler.closes,
    WebSocketRequestHandler.exceptionCaught]

/-! ## Registries that look the same -/

namespace RoomStubMap

variable (m : RoomStubMap) (r r' : Long) (u : User)

@[simp] theorem get_removeFromAll : (m.removeFromAll u).get r = m.get r := by
  unfold removeFromAll
  generalize m.values = ls
  induction ls generalizing m with
  | nil => rfl
  | cons l ls ih => exact ih (m.remove l u)

/-- Joining a room gives that room a list, and no other. -/
theorem isSome_get_join :
    ((m.join r u).get r').isSome = (decide (r' = r) || (m.get r').isSome) := by
  unfold join
  cases h : m.get r with
  | some l =>
    by_cases hr : r' = r
    · simp [hr, h]
    · simp [hr]
  | none =>
    by_cases hr : r' = r
    · simp [hr]
    · simp [hr]

end RoomStubMap

namespace Registries

/-- **Two states of the registries look the same**: every look-up, every walk
through the list of the connected channels and every reader of a room finds the
same in both. -/
structure Same (r r' : Registries) : Prop where
  user2ChannelCtx : ∀ u, r'.user2ChannelCtx.get u = r.user2ChannelCtx.get u
  channelId2User : ∀ id, r'.channelId2User.get id = r.channelId2User.get id
  connectedChannelCtx : r'.connectedChannelCtx = r.connectedChannelCtx
  hasList : ∀ room, (r'.roomStubMap.get room).isSome = (r.roomStubMap.get room).isSome
  users : ∀ room, r'.roomStubMap.users room = r.roomStubMap.users room

theorem Same.refl (r : Registries) : r.Same r :=
  ⟨fun _ => rfl, fun _ => rfl, rfl, fun _ => rfl, fun _ => rfl⟩

@[simp] theorem isSome_get_link (r : Registries) (ctx : ChannelHandlerContext) (u : User)
    (roomId : Option Long) (room : Long) :
    ((r.link ctx u roomId).roomStubMap.get room).isSome
      = (decide (roomId = some room) || (r.roomStubMap.get room).isSome) := by
  cases roomId with
  | none => simp [link, register]
  | some room' =>
    show ((r.roomStubMap.join room' u).get room).isSome = _
    rw [RoomStubMap.isSome_get_join]
    simp [eq_comm]

@[simp] theorem get_logout (r : Registries) (ctx : ChannelHandlerContext) (u : User)
    (room : Long) : (r.logout ctx u).roomStubMap.get room = r.roomStubMap.get room :=
  r.roomStubMap.get_removeFromAll room u

section Same

variable {r r' : Registries} (h : r.Same r') {users : List User} {id : Option Long}
include h

theorem Same.reachesAll : r'.reachesAll users id = r.reachesAll users id := by
  have hkeys : r'.user2ChannelCtx.containsKey = r.user2ChannelCtx.containsKey := by
    funext u
    rw [ConcurrentHashMap.containsKey_eq, ConcurrentHashMap.containsKey_eq, h.user2ChannelCtx]
  rw [Registries.reachesAll, Registries.reachesAll, hkeys]

theorem Same.deliveries (message : Message) :
    r'.deliveries users id message = r.deliveries users id message :=
  deliveries_congr message (fun u _ _ => h.user2ChannelCtx u)

/-- The keys are the same, in whatever order they are met. -/
theorem Same.keySet : r'.user2ChannelCtx.keySet.Perm r.user2ChannelCtx.keySet := by
  refine (List.perm_ext_iff_of_nodup r'.user2ChannelCtx.keySet_nodup
    r.user2ChannelCtx.keySet_nodup).mpr (fun u => ?_)
  rw [ConcurrentHashMap.mem_keySet, ConcurrentHashMap.mem_keySet, h.user2ChannelCtx]

/-- The notices of a logout are the same, in whatever order they are sent. -/
theorem Same.notices (message : Message) :
    (r'.deliveries r'.user2ChannelCtx.keySet id message).Perm
      (r.deliveries r.user2ChannelCtx.keySet id message) := by
  rw [deliveries_of_reachesAll (r'.reachesAll_keySet id),
    deliveries_of_reachesAll (r.reachesAll_keySet id)]
  simp only [h.user2ChannelCtx]
  exact (h.keySet.filter _).filterMap _

theorem Same.logout (ctx : ChannelHandlerContext) (u : User) :
    (r.logout ctx u).Same (r'.logout ctx u) where
  user2ChannelCtx v := by simp [h.user2ChannelCtx]
  channelId2User id := by simp [h.channelId2User]
  connectedChannelCtx := by simp [h.connectedChannelCtx]
  hasList room := by simp [h.hasList]
  users room := by simp [h.users]

theorem Same.link (ctx : ChannelHandlerContext) (u : User) (roomId : Option Long) :
    (r.link ctx u roomId).Same (r'.link ctx u roomId) where
  user2ChannelCtx v := by simp [h.user2ChannelCtx]
  channelId2User id := by simp [h.channelId2User]
  connectedChannelCtx := by simp [h.connectedChannelCtx]
  hasList room := by simp [h.hasList]
  users room := by simp [h.users]

end Same

end Registries

/-- **Two outcomes look the same**: the same exception, registries that look the
same, and the same frames written. -/
structure Outcome.Same (o o' : Outcome) : Prop where
  thrown : o'.thrown = o.thrown
  registries : o.registries.Same o'.registries
  written : o'.written.Perm o.written

section Message

variable {r r' : Registries} (h : r.Same r') {db : UserTable} (ctx : ChannelHandlerContext)
  {m : Message}
include h

theorem Registries.Same.invoke_link (hm : m.HasType .link) :
    (invoke db (.channelRead0 ctx (.message m)) r).Same
      (invoke db (.channelRead0 ctx (.message m)) r') := by
  rw [invoke_channelRead0_message, invoke_channelRead0_message]
  cases hs : db.getUserById m.senderId with
  | none =>
    rw [run_link_of_unknown db ctx r [] hm hs, run_link_of_unknown db ctx r' [] hm hs]
    exact ⟨rfl, h, .refl _⟩
  | some u =>
    cases hr : m.roomId with
    | none =>
      rw [run_link_of_room_none db ctx r [] hm hs hr,
        run_link_of_room_none db ctx r' [] hm hs hr]
      exact ⟨rfl, h.link ctx u none, .refl _⟩
    | some room =>
      rw [run_link db ctx r [] hm hs hr, run_link db ctx r' [] hm hs hr, h.users, h.reachesAll,
        h.deliveries]
      have hlink := h.link ctx u (some room)
      split
      · exact ⟨rfl, hlink, .refl _⟩
      · exact ⟨rfl, hlink, .refl _⟩

theorem Registries.Same.invoke_groupSend (hm : m.HasType .groupSend) :
    (invoke db (.channelRead0 ctx (.message m)) r).Same
      (invoke db (.channelRead0 ctx (.message m)) r') := by
  rw [invoke_channelRead0_message, invoke_channelRead0_message]
  by_cases hv : m.receiverId = none
  · cases hr : m.roomId with
    | none =>
      rw [run_groupSend_of_room_none db ctx r [] hm hv hr,
        run_groupSend_of_room_none db ctx r' [] hm hv hr]
      exact ⟨rfl, h, .refl _⟩
    | some room =>
      cases hs : db.getUserById m.senderId with
      | some u =>
        rw [run_groupSend db ctx r [] hm hv hr hs, run_groupSend db ctx r' [] hm hv hr hs,
          h.users, h.reachesAll, h.deliveries]
        split
        · exact ⟨rfl, h, .refl _⟩
        · exact ⟨rfl, h, .refl _⟩
      | none =>
        have hlist := h.hasList room
        by_cases hl : r.roomStubMap.get room = none
        · have hl' : r'.roomStubMap.get room = none := by simpa [hl] using hlist
          rw [run_groupSend_of_get_none db ctx r [] hm hv hr hl,
            run_groupSend_of_get_none db ctx r' [] hm hv hr hl']
          exact ⟨rfl, h, .refl _⟩
        · have hl' : r'.roomStubMap.get room ≠ none := by
            intro hnone
            rw [hnone] at hlist
            exact hl (Option.not_isSome_iff_eq_none.mp (by simp [← hlist]))
          rw [run_groupSend_of_unknown db ctx r [] hm hv hr hl hs,
            run_groupSend_of_unknown db ctx r' [] hm hv hr hl' hs]
          exact ⟨rfl, h, .refl _⟩
  · rw [run_groupSend_of_receiver db ctx r [] hm hv,
      run_groupSend_of_receiver db ctx r' [] hm hv]
    exact ⟨rfl, h, .refl _⟩

theorem Registries.Same.invoke_singleSend (hm : m.HasType .singleSend) :
    (invoke db (.channelRead0 ctx (.message m)) r).Same
      (invoke db (.channelRead0 ctx (.message m)) r') := by
  rw [invoke_channelRead0_message, invoke_channelRead0_message]
  cases hv : db.getUserById m.receiverId with
  | none =>
    rw [run_singleSend_of_unknown db ctx r [] hm hv,
      run_singleSend_of_unknown db ctx r' [] hm hv]
    exact ⟨rfl, h, .refl _⟩
  | some u =>
    rw [run_singleSend db ctx r [] hm hv, run_singleSend db ctx r' [] hm hv,
      ConcurrentHashMap.containsKey_eq, ConcurrentHashMap.containsKey_eq, h.user2ChannelCtx]
    exact ⟨rfl, h, .refl _⟩

end Message

/-- **Registries that look the same answer every call the same**, and go on
looking the same. -/
theorem invoke_same {r r' : Registries} (h : r.Same r') (db : UserTable) (e : Event) :
    (invoke db e r).Same (invoke db e r') := by
  have hlogout : ∀ e : Event, e.IsLogout → (invoke db e r).Same (invoke db e r') := by
    intro e he
    cases hctx : r.channelId2User.get e.ctx.channelId with
    | none =>
      rw [invoke_logout_none db r he hctx,
        invoke_logout_none db r' he ((h.channelId2User _).trans hctx)]
      exact ⟨rfl, h, .refl _⟩
    | some u =>
      rw [invoke_logout_some db r he hctx,
        invoke_logout_some db r' he ((h.channelId2User _).trans hctx)]
      exact ⟨rfl, h.logout e.ctx u, h.notices _⟩
  cases e with
  | channelActive ctx =>
    refine ⟨rfl, ⟨h.user2ChannelCtx, h.channelId2User, ?_, h.hasList, h.users⟩, .refl _⟩
    exact congrArg (· ++ [ctx]) h.connectedChannelCtx
  | channelInactive ctx => exact hlogout _ trivial
  | exceptionCaught ctx => exact hlogout _ trivial
  | channelRead0 ctx f =>
    cases f with
    | unparsable => exact ⟨rfl, h, .refl _⟩
    | null => exact ⟨rfl, h, .refl _⟩
    | message m =>
      obtain hm | hm | hm | hm | ⟨hm, hm'⟩ := m.type_cases
      · rw [invoke_channelRead0_message, invoke_channelRead0_message,
          run_handleMessage_of_type_none db ctx r [] hm,
          run_handleMessage_of_type_none db ctx r' [] hm]
        exact ⟨rfl, h, .refl _⟩
      · exact h.invoke_link ctx hm
      · exact h.invoke_groupSend ctx hm
      · exact h.invoke_singleSend ctx hm
      · rw [invoke_channelRead0_message, invoke_channelRead0_message,
          run_handleMessage_of_other db ctx r [] hm hm',
          run_handleMessage_of_other db ctx r' [] hm hm']
        exact ⟨rfl, h, .refl _⟩

/-! ## What the other channels get

A frame may throw after it was passed on to some, and a frame that is a link is followed
by a logout that tells the others. Both go by what is in the registries before, and this
says when neither leaves the channel. -/

namespace Registries

variable {r : Registries} {ctx : ChannelHandlerContext} {users : List User} {id : Option Long}
  {u : User}

/-- **A loop over users stays on one channel**: whoever it comes to, up to the first
that has no context, is reached there. -/
def StaysOn (r : Registries) (ctx : ChannelHandlerContext) (users : List User)
    (id : Option Long) : Prop :=
  ∀ u ∈ (recipients users id).takeWhile r.user2ChannelCtx.containsKey,
    r.user2ChannelCtx.get u = some ctx

/-- **Nobody with another id is reached on another channel.** It is asked of all users and
not of those in a room, as a notice goes to everybody who is online. -/
def ReachesNoOther (r : Registries) (ctx : ChannelHandlerContext) (id : Option Long) : Prop :=
  ∀ u c, u.id ≠ id → r.user2ChannelCtx.get u = some c → c = ctx

/-- Whom a loop comes to before the first without a context has one. -/
theorem exists_get_of_mem_takeWhile {us : List User}
    (hu : u ∈ us.takeWhile r.user2ChannelCtx.containsKey) :
    ∃ c, r.user2ChannelCtx.get u = some c := by
  have hkey := List.mem_takeWhile_imp hu
  rw [ConcurrentHashMap.containsKey_eq] at hkey
  exact Option.isSome_iff_exists.mp hkey

/-- **A loop writes to one channel exactly if it stays there.** -/
theorem staysOn_iff (message : Message) :
    r.StaysOn ctx users id ↔ ∀ w ∈ r.deliveries users id message, w.1 = ctx := by
  constructor
  · intro hstays w hw
    obtain ⟨u, hu, hwritten⟩ := List.mem_filterMap.mp hw
    rw [hstays u hu, Option.map_some, Option.some_inj] at hwritten
    rw [← hwritten]
  · intro hwritten u hu
    obtain ⟨c, hc⟩ := exists_get_of_mem_takeWhile hu
    have hmem : (c, message) ∈ r.deliveries users id message :=
      List.mem_filterMap.mpr ⟨u, hu, by rw [hc, Option.map_some]⟩
    have hsame : c = ctx := hwritten _ hmem
    rw [hc, hsame]

/-- Where nobody else is reached, every loop stays on the channel. -/
theorem ReachesNoOther.staysOn (h : r.ReachesNoOther ctx id) (users : List User) :
    r.StaysOn ctx users id := by
  intro u hu
  have hne : u.id ≠ id := (mem_recipients.mp ((List.takeWhile_sublist _).subset hu)).2
  obtain ⟨c, hc⟩ := exists_get_of_mem_takeWhile hu
  rw [hc, h u c hne hc]

/-- **The notices of a logout after a link** stay on the channel exactly if nobody else
is reached. -/
theorem notices_link_iff (roomId : Option Long) :
    (∀ w ∈ (r.link ctx u roomId).deliveries (r.link ctx u roomId).user2ChannelCtx.keySet u.id
        (offlineNotice u), w.1 = ctx) ↔ r.ReachesNoOther ctx u.id := by
  have hget : ∀ v, v.id ≠ u.id →
      (r.link ctx u roomId).user2ChannelCtx.get v = r.user2ChannelCtx.get v := by
    intro v hv
    have hne : v ≠ u := fun e => hv (congrArg User.id e)
    rw [user2ChannelCtx_link, ConcurrentHashMap.get_put, if_neg hne]
  constructor
  · intro hwritten v c hv hc
    rw [← hget v hv] at hc
    have hkey : v ∈ (r.link ctx u roomId).user2ChannelCtx.keySet :=
      (ConcurrentHashMap.mem_keySet _ _).mpr (by rw [hc]; rfl)
    rw [deliveries_of_reachesAll (reachesAll_keySet _ _)] at hwritten
    exact hwritten (c, offlineNotice u)
      (List.mem_filterMap.mpr ⟨v, mem_recipients.mpr ⟨hkey, hv⟩, by rw [hc, Option.map_some]⟩)
  · intro hno w hw
    obtain ⟨-, v, hv, hc⟩ := exists_of_mem_deliveries hw
    have hne : v.id ≠ u.id := (mem_recipients.mp hv).2
    rw [hget v hne] at hc
    exact hno v w.1 hne hc

end Registries

/-- **A frame is passed on to no other channel**, if it is a message to a room from a
stored user. -/
def RelayStaysOn (db : UserTable) (r : Registries) (ctx : ChannelHandlerContext) :
    TextWebSocketFrame → Prop
  | .unparsable | .null => True
  | .message m =>
      m.HasType .groupSend → m.receiverId = none → db.getUserById m.senderId ≠ none →
        ∀ room, m.roomId = some room → r.StaysOn ctx (r.roomStubMap.users room) m.senderId

section Written

variable {db : UserTable} (r : Registries) (ctx : ChannelHandlerContext)
  {f : TextWebSocketFrame} {m : Message}

/-- What a message to a room writes stays on its channel exactly if its loop does; the
loop is not come to where the room or the sender is missing. -/
theorem written_groupSend_iff (hm : m.HasType .groupSend) :
    (∀ w ∈ (invoke db (.channelRead0 ctx (.message m)) r).written, w.1 = ctx)
      ↔ RelayStaysOn db r ctx (.message m) := by
  rw [invoke_channelRead0_message]
  by_cases hv : m.receiverId = none
  · cases hr : m.roomId with
    | none =>
      rw [run_groupSend_of_room_none db ctx r [] hm hv hr]
      exact iff_of_true (by simp [Outcome.ofRun]) (fun _ _ _ room hroom => by simp [hr] at hroom)
    | some room =>
      cases hs : db.getUserById m.senderId with
      | none =>
        have hnot : RelayStaysOn db r ctx (.message m) := fun _ _ hstored => absurd hs hstored
        by_cases hl : r.roomStubMap.get room = none
        · rw [run_groupSend_of_get_none db ctx r [] hm hv hr hl]
          exact iff_of_true (by simp [Outcome.ofRun]) hnot
        · rw [run_groupSend_of_unknown db ctx r [] hm hv hr hl hs]
          exact iff_of_true (by simp [Outcome.ofRun]) hnot
      | some u =>
        rw [run_groupSend db ctx r [] hm hv hr hs, written_ofRun]
        show (∀ w ∈ r.deliveries _ _ _, w.1 = ctx) ↔ _
        rw [← Registries.staysOn_iff]
        constructor
        · intro hstays _ _ _ room' hroom
          obtain rfl := Option.some.inj (hr.symm.trans hroom)
          exact hstays
        · exact fun hrelay => hrelay hm hv (by simp [hs]) room hr
  · rw [run_groupSend_of_receiver db ctx r [] hm hv]
    exact iff_of_true (by simp [Outcome.ofRun]) (fun _ hnone => absurd hnone hv)

/-- **What a frame that links nobody writes** stays on its channel exactly if the frame
is passed on to no other. -/
theorem written_of_linkSender_none (h : linkSender db f = none) :
    (∀ w ∈ (invoke db (.channelRead0 ctx f) r).written, w.1 = ctx)
      ↔ RelayStaysOn db r ctx f := by
  have hnone : ∀ o : Outcome, o.written = [] → ∀ w ∈ o.written, w.1 = ctx := by
    intro o ho w hw
    rw [ho] at hw
    exact absurd hw List.not_mem_nil
  cases f with
  | unparsable => exact iff_of_true (hnone _ rfl) trivial
  | null => exact iff_of_true (hnone _ rfl) trivial
  | message m =>
    obtain hm | hm | hm | hm | ⟨hm, hm'⟩ := m.type_cases
    · refine iff_of_true (hnone _ ?_) (fun hgroup => absurd hm hgroup.type_ne_none)
      rw [invoke_channelRead0_message, run_handleMessage_of_type_none db ctx r [] hm]
      rfl
    · rw [linkSender_of_link hm] at h
      refine iff_of_true (hnone _ ?_) (fun hgroup => absurd hm (hgroup.not_hasType (by decide)))
      rw [invoke_channelRead0_message, run_link_of_unknown db ctx r [] hm h]
      rfl
    · exact written_groupSend_iff r ctx hm
    · refine iff_of_true ?_ (fun hgroup => absurd hm (hgroup.not_hasType (by decide)))
      rw [invoke_channelRead0_message]
      cases hv : db.getUserById m.receiverId with
      | none =>
        rw [run_singleSend_of_unknown db ctx r [] hm hv]
        exact hnone _ rfl
      | some u =>
        -- the one who is told that the receiver is away is the sender
        rw [run_singleSend db ctx r [] hm hv]
        intro w hw
        have hw : w ∈ if r.user2ChannelCtx.containsKey u then []
            else [(ctx, undeliveredNotice m.senderId)] := hw
        split at hw
        · exact absurd hw List.not_mem_nil
        · rw [List.mem_singleton.mp hw]
    · refine iff_of_true (hnone _ ?_) (fun hgroup => absurd hgroup (hm' _))
      rw [invoke_channelRead0_message, run_handleMessage_of_other db ctx r [] hm hm']
      rfl

/-- **What a link writes** stays on its channel where nobody else is reached. -/
theorem written_of_linkSender {u : User} (h : linkSender db f = some u)
    (hno : r.ReachesNoOther ctx u.id) :
    ∀ w ∈ (invoke db (.channelRead0 ctx f) r).written, w.1 = ctx := by
  obtain ⟨m, rfl, hm, hs⟩ := linkSender_eq_some h
  rw [invoke_channelRead0_message]
  cases hr : m.roomId with
  | none =>
    rw [run_link_of_room_none db ctx r [] hm hs hr]
    exact fun w hw => absurd hw List.not_mem_nil
  | some room =>
    rw [run_link db ctx r [] hm hs hr, written_ofRun]
    rw [UserTable.id_eq_of_getUserById hs] at hno
    exact (Registries.staysOn_iff _).mp (hno.staysOn _)

end Written

/-! ## What a failed frame leaves -/

/-- **A failed frame leaves no half-dead connection**: after the logout that follows it,
the registries look as they did before, or the channel was closed; and neither the
frame nor the logout has written anything to another channel. -/
structure FailsClean (db : UserTable) (r : Registries) (ctx : ChannelHandlerContext)
    (f : TextWebSocketFrame) : Prop where
  registries : r.Same (dispatch db (.channelRead0 ctx f) r).registries
    ∨ exceptionCloses ctx .wsMessageHandler = true
  others : ∀ w ∈ (dispatch db (.channelRead0 ctx f) r).written, w.1 = ctx

/-- **A user may link on a channel and go again unnoticed**: it has no channel,
the channel is not in the list of the connected ones, the room has a list, and
what is taken out of the rooms is what was put in. -/
structure PassesThrough (r : Registries) (ctx : ChannelHandlerContext) (u : User)
    (roomId : Option Long) : Prop where
  user2ChannelCtx : r.user2ChannelCtx.get u = none
  connectedChannelCtx : ctx ∉ r.connectedChannelCtx
  hasList : ∀ room, roomId = some room → (r.roomStubMap.get room).isSome = true
  users : ∀ room, (if roomId = some room then r.roomStubMap.users room ++ [u]
    else r.roomStubMap.users room).erase u = r.roomStubMap.users room

/-- **A frame that fails has nothing to undo, and nobody to tell**: its channel is
linked as nobody; if it is a link, its user may go again unnoticed, and nobody else is
reached; and if it is a message to a room, it is passed on to no other channel. -/
structure LeavesNoTrace (db : UserTable) (r : Registries) (ctx : ChannelHandlerContext)
    (f : TextWebSocketFrame) : Prop where
  unlinked : r.channelId2User.get ctx.channelId = none
  link : ∀ u, linkSender db f = some u →
    PassesThrough r ctx u f.roomId ∧ r.ReachesNoOther ctx u.id
  relay : RelayStaysOn db r ctx f

/-- A logout of a linked channel is seen. -/
theorem not_same_logout {r : Registries} {ctx : ChannelHandlerContext} {u v : User}
    (hu : r.channelId2User.get ctx.channelId = some u) : ¬ r.Same (r.logout ctx v) := by
  intro hsame
  have hgone := hsame.channelId2User ctx.channelId
  rw [Registries.channelId2User_logout, ConcurrentHashMap.get_remove, if_pos rfl, hu] at hgone
  exact absurd hgone (by simp)

/-- **A link and the logout after it** are seen, unless the user may go
unnoticed. -/
theorem same_logout_link_iff (r : Registries) (ctx : ChannelHandlerContext) (u : User)
    (roomId : Option Long) :
    r.Same ((r.link ctx u roomId).logout ctx u)
      ↔ r.channelId2User.get ctx.channelId = none ∧ PassesThrough r ctx u roomId := by
  constructor
  · intro hsame
    refine ⟨?_, ?_, ?_, fun room hroom => ?_, fun room => ?_⟩
    · simpa using (hsame.channelId2User ctx.channelId).symm
    · simpa using (hsame.user2ChannelCtx u).symm
    · simpa using hsame.connectedChannelCtx
    · simpa [hroom] using hsame.hasList room
    · simpa using hsame.users room
  · rintro ⟨hctx, hpass⟩
    refine ⟨fun v => ?_, fun id => ?_, ?_, fun room => ?_, fun room => ?_⟩
    · simp only [Registries.user2ChannelCtx_logout, Registries.user2ChannelCtx_link,
        ConcurrentHashMap.get_remove, ConcurrentHashMap.get_put]
      split
      · next hv => rw [hv, hpass.user2ChannelCtx]
      · rfl
    · simp only [Registries.channelId2User_logout, Registries.channelId2User_link,
        ConcurrentHashMap.get_remove, ConcurrentHashMap.get_put]
      split
      · next hid => rw [hid, hctx]
      · rfl
    · simpa using hpass.connectedChannelCtx
    · by_cases hroom : roomId = some room
      · simpa [hroom] using hpass.hasList room hroom
      · simp [hroom]
    · simpa using hpass.users room

section Failed

variable {db : UserTable} {r : Registries} {ctx : ChannelHandlerContext} {f : TextWebSocketFrame}

/-- Netty closes no channel for a failed frame. -/
theorem failsClean_iff :
    FailsClean db r ctx f
      ↔ r.Same (dispatch db (.channelRead0 ctx f) r).registries
        ∧ ∀ w ∈ (dispatch db (.channelRead0 ctx f) r).written, w.1 = ctx := by
  have hopen : exceptionCloses ctx .wsMessageHandler ≠ true := by simp [exceptionCloses_iff]
  constructor
  · rintro ⟨hsame | hclosed, hothers⟩
    · exact ⟨hsame, hothers⟩
    · exact absurd hclosed hopen
  · exact fun h => ⟨Or.inl h.1, h.2⟩

/-- **A failed frame that links nobody**, of a channel that is linked as nobody, has
nothing to undo: the logout after it throws at once. -/
theorem failsClean_of_linkSender_none (hf : linkSender db f = none)
    (hctx : r.channelId2User.get ctx.channelId = none)
    (hthrown : (invoke db (.channelRead0 ctx f) r).thrown ≠ none) :
    FailsClean db r ctx f ↔ RelayStaysOn db r ctx f := by
  have hlogout := invoke_logout_none db r (e := .exceptionCaught ctx) trivial hctx
  rw [failsClean_iff, dispatch_of_thrown db r (by simp) hthrown,
    registries_of_linkSender_none r ctx hf]
  show r.Same (invoke db (.exceptionCaught ctx) r).registries
    ∧ (∀ w ∈ _ ++ (invoke db (.exceptionCaught ctx) r).written, w.1 = ctx) ↔ _
  rw [hlogout, List.append_nil, written_of_linkSender_none r ctx hf]
  exact and_iff_right (.refl r)

/-- **A failed link** is undone by the logout after it exactly if its user may go
unnoticed and there is nobody to tell. -/
theorem failsClean_of_linkSender {u : User} (hf : linkSender db f = some u)
    (hthrown : (invoke db (.channelRead0 ctx f) r).thrown ≠ none) :
    FailsClean db r ctx f
      ↔ r.channelId2User.get ctx.channelId = none ∧ PassesThrough r ctx u f.roomId
        ∧ r.ReachesNoOther ctx u.id := by
  have hctx : (r.link ctx u f.roomId).channelId2User.get
      (Event.exceptionCaught ctx).ctx.channelId = some u := by
    simp [Event.ctx]
  have hlogout := invoke_logout_some db _ (e := .exceptionCaught ctx) trivial hctx
  rw [failsClean_iff, dispatch_of_thrown db r (by simp) hthrown,
    registries_of_linkSender r ctx hf]
  show r.Same (invoke db (.exceptionCaught ctx) (r.link ctx u f.roomId)).registries
    ∧ (∀ w ∈ _ ++ (invoke db (.exceptionCaught ctx) (r.link ctx u f.roomId)).written, w.1 = ctx)
      ↔ _
  rw [hlogout, ← and_assoc, ← same_logout_link_iff,
    ← Registries.notices_link_iff f.roomId]
  refine and_congr_right (fun _ => ⟨fun hall w hw => ?_, fun hnotices w hw => ?_⟩)
  · exact hall w (List.mem_append_right _ hw)
  · obtain hw | hw := List.mem_append.mp hw
    · exact written_of_linkSender r ctx hf ((Registries.notices_link_iff _).mp hnotices) w hw
    · exact hnotices w hw

/-- A failed frame of a linked channel loses it its session. -/
theorem not_failsClean_of_linked {u : User} (hf : linkSender db f = none)
    (hctx : r.channelId2User.get ctx.channelId = some u)
    (hthrown : (invoke db (.channelRead0 ctx f) r).thrown ≠ none) : ¬ FailsClean db r ctx f := by
  rw [failsClean_iff, dispatch_of_thrown db r (by simp) hthrown,
    registries_of_linkSender_none r ctx hf]
  rintro ⟨hsame, -⟩
  have hsame : r.Same (invoke db (.exceptionCaught ctx) r).registries := hsame
  rw [invoke_logout_some db r (e := .exceptionCaught ctx) trivial hctx] at hsame
  exact not_same_logout hctx hsame

/-- **A failed frame fails clean exactly if it has nothing to undo and nobody to
tell.** -/
theorem failsClean_iff_leavesNoTrace
    (hthrown : (invoke db (.channelRead0 ctx f) r).thrown ≠ none) :
    FailsClean db r ctx f ↔ LeavesNoTrace db r ctx f := by
  cases hf : linkSender db f with
  | none =>
    have hnolink : ∀ u, linkSender db f ≠ some u := fun u hu => by simp [hf] at hu
    cases hctx : r.channelId2User.get ctx.channelId with
    | none =>
      rw [failsClean_of_linkSender_none hf hctx hthrown]
      exact ⟨fun hrelay => ⟨hctx, fun u hu => absurd hu (hnolink u), hrelay⟩, fun h => h.relay⟩
    | some u =>
      refine iff_of_false (not_failsClean_of_linked hf hctx hthrown) (fun hleaves => ?_)
      exact absurd (hctx.symm.trans hleaves.unlinked) (by simp)
  | some u =>
    rw [failsClean_of_linkSender hf hthrown]
    constructor
    · rintro ⟨hunlinked, hpass, hno⟩
      refine ⟨hunlinked, fun v hv => ?_, ?_⟩
      · cases hf.symm.trans hv
        exact ⟨hpass, hno⟩
      · obtain ⟨m, rfl, hm, -⟩ := linkSender_eq_some hf
        exact fun hgroup => absurd hm (hgroup.not_hasType (by decide))
    · exact fun hleaves => ⟨hleaves.unlinked, hleaves.link u hf⟩

end Failed

/-- Runs from registries that look the same go on looking the same. -/
theorem same_foldl (db : UserTable) {r r' : Registries} (h : r.Same r') (later : List Event) :
    (later.foldl (fun r e => (invoke db e r).registries) r).Same
      (later.foldl (fun r e => (invoke db e r).registries) r') := by
  induction later generalizing r r' with
  | nil => exact h
  | cons e later ih => exact ih (invoke_same h db e).registries

/-- **A failed frame fails clean exactly if it has nothing to undo and nobody to tell**,
after any run; and then every later call, however many there are between, is answered
as if the frame had not been. -/
theorem failedFrame_iff (db : UserTable) (es : List Event) (ctx : ChannelHandlerContext)
    (f : TextWebSocketFrame)
    (hthrown : (invoke db (.channelRead0 ctx f) (after db es)).thrown ≠ none) :
    (FailsClean db (after db es) ctx f ↔ LeavesNoTrace db (after db es) ctx f)
      ∧ (FailsClean db (after db es) ctx f → ∀ later e,
          (invoke db e (after db (es ++ later))).Same
            (invoke db e
              (after db (es ++ .channelRead0 ctx f :: .exceptionCaught ctx :: later)))) := by
  refine ⟨failsClean_iff_leavesNoTrace hthrown, fun hclean later e => invoke_same ?_ db e⟩
  have hsame := (failsClean_iff.mp hclean).1
  rw [dispatch_of_thrown db (after db es) (by simp) hthrown] at hsame
  have hrun := same_foldl db hsame later
  simp only [after, List.foldl_append, List.foldl_cons] at hrun ⊢
  exact hrun

/-- A channel that never linked sends a text that cannot be parsed. -/
theorem failedFrame_unlinked :
    FailsClean sampleTable (after sampleTable [.channelActive ⟨1⟩]) ⟨1⟩ .unparsable :=
  (failedFrame_iff sampleTable [.channelActive ⟨1⟩] ⟨1⟩ .unparsable (by decide)).1.mpr
    ⟨by decide, fun u hu => absurd hu (by simp [linkSender]), trivial⟩

/-- A client that is linked sends a text that cannot be parsed. It stays
connected, and is linked as nobody. -/
theorem not_failsClean :
    ¬ ∀ (db : UserTable) (es : List Event) (ctx : ChannelHandlerContext)
      (f : TextWebSocketFrame), ChannelOpen es ctx →
        (invoke db (.channelRead0 ctx f) (after db es)).thrown ≠ none →
          FailsClean db (after db es) ctx f := by
  intro h
  have hclean := h sampleTable [.channelActive ⟨1⟩, .channelRead0 ⟨1⟩ (.message (.link 1 7))] ⟨1⟩
    .unparsable (by decide) (by decide)
  obtain hsame | hclosed := hclean.registries
  · exact absurd (hsame.channelId2User 1) (by decide)
  · exact absurd hclosed (by decide)

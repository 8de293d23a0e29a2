import Chatroom.HandlerRun
import Chatroom.PrefixInduction
import Chatroom.SessionTable

/-!
# The registries represent a session table

A link opens a session of its user on its channel and lets it enter a room;
whatever ends in a logout ends the sessions of its channel. Kept as one table,
this is what `USER2CHANNEL_CTX`, `CHANNEL_ID2USER` and the room lists are three
views of – as long as every link finds its user on no other channel, its
channel under no other user, and the session outside its room
(`LinkIsAdmitted`). `Represents` is the relation between the two, and
`sessions_refinement` carries it along a run.

The frames a call writes are then told from the table alone: `Delivers` is
that specification, and the same theorem says that each call writes exactly
the frames specified, each once. The list of connected channels has no place
here, since it lists channels and not sessions.

A call that throws and the logout that follows it are one step (`dispatch`). A
frame whose handling throws may have linked its channel first; the session it
opened is then ended by the same step.
-/

open ChatroomServerHandler

/-- The sessions of the chat server. -/
abbrev Sessions : Type := SessionTable ChannelHandlerContext User Long

namespace Sessions

/-- The sessions once the handling of a call has opened what it opens. -/
def opened (db : UserTable) (T : Sessions) : Event → Sessions
  | .channelRead0 ctx f =>
      (linkSender db f).elim T (fun u => T.openSession ctx u f.roomId)
  | _ => T

/-- The calls that end the session of their channel; `threw` says whether the
handling of the call threw. -/
def Ends (threw : Bool) : Event → Prop
  | .channelActive _ => False
  | .channelInactive _ | .exceptionCaught _ => True
  | .channelRead0 _ _ => threw = true

instance (threw : Bool) (e : Event) : Decidable (Ends threw e) :=
  match e with
  | .channelActive _ => isFalse id
  | .channelInactive _ | .exceptionCaught _ => isTrue trivial
  | .channelRead0 _ _ => instDecidableEqBool threw true

/-- **What a call does to the sessions.** -/
def step (db : UserTable) (threw : Bool) (e : Event) (T : Sessions) : Sessions :=
  if Ends threw e then (opened db T e).close e.ctx else opened db T e

end Sessions

/-- The registries and the session table after a run, side by side. The table
is told which calls threw, and nothing else, by the registries. -/
def lockstep (db : UserTable) (es : List Event) : Registries × Sessions :=
  es.foldl
    (fun p e => ((dispatch db e p.1).registries,
      p.2.step db (dispatch db e p.1).thrown.isSome e))
    (Registries.empty, SessionTable.empty)

/-- The sessions after a run. -/
def sessions (db : UserTable) (es : List Event) : Sessions := (lockstep db es).2

section Lockstep

variable (db : UserTable) (es : List Event) (e : Event)

theorem lockstep_fst : (lockstep db es).1 = afterDispatch db es := by
  induction es using List.reverseRecOn with
  | nil => rfl
  | append_singleton es e ih =>
    rw [afterDispatch_snoc, ← ih]
    simp [lockstep]

theorem sessions_snoc :
    sessions db (es ++ [e])
      = (sessions db es).step db (dispatch db e (afterDispatch db es)).thrown.isSome e := by
  rw [← lockstep_fst]
  simp [sessions, lockstep]

end Lockstep

/-- **A link of a stored user meets no other session of its user or its channel,
and enters a room its session is not in.** -/
def LinkIsAdmitted (db : UserTable) (T : Sessions) (e : Event) : Prop :=
  ∀ ctx f u, e = .channelRead0 ctx f → linkSender db f = some u → T.Admits ctx u f.roomId

/-! ## What the sessions say is written -/

/-- **What the handling of a frame writes.** -/
inductive FrameDelivers (db : UserTable) (T : Sessions) (ctx : ChannelHandlerContext) :
    TextWebSocketFrame → Written → Prop
  /-- A link is told the other sessions of its room. -/
  | link {m : Message} {u v : User} {room : Long} {c : ChannelHandlerContext}
      (type : m.HasType .link) (sender : db.getUserById m.senderId = some u)
      (roomId : m.roomId = some room) (member : T.InRoom c v room) (other : v ≠ u) :
      FrameDelivers db T ctx (.message m) (c, linkMessage m u)
  /-- So is a message without a receiver. -/
  | groupSend {m : Message} {u v : User} {room : Long} {c : ChannelHandlerContext}
      (type : m.HasType .groupSend) (receiverId : m.receiverId = none)
      (sender : db.getUserById m.senderId = some u) (roomId : m.roomId = some room)
      (member : T.InRoom c v room) (other : v ≠ u) :
      FrameDelivers db T ctx (.message m) (c, groupMessage m u)
  /-- The sender of a whisper is told if the receiver has no session. -/
  | singleSend {m : Message} {u : User} (type : m.HasType .singleSend)
      (receiver : db.getUserById m.receiverId = some u) (offline : ∀ c, ¬ T.Has c u) :
      FrameDelivers db T ctx (.message m) (ctx, undeliveredNotice m.senderId)

section FrameDelivers

variable {db : UserTable} {T : Sessions} {ctx : ChannelHandlerContext} {m : Message}
  {w : Written}

/-- What a link delivers, if anything. -/
theorem frameDelivers_link_iff (hm : m.HasType .link) :
    FrameDelivers db T ctx (.message m) w
      ↔ ∃ u, db.getUserById m.senderId = some u ∧ ∃ room, m.roomId = some room
        ∧ ∃ c v, T.InRoom c v room ∧ v ≠ u ∧ w = (c, linkMessage m u) := by
  constructor
  · intro hw
    cases hw with
    | link _ sender roomId member other =>
      exact ⟨_, sender, _, roomId, _, _, member, other, rfl⟩
    | groupSend type => exact absurd type (hm.not_hasType (by decide))
    | singleSend type => exact absurd type (hm.not_hasType (by decide))
  · rintro ⟨u, hs, room, hr, c, v, hin, hne, rfl⟩
    exact .link hm hs hr hin hne

/-- What a message to a room delivers, if anything. -/
theorem frameDelivers_groupSend_iff (hm : m.HasType .groupSend) :
    FrameDelivers db T ctx (.message m) w
      ↔ m.receiverId = none ∧ ∃ u, db.getUserById m.senderId = some u
        ∧ ∃ room, m.roomId = some room
        ∧ ∃ c v, T.InRoom c v room ∧ v ≠ u ∧ w = (c, groupMessage m u) := by
  constructor
  · intro hw
    cases hw with
    | groupSend _ receiverId sender roomId member other =>
      exact ⟨receiverId, _, sender, _, roomId, _, _, member, other, rfl⟩
    | link type => exact absurd type (hm.not_hasType (by decide))
    | singleSend type => exact absurd type (hm.not_hasType (by decide))
  · rintro ⟨hv, u, hs, room, hr, c, v, hin, hne, rfl⟩
    exact .groupSend hm hv hs hr hin hne

/-- What a whisper delivers, if anything. -/
theorem frameDelivers_singleSend_iff (hm : m.HasType .singleSend) :
    FrameDelivers db T ctx (.message m) w
      ↔ ∃ u, db.getUserById m.receiverId = some u ∧ (∀ c, ¬ T.Has c u)
        ∧ w = (ctx, undeliveredNotice m.senderId) := by
  constructor
  · intro hw
    cases hw with
    | singleSend _ receiver offline => exact ⟨_, receiver, offline, rfl⟩
    | link type => exact absurd type (hm.not_hasType (by decide))
    | groupSend type => exact absurd type (hm.not_hasType (by decide))
  · rintro ⟨u, hv, hoff, rfl⟩
    exact .singleSend hm hv hoff

/-- A message of no known type delivers nothing. -/
theorem not_frameDelivers_of_other (hm : ∀ t, ¬ m.HasType t) :
    ¬ FrameDelivers db T ctx (.message m) w := by
  intro hw
  cases hw with
  | link type => exact hm _ type
  | groupSend type => exact hm _ type
  | singleSend type => exact hm _ type

end FrameDelivers

/-- **What a logout writes**: the other sessions are told that its user went. -/
def LogoutDelivers (T : Sessions) (ctx : ChannelHandlerContext) (w : Written) : Prop :=
  ∃ u c v, T.Has ctx u ∧ T.Has c v ∧ v ≠ u ∧ w = (c, offlineNotice u)

/-- **What a call writes**: what its frame does, and then what the logout does,
if it ends in one. -/
def Delivers (db : UserTable) (T : Sessions) (threw : Bool) (e : Event) (w : Written) : Prop :=
  (∃ ctx f, e = .channelRead0 ctx f ∧ FrameDelivers db T ctx f w)
    ∨ (Sessions.Ends threw e ∧ LogoutDelivers (T.opened db e) e.ctx w)

/-! ## The representation -/

/-- **The registries represent a session table**: the two channel maps are its
two directions, and the list of a room holds the users of the sessions in it,
each once. All its users are stored ones. -/
structure Represents (db : UserTable) (T : Sessions) (r : Registries) : Prop where
  user2ChannelCtx : ∀ u ctx, r.user2ChannelCtx.get u = some ctx ↔ T.Has ctx u
  channelId2User : ∀ u ctx, r.channelId2User.get ctx.channelId = some u ↔ T.Has ctx u
  nodup : ∀ room, (r.roomStubMap.users room).Nodup
  members : ∀ room u, u ∈ r.roomStubMap.users room ↔ ∃ ctx, T.InRoom ctx u room
  stored : ∀ u ctx, T.Has ctx u → u ∈ db.rows

namespace Represents

variable {db : UserTable} {T : Sessions} {r : Registries} {u v : User}
  {ctx c : ChannelHandlerContext}

theorem empty : Represents db SessionTable.empty Registries.empty where
  user2ChannelCtx u ctx := by simp [Registries.empty, SessionTable.not_has_empty]
  channelId2User u ctx := by simp [Registries.empty, SessionTable.not_has_empty]
  nodup room := by simp [Registries.empty]
  members room u := by simp [Registries.empty, SessionTable.not_inRoom_empty]
  stored u ctx h := absurd h SessionTable.not_has_empty

/-- A user has one session, since it is linked on one channel. -/
theorem ctx_unique (h : Represents db T r) (hc : T.Has c u) (hctx : T.Has ctx u) : c = ctx :=
  Option.some.inj
    (((h.user2ChannelCtx u c).mpr hc).symm.trans ((h.user2ChannelCtx u ctx).mpr hctx))

/-- A channel has one session, since it is linked as one user. -/
theorem user_unique (h : Represents db T r) (hv : T.Has ctx v) (hu : T.Has ctx u) : v = u :=
  Option.some.inj
    (((h.channelId2User v ctx).mpr hv).symm.trans ((h.channelId2User u ctx).mpr hu))

/-- A channel that is linked as nobody has no session. -/
theorem not_has (h : Represents db T r) (hctx : r.channelId2User.get ctx.channelId = none)
    (u : User) : ¬ T.Has ctx u := by
  rw [← h.channelId2User, hctx]
  simp

/-- **An admitted link** opens a session in the table and in the registries. The channel
may be linked as the same user already, and then it enters one more room; that it is not
in the room yet keeps the list without doubles. -/
theorem link (h : Represents db T r) (hu : u ∈ db.rows) {roomId : Option Long}
    (hadm : T.Admits ctx u roomId) :
    Represents db (T.openSession ctx u roomId) (r.link ctx u roomId) := by
  obtain ⟨husers, hctxs, hroom⟩ := hadm
  refine ⟨fun v c => ?_, fun v c => ?_, fun room => ?_, fun room v => ?_, fun v c hv => ?_⟩
  · rw [Registries.user2ChannelCtx_link, ConcurrentHashMap.get_put,
      SessionTable.has_openSession]
    by_cases hv : v = u
    · rw [if_pos hv, hv, Option.some_inj]
      refine ⟨fun e => Or.inr ⟨e.symm, rfl⟩, ?_⟩
      rintro (hc | ⟨hc, -⟩)
      · exact (husers c hc).symm
      · exact hc.symm
    · rw [if_neg hv, h.user2ChannelCtx, or_iff_left (fun hc => hv hc.2)]
  · rw [Registries.channelId2User_link, ConcurrentHashMap.get_put,
      SessionTable.has_openSession]
    by_cases hid : c.channelId = ctx.channelId
    · rw [if_pos hid, Option.some_inj, ChannelHandlerContext.ext hid]
      refine ⟨fun e => Or.inr ⟨rfl, e.symm⟩, ?_⟩
      rintro (hv | ⟨-, hv⟩)
      · exact (hctxs v hv).symm
      · exact hv.symm
    · rw [if_neg hid, h.channelId2User,
        or_iff_left (fun hc => hid (congrArg ChannelHandlerContext.channelId hc.1))]
  · rw [Registries.users_link]
    split
    · next hr =>
      have hnew : u ∉ r.roomStubMap.users room := by
        rw [h.members]
        rintro ⟨c, hc⟩
        rw [husers c hc.has] at hc
        exact hroom room hr hc
      exact (h.nodup room).append (List.nodup_singleton u) (by simpa using hnew)
    · exact h.nodup room
  · simp only [Registries.users_link, SessionTable.inRoom_openSession, exists_or,
      ← h.members]
    split
    · next hr => simp [hr]
    · next hr => simp [hr]
  · rw [SessionTable.has_openSession] at hv
    obtain hv | ⟨-, rfl⟩ := hv
    · exact h.stored v c hv
    · exact hu

/-- **A logout of a linked channel** ends its session in both. One removal from each list
is enough, as the user is in none of them twice. -/
theorem logout (h : Represents db T r) (hu : r.channelId2User.get ctx.channelId = some u) :
    Represents db (T.close ctx) (r.logout ctx u) := by
  rw [h.channelId2User] at hu
  refine ⟨fun v c => ?_, fun v c => ?_, fun room => ?_, fun room v => ?_, fun v c hv => ?_⟩
  · rw [Registries.user2ChannelCtx_logout, ConcurrentHashMap.get_remove,
      SessionTable.has_close]
    by_cases hv : v = u
    · rw [if_pos hv, hv]
      exact iff_of_false (by simp) (fun hc => hc.1 (h.ctx_unique hc.2 hu))
    · rw [if_neg hv, h.user2ChannelCtx]
      refine ⟨fun hc => ⟨?_, hc⟩, And.right⟩
      rintro rfl
      exact hv (h.user_unique hc hu)
  · rw [Registries.channelId2User_logout, ConcurrentHashMap.get_remove,
      SessionTable.has_close]
    by_cases hid : c.channelId = ctx.channelId
    · rw [if_pos hid, ChannelHandlerContext.ext hid]
      exact iff_of_false (by simp) (fun hc => hc.1 rfl)
    · rw [if_neg hid, h.channelId2User]
      exact ⟨fun hc => ⟨fun e => hid (by rw [e]), hc⟩, And.right⟩
  · rw [Registries.users_logout]
    exact (h.nodup room).erase u
  · rw [Registries.users_logout, (h.nodup room).mem_erase_iff, h.members]
    simp only [SessionTable.inRoom_close, exists_and_left.symm]
    refine ⟨?_, ?_⟩
    · rintro ⟨c, hne, hc⟩
      refine ⟨c, ?_, hc⟩
      rintro rfl
      exact hne (h.user_unique hc.has hu)
    · rintro ⟨c, hne, hc⟩
      refine ⟨c, ?_, hc⟩
      rintro rfl
      exact hne (h.ctx_unique hc.has hu)
  · exact h.stored v c (SessionTable.has_close.mp hv).2

/-- **A logout**, whether it goes through or throws, ends the session of its
channel. -/
theorem invoke_of_isLogout (h : Represents db T r) {e : Event} (he : e.IsLogout) :
    Represents db (T.close e.ctx) (invoke db e r).registries := by
  cases hctx : r.channelId2User.get e.ctx.channelId with
  | none =>
    rw [invoke_logout_none db r he hctx,
      SessionTable.close_of_forall_not_has (h.not_has hctx)]
    exact h
  | some u =>
    rw [invoke_logout_some db r he hctx]
    exact h.logout hctx

/-- **The handling of a frame** opens what it opens, whether it throws after that or not. -/
theorem invoke_channelRead0 (h : Represents db T r) {f : TextWebSocketFrame}
    (hadm : LinkIsAdmitted db T (.channelRead0 ctx f)) :
    Represents db (T.opened db (.channelRead0 ctx f))
      (invoke db (.channelRead0 ctx f) r).registries := by
  show Represents db ((linkSender db f).elim T _) _
  cases hf : linkSender db f with
  | none =>
    rw [registries_of_linkSender_none r ctx hf]
    exact h
  | some u =>
    obtain ⟨m, rfl, -, hs⟩ := linkSender_eq_some hf
    rw [registries_of_linkSender r ctx hf]
    exact h.link (UserTable.mem_of_getUserById hs) (hadm ctx _ u rfl hf)

/-! ### The loops -/

/-- No room list names a user without a session, and so no loop over one throws. -/
theorem reachesAll_users (h : Represents db T r) (room : Long) (id : Option Long) :
    r.reachesAll (r.roomStubMap.users room) id = true := by
  rw [Registries.reachesAll_iff]
  intro v hv _
  obtain ⟨c, hc⟩ := (h.members room v).mp hv
  rw [(h.user2ChannelCtx v c).mpr hc.has]
  rfl

/-- A loop that reaches everyone writes to the sessions of its users, but for
those of the sender. -/
theorem mem_deliveries (h : Represents db T r) {users : List User}
    (hall : r.reachesAll users u.id = true) (hu : u ∈ db.rows) (message : Message)
    {w : Written} :
    w ∈ r.deliveries users u.id message
      ↔ ∃ c v, v ∈ users ∧ T.Has c v ∧ v ≠ u ∧ w = (c, message) := by
  rw [Registries.deliveries_of_reachesAll hall, List.mem_filterMap]
  constructor
  · rintro ⟨v, hv, hw⟩
    obtain ⟨hmem, hne⟩ := mem_recipients.mp hv
    obtain ⟨c, hc, rfl⟩ := Option.map_eq_some_iff.mp hw
    refine ⟨c, v, hmem, (h.user2ChannelCtx v c).mp hc, ?_, rfl⟩
    rintro rfl
    exact hne rfl
  · rintro ⟨c, v, hmem, hc, hne, rfl⟩
    -- the ids of the stored users are distinct
    have hid : v.id ≠ u.id := fun e => hne (UserTable.eq_of_id_eq
      (UserTable.getUserById_of_mem (h.stored v c hc)) (UserTable.getUserById_of_mem hu) e)
    refine ⟨v, mem_recipients.mpr ⟨hmem, hid⟩, ?_⟩
    rw [(h.user2ChannelCtx v c).mpr hc]
    rfl

/-- A loop that reaches everyone writes to no channel twice, as the users are distinct
and no two of them are on one channel. -/
theorem nodup_deliveries (h : Represents db T r) {users : List User} {id : Option Long}
    (hall : r.reachesAll users id = true) (hnodup : users.Nodup) (message : Message) :
    (r.deliveries users id message).Nodup := by
  rw [Registries.deliveries_of_reachesAll hall]
  refine (hnodup.filter _).filterMap (fun v v' w hv hv' => ?_)
  obtain ⟨c, hc, rfl⟩ := Option.map_eq_some_iff.mp hv
  obtain ⟨c', hc', hcc⟩ := Option.map_eq_some_iff.mp hv'
  obtain rfl : c' = c := congrArg Prod.fst hcc
  exact h.user_unique ((h.user2ChannelCtx v c').mp hc) ((h.user2ChannelCtx v' c').mp hc')

/-- **A broadcast to a room** is written to the other sessions in it. -/
theorem mem_deliveries_users (h : Represents db T r) (hu : u ∈ db.rows) (room : Long)
    (message : Message) {w : Written} :
    w ∈ r.deliveries (r.roomStubMap.users room) u.id message
      ↔ ∃ c v, T.InRoom c v room ∧ v ≠ u ∧ w = (c, message) := by
  rw [h.mem_deliveries (h.reachesAll_users room u.id) hu]
  refine exists₂_congr (fun c v => ?_)
  rw [h.members, ← and_assoc]
  refine and_congr_left (fun _ => ⟨?_, fun hin => ⟨⟨c, hin⟩, hin.has⟩⟩)
  rintro ⟨⟨c', hin⟩, hc⟩
  rw [h.ctx_unique hc hin.has]
  exact hin

/-! ### What is written -/

/-- **A logout writes what the sessions say.** -/
theorem written_of_isLogout (h : Represents db T r) {e : Event} (he : e.IsLogout) :
    (invoke db e r).written.Nodup
      ∧ ∀ w, w ∈ (invoke db e r).written ↔ LogoutDelivers T e.ctx w := by
  cases hctx : r.channelId2User.get e.ctx.channelId with
  | none =>
    rw [invoke_logout_none db r he hctx]
    refine ⟨List.nodup_nil, fun w => iff_of_false (by simp) ?_⟩
    rintro ⟨u, c, v, hu, -⟩
    exact h.not_has hctx u hu
  | some u =>
    have hu : T.Has e.ctx u := (h.channelId2User u e.ctx).mp hctx
    have hall := r.reachesAll_keySet u.id
    rw [invoke_logout_some db r he hctx]
    refine ⟨h.nodup_deliveries hall r.user2ChannelCtx.keySet_nodup _, fun w => ?_⟩
    rw [h.mem_deliveries hall (h.stored u e.ctx hu)]
    constructor
    · rintro ⟨c, v, -, hc, hne, rfl⟩
      exact ⟨u, c, v, hu, hc, hne, rfl⟩
    · rintro ⟨u', c, v, hu', hc, hne, rfl⟩
      obtain rfl := h.user_unique hu' hu
      refine ⟨c, v, ?_, hc, hne, rfl⟩
      rw [ConcurrentHashMap.mem_keySet, (h.user2ChannelCtx v c).mpr hc]
      rfl

end Represents

/-- **The outcome of a frame as the sessions say**: it writes what it delivers,
each frame once, and nothing if its handling throws. -/
structure WritesAsSaid (db : UserTable) (T : Sessions) (ctx : ChannelHandlerContext)
    (f : TextWebSocketFrame) (o : Outcome) : Prop where
  nodup : o.written.Nodup
  mem_iff : ∀ w, w ∈ o.written ↔ FrameDelivers db T ctx f w
  nil_of_thrown : o.thrown ≠ none → o.written = []

/-- Where nothing is to be written, nothing is written. -/
theorem WritesAsSaid.of_nil {db : UserTable} {T : Sessions} {ctx : ChannelHandlerContext}
    {f : TextWebSocketFrame} {o : Outcome} (hw : o.written = [])
    (hno : ∀ w, ¬ FrameDelivers db T ctx f w) : WritesAsSaid db T ctx f o where
  nodup := hw ▸ List.nodup_nil
  mem_iff w := iff_of_false (by simp [hw]) (hno w)
  nil_of_thrown _ := hw

namespace Represents

section Frames

variable {db : UserTable} {T : Sessions} {r : Registries} (ctx : ChannelHandlerContext)
  {m : Message}

/-- A link writes to the other sessions of its room. -/
theorem writesAsSaid_link (h : Represents db T r) (hm : m.HasType .link) :
    WritesAsSaid db T ctx (.message m) (invoke db (.channelRead0 ctx (.message m)) r) := by
  rw [invoke_channelRead0_message]
  cases hs : db.getUserById m.senderId with
  | none =>
    rw [run_link_of_unknown db ctx r [] hm hs]
    exact .of_nil rfl (fun w => by simp [frameDelivers_link_iff hm, hs])
  | some u =>
    cases hr : m.roomId with
    | none =>
      rw [run_link_of_room_none db ctx r [] hm hs hr]
      exact .of_nil rfl (fun w => by simp [frameDelivers_link_iff hm, hr])
    | some room =>
      have hall := h.reachesAll_users room u.id
      rw [run_link db ctx r [] hm hs hr, ← UserTable.id_eq_of_getUserById hs, if_pos hall]
      refine ⟨h.nodup_deliveries hall (h.nodup room) _, fun w => ?_, fun hne => absurd rfl hne⟩
      show w ∈ r.deliveries _ u.id (linkMessage m u) ↔ _
      rw [h.mem_deliveries_users (UserTable.mem_of_getUserById hs), frameDelivers_link_iff hm,
        hs, hr]
      simp only [Option.some_inj, exists_eq_left']

/-- A message to a room writes to the other sessions of the room. -/
theorem writesAsSaid_groupSend (h : Represents db T r) (hm : m.HasType .groupSend) :
    WritesAsSaid db T ctx (.message m) (invoke db (.channelRead0 ctx (.message m)) r) := by
  rw [invoke_channelRead0_message]
  by_cases hv : m.receiverId = none
  · cases hr : m.roomId with
    | none =>
      rw [run_groupSend_of_room_none db ctx r [] hm hv hr]
      exact .of_nil rfl (fun w => by simp [frameDelivers_groupSend_iff hm, hr])
    | some room =>
      cases hs : db.getUserById m.senderId with
      | none =>
        refine .of_nil ?_ (fun w => by simp [frameDelivers_groupSend_iff hm, hs])
        by_cases hl : r.roomStubMap.get room = none
        · rw [run_groupSend_of_get_none db ctx r [] hm hv hr hl]
          rfl
        · rw [run_groupSend_of_unknown db ctx r [] hm hv hr hl hs]
          rfl
      | some u =>
        have hall := h.reachesAll_users room u.id
        rw [run_groupSend db ctx r [] hm hv hr hs, ← UserTable.id_eq_of_getUserById hs,
          if_pos hall]
        refine ⟨h.nodup_deliveries hall (h.nodup room) _, fun w => ?_, fun hne => absurd rfl hne⟩
        show w ∈ r.deliveries _ u.id (groupMessage m u) ↔ _
        rw [h.mem_deliveries_users (UserTable.mem_of_getUserById hs),
          frameDelivers_groupSend_iff hm, hs, hr, and_iff_right hv]
        simp only [Option.some_inj, exists_eq_left']
  · rw [run_groupSend_of_receiver db ctx r [] hm hv]
    exact .of_nil rfl (fun w => by simp [frameDelivers_groupSend_iff hm, hv])

/-- A whisper writes to its own channel if its receiver has no session. -/
theorem writesAsSaid_singleSend (h : Represents db T r) (hm : m.HasType .singleSend) :
    WritesAsSaid db T ctx (.message m) (invoke db (.channelRead0 ctx (.message m)) r) := by
  rw [invoke_channelRead0_message]
  cases hv : db.getUserById m.receiverId with
  | none =>
    rw [run_singleSend_of_unknown db ctx r [] hm hv]
    exact .of_nil rfl (fun w => by simp [frameDelivers_singleSend_iff hm, hv])
  | some u =>
    rw [run_singleSend db ctx r [] hm hv, ConcurrentHashMap.containsKey_eq]
    cases hu : r.user2ChannelCtx.get u with
    | some c =>
      have hc : T.Has c u := (h.user2ChannelCtx u c).mp hu
      refine .of_nil rfl (fun w => ?_)
      rw [frameDelivers_singleSend_iff hm, hv]
      rintro ⟨_, ⟨rfl⟩, hoff, -⟩
      exact hoff c hc
    | none =>
      have hoff : ∀ c, ¬ T.Has c u := fun c => by
        rw [← h.user2ChannelCtx, hu]
        simp
      refine ⟨List.nodup_singleton _, fun w => ?_, fun hne => absurd rfl hne⟩
      show w ∈ [(ctx, undeliveredNotice m.senderId)] ↔ _
      rw [List.mem_singleton, frameDelivers_singleSend_iff hm, hv]
      simp only [Option.some_inj, exists_eq_left', and_iff_right hoff]

/-- **A frame writes what the sessions say.** -/
theorem writesAsSaid (h : Represents db T r) (f : TextWebSocketFrame) :
    WritesAsSaid db T ctx f (invoke db (.channelRead0 ctx f) r) := by
  cases f with
  | unparsable => exact .of_nil rfl (fun w hw => nomatch hw)
  | null => exact .of_nil rfl (fun w hw => nomatch hw)
  | message m =>
    obtain hm | hm | hm | hm | ⟨hm, hm'⟩ := m.type_cases
    · rw [invoke_channelRead0_message, run_handleMessage_of_type_none db ctx r [] hm]
      exact .of_nil rfl (fun w => not_frameDelivers_of_other (fun t ht => ht.type_ne_none hm))
    · exact h.writesAsSaid_link ctx hm
    · exact h.writesAsSaid_groupSend ctx hm
    · exact h.writesAsSaid_singleSend ctx hm
    · rw [invoke_channelRead0_message, run_handleMessage_of_other db ctx r [] hm hm']
      exact .of_nil rfl (fun w => not_frameDelivers_of_other hm')

end Frames

end Represents

/-! ## A call and what Netty makes of it -/

section Dispatch

variable {db : UserTable} {T : Sessions} {r : Registries} {e : Event}

theorem Sessions.ends_of_isLogout (he : e.IsLogout) (threw : Bool) : Sessions.Ends threw e := by
  obtain ⟨ctx, rfl | rfl⟩ := he.eq_or_eq
  · trivial
  · trivial

theorem Sessions.opened_of_isLogout (he : e.IsLogout) : Sessions.opened db T e = T := by
  obtain ⟨ctx, rfl | rfl⟩ := he.eq_or_eq
  · rfl
  · rfl

/-- What a call is said to do, and to write. -/
def StepsAsSaid (db : UserTable) (T : Sessions) (e : Event) (o : Outcome) : Prop :=
  Represents db (T.step db o.thrown.isSome e) o.registries
    ∧ o.written.Nodup ∧ ∀ w, w ∈ o.written ↔ Delivers db T o.thrown.isSome e w

/-- **A logout callback** does what the sessions say. -/
theorem Represents.stepsAsSaid_of_isLogout (h : Represents db T r) (he : e.IsLogout) :
    StepsAsSaid db T e (dispatch db e r) := by
  have hdeliv : ∀ threw w, Delivers db T threw e w ↔ LogoutDelivers T e.ctx w := by
    intro threw w
    rw [Delivers, Sessions.opened_of_isLogout he,
      and_iff_right (Sessions.ends_of_isLogout he threw)]
    refine or_iff_right ?_
    rintro ⟨ctx, f, rfl, -⟩
    exact he
  obtain ⟨hnodup, hmem⟩ := h.written_of_isLogout he
  rw [StepsAsSaid, (dispatch_of_isLogout db r he).1, (dispatch_of_isLogout db r he).2,
    Sessions.step, if_pos (Sessions.ends_of_isLogout he _), Sessions.opened_of_isLogout he]
  refine ⟨h.invoke_of_isLogout he, hnodup, fun w => ?_⟩
  rw [hmem, hdeliv]

/-- **A frame** does what the sessions say, and so does the logout after it, if
its handling throws. -/
theorem Represents.stepsAsSaid_channelRead0 (h : Represents db T r)
    (ctx : ChannelHandlerContext) (f : TextWebSocketFrame)
    (hadm : LinkIsAdmitted db T (.channelRead0 ctx f)) :
    StepsAsSaid db T (.channelRead0 ctx f) (dispatch db (.channelRead0 ctx f) r) := by
  have hframe := h.writesAsSaid ctx f
  have hopened := h.invoke_channelRead0 hadm
  have hdeliv : ∀ threw w, Delivers db T threw (.channelRead0 ctx f) w
      ↔ FrameDelivers db T ctx f w
        ∨ (threw = true ∧ LogoutDelivers (T.opened db (.channelRead0 ctx f)) ctx w) := by
    refine fun threw w => or_congr_left ⟨?_, fun hw => ⟨ctx, f, rfl, hw⟩⟩
    rintro ⟨ctx', f', he, hw⟩
    cases he
    exact hw
  rw [StepsAsSaid, thrown_dispatch]
  simp only [hdeliv]
  by_cases hthrown : (invoke db (.channelRead0 ctx f) r).thrown = none
  · rw [dispatch_of_thrown_none db r hthrown, hthrown]
    refine ⟨hopened, hframe.nodup, fun w => ?_⟩
    rw [hframe.mem_iff]
    simp
  · -- the frame wrote nothing, and the logout follows
    have hexc : Event.IsLogout (.exceptionCaught ctx) := trivial
    obtain ⟨hnodup, hmem⟩ := hopened.written_of_isLogout hexc
    have hnil := hframe.nil_of_thrown hthrown
    rw [dispatch_of_thrown db r (by simp) hthrown, hnil, List.nil_append,
      Option.isSome_iff_ne_none.mpr hthrown]
    refine ⟨hopened.invoke_of_isLogout hexc, hnodup, fun w => ?_⟩
    rw [show (Event.channelRead0 ctx f).ctx = (Event.exceptionCaught ctx).ctx from rfl]
    refine (hmem w).trans ?_
    rw [← hframe.mem_iff, hnil]
    simp [Event.ctx]

/-- **A call does what the sessions say.** -/
theorem Represents.stepsAsSaid (h : Represents db T r) (hadm : LinkIsAdmitted db T e) :
    StepsAsSaid db T e (dispatch db e r) := by
  cases e with
  | channelInactive ctx => exact h.stepsAsSaid_of_isLogout trivial
  | exceptionCaught ctx => exact h.stepsAsSaid_of_isLogout trivial
  | channelRead0 ctx f => exact h.stepsAsSaid_channelRead0 ctx f hadm
  | channelActive ctx =>
    rw [dispatch_of_thrown_none db r rfl, invoke_channelActive]
    refine ⟨⟨h.user2ChannelCtx, h.channelId2User, h.nodup, h.members, h.stored⟩,
      List.nodup_nil, fun w => iff_of_false (by simp) ?_⟩
    rintro (⟨ctx', f, he, -⟩ | ⟨hends, -⟩)
    · cases he
    · exact hends

end Dispatch

/-- **The registries represent the sessions after every prefix of a run, and
each of its calls writes what the sessions say, if every link of the run is
admitted.** -/
theorem sessions_refinement (db : UserTable) (es : List Event)
    (hlinks : ∀ pre e, pre ++ [e] <+: es → LinkIsAdmitted db (sessions db pre) e) :
    (∀ pre, pre <+: es → Represents db (sessions db pre) (afterDispatch db pre))
      ∧ ∀ pre e, pre ++ [e] <+: es →
          StepsAsSaid db (sessions db pre) e (dispatch db e (afterDispatch db pre)) := by
  have hrun : ∀ pre, pre <+: es → Represents db (sessions db pre) (afterDispatch db pre) := by
    refine forall_prefix_of_step .empty (fun pre e _ h hadm => ?_) hlinks
    rw [sessions_snoc, afterDispatch_snoc]
    exact (h.stepsAsSaid hadm).1
  refine ⟨hrun, fun pre e hpre => ?_⟩
  exact (hrun pre ((List.prefix_append pre [e]).trans hpre)).stepsAsSaid (hlinks pre e hpre)

/-- A call that is no link is admitted. -/
theorem linkIsAdmitted_of_not_link {db : UserTable} {T : Sessions} {e : Event}
    (h : ∀ ctx f, e = .channelRead0 ctx f → linkSender db f = none) : LinkIsAdmitted db T e := by
  intro ctx f u he hu
  rw [h ctx f he] at hu
  exact absurd hu (by simp)

/-- Two users meet in a room, one speaks, and one goes. -/
def twoMeet : List Event :=
  [.channelRead0 ⟨1⟩ (.message (.link 1 7)), .channelRead0 ⟨2⟩ (.message (.link 2 7)),
    .channelRead0 ⟨2⟩ (.message (.groupSend 2 7 "hi")), .channelInactive ⟨1⟩]

/-- The maps after it are those of the second user alone. -/
theorem sessions_refinement_two :
    Represents sampleTable (sessions sampleTable twoMeet)
      (afterDispatch sampleTable twoMeet) := by
  refine (sessions_refinement sampleTable twoMeet ?_).1 _ (List.prefix_refl _)
  unfold twoMeet
  have hfirst : sessions sampleTable [.channelRead0 ⟨1⟩ (.message (.link 1 7))]
      = SessionTable.empty.openSession ⟨1⟩ aaa (some 7) := rfl
  simp only [forall_step_cons, forall_step_nil, and_true]
  refine ⟨?_, ?_, ?_, ?_⟩
  · intro ctx f u _ _
    refine ⟨fun c hc => ?_, fun v hv => ?_, fun room _ hin => ?_⟩
    · exact absurd hc SessionTable.not_has_empty
    · exact absurd hv SessionTable.not_has_empty
    · exact SessionTable.not_inRoom_empty hin
  · intro ctx f u he hu
    cases he
    obtain rfl : bbb = u := Option.some.inj hu
    rw [hfirst]
    refine ⟨fun c hc => ?_, fun v hv => ?_, fun room _ hin => ?_⟩
    · simp [SessionTable.not_has_empty, aaa, bbb] at hc
    · simp [SessionTable.not_has_empty] at hv
    · simp [SessionTable.not_inRoom_empty] at hin
  · refine linkIsAdmitted_of_not_link (fun ctx f he => ?_)
    cases he
    rfl
  · exact linkIsAdmitted_of_not_link (fun ctx f he => nomatch he)

import Chatroom.ServerHandler
import Mathlib.Data.List.TakeWhile

/-!
# One call of the handler, alone

What a call of the handler answers, writes and leaves in the registries when
nothing else runs meanwhile. The loops and the branches of the handler are
evaluated once, here, and everything about sequential runs is read off the
results:

* a logout either throws before it has done anything, which is when the
  channel is not linked (`run_handleLogout_none`), or goes through
  (`run_handleLogout_some`);
* a frame is refused before it has done anything, or it comes from a known
  user and says to link, to speak, or to whisper (`run_link`, `run_groupSend`,
  `run_singleSend`).

`Registries.register`, `Registries.join` and `Registries.logout` are the three
ways in which a call changes the registries, besides the list of connected
channels.
-/

/-- The users of a list that a loop does not pass over. -/
def recipients (users : List User) (id : Option Long) : List User :=
  users.filter (fun u => u.id ≠ id)

@[simp] theorem mem_recipients {users : List User} {id : Option Long} {u : User} :
    u ∈ recipients users id ↔ u ∈ users ∧ u.id ≠ id := by
  simp [recipients]

namespace RoomStubMap

/-- Add a user to the list of a room, which is made if there is none. -/
def join (m : RoomStubMap) (roomId : Long) (u : User) : RoomStubMap :=
  match m.get roomId with
  | some l => m.add l u
  | none => m.put roomId [u]

/-- Remove one occurrence of a user from the list of every room. -/
def removeFromAll (m : RoomStubMap) (u : User) : RoomStubMap :=
  m.values.foldl (fun m l => m.remove l u) m

/-- **Joining a room appends to the users of that room.** -/
@[simp] theorem users_join (m : RoomStubMap) (r r' : Long) (u : User) :
    (m.join r u).users r' = if r' = r then m.users r ++ [u] else m.users r' := by
  unfold join
  cases h : m.get r with
  | some l => exact users_add h u r'
  | none =>
    show (m.put r [u]).users r' = _
    rw [users_put, users_of_get_none h]
    rfl

/-- A room that was joined has a list. -/
theorem get_join_isSome (m : RoomStubMap) (r : Long) (u : User) :
    ((m.join r u).get r).isSome = true := by
  cases h : m.get r with
  | some l => simp [join, h]
  | none => simp [join, h]

/-- Removing a user from several distinct list objects: a room loses one
occurrence exactly if its list is among them. -/
theorem users_foldl_remove (u : User) (ls : List ListRef) (hls : ls.Nodup)
    (m : RoomStubMap) (r : Long) :
    (ls.foldl (fun m l => m.remove l u) m).users r
      = if (m.get r).any (fun l => l ∈ ls) then (m.users r).erase u
        else m.users r := by
  induction ls generalizing m with
  | nil => simp
  | cons l ls ih =>
    obtain ⟨hl, hls⟩ := List.nodup_cons.mp hls
    rw [List.foldl_cons, ih hls, get_remove]
    by_cases hget : m.get r = some l
    · rw [users_remove hget, if_pos rfl, hget]
      simp [hl]
    · rw [remove, users_setList_of_ne hget]
      cases h : m.get r with
      | none => rfl
      | some l' =>
        have hne : l' ≠ l := fun e => hget (h.trans (congrArg some e))
        simp [hne]

/-- **Every room loses one occurrence of the user.** -/
@[simp] theorem users_removeFromAll (m : RoomStubMap) (u : User) (r : Long) :
    (m.removeFromAll u).users r = (m.users r).erase u := by
  rw [removeFromAll, users_foldl_remove u m.values m.values_nodup]
  cases h : m.get r with
  | none => simp [users_of_get_none h]
  | some l =>
    have hmem : l ∈ m.values := by
      rw [mem_values, roomId_of_get h]
      exact h
    simp [hmem]

end RoomStubMap

namespace Registries

/-- What a loop over users writes: the message, once for each recipient, up to
the first that is linked nowhere. -/
def deliveries (r : Registries) (users : List User) (id : Option Long)
    (message : Message) : List Written :=
  ((recipients users id).takeWhile r.user2ChannelCtx.containsKey).filterMap
    (fun u => (r.user2ChannelCtx.get u).map (fun ctx => (ctx, message)))

/-- Every recipient is linked somewhere, so that a loop over the users runs to
its end. -/
def reachesAll (r : Registries) (users : List User) (id : Option Long) : Bool :=
  (recipients users id).all r.user2ChannelCtx.containsKey

/-- The two puts of a link. -/
def register (r : Registries) (ctx : ChannelHandlerContext) (u : User) :
    Registries :=
  { r with
    user2ChannelCtx := r.user2ChannelCtx.put u ctx
    channelId2User := r.channelId2User.put ctx.channelId u }

/-- A link: the two puts, and the entry into a room. -/
def join (r : Registries) (ctx : ChannelHandlerContext) (u : User)
    (roomId : Long) : Registries :=
  { r.register ctx u with roomStubMap := r.roomStubMap.join roomId u }

/-- The removals of a logout. -/
def logout (r : Registries) (ctx : ChannelHandlerContext) (u : User) :
    Registries where
  user2ChannelCtx := r.user2ChannelCtx.remove u
  channelId2User := r.channelId2User.remove ctx.channelId
  connectedChannelCtx := r.connectedChannelCtx.erase ctx
  roomStubMap := r.roomStubMap.removeFromAll u

theorem reachesAll_iff {r : Registries} {users : List User} {id : Option Long} :
    r.reachesAll users id = true
      ↔ ∀ u ∈ users, u.id ≠ id → (r.user2ChannelCtx.get u).isSome = true := by
  simp [reachesAll, recipients, ConcurrentHashMap.containsKey_eq, or_iff_not_imp_left]

/-- All keys are linked, so a loop over the keys runs to its end. -/
theorem reachesAll_keySet (r : Registries) (id : Option Long) :
    r.reachesAll r.user2ChannelCtx.keySet id = true := by
  rw [reachesAll_iff]
  intro u hu _
  exact (ConcurrentHashMap.mem_keySet _ _).mp hu

/-- **A loop that reaches all its recipients writes to each of them.** -/
theorem deliveries_of_reachesAll {r : Registries} {users : List User}
    {id : Option Long} (h : r.reachesAll users id = true) (message : Message) :
    r.deliveries users id message
      = (recipients users id).filterMap
          (fun u => (r.user2ChannelCtx.get u).map (fun ctx => (ctx, message))) := by
  unfold deliveries
  rw [List.takeWhile_eq_self_iff.mpr (List.all_eq_true.mp h)]

/-- What a loop writes is its message, to a channel of one of its recipients. -/
theorem exists_of_mem_deliveries {r : Registries} {users : List User} {id : Option Long}
    {message : Message} {w : Written} (h : w ∈ r.deliveries users id message) :
    w.2 = message ∧ ∃ u ∈ recipients users id, r.user2ChannelCtx.get u = some w.1 := by
  obtain ⟨u, hu, hw⟩ := List.mem_filterMap.mp h
  obtain ⟨ctx, hctx, rfl⟩ := Option.map_eq_some_iff.mp hw
  exact ⟨rfl, u, (List.takeWhile_sublist _).subset hu, hctx⟩

section Cons

variable (r : Registries) {users : List User} {id : Option Long} {u : User}
  (message : Message)

theorem reachesAll_cons_of_eq (h : u.id = id) :
    r.reachesAll (u :: users) id = r.reachesAll users id := by
  simp [reachesAll, recipients, h]

theorem reachesAll_cons_of_ne (h : u.id ≠ id) :
    r.reachesAll (u :: users) id
      = (r.user2ChannelCtx.containsKey u && r.reachesAll users id) := by
  simp [reachesAll, recipients, h]

theorem deliveries_cons_of_eq (h : u.id = id) :
    r.deliveries (u :: users) id message = r.deliveries users id message := by
  simp [deliveries, recipients, h]

theorem deliveries_cons_of_none (h : u.id ≠ id)
    (hget : r.user2ChannelCtx.get u = none) :
    r.deliveries (u :: users) id message = [] := by
  simp [deliveries, recipients, h, hget, ConcurrentHashMap.containsKey_eq]

theorem deliveries_cons_of_some (h : u.id ≠ id) {ctx : ChannelHandlerContext}
    (hget : r.user2ChannelCtx.get u = some ctx) :
    r.deliveries (u :: users) id message
      = (ctx, message) :: r.deliveries users id message := by
  simp [deliveries, recipients, h, hget, ConcurrentHashMap.containsKey_eq]

end Cons

/-- A loop only asks where its recipients are linked. -/
theorem deliveries_congr {r r' : Registries} {users : List User}
    {id : Option Long} (message : Message)
    (h : ∀ u ∈ users, u.id ≠ id → r'.user2ChannelCtx.get u = r.user2ChannelCtx.get u) :
    r'.deliveries users id message = r.deliveries users id message := by
  induction users with
  | nil => rfl
  | cons u us ih =>
    have ih' := ih (fun v hv => h v (List.mem_cons_of_mem u hv))
    by_cases hid : u.id = id
    · rw [r'.deliveries_cons_of_eq message hid, r.deliveries_cons_of_eq message hid, ih']
    · have hu := h u List.mem_cons_self hid
      cases hget : r.user2ChannelCtx.get u with
      | none =>
        rw [r.deliveries_cons_of_none message hid hget,
          r'.deliveries_cons_of_none message hid (hu.trans hget)]
      | some ctx =>
        rw [r.deliveries_cons_of_some message hid hget,
          r'.deliveries_cons_of_some message hid (hu.trans hget), ih']

section Join

variable (r : Registries) (ctx : ChannelHandlerContext) {u : User} (room : Long)
  {id : Option Long}

/-- Entering a room adds no recipient: the new user has the id of the sender. -/
theorem recipients_join (h : u.id = id) :
    recipients ((r.join ctx u room).roomStubMap.users room) id
      = recipients (r.roomStubMap.users room) id := by
  simp [join, recipients, h]

/-- The two puts of a link are not seen by users with another id. -/
theorem get_register_of_id_ne {v : User} (h : u.id = id) (hv : v.id ≠ id) :
    (r.register ctx u).user2ChannelCtx.get v = r.user2ChannelCtx.get v := by
  have hne : v ≠ u := fun e => hv (e ▸ h)
  simp [register, hne]

/-- Whether a link reaches everyone was decided before it. -/
theorem reachesAll_join (h : u.id = id) :
    (r.join ctx u room).reachesAll ((r.join ctx u room).roomStubMap.users room) id
      = r.reachesAll (r.roomStubMap.users room) id := by
  unfold reachesAll
  rw [recipients_join r ctx room h]
  rw [Bool.eq_iff_iff, List.all_eq_true, List.all_eq_true]
  refine forall₂_congr (fun v hv => ?_)
  rw [ConcurrentHashMap.containsKey_eq, ConcurrentHashMap.containsKey_eq,
    show (r.join ctx u room).user2ChannelCtx.get v = r.user2ChannelCtx.get v from
      r.get_register_of_id_ne ctx h (mem_recipients.mp hv).2]

/-- What a link writes was decided before it. -/
theorem deliveries_join (h : u.id = id) (message : Message) :
    (r.join ctx u room).deliveries
        ((r.join ctx u room).roomStubMap.users room) id message
      = r.deliveries (r.roomStubMap.users room) id message := by
  have hcongr : (r.join ctx u room).deliveries
      ((r.join ctx u room).roomStubMap.users room) id message
        = r.deliveries ((r.join ctx u room).roomStubMap.users room) id message :=
    deliveries_congr message (fun v _ hv => r.get_register_of_id_ne ctx h hv)
  rw [hcongr]
  unfold deliveries
  rw [recipients_join r ctx room h]

end Join

end Registries

namespace ChatroomServerHandler

open AtomicProgram RegistryOp

/-! ## The loops -/

/-- **A loop over users**: it writes the deliveries, changes no registry, and
throws exactly if some recipient is linked nowhere. -/
theorem run_forEach_sendUnless (r : Registries) (id : Option Long)
    (message : Message) (users : List User) (w : List Written) :
    (forEach users (sendUnless id message)).run exec ⟨r, w⟩
      = (if r.reachesAll users id then .ok () else .error .nullPointerException,
        ⟨r, w ++ r.deliveries users id message⟩) := by
  induction users generalizing w with
  | nil => simp [recipients, Registries.deliveries, Registries.reachesAll]
  | cons u us ih =>
    rw [run_forEach_cons]
    by_cases hid : u.id = id
    · -- the user is passed over
      rw [sendUnless, if_pos hid, run_pure, andThen_ok, ih,
        r.reachesAll_cons_of_eq hid, r.deliveries_cons_of_eq message hid]
    · rw [sendUnless, if_neg hid, r.reachesAll_cons_of_ne hid,
        ConcurrentHashMap.containsKey_eq]
      cases hget : r.user2ChannelCtx.get u with
      | none =>
        rw [r.deliveries_cons_of_none message hid hget]
        simp [exec, hget, nonNull]
      | some ctx =>
        rw [r.deliveries_cons_of_some message hid hget]
        simp only [exec, hget, nonNull, run_bind, run_perform, run_pure,
          andThen_ok, ih, Option.isSome_some, Bool.true_and, List.append_assoc,
          List.singleton_append]

theorem run_broadcast (r : Registries) (l : ListRef) (id : Option Long)
    (message : Message) (w : List Written) :
    (broadcast l id message).run exec ⟨r, w⟩
      = (if r.reachesAll (r.roomStubMap.lists l) id then .ok ()
          else .error .nullPointerException,
        ⟨r, w ++ r.deliveries (r.roomStubMap.lists l) id message⟩) := by
  rw [broadcast, run_bind, run_perform, andThen_ok]
  exact run_forEach_sendUnless r id message _ w

/-- The loop that takes a user out of several list objects. -/
theorem run_forEach_usersRemove (r : Registries) (u : User) (ls : List ListRef)
    (w : List Written) :
    (forEach ls (fun l => perform (usersRemove l u)) : HandlerProgram Unit).run
        exec ⟨r, w⟩
      = (.ok (), ⟨{ r with
          roomStubMap := ls.foldl (fun m l => m.remove l u) r.roomStubMap }, w⟩) := by
  induction ls generalizing r with
  | nil => rfl
  | cons l ls ih =>
    rw [run_forEach_cons, run_perform, andThen_ok]
    exact ih { r with roomStubMap := r.roomStubMap.remove l u }

/-- **Entering a room** ends in a room that has a list, and does nothing
else. -/
theorem run_joinRoom (r : Registries) (roomId : Long) (u : User)
    (w : List Written) :
    (joinRoom roomId u).run exec ⟨r, w⟩
      = (.ok (), ⟨{ r with roomStubMap := r.roomStubMap.join roomId u }, w⟩) := by
  unfold joinRoom RoomStubMap.join
  cases hget : r.roomStubMap.get roomId with
  | none => simp [exec, hget]
  | some l => simp [exec, hget]

/-! ## The methods -/

/-- **A logout of a channel that is not linked throws and does nothing**:
either the first key of the loop already asks for the id of the user, or there
is no key and the removal is of a null key. -/
theorem run_handleLogout_none {r : Registries} {ctx : ChannelHandlerContext}
    (h : r.channelId2User.get ctx.channelId = none) (w : List Written) :
    (handleLogout ctx).run exec ⟨r, w⟩
      = (.error .nullPointerException, ⟨r, w⟩) := by
  cases hk : r.user2ChannelCtx.keySet with
  | nil => simp [handleLogout, exec, h, hk]
  | cons u us => simp [handleLogout, exec, h, hk, run_forEach_cons]

/-- **A logout of a linked channel goes through**: the other linked users are
told, and the user is removed everywhere. -/
theorem run_handleLogout_some {r : Registries} {ctx : ChannelHandlerContext}
    {u : User} (h : r.channelId2User.get ctx.channelId = some u)
    (w : List Written) :
    (handleLogout ctx).run exec ⟨r, w⟩
      = (.ok (), ⟨r.logout ctx u,
          w ++ r.deliveries r.user2ChannelCtx.keySet u.id (offlineNotice u)⟩) := by
  have hloop := run_forEach_sendUnless r u.id (offlineNotice u)
    r.user2ChannelCtx.keySet w
  rw [if_pos (r.reachesAll_keySet u.id)] at hloop
  simp only [handleLogout, exec, h, hloop, nonNull_some, bind_of_pure, run_bind,
    run_perform, andThen_ok, run_forEach_usersRemove]
  rfl

section HandleMessage

variable (db : UserTable) (ctx : ChannelHandlerContext) {m : Message}
  (r : Registries) (w : List Written) {u : User} {room : Long}

theorem run_handleMessage_of_type_none (h : m.type = none) :
    (handleMessage db ctx m).run exec ⟨r, w⟩
      = (.error .nullPointerException, ⟨r, w⟩) := by
  simp [handleMessage, h]

/-- A message of no known type is ignored. -/
theorem run_handleMessage_of_other (h : m.type ≠ none)
    (ht : ∀ t, ¬ m.HasType t) :
    (handleMessage db ctx m).run exec ⟨r, w⟩ = (.ok (), ⟨r, w⟩) := by
  obtain ⟨t, ht'⟩ := Option.ne_none_iff_exists'.mp h
  have hne : ∀ k : MessageType, t ≠ k.getCode :=
    fun k hk => ht k (ht'.trans (congrArg some hk))
  simp [handleMessage, ht', hne]

/-- A link of an unknown user is refused before anything is registered. -/
theorem run_link_of_unknown (hm : m.HasType .link)
    (hs : db.getUserById m.senderId = none) :
    (handleMessage db ctx m).run exec ⟨r, w⟩
      = (.error .nullPointerException, ⟨r, w⟩) := by
  rw [Message.HasType] at hm
  simp [handleMessage, hm, hs]

/-- A link to no room throws after the two puts. -/
theorem run_link_of_room_none (hm : m.HasType .link)
    (hs : db.getUserById m.senderId = some u) (hr : m.roomId = none) :
    (handleMessage db ctx m).run exec ⟨r, w⟩
      = (.error .nullPointerException, ⟨r.register ctx u, w⟩) := by
  rw [Message.HasType] at hm
  simp [handleMessage, hm, hs, hr, exec, Registries.register]

/-- **A link to a room** registers the user, enters it into the room, and tells
the other users of the room. -/
theorem run_link (hm : m.HasType .link)
    (hs : db.getUserById m.senderId = some u) (hr : m.roomId = some room) :
    (handleMessage db ctx m).run exec ⟨r, w⟩
      = (if r.reachesAll (r.roomStubMap.users room) m.senderId
          then .ok () else .error .nullPointerException,
        ⟨r.join ctx u room, w ++ r.deliveries (r.roomStubMap.users room)
          m.senderId (linkMessage m u)⟩) := by
  rw [Message.HasType] at hm
  have hid := UserTable.id_eq_of_getUserById hs
  rw [← r.reachesAll_join ctx room hid, ← r.deliveries_join ctx room hid]
  obtain ⟨l, hl⟩ := Option.isSome_iff_exists.mp
    (r.roomStubMap.get_join_isSome room u)
  have husers : (r.join ctx u room).roomStubMap.users room
      = (r.join ctx u room).roomStubMap.lists l :=
    RoomStubMap.users_of_get hl
  rw [husers, ← run_broadcast]
  simp only [handleMessage, hm, hs, hr, nonNull_some, bind_of_pure, if_true,
    run_bind, run_perform, andThen_ok, exec, run_joinRoom, hl]
  rfl

/-- A message with a receiver is not for a group, and is dropped. -/
theorem run_groupSend_of_receiver (hm : m.HasType .groupSend)
    (hv : m.receiverId ≠ none) :
    (handleMessage db ctx m).run exec ⟨r, w⟩ = (.ok (), ⟨r, w⟩) := by
  rw [Message.HasType] at hm
  simp [handleMessage, hm, hv, MessageType.getCode]

theorem run_groupSend_of_room_none (hm : m.HasType .groupSend)
    (hv : m.receiverId = none) (hr : m.roomId = none) :
    (handleMessage db ctx m).run exec ⟨r, w⟩
      = (.error .nullPointerException, ⟨r, w⟩) := by
  rw [Message.HasType] at hm
  simp [handleMessage, hm, hv, hr, MessageType.getCode]

/-- A message to a room that nobody ever joined is dropped, whoever sent it. -/
theorem run_groupSend_of_get_none (hm : m.HasType .groupSend)
    (hv : m.receiverId = none) (hr : m.roomId = some room)
    (hl : r.roomStubMap.get room = none) :
    (handleMessage db ctx m).run exec ⟨r, w⟩ = (.ok (), ⟨r, w⟩) := by
  rw [Message.HasType] at hm
  simp [handleMessage, hm, hv, hr, hl, exec, MessageType.getCode]

theorem run_groupSend_of_unknown (hm : m.HasType .groupSend)
    (hv : m.receiverId = none) (hr : m.roomId = some room)
    (hl : r.roomStubMap.get room ≠ none)
    (hs : db.getUserById m.senderId = none) :
    (handleMessage db ctx m).run exec ⟨r, w⟩
      = (.error .nullPointerException, ⟨r, w⟩) := by
  rw [Message.HasType] at hm
  obtain ⟨l, hl⟩ := Option.ne_none_iff_exists'.mp hl
  simp [handleMessage, hm, hv, hr, hl, hs, exec, MessageType.getCode]

/-- **A message of a known user to a room** is told the other users of the
room; no registry changes. -/
theorem run_groupSend (hm : m.HasType .groupSend) (hv : m.receiverId = none)
    (hr : m.roomId = some room) (hs : db.getUserById m.senderId = some u) :
    (handleMessage db ctx m).run exec ⟨r, w⟩
      = (if r.reachesAll (r.roomStubMap.users room) m.senderId
          then .ok () else .error .nullPointerException,
        ⟨r, w ++ r.deliveries (r.roomStubMap.users room) m.senderId
          (groupMessage m u)⟩) := by
  cases hl : r.roomStubMap.get room with
  | none =>
    rw [run_groupSend_of_get_none db ctx r w hm hv hr hl,
      RoomStubMap.users_of_get_none hl]
    simp [Registries.reachesAll, Registries.deliveries, recipients]
  | some l =>
    rw [Message.HasType] at hm
    rw [RoomStubMap.users_of_get hl, ← run_broadcast]
    simp [handleMessage, hm, hv, hr, hl, hs, exec, MessageType.getCode]

theorem run_singleSend_of_unknown (hm : m.HasType .singleSend)
    (hv : db.getUserById m.receiverId = none) :
    (handleMessage db ctx m).run exec ⟨r, w⟩
      = (.error .nullPointerException, ⟨r, w⟩) := by
  rw [Message.HasType] at hm
  simp [handleMessage, hm, hv, MessageType.getCode]

/-- **A message to one user** changes no registry and reaches nobody: its
sender is told if the receiver is offline, and otherwise nothing is written. -/
theorem run_singleSend (hm : m.HasType .singleSend)
    (hv : db.getUserById m.receiverId = some u) :
    (handleMessage db ctx m).run exec ⟨r, w⟩
      = (.ok (), ⟨r, w ++ if r.user2ChannelCtx.containsKey u then []
          else [(ctx, undeliveredNotice m.senderId)]⟩) := by
  rw [Message.HasType] at hm
  cases hk : r.user2ChannelCtx.containsKey u with
  | true => simp [handleMessage, hm, hv, hk, exec, MessageType.getCode]
  | false => simp [handleMessage, hm, hv, hk, exec, MessageType.getCode]

end HandleMessage

end ChatroomServerHandler

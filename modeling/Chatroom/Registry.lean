import Chatroom.ConcurrentHashMap
import Chatroom.Entity
import Mathlib.Logic.Function.Basic

/-!
# The registries of the chat handler

`ChatroomServerHandler` keeps four static collections, which the threads of
all the channels share: the context a user was last linked on, the user a
channel is linked as, the contexts of the connected channels, and the users
that joined each room. Each operation on one of them is atomic, and so is
handing a frame to a channel; a `RegistryOp` is one such operation, and
`RegistryOp.exec` says what it answers and does.

## Room lists are objects

`roomStubMap` maps a room to a list *object*. A thread that fetched the list
of a room goes on working with that object, also after another thread has put
a fresh one in its place, so the model has to tell the objects apart. A list
object is named by the room it was made for and its number among that room's
lists (`ListRef`); the map holds, per room, the number of the current one.
Two rooms never share a list object, by construction.

`RoomStubMap.users` is what a reader of the map sees at a room: the content of
the current list, and no user where there is none.
-/

/-- The id Netty gives a channel. -/
abbrev ChannelId : Type := ℕ

/-- The context of the handler in the pipeline of a channel: there is one per
channel, so it is known by the id of `ctx.channel()`. -/
@[ext] structure ChannelHandlerContext where
  channelId : ChannelId
  deriving DecidableEq, Repr

/-- A list object: the room it was made for, and its number among the lists
made for that room. -/
structure ListRef where
  roomId : Long
  index : ℕ
  deriving DecidableEq, Repr

/-- **The map of the rooms and the list objects it has held.** -/
structure RoomStubMap where
  /-- Per room, the number of the list the map holds. -/
  current : ConcurrentHashMap Long ℕ
  /-- The content of each list object. -/
  lists : ListRef → List User

namespace RoomStubMap

/-- The map before any user joined a room. -/
def empty : RoomStubMap := ⟨ConcurrentHashMap.empty, fun _ => []⟩

/-- The list object of a room, if the map holds one. -/
def get (m : RoomStubMap) (roomId : Long) : Option ListRef :=
  (m.current.get roomId).map (ListRef.mk roomId)

/-- The number of the next list made for a room. -/
def nextIndex (m : RoomStubMap) (roomId : Long) : ℕ :=
  (m.current.get roomId).elim 0 (· + 1)

/-- Put a fresh list with the given content at a room. -/
def put (m : RoomStubMap) (roomId : Long) (users : List User) : RoomStubMap :=
  ⟨m.current.put roomId (m.nextIndex roomId),
    Function.update m.lists ⟨roomId, m.nextIndex roomId⟩ users⟩

/-- The list objects the map holds, one per room. -/
def values (m : RoomStubMap) : List ListRef := m.current.keySet.filterMap m.get

/-- Change the content of a list object, which stays where it is. -/
def setList (m : RoomStubMap) (l : ListRef) (users : List User) : RoomStubMap :=
  { m with lists := Function.update m.lists l users }

/-- Append a user to a list object. -/
def add (m : RoomStubMap) (l : ListRef) (u : User) : RoomStubMap :=
  m.setList l (m.lists l ++ [u])

/-- Remove the first occurrence of a user from a list object. -/
def remove (m : RoomStubMap) (l : ListRef) (u : User) : RoomStubMap :=
  m.setList l ((m.lists l).erase u)

/-- **The users of a room**, as a reader of the map finds them. -/
def users (m : RoomStubMap) (roomId : Long) : List User :=
  (m.get roomId).elim [] m.lists

@[simp] theorem get_empty (r : Long) : empty.get r = none := by
  simp [get, empty]

@[simp] theorem users_empty (r : Long) : empty.users r = [] := by
  simp [users]

/-- The list a room has was made for that room. -/
theorem roomId_of_get {m : RoomStubMap} {r : Long} {l : ListRef}
    (h : m.get r = some l) : l.roomId = r := by
  obtain ⟨n, -, rfl⟩ := Option.map_eq_some_iff.mp h
  rfl

theorem users_of_get {m : RoomStubMap} {r : Long} {l : ListRef}
    (h : m.get r = some l) : m.users r = m.lists l := by
  simp [users, h]

theorem users_of_get_none {m : RoomStubMap} {r : Long} (h : m.get r = none) :
    m.users r = [] := by
  simp [users, h]

/-- A fresh list becomes the list of its room, and of no other. -/
@[simp] theorem get_put (m : RoomStubMap) (r r' : Long) (us : List User) :
    (m.put r us).get r'
      = if r' = r then some ⟨r, m.nextIndex r⟩ else m.get r' := by
  unfold get put
  rw [ConcurrentHashMap.get_put]
  split
  · next h => subst h; rfl
  · rfl

/-- **A fresh list is what a reader of its room finds**; the other rooms read
as before. -/
@[simp] theorem users_put (m : RoomStubMap) (r r' : Long) (us : List User) :
    (m.put r us).users r' = if r' = r then us else m.users r' := by
  unfold users
  rw [get_put]
  split
  · simp [put]
  · next h =>
    cases hget : m.get r' with
    | none => rfl
    | some l =>
      refine Function.update_of_ne (fun hl => h ?_) _ _
      rw [← roomId_of_get hget, hl]

@[simp] theorem get_add (m : RoomStubMap) (l : ListRef) (u : User) (r : Long) :
    (m.add l u).get r = m.get r := rfl

@[simp] theorem get_remove (m : RoomStubMap) (l : ListRef) (u : User) (r : Long) :
    (m.remove l u).get r = m.get r := rfl

/-- A change to the content of a list object is seen in the room that has it
as its list, and in no other. -/
theorem users_setList {m : RoomStubMap} {l : ListRef} {r : Long}
    (hget : m.get r = some l) (us : List User) (r' : Long) :
    (m.setList l us).users r' = if r' = r then us else m.users r' := by
  unfold users
  rw [show (m.setList l us).get r' = m.get r' from rfl]
  split
  · next h =>
    subst h
    rw [hget]
    exact Function.update_self l us m.lists
  · next h =>
    cases hget' : m.get r' with
    | none => rfl
    | some l' =>
      refine Function.update_of_ne (fun hl => h ?_) _ _
      rw [← roomId_of_get hget', hl, roomId_of_get hget]

/-- A change to another list object is not seen in a room. -/
theorem users_setList_of_ne {m : RoomStubMap} {l : ListRef} {r : Long}
    (h : m.get r ≠ some l) (us : List User) : (m.setList l us).users r = m.users r := by
  unfold users
  rw [show (m.setList l us).get r = m.get r from rfl]
  cases hget : m.get r with
  | none => rfl
  | some l' =>
    refine Function.update_of_ne (fun hl => h ?_) _ _
    rw [hget, hl]

/-- **A user added to the list of a room is its last user.** -/
theorem users_add {m : RoomStubMap} {l : ListRef} {r : Long}
    (hget : m.get r = some l) (u : User) (r' : Long) :
    (m.add l u).users r' = if r' = r then m.users r ++ [u] else m.users r' := by
  rw [users_of_get hget]
  exact users_setList hget _ r'

/-- A user is in a room after another was added to a list exactly if it was
before, or is the one added to the list of that room. -/
theorem mem_users_add {m : RoomStubMap} {l : ListRef} {u v : User} {r : Long} :
    v ∈ (m.add l u).users r ↔ v ∈ m.users r ∨ (m.get r = some l ∧ v = u) := by
  by_cases hget : m.get r = some l
  · rw [users_add hget, if_pos rfl]
    simp [hget]
  · rw [add, users_setList_of_ne hget]
    simp [hget]

/-- **A user removed from the list of a room loses one occurrence there.** -/
theorem users_remove {m : RoomStubMap} {l : ListRef} {r : Long}
    (hget : m.get r = some l) (u : User) (r' : Long) :
    (m.remove l u).users r'
      = if r' = r then (m.users r).erase u else m.users r' := by
  rw [users_of_get hget]
  exact users_setList hget _ r'

/-- A removal is seen in the list it is made from. -/
theorem lists_remove (m : RoomStubMap) (l l' : ListRef) (u : User) :
    (m.remove l u).lists l' = if l' = l then (m.lists l').erase u else m.lists l' := by
  show Function.update m.lists l ((m.lists l).erase u) l' = _
  rw [Function.update_apply]
  split
  · next hl => rw [hl]
  · rfl

/-- A removal leaves no list with more in it. -/
theorem mem_of_mem_lists_remove {m : RoomStubMap} {l l' : ListRef} {u v : User}
    (h : v ∈ (m.remove l u).lists l') : v ∈ m.lists l' := by
  rw [lists_remove] at h
  split at h
  · exact List.mem_of_mem_erase h
  · exact h

/-- A removal leaves the other users where they are. -/
theorem mem_lists_remove_of_ne {m : RoomStubMap} {l l' : ListRef} {u v : User} (hne : v ≠ u) :
    v ∈ (m.remove l u).lists l' ↔ v ∈ m.lists l' := by
  rw [lists_remove]
  split
  · exact List.mem_erase_of_ne hne
  · exact Iff.rfl

/-- The list objects the map holds are the lists of its rooms. -/
theorem mem_values {m : RoomStubMap} {l : ListRef} :
    l ∈ m.values ↔ m.get l.roomId = some l := by
  unfold values
  rw [List.mem_filterMap]
  constructor
  · rintro ⟨r, -, hr⟩
    rw [roomId_of_get hr]
    exact hr
  · intro h
    refine ⟨l.roomId, ?_, h⟩
    obtain ⟨n, hn, -⟩ := Option.map_eq_some_iff.mp h
    simp [hn]

/-- No list object is met twice among the values. -/
theorem values_nodup (m : RoomStubMap) : m.values.Nodup := by
  refine List.Nodup.filterMap (fun r r' l hr hr' => ?_) m.current.keySet_nodup
  rw [← roomId_of_get hr, ← roomId_of_get hr']

end RoomStubMap

/-! ## The registries and the operations on them -/

/-- **The four registries of `ChatroomServerHandler`.** -/
structure Registries where
  /-- `USER2CHANNEL_CTX`: the context a user was last linked on. -/
  user2ChannelCtx : ConcurrentHashMap User ChannelHandlerContext
  /-- `CHANNEL_ID2USER`: the user a channel is linked as. -/
  channelId2User : ConcurrentHashMap ChannelId User
  /-- `CONNECTED_CHANNEL_CTX`: the contexts of the connected channels. -/
  connectedChannelCtx : List ChannelHandlerContext
  /-- `roomStubMap`: the users that joined each room. -/
  roomStubMap : RoomStubMap

/-- The registries when the server starts. -/
def Registries.empty : Registries :=
  ⟨ConcurrentHashMap.empty, ConcurrentHashMap.empty, [], RoomStubMap.empty⟩

/-- A frame handed to the channel of a context; the frame is known by the
message it renders. -/
abbrev Written : Type := ChannelHandlerContext × Message

/-- **The shared state**: the registries, and the frames written so far. -/
structure ServerState where
  registries : Registries
  written : List Written

/-- **One atomic operation on the shared state.** -/
inductive RegistryOp where
  | user2ChannelCtxGet (u : User)
  | user2ChannelCtxPut (u : User) (ctx : ChannelHandlerContext)
  | user2ChannelCtxRemove (u : User)
  | user2ChannelCtxContainsKey (u : User)
  | user2ChannelCtxKeySet
  | channelId2UserGet (channelId : ChannelId)
  | channelId2UserPut (channelId : ChannelId) (u : User)
  | channelId2UserRemove (channelId : ChannelId)
  | connectedChannelCtxAdd (ctx : ChannelHandlerContext)
  | connectedChannelCtxRemove (ctx : ChannelHandlerContext)
  | roomStubMapGet (roomId : Long)
  | roomStubMapPut (roomId : Long) (users : List User)
  | roomStubMapValues
  | usersAdd (users : ListRef) (u : User)
  | usersRemove (users : ListRef) (u : User)
  /-- Make an iterator over a list object, which sees its content as it is at
  that moment and no later change. -/
  | usersIterator (users : ListRef)
  | writeAndFlush (ctx : ChannelHandlerContext) (message : Message)

namespace RegistryOp

/-- What an operation answers. -/
@[reducible] def Answer : RegistryOp → Type
  | user2ChannelCtxGet _ => Option ChannelHandlerContext
  | user2ChannelCtxContainsKey _ => Bool
  | user2ChannelCtxKeySet => List User
  | channelId2UserGet _ => Option User
  | roomStubMapGet _ => Option ListRef
  | roomStubMapValues => List ListRef
  | usersIterator _ => List User
  | _ => Unit

/-- **What an operation answers and does** when it happens. An iteration over
a map is given as the list of what it meets when no other thread changes the
map meanwhile. -/
def exec : (o : RegistryOp) → ServerState → o.Answer × ServerState
  | user2ChannelCtxGet u, s => (s.registries.user2ChannelCtx.get u, s)
  | user2ChannelCtxPut u ctx, ⟨r, w⟩ =>
      ((), ⟨{ r with user2ChannelCtx := r.user2ChannelCtx.put u ctx }, w⟩)
  | user2ChannelCtxRemove u, ⟨r, w⟩ =>
      ((), ⟨{ r with user2ChannelCtx := r.user2ChannelCtx.remove u }, w⟩)
  | user2ChannelCtxContainsKey u, s => (s.registries.user2ChannelCtx.containsKey u, s)
  | user2ChannelCtxKeySet, s => (s.registries.user2ChannelCtx.keySet, s)
  | channelId2UserGet channelId, s => (s.registries.channelId2User.get channelId, s)
  | channelId2UserPut channelId u, ⟨r, w⟩ =>
      ((), ⟨{ r with channelId2User := r.channelId2User.put channelId u }, w⟩)
  | channelId2UserRemove channelId, ⟨r, w⟩ =>
      ((), ⟨{ r with channelId2User := r.channelId2User.remove channelId }, w⟩)
  | connectedChannelCtxAdd ctx, ⟨r, w⟩ =>
      ((), ⟨{ r with connectedChannelCtx := r.connectedChannelCtx ++ [ctx] }, w⟩)
  | connectedChannelCtxRemove ctx, ⟨r, w⟩ =>
      ((), ⟨{ r with connectedChannelCtx := r.connectedChannelCtx.erase ctx }, w⟩)
  | roomStubMapGet roomId, s => (s.registries.roomStubMap.get roomId, s)
  | roomStubMapPut roomId users, ⟨r, w⟩ =>
      ((), ⟨{ r with roomStubMap := r.roomStubMap.put roomId users }, w⟩)
  | roomStubMapValues, s => (s.registries.roomStubMap.values, s)
  | usersAdd users u, ⟨r, w⟩ =>
      ((), ⟨{ r with roomStubMap := r.roomStubMap.add users u }, w⟩)
  | usersRemove users u, ⟨r, w⟩ =>
      ((), ⟨{ r with roomStubMap := r.roomStubMap.remove users u }, w⟩)
  | usersIterator users, s => (s.registries.roomStubMap.lists users, s)
  | writeAndFlush ctx message, ⟨r, w⟩ => ((), ⟨r, w ++ [(ctx, message)]⟩)

end RegistryOp

import Chatroom.HandlerRun
import Chatroom.PrefixInduction
import Mathlib.Data.List.Dedup

/-!
# The members of a room

`roomStubMap` keeps the users of a room in a list, and a broadcast looks each
of them up in `USER2CHANNEL_CTX`. The list is not a set: a client that links
twice to one room is in it twice. A logout removes the user from the map of
contexts altogether, but from each list only once. What is left in the list is
a ghost, a member that is linked nowhere, and the next broadcast to the room
stops at it with a `NullPointerException`.

`noGhosts_iff` makes this exact: the members of all rooms are linked after
every prefix of a run exactly if no logout of the run finds its user twice in
some room. `exactlyOnce_iff` says what a group message then does. It reaches
every other member of its room once exactly if they are all linked and none is
in the list twice – which the links of a run see to if each of them enters its
user into a room it is not in yet.
-/

open ChatroomServerHandler

namespace Registries

/-- **No ghosts**: every user in the list of a room is linked somewhere. -/
def NoGhosts (r : Registries) : Prop :=
  ∀ room, ∀ u ∈ r.roomStubMap.users room, (r.user2ChannelCtx.get u).isSome = true

/-- No user is in the list of a room twice. -/
def RoomsNodup (r : Registries) : Prop := ∀ room, (r.roomStubMap.users room).Nodup

/-- Without ghosts every loop over a room runs to its end. -/
theorem NoGhosts.reachesAll {r : Registries} (h : r.NoGhosts) (room : Long)
    (id : Option Long) : r.reachesAll (r.roomStubMap.users room) id = true :=
  reachesAll_iff.mpr (fun u hu _ => h room u hu)

end Registries

/-- **A logout leaves no room with its user in it**, because it finds the user
at most once in each. -/
def LogoutEmptiesRooms (r : Registries) (e : Event) : Prop :=
  e.IsLogout → ∀ u, r.channelId2User.get e.ctx.channelId = some u →
    ∀ room, (r.roomStubMap.users room).count u ≤ 1

/-- A logout leaves no ghost exactly if it finds its user at most once in each
room. -/
theorem noGhosts_logout_iff {r : Registries} (h : r.NoGhosts)
    (ctx : ChannelHandlerContext) (u : User) :
    (r.logout ctx u).NoGhosts
      ↔ ∀ room, (r.roomStubMap.users room).count u ≤ 1 := by
  constructor
  · intro hlog room
    by_contra hcount
    -- one occurrence is left, and its user is linked nowhere
    have hmem : u ∈ (r.logout ctx u).roomStubMap.users room := by
      rw [Registries.users_logout, ← List.count_pos_iff, List.count_erase_self]
      omega
    have hlinked := hlog room u hmem
    rw [Registries.user2ChannelCtx_logout, ConcurrentHashMap.get_remove,
      if_pos rfl] at hlinked
    exact absurd hlinked (by simp)
  · intro hcount room v hv
    rw [Registries.users_logout] at hv
    have hne : v ≠ u := by
      rintro rfl
      have hpos := List.count_pos_iff.mpr hv
      rw [List.count_erase_self] at hpos
      have hroom := hcount room
      omega
    rw [Registries.user2ChannelCtx_logout, ConcurrentHashMap.get_remove,
      if_neg hne]
    exact h room v (List.mem_of_mem_erase hv)

/-- A link makes no ghost: its user is linked before it enters a room. -/
theorem noGhosts_link {r : Registries} (h : r.NoGhosts)
    (ctx : ChannelHandlerContext) (u : User) (roomId : Option Long) :
    (r.link ctx u roomId).NoGhosts := by
  intro room v hv
  rw [Registries.user2ChannelCtx_link, ConcurrentHashMap.get_put]
  split
  · rfl
  · next hne =>
    rw [Registries.users_link] at hv
    split at hv
    · obtain hv | hv := List.mem_append.mp hv
      · exact h room v hv
      · exact absurd (List.mem_singleton.mp hv) hne
    · exact h room v hv

/-- **A call leaves no ghost exactly if, being a logout, it empties the rooms
of its user.** -/
theorem noGhosts_invoke_iff {db : UserTable} {r : Registries} (h : r.NoGhosts)
    (e : Event) :
    (invoke db e r).registries.NoGhosts ↔ LogoutEmptiesRooms r e := by
  have hstep := registryStep_invoke db e r
  generalize (invoke db e r).registries = r' at hstep ⊢
  cases hstep with
  | active ctx => exact iff_of_true h (fun he => absurd he id)
  | stay e he hctx =>
    refine iff_of_true h (fun _ u hu => ?_)
    rw [hctx] at hu
    exact absurd hu (by simp)
  | logout e he u hu =>
    rw [noGhosts_logout_iff h]
    constructor
    · intro hcount _ v hv
      cases hu.symm.trans hv
      exact hcount
    · exact fun hempty => hempty he u hu
  | read ctx f hf => exact iff_of_true h (fun he => absurd he id)
  | link ctx f u hf =>
    exact iff_of_true (noGhosts_link h ctx u f.roomId) (fun he => absurd he id)

/-! ## Broadcasts -/

/-- **No broadcast is broken off**: a link or a group message of a stored user
to a room is handled without an exception. -/
def BroadcastsComplete (db : UserTable) (r : Registries) : Prop :=
  ∀ ctx m u room, m.HasType .link ∨ (m.HasType .groupSend ∧ m.receiverId = none) →
    db.getUserById m.senderId = some u → m.roomId = some room →
      (invoke db (.channelRead0 ctx (.message m)) r).thrown = none

/-- Without ghosts no broadcast is broken off. -/
theorem broadcastsComplete_of_noGhosts (db : UserTable) {r : Registries}
    (h : r.NoGhosts) : BroadcastsComplete db r := by
  intro ctx m u room hm hs hr
  have hall := h.reachesAll room m.senderId
  obtain hm | ⟨hm, hv⟩ := hm
  · rw [invoke_channelRead0_message, run_link db ctx r [] hm hs hr, if_pos hall]
    rfl
  · rw [invoke_channelRead0_message, run_groupSend db ctx r [] hm hv hr hs,
      if_pos hall]
    rfl

/-- **Every member of every room is linked, and no broadcast is broken off,
after every prefix of a run exactly if every logout of the run empties the
rooms of its user.** -/
theorem noGhosts_iff (db : UserTable) (es : List Event) :
    (∀ pre, pre <+: es →
        (after db pre).NoGhosts ∧ BroadcastsComplete db (after db pre))
      ↔ ∀ pre e, pre ++ [e] <+: es → LogoutEmptiesRooms (after db pre) e := by
  refine forall_prefix_iff_step ?_ (fun pre e _ hpre => ?_)
  · have hempty : (after db []).NoGhosts := by
      intro room u hu
      rw [after_nil, show Registries.empty.roomStubMap = RoomStubMap.empty from rfl,
        RoomStubMap.users_empty] at hu
      exact absurd hu (by simp)
    exact ⟨hempty, broadcastsComplete_of_noGhosts db hempty⟩
  · rw [after_snoc, ← noGhosts_invoke_iff hpre.1]
    exact ⟨And.left, fun h => ⟨h, broadcastsComplete_of_noGhosts db h⟩⟩

/-- A client links twice to a room and goes: it is still in the room, and
linked nowhere. -/
theorem not_noGhosts :
    ¬ ∀ (db : UserTable) (es : List Event),
      (after db es).NoGhosts ∧ BroadcastsComplete db (after db es) := by
  intro h
  have hlinked := (h sampleTable
    [.channelActive ⟨1⟩, .channelRead0 ⟨1⟩ (.message (.link 1 7)),
      .channelRead0 ⟨1⟩ (.message (.link 1 7)), .channelInactive ⟨1⟩]).1 7 aaa (by decide)
  exact absurd hlinked (by decide)

/-! ## Group messages -/

/-- A group message of a stored user to a room. -/
structure GroupSend (db : UserTable) (m : Message) (sender : User) (room : Long) :
    Prop where
  type : m.HasType .groupSend
  receiverId : m.receiverId = none
  roomId : m.roomId = some room
  sender : db.getUserById m.senderId = some sender

/-- **Exactly-once delivery** of a group message: it is handled without an
exception, changes no registry, and is written once for each distinct other
user of the room, to the channel that user is linked on. -/
def ExactlyOnce (db : UserTable) (r : Registries) (ctx : ChannelHandlerContext)
    (m : Message) (sender : User) (room : Long) : Prop :=
  (invoke db (.channelRead0 ctx (.message m)) r).thrown = none
    ∧ (invoke db (.channelRead0 ctx (.message m)) r).registries = r
    ∧ ((invoke db (.channelRead0 ctx (.message m)) r).written.map some).Perm
        ((recipients (r.roomStubMap.users room) m.senderId).dedup.map
          (fun u => (r.user2ChannelCtx.get u).map
            (fun ctx => (ctx, groupMessage m sender))))

/-- The users of a room a message is for are each in its list once, and each
linked. -/
def EachOnce (r : Registries) (room : Long) (id : Option Long) : Prop :=
  (recipients (r.roomStubMap.users room) id).Nodup
    ∧ ∀ u ∈ r.roomStubMap.users room, u.id ≠ id →
        (r.user2ChannelCtx.get u).isSome = true

/-- A loop that reaches everyone writes as many frames as it has recipients,
each to the channel of its recipient. -/
theorem map_some_deliveries {r : Registries} {users : List User}
    {id : Option Long} (h : r.reachesAll users id = true) (message : Message) :
    (r.deliveries users id message).map some
      = (recipients users id).map
          (fun u => (r.user2ChannelCtx.get u).map (fun ctx => (ctx, message))) := by
  rw [Registries.deliveries_of_reachesAll h, List.map_filterMap]
  rw [Registries.reachesAll, List.all_eq_true] at h
  rw [← List.filterMap_eq_map]
  refine List.filterMap_congr (fun u hu => ?_)
  have hlinked := h u hu
  rw [ConcurrentHashMap.containsKey_eq] at hlinked
  obtain ⟨ctx, hctx⟩ := Option.isSome_iff_exists.mp hlinked
  simp [hctx]

/-- **A group message is delivered exactly once to each exactly if each
recipient is in the room once, and linked.** -/
theorem exactlyOnce_iff_eachOnce {db : UserTable} {m : Message} {sender : User}
    {room : Long} (hm : GroupSend db m sender room) (r : Registries)
    (ctx : ChannelHandlerContext) :
    ExactlyOnce db r ctx m sender room ↔ EachOnce r room m.senderId := by
  unfold ExactlyOnce EachOnce
  rw [invoke_channelRead0_message,
    run_groupSend db ctx r [] hm.type hm.receiverId hm.roomId hm.sender,
    ← Registries.reachesAll_iff]
  cases hall : r.reachesAll (r.roomStubMap.users room) m.senderId with
  | false => simp [Outcome.ofRun]
  | true =>
    simp only [Outcome.ofRun, if_true, List.nil_append, true_and, and_true,
      map_some_deliveries hall]
    constructor
    · -- as many recipients as distinct recipients
      intro hperm
      have hlen := hperm.length_eq
      rw [List.length_map, List.length_map] at hlen
      have hsub := List.dedup_sublist (recipients (r.roomStubMap.users room) m.senderId)
      rw [← hsub.eq_of_length hlen.symm]
      exact List.nodup_dedup _
    · intro hnodup
      rw [hnodup.dedup]

/-- **A link enters its user into a room that it is not in yet.** A call that is
no link of a stored user to a room meets the condition. -/
def LinkEntersRoom (db : UserTable) (r : Registries) (e : Event) : Prop :=
  ∀ ctx f u room, e = .channelRead0 ctx f → linkSender db f = some u →
    f.roomId = some room → u ∉ r.roomStubMap.users room

/-- Links that enter their users into new rooms keep all rooms without
duplicates, and hence without ghosts. -/
theorem roomsNodup_invoke {db : UserTable} {r : Registries} {e : Event}
    (h : r.RoomsNodup ∧ r.NoGhosts) (he : LinkEntersRoom db r e) :
    (invoke db e r).registries.RoomsNodup ∧ (invoke db e r).registries.NoGhosts := by
  refine ⟨?_, (noGhosts_invoke_iff h.2 e).mpr (fun _ u _ room =>
    List.nodup_iff_count_le_one.mp (h.1 room) u)⟩
  have hstep := registryStep_invoke db e r
  generalize (invoke db e r).registries = r' at hstep ⊢
  cases hstep with
  | active ctx => exact h.1
  | stay e he hctx => exact h.1
  | read ctx f hf => exact h.1
  | logout e he u hu =>
    intro room
    rw [Registries.users_logout]
    exact (h.1 room).erase u
  | link ctx f u hf =>
    intro room
    rw [Registries.users_link]
    split
    · next hroom =>
      have hnew := he ctx f u room rfl hf hroom
      exact (h.1 room).append (List.nodup_singleton u) (by simpa using hnew)
    · exact h.1 room

/-- **Group messages after every prefix of a run.** A group message is
delivered exactly once to each of its recipients exactly if each is in the room
once, and linked; and this is so at every moment of a run whose links all enter
their user into a room it is not in. -/
theorem exactlyOnce_iff (db : UserTable) (es : List Event) :
    (∀ pre, pre <+: es → ∀ ctx m sender room, GroupSend db m sender room →
        (ExactlyOnce db (after db pre) ctx m sender room
          ↔ EachOnce (after db pre) room m.senderId))
      ∧ ((∀ pre e, pre ++ [e] <+: es → LinkEntersRoom db (after db pre) e) →
          ∀ pre, pre <+: es → ∀ ctx m sender room, GroupSend db m sender room →
            ExactlyOnce db (after db pre) ctx m sender room) := by
  constructor
  · exact fun pre _ ctx m sender room hm => exactlyOnce_iff_eachOnce hm _ ctx
  · intro hlinks pre hpre ctx m sender room hm
    have hinv : ∀ pre, pre <+: es →
        (after db pre).RoomsNodup ∧ (after db pre).NoGhosts := by
      refine forall_prefix_of_step ?_ (fun pre e _ h he => ?_) hlinks
      · constructor <;> intro room <;>
          simp [Registries.empty]
      · rw [after_snoc]
        exact roomsNodup_invoke h he
    obtain ⟨hnodup, hghosts⟩ := hinv pre hpre
    exact (exactlyOnce_iff_eachOnce hm _ ctx).mpr
      ⟨(hnodup room).filter _, fun u hu _ => hghosts room u hu⟩

/-- A client that linked twice to a room is told twice what another says
there. -/
theorem not_exactlyOnce :
    ¬ ∀ (db : UserTable) (es : List Event) (ctx : ChannelHandlerContext)
      (m : Message) (sender : User) (room : Long), GroupSend db m sender room →
        ExactlyOnce db (after db es) ctx m sender room := by
  intro h
  have honce := h sampleTable
    [.channelActive ⟨1⟩, .channelActive ⟨2⟩, .channelRead0 ⟨1⟩ (.message (.link 1 7)),
      .channelRead0 ⟨1⟩ (.message (.link 1 7)), .channelRead0 ⟨2⟩ (.message (.link 2 7))] ⟨2⟩
    { Message.new with type := some 2, senderId := some 2, roomId := some 7 } bbb 7
    ⟨by decide, rfl, rfl, by decide⟩
  have hlen := honce.2.2.length_eq
  exact absurd hlen (by decide)

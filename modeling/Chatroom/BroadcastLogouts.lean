import Chatroom.BroadcastDeeds
import Chatroom.ChannelMaps

/-!
# A broadcast among logouts

A broadcast goes through the list of its room as it found it, and looks up the
context of one user after the other. A logout takes its user out of
`USER2CHANNEL_CTX` first and out of the rooms last. In between, and for a
broadcast that found the list earlier also later, the user is met in the list
and has no context. The broadcast then throws; those further down the list hear
nothing, and what Netty does about the exception is to log out the channel the
broadcast came on.

That is the only thing that can go wrong (`broadcastSurvives_iff`): a broadcast
comes through exactly if it looks up nobody who has been removed before.
-/

open AtomicSystem AtomicProgram ChatroomServerHandler RegistryOp

/-! ## A broadcast and logouts, side by side -/

/-- The call a message is handled by. -/
def messageCall (ctx : ChannelHandlerContext) (m : Message) : Event :=
  .channelRead0 ctx (.message m)

/-- **Logouts beside a channel**, of channels linked as other users than the
sender. -/
structure LogoutsBeside (r : Registries) (ctx : ChannelHandlerContext) (sender : User)
    (out : List Event) : Prop where
  ne_nil : out ≠ []
  isLogout : ∀ e ∈ out, e.IsLogout
  ctx_ne : ∀ e ∈ out, e.ctx ≠ ctx
  linked : ∀ e ∈ out, ∃ u, r.channelId2User.get e.ctx.channelId = some u ∧ u ≠ sender

/-- **A run of a broadcast and some logouts**: these calls began, and nothing
else did – but for `exceptionCaught` on the channel of the broadcast, where the
broadcast threw. -/
def BroadcastRun (call : Event) (out : List Event) (h : History)
    (ts : List (Thread RegistryOp.Answer Throwable Event)) : Prop :=
  (begins h).Perm (call :: out)
    ∨ (begins h).Perm (call :: .exceptionCaught call.ctx :: out) ∧ ∃ t, ⟨call, .raise t⟩ ∈ ts

/-- A logout has removed a user. -/
def Removed (u : User) (h : History) : Prop := ∃ e, .perform e (.user2ChannelCtxRemove u) () ∈ h

/-- **The broadcast survives**: it returns, all the users of the room but the
sender and those removed are sent their copy, and its channel keeps its
session. -/
structure Survives (ctx : ChannelHandlerContext) (m : Message) (sender : User) (room : Long)
    (s₀ : ServerState) (h : History) (ts : List (Thread RegistryOp.Answer Throwable Event))
    (s : ServerState) : Prop where
  completes : ⟨messageCall ctx m, .ret ()⟩ ∈ ts
  delivered : ∀ u ∈ s₀.registries.roomStubMap.users room, u.id ≠ m.senderId → ¬ Removed u h →
    ∃ c, s₀.registries.user2ChannelCtx.get u = some c
      ∧ .perform (messageCall ctx m) (.writeAndFlush c (groupMessage m sender)) () ∈ h
  session : ∀ u, s₀.registries.channelId2User.get ctx.channelId = some u →
    s.registries.channelId2User.get ctx.channelId = some u
      ∧ SessionKept s₀.registries s.registries u ctx

/-- **The broadcast looks up nobody who was removed before.** -/
def LooksUpNoneRemoved (call : Event) (h : History) : Prop :=
  ∀ pre u a, pre ++ [.perform call (.user2ChannelCtxGet u) a] <+: h → ¬ Removed u pre

/-- **What a step of such a run takes from the registries**: a logout removes its
user, its channel, or its user from a list, in this order; nothing else
changes. -/
inductive Takes (pre : History) (r : Registries) :
    AtomicAction RegistryOp.Answer Event → Registries → Prop
  | nothing {act : AtomicAction RegistryOp.Answer Event} {r' : Registries}
      (hctx : r'.user2ChannelCtx = r.user2ChannelCtx)
      (hchannel : r'.channelId2User = r.channelId2User)
      (hrooms : r'.roomStubMap = r.roomStubMap)
      (hact : ∀ e u, act ≠ .perform e (.user2ChannelCtxRemove u) ()) : Takes pre r act r'
  | user {e : Event} {u : User}
      (hasked : .perform e (.channelId2UserGet e.ctx.channelId) (some u) ∈ pre) :
      Takes pre r (.perform e (.user2ChannelCtxRemove u) ())
        { r with user2ChannelCtx := r.user2ChannelCtx.remove u }
  | channel {e : Event} (he : e.IsLogout) :
      Takes pre r (.perform e (.channelId2UserRemove e.ctx.channelId) ())
        { r with channelId2User := r.channelId2User.remove e.ctx.channelId }
  | member {e : Event} {l : ListRef} {u : User}
      (hremoved : .perform e (.user2ChannelCtxRemove u) () ∈ pre) :
      Takes pre r (.perform e (.usersRemove l u) ())
        { r with roomStubMap := r.roomStubMap.remove l u }

/-- A logout has removed a channel. -/
def ChannelRemoved (channelId : ChannelId) (h : History) : Prop :=
  ∃ e, .perform e (.channelId2UserRemove channelId) () ∈ h

/-- The contexts after a history are those there were at first, but for what was
removed. -/
structure ContextsHold (r₀ : Registries) (h : History) (r : Registries) : Prop where
  get_of_removed : ∀ u, Removed u h → r.user2ChannelCtx.get u = none
  get_of_not_removed : ∀ u, ¬ Removed u h → r.user2ChannelCtx.get u = r₀.user2ChannelCtx.get u

/-- The same of the channels, of which it is enough that a user who is there was there
at first. -/
structure ChannelsHold (r₀ : Registries) (h : History) (r : Registries) : Prop where
  channelId2User : ∀ channelId u,
    r.channelId2User.get channelId = some u → r₀.channelId2User.get channelId = some u
  channelId2User_of_not_removed : ∀ channelId, ¬ ChannelRemoved channelId h →
    r.channelId2User.get channelId = r₀.channelId2User.get channelId

/-- The same of the rooms, of which each has its list for good: a logout takes users out
of the lists and leaves the lists in the map. -/
structure RoomsHold (r₀ : Registries) (h : History) (r : Registries) : Prop where
  get_room : ∀ room, r.roomStubMap.get room = r₀.roomStubMap.get room
  mem_lists : ∀ l, ∀ u ∈ r.roomStubMap.lists l, u ∈ r₀.roomStubMap.lists l
  mem_lists_of_not_removed : ∀ l, ∀ u ∈ r₀.roomStubMap.lists l, ¬ Removed u h →
    u ∈ r.roomStubMap.lists l

/-- **What the registries hold after a history** is what they held at first, but
for what was removed. -/
structure HoldsButRemoved (r₀ : Registries) (h : History) (r : Registries) : Prop extends
    ContextsHold r₀ h r, ChannelsHold r₀ h r, RoomsHold r₀ h r

section Invariant

variable {u : User} {channelId : ChannelId} {h h' : History} {r₀ r r' : Registries}
  {act : AtomicAction RegistryOp.Answer Event}

theorem Removed.mono (hh : h <+: h') (hu : Removed u h) : Removed u h' := by
  obtain ⟨e, he⟩ := hu
  exact ⟨e, hh.subset he⟩

theorem not_removed_of_snoc (hu : ¬ Removed u (h ++ [act])) : ¬ Removed u h :=
  fun hrem => hu (hrem.mono (List.prefix_append h [act]))

theorem not_channelRemoved_of_snoc (hc : ¬ ChannelRemoved channelId (h ++ [act])) :
    ¬ ChannelRemoved channelId h := by
  rintro ⟨e, he⟩
  exact hc ⟨e, List.mem_append_left _ he⟩

/-- Only a removal of a user removes that user. -/
theorem removed_of_snoc (hu : Removed u (h ++ [act]))
    (hact : ∀ e, act ≠ .perform e (.user2ChannelCtxRemove u) ()) : Removed u h := by
  obtain ⟨e, he⟩ := hu
  obtain he | he := List.mem_append.mp he
  · exact ⟨e, he⟩
  · exact absurd (List.mem_singleton.mp he).symm (hact e)

/-- What removes no user and leaves the contexts alone. -/
theorem ContextsHold.quiet (hold : ContextsHold r₀ h r)
    (hctx : r'.user2ChannelCtx = r.user2ChannelCtx)
    (hact : ∀ e u, act ≠ .perform e (.user2ChannelCtxRemove u) ()) :
    ContextsHold r₀ (h ++ [act]) r' := by
  refine ⟨fun u hu => ?_, fun u hu => ?_⟩
  · rw [hctx, hold.get_of_removed u (removed_of_snoc hu (fun e => hact e u))]
  · rw [hctx, hold.get_of_not_removed u (not_removed_of_snoc hu)]

/-- What leaves the channels alone. -/
theorem ChannelsHold.quiet (hold : ChannelsHold r₀ h r)
    (hchannel : r'.channelId2User = r.channelId2User) : ChannelsHold r₀ (h ++ [act]) r' := by
  refine ⟨fun c u hu => ?_, fun c hc => ?_⟩
  · rw [hchannel] at hu
    exact hold.channelId2User c u hu
  · rw [hchannel, hold.channelId2User_of_not_removed c (not_channelRemoved_of_snoc hc)]

/-- What leaves the rooms alone. -/
theorem RoomsHold.quiet (hold : RoomsHold r₀ h r) (hrooms : r'.roomStubMap = r.roomStubMap) :
    RoomsHold r₀ (h ++ [act]) r' := by
  refine ⟨fun room => ?_, fun l u hu => ?_, fun l u hu hnot => ?_⟩
  · rw [hrooms, hold.get_room]
  · rw [hrooms] at hu
    exact hold.mem_lists l u hu
  · rw [hrooms]
    exact hold.mem_lists_of_not_removed l u hu (not_removed_of_snoc hnot)

theorem ContextsHold.step (hold : ContextsHold r₀ h r) (hstep : Takes h r act r') :
    ContextsHold r₀ (h ++ [act]) r' := by
  cases hstep with
  | nothing hctx _ _ hact => exact hold.quiet hctx hact
  | @user e v =>
    refine ⟨fun u hu => ?_, fun u hu => ?_⟩
    · rw [ConcurrentHashMap.get_remove]
      split
      · rfl
      · next hne =>
        refine hold.get_of_removed u (removed_of_snoc hu (fun e he => hne ?_))
        cases he
        rfl
    · have hne : u ≠ v := by
        rintro rfl
        exact hu ⟨e, by simp⟩
      rw [ConcurrentHashMap.get_remove, if_neg hne,
        hold.get_of_not_removed u (not_removed_of_snoc hu)]
  | channel => exact hold.quiet rfl (by simp)
  | member => exact hold.quiet rfl (by simp)

theorem ChannelsHold.step (hold : ChannelsHold r₀ h r) (hstep : Takes h r act r') :
    ChannelsHold r₀ (h ++ [act]) r' := by
  cases hstep with
  | nothing _ hchannel => exact hold.quiet hchannel
  | user => exact hold.quiet rfl
  | @channel e =>
    refine ⟨fun c u hu => ?_, fun c hc => ?_⟩
    · rw [ConcurrentHashMap.get_remove] at hu
      split at hu
      · exact absurd hu (by simp)
      · exact hold.channelId2User c u hu
    · have hne : c ≠ e.ctx.channelId := by
        rintro rfl
        exact hc ⟨e, by simp⟩
      rw [ConcurrentHashMap.get_remove, if_neg hne,
        hold.channelId2User_of_not_removed c (not_channelRemoved_of_snoc hc)]
  | member => exact hold.quiet rfl

theorem RoomsHold.step (hold : RoomsHold r₀ h r) (hstep : Takes h r act r') :
    RoomsHold r₀ (h ++ [act]) r' := by
  cases hstep with
  | nothing _ _ hrooms => exact hold.quiet hrooms
  | user => exact hold.quiet rfl
  | channel => exact hold.quiet rfl
  | @member e l v hremoved =>
    refine ⟨hold.get_room, fun l' u hu => ?_, fun l' u hu hnot => ?_⟩
    · exact hold.mem_lists l' u (RoomStubMap.mem_of_mem_lists_remove hu)
    · -- a logout has removed a user before it takes it out of a list
      have hne : u ≠ v := by
        rintro rfl
        exact hnot ⟨e, List.mem_append_left _ hremoved⟩
      exact (RoomStubMap.mem_lists_remove_of_ne hne).mpr
        (hold.mem_lists_of_not_removed l' u hu (not_removed_of_snoc hnot))

/-- **The registries hold what they held but for what was removed**, from step to
step. -/
theorem HoldsButRemoved.step (hold : HoldsButRemoved r₀ h r) (hstep : Takes h r act r') :
    HoldsButRemoved r₀ (h ++ [act]) r' :=
  ⟨hold.toContextsHold.step hstep, hold.toChannelsHold.step hstep, hold.toRoomsHold.step hstep⟩

end Invariant

section Run

variable {db : UserTable} {m : Message} {sender : User} {room : Long}
  {ctx : ChannelHandlerContext} {out : List Event} {s₀ s : ServerState} {h pre pre' : History}
  {ts : List (Thread RegistryOp.Answer Throwable Event)}

/-- The tasks of a run are the broadcast and logouts; that which answers an exception of
the broadcast is one of them. -/
theorem BroadcastRun.eq_or_isLogout (hout : LogoutsBeside s₀.registries ctx sender out)
    (hrun : BroadcastRun (messageCall ctx m) out h ts) {e : Event} (he : e ∈ begins h) :
    e = messageCall ctx m ∨ e.IsLogout := by
  obtain hperm | ⟨hperm, -⟩ := hrun
  · obtain rfl | he := List.mem_cons.mp (hperm.subset he)
    · exact Or.inl rfl
    · exact Or.inr (hout.isLogout e he)
  · obtain rfl | he := List.mem_cons.mp (hperm.subset he)
    · exact Or.inl rfl
    · obtain rfl | he := List.mem_cons.mp he
      · exact Or.inr trivial
      · exact Or.inr (hout.isLogout e he)

/-- The broadcast began once, so that its operations are those of one thread. -/
theorem BroadcastRun.once (hout : LogoutsBeside s₀.registries ctx sender out)
    (hrun : BroadcastRun (messageCall ctx m) out h ts) :
    (begins h).count (messageCall ctx m) ≤ 1 := by
  have hnot : messageCall ctx m ∉ out := fun he => hout.isLogout _ he
  obtain hperm | ⟨hperm, -⟩ := hrun
  · rw [hperm.count_eq, List.count_cons_self, List.count_eq_zero.mpr hnot]
  · have hnot' : messageCall ctx m ∉ .exceptionCaught (messageCall ctx m).ctx :: out := by
      rw [List.mem_cons]
      rintro (he | he)
      · exact absurd he (by simp [messageCall])
      · exact hnot he
    rw [hperm.count_eq, List.count_cons_self, List.count_eq_zero.mpr hnot']

variable (hm : GroupSend db m sender room) (hout : LogoutsBeside s₀.registries ctx sender out)
  (run : (chatSystem db).Run s₀ h ts s) (hrun : BroadcastRun (messageCall ctx m) out h ts)
include hm hout run hrun

/-- **Every operation of the run** is one of the broadcast, or of a logout. -/
theorem broadcastStep_or_logoutStep {e : Event} {o : RegistryOp} {a : o.Answer}
    (hpre : pre ++ [.perform e o a] <+: h) :
    (e = messageCall ctx m ∧ BroadcastStep room (ownOps e pre) o)
      ∨ (e.IsLogout ∧ LogoutStep e.ctx (ownOps e pre) o) := by
  have hbegan : e ∈ begins h := run.mem_begins (mem_of_step hpre)
  obtain rfl | he := hrun.eq_or_isLogout hout hbegan
  · exact Or.inl ⟨rfl, run.step_of_keeps (hrun.once hout) (keeps_groupSend hm) hpre⟩
  · exact Or.inr ⟨he, run.step_of_keeps_of_mono LogoutStep.mono (keeps_logout he) hpre⟩

/-- **Every step of the run** takes away what a logout may. That the user taken out of
a list had its context removed before is what the order in the source gives. -/
theorem takes {act : AtomicAction RegistryOp.Answer Event} (hpre : pre ++ [act] <+: h) :
    Takes pre (stateAfter s₀ pre).registries act (stateAfter s₀ (pre ++ [act])).registries := by
  cases act with
  | begin e =>
    rw [stateAfter, stateAfter, replay_begin]
    exact .nothing rfl rfl rfl (by simp)
  | perform e o a =>
    rw [stateAfter, stateAfter, replay_perform]
    obtain ⟨-, hstep⟩ | ⟨he, hstep⟩ := broadcastStep_or_logoutStep hm hout run hrun hpre
    · cases o <;> first | exact absurd hstep id | exact .nothing rfl rfl rfl (by simp)
    · cases o with
      | user2ChannelCtxRemove u => exact .user (mem_ownOps.mp hstep)
      | channelId2UserRemove channelId =>
        obtain rfl : channelId = e.ctx.channelId := hstep
        exact .channel he
      | usersRemove l u => exact .member (mem_ownOps.mp hstep)
      | user2ChannelCtxPut u c => exact absurd hstep id
      | channelId2UserPut channelId u => exact absurd hstep id
      | roomStubMapPut r us => exact absurd hstep id
      | usersAdd l u => exact absurd hstep id
      | _ => exact .nothing rfl rfl rfl (by simp)

/-- **The registries hold what they held but for what was removed**, all along
the run. -/
theorem holdsButRemoved (hpre : pre <+: h) :
    HoldsButRemoved s₀.registries pre (stateAfter s₀ pre).registries := by
  refine forall_later_of_step
    (P := fun p => HoldsButRemoved s₀.registries p (stateAfter s₀ p).registries) ?_
    (fun p act _ hp hold => hold.step (takes hm hout run hrun hp)) List.nil_prefix hpre
  refine ⟨⟨fun u hu => ?_, fun _ _ => rfl⟩, ⟨fun _ _ => id, fun _ _ => rfl⟩,
    ⟨fun _ => rfl, fun _ _ => id, fun _ _ hu _ => hu⟩⟩
  obtain ⟨e, he⟩ := hu
  exact absurd he List.not_mem_nil

/-- **Whoever was removed was linked on a channel that logged out.** The logout asked for
its user at some moment, and the channel had been linked as that user from the start. -/
theorem exists_logout_of_removed {u : User} (hu : Removed u h) :
    ∃ e ∈ begins h, e.IsLogout ∧ s₀.registries.channelId2User.get e.ctx.channelId = some u := by
  obtain ⟨e, he⟩ := hu
  obtain ⟨p, hp⟩ := exists_prefix_of_mem he
  obtain ⟨-, hstep⟩ | ⟨hlogout, hasked⟩ := broadcastStep_or_logoutStep hm hout run hrun hp
  · exact absurd hstep id
  · have hph := before_of_step hp
    obtain ⟨q, hq, hanswer⟩ := exists_answer_eq_exec run hph id hasked
    refine ⟨e, run.mem_begins he, hlogout, ?_⟩
    have hqh := (before_of_step hq).trans hph
    exact (holdsButRemoved hm hout run hrun hqh).channelId2User _ u hanswer.symm

/-- The list a call was given for the room is that of the room at first. -/
theorem get_of_answered (hpre : pre <+: h) {e : Event} {l : Option ListRef}
    (hmem : ⟨roomStubMapGet room, l⟩ ∈ ownOps e pre) :
    s₀.registries.roomStubMap.get room = l := by
  obtain ⟨p, hp, rfl⟩ := exists_answer_eq_exec run hpre id hmem
  have hph := (before_of_step hp).trans hpre
  exact ((holdsButRemoved hm hout run hrun hph).get_room room).symm

/-- Whoever a broadcast finds in the room was there at first. -/
theorem mem_users_of_foundInRoom (hpre : pre <+: h) {e : Event} {u : User}
    (hu : FoundInRoom room (ownOps e pre) u) : u ∈ s₀.registries.roomStubMap.users room := by
  obtain ⟨l, us, hget, hfound, hmem⟩ := hu
  rw [RoomStubMap.users_of_get (get_of_answered hm hout run hrun hpre hget)]
  obtain ⟨p, hp, rfl⟩ := exists_answer_eq_exec run hpre id hfound
  have hph := (before_of_step hp).trans hpre
  exact (holdsButRemoved hm hout run hrun hph).mem_lists l u hmem

/-- **A broadcast that is over** has returned after serving everybody it found,
or has thrown because it looked up a user without a context. -/
theorem returned_or_raised {p : HandlerProgram Unit} (hp : ⟨messageCall ctx m, p⟩ ∈ ts)
    (hover : IsOver p) :
    (p = .ret () ∧ BroadcastDone room m.senderId (groupMessage m sender)
        (ownOps (messageCall ctx m) h))
      ∨ ((∃ t, p = .raise t) ∧ LooksUpMissing (ownOps (messageCall ctx m) h)) :=
  run.over_of_keeps (hrun.once hout) (keeps_groupSend hm) hp hover

/-- Where the broadcast does not throw, its own channel is not logged out. -/
theorem ctx_ne_of_isLogout (hpresent : ¬ LooksUpMissing (ownOps (messageCall ctx m) h)) :
    ∀ e ∈ begins h, e.IsLogout → e.ctx ≠ ctx := by
  intro e he hlogout
  obtain hperm | ⟨-, t, ht⟩ := id hrun
  · obtain rfl | he := List.mem_cons.mp (hperm.subset he)
    · exact absurd hlogout id
    · exact hout.ctx_ne e he
  · obtain ⟨hret, -⟩ | ⟨-, hmissing⟩ := returned_or_raised hm hout run hrun ht trivial
    · exact absurd hret (by simp)
    · exact absurd hmissing hpresent

/-- The user a broadcast misses was in the room, linked, and then removed. Without
ghosts everybody in the room had a context at first, and only a removal takes one. -/
theorem exists_lookup_of_looksUpMissing (hghosts : s₀.registries.NoGhosts)
    (hmissing : LooksUpMissing (ownOps (messageCall ctx m) h)) :
    ∃ pre u a, pre ++ [.perform (messageCall ctx m) (.user2ChannelCtxGet u) a] <+: h
      ∧ Removed u pre := by
  obtain ⟨u, hu⟩ := hmissing
  obtain ⟨p, hp, hnone⟩ := exists_answer_eq_exec run (List.prefix_refl h) id hu
  refine ⟨p, u, none, hp, ?_⟩
  by_contra hnot
  have hph := before_of_step hp
  obtain ⟨-, hfound⟩ | ⟨hlogout, -⟩ := broadcastStep_or_logoutStep hm hout run hrun hp
  · have hlinked := hghosts room u (mem_users_of_foundInRoom hm hout run hrun hph hfound)
    have hget : none = (stateAfter s₀ p).registries.user2ChannelCtx.get u := hnone
    rw [(holdsButRemoved hm hout run hrun hph).get_of_not_removed u hnot] at hget
    rw [← hget] at hlinked
    exact absurd hlinked (by simp)
  · exact absurd hlogout id

/-- Whoever is in the room and is not removed was served: the list the broadcast went
through may be short of those that were removed, and of nobody else. -/
theorem written_of_broadcastDone
    (hdone : BroadcastDone room m.senderId (groupMessage m sender)
      (ownOps (messageCall ctx m) h))
    {u : User} (hu : u ∈ s₀.registries.roomStubMap.users room) (hid : u.id ≠ m.senderId)
    (hnot : ¬ Removed u h) :
    ∃ c, s₀.registries.user2ChannelCtx.get u = some c
      ∧ .perform (messageCall ctx m) (.writeAndFlush c (groupMessage m sender)) () ∈ h := by
  obtain ⟨-, hnone | ⟨l, us, hget, hfound, hserved⟩⟩ := hdone
  · have hroom := get_of_answered hm hout run hrun (List.prefix_refl h) hnone
    rw [RoomStubMap.users_of_get_none hroom] at hu
    exact absurd hu List.not_mem_nil
  · have hroom := get_of_answered hm hout run hrun (List.prefix_refl h) hget
    rw [RoomStubMap.users_of_get hroom] at hu
    -- the user was still in the list when the broadcast went through it
    obtain ⟨p, hp, rfl⟩ := exists_answer_eq_exec run (List.prefix_refl h) id hfound
    have hph := before_of_step hp
    have hstill := (holdsButRemoved hm hout run hrun hph).mem_lists_of_not_removed l u hu
      (fun hrem => hnot (hrem.mono hph))
    obtain ⟨c, hlookup, hwrite⟩ := hserved u hstill hid
    obtain ⟨q, hq, hc⟩ := exists_answer_eq_exec run (List.prefix_refl h) id hlookup
    have hqh := before_of_step hq
    refine ⟨c, ?_, mem_ownOps.mp hwrite⟩
    rw [← (holdsButRemoved hm hout run hrun hqh).get_of_not_removed u
      (fun hrem => hnot (hrem.mono hqh))]
    exact hc.symm

/-- **The session of a channel is kept** where it is not logged out itself. As the maps
are inverse to each other, no other channel is linked as its user. -/
theorem sessionKept_of_no_logout (hinverse : s₀.registries.MapsInverse)
    (hother : ∀ e ∈ begins h, e.IsLogout → e.ctx ≠ ctx) {u : User}
    (hu : s₀.registries.channelId2User.get ctx.channelId = some u) :
    (stateAfter s₀ h).registries.channelId2User.get ctx.channelId = some u
      ∧ SessionKept s₀.registries (stateAfter s₀ h).registries u ctx := by
  have hctx : s₀.registries.user2ChannelCtx.get u = some ctx := (hinverse u ctx).mpr hu
  have hnot : ¬ Removed u h := by
    intro hrem
    obtain ⟨e, he, hlogout, hlinked⟩ := exists_logout_of_removed hm hout run hrun hrem
    have hctx' := (hinverse u e.ctx).mpr hlinked
    exact hother e he hlogout (Option.some.inj (hctx'.symm.trans hctx))
  have hchannel : ¬ ChannelRemoved ctx.channelId h := by
    rintro ⟨e, he⟩
    obtain ⟨p, hp⟩ := exists_prefix_of_mem he
    obtain ⟨-, hstep⟩ | ⟨hlogout, hid⟩ := broadcastStep_or_logoutStep hm hout run hrun hp
    · exact hstep
    · exact hother e (run.mem_begins he) hlogout (ChannelHandlerContext.ext hid.symm)
  have hold := holdsButRemoved hm hout run hrun (List.prefix_refl h)
  refine ⟨?_, ?_, fun r hr => ?_⟩
  · rw [hold.channelId2User_of_not_removed _ hchannel, hu]
  · rw [hold.get_of_not_removed u hnot, hctx]
  · cases hroom : s₀.registries.roomStubMap.get r with
    | none =>
      rw [RoomStubMap.users_of_get_none hroom] at hr
      exact absurd hr List.not_mem_nil
    | some l =>
      rw [RoomStubMap.users_of_get hroom] at hr
      rw [RoomStubMap.users_of_get ((hold.get_room r).trans hroom)]
      exact hold.mem_lists_of_not_removed l u hr hnot

end Run

/-- **A broadcast survives the logouts beside it exactly if it looks up nobody
who was removed before** – whatever the order in which the operations of all of
them were performed. -/
theorem broadcastSurvives_iff {db : UserTable} {m : Message} {sender : User} {room : Long}
    {ctx : ChannelHandlerContext} {out : List Event} {s₀ s : ServerState} {h : History}
    {ts : List (Thread RegistryOp.Answer Throwable Event)} (hm : GroupSend db m sender room)
    (hghosts : s₀.registries.NoGhosts) (hinverse : s₀.registries.MapsInverse)
    (hout : LogoutsBeside s₀.registries ctx sender out)
    (run : (chatSystem db).Run s₀ h ts s) (hrun : BroadcastRun (messageCall ctx m) out h ts)
    {p : HandlerProgram Unit} (hp : ⟨messageCall ctx m, p⟩ ∈ ts) (hover : IsOver p) :
    Survives ctx m sender room s₀ h ts s ↔ LooksUpNoneRemoved (messageCall ctx m) h := by
  constructor
  · rintro ⟨hcompletes, -, -⟩ pre u a hpre hremoved
    obtain ⟨-, hpresent, -⟩ | ⟨⟨t, ht⟩, -⟩ :=
      returned_or_raised hm hout run hrun hcompletes trivial
    · -- the answer was null, and the broadcast would have thrown
      have hold := holdsButRemoved hm hout run hrun (before_of_step hpre)
      obtain rfl : a = none :=
        (answer_eq_exec run id hpre).trans (hold.get_of_removed u hremoved)
      exact hpresent ⟨u, mem_ownOps.mpr (mem_of_step hpre)⟩
    · exact absurd ht (by simp)
  · intro hcond
    have hpresent : ¬ LooksUpMissing (ownOps (messageCall ctx m) h) := by
      intro hmissing
      obtain ⟨pre, u, a, hpre, hremoved⟩ :=
        exists_lookup_of_looksUpMissing hm hout run hrun hghosts hmissing
      exact hcond pre u a hpre hremoved
    obtain ⟨rfl, hdone⟩ | ⟨-, hmissing⟩ := returned_or_raised hm hout run hrun hp hover
    · have hother := ctx_ne_of_isLogout hm hout run hrun hpresent
      refine ⟨hp, fun u hu hid hnot => ?_, fun u hu => ?_⟩
      · exact written_of_broadcastDone hm hout run hrun hdone hu hid hnot
      · rw [← stateAfter_eq run]
        exact sessionKept_of_no_logout hm hout run hrun hinverse hother hu
    · exact absurd hmissing hpresent

/-! ## A broadcast and one logout -/

/-- Two users in one room, each on a channel. -/
def twoInRoom : ServerState :=
  ⟨(Registries.empty.link ⟨1⟩ aaa (some 7)).link ⟨2⟩ bbb (some 7), []⟩

/-- What the first says to the room. -/
def hello : Message := .groupSend 1 7 "hello"

/-- A run of the first user's broadcast and the second's logout, by a schedule. -/
def playBeside (schedule : List ℕ) :
    Configuration RegistryOp.Answer Throwable Event ServerState :=
  play RegistryOp.exec (chatSystem sampleTable) [messageCall ⟨1⟩ hello, .channelInactive ⟨2⟩]
    schedule twoInRoom

theorem run_playBeside (schedule : List ℕ) :
    (chatSystem sampleTable).Run twoInRoom (playBeside schedule).1 (playBeside schedule).2.1
      (playBeside schedule).2.2 :=
  run_play (fun _ _ => Or.inr rfl) _ _ _

/-- The broadcast is over before the logout begins its work. -/
def broadcastFirst : List ℕ := List.replicate 4 1 ++ List.replicate 9 0

/-- The broadcast goes through the list as it was before the logout. -/
def logoutBetween : List ℕ := List.replicate 2 1 ++ List.replicate 9 0 ++ [1]

theorem broadcastRun_broadcastFirst :
    BroadcastRun (messageCall ⟨1⟩ hello) [.channelInactive ⟨2⟩] (playBeside broadcastFirst).1
      (playBeside broadcastFirst).2.1 := by
  have hbegins : begins (playBeside broadcastFirst).1
      = [messageCall ⟨1⟩ hello, .channelInactive ⟨2⟩] := by decide
  exact Or.inl (.of_eq hbegins)

theorem broadcastRun_logoutBetween :
    BroadcastRun (messageCall ⟨1⟩ hello) [.channelInactive ⟨2⟩] (playBeside logoutBetween).1
      (playBeside logoutBetween).2.1 := by
  have hbegins : begins (playBeside logoutBetween).1
      = [messageCall ⟨1⟩ hello, .channelInactive ⟨2⟩] := by decide
  exact Or.inl (.of_eq hbegins)

theorem groupSend_hello : GroupSend sampleTable hello aaa 7 := by
  constructor <;> decide

theorem noGhosts_twoInRoom : twoInRoom.registries.NoGhosts := by
  have hempty : Registries.empty.NoGhosts := fun room u hu => by simp [Registries.empty] at hu
  exact noGhosts_link (noGhosts_link hempty _ _ _) _ _ _

theorem mapsInverse_twoInRoom : twoInRoom.registries.MapsInverse := by
  have hempty : Registries.empty.MapsInverse := fun u ctx => by simp [Registries.empty]
  have hone : (Registries.empty.link ⟨1⟩ aaa (some 7)).MapsInverse :=
    mapsInverse_link_of_none hempty (some 7) (by decide) (by decide)
  exact mapsInverse_link_of_none hone (some 7) (by decide) (by decide)

theorem logoutsBeside_twoInRoom :
    LogoutsBeside twoInRoom.registries ⟨1⟩ aaa [.channelInactive ⟨2⟩] where
  ne_nil := by decide
  isLogout e he := by
    rw [List.mem_singleton.mp he]
    trivial
  ctx_ne := by decide
  linked e he := by
    rw [List.mem_singleton.mp he]
    exact ⟨bbb, by decide, by decide⟩

/-- Before the logout, the broadcast reaches the user who is about to go. -/
theorem broadcastSurvives_broadcastFirst :
    Survives ⟨1⟩ hello aaa 7 twoInRoom (playBeside broadcastFirst).1
      (playBeside broadcastFirst).2.1 (playBeside broadcastFirst).2.2 := by
  have hh : (playBeside broadcastFirst).1 =
      [.begin (messageCall ⟨1⟩ hello), .begin (.channelInactive ⟨2⟩),
        .perform (messageCall ⟨1⟩ hello) (.roomStubMapGet 7) (some ⟨7, 0⟩),
        .perform (messageCall ⟨1⟩ hello) (.usersIterator ⟨7, 0⟩) [aaa, bbb],
        .perform (messageCall ⟨1⟩ hello) (.user2ChannelCtxGet bbb) (some ⟨2⟩),
        .perform (messageCall ⟨1⟩ hello) (.writeAndFlush ⟨2⟩ (groupMessage hello aaa)) (),
        .perform (.channelInactive ⟨2⟩) (.channelId2UserGet 2) (some bbb),
        .perform (.channelInactive ⟨2⟩) .user2ChannelCtxKeySet [bbb, aaa],
        .perform (.channelInactive ⟨2⟩) (.user2ChannelCtxGet aaa) (some ⟨1⟩),
        .perform (.channelInactive ⟨2⟩) (.writeAndFlush ⟨1⟩ (offlineNotice bbb)) (),
        .perform (.channelInactive ⟨2⟩) (.user2ChannelCtxRemove bbb) (),
        .perform (.channelInactive ⟨2⟩) (.connectedChannelCtxRemove ⟨2⟩) (),
        .perform (.channelInactive ⟨2⟩) (.channelId2UserRemove 2) (),
        .perform (.channelInactive ⟨2⟩) .roomStubMapValues [⟨7, 0⟩],
        .perform (.channelInactive ⟨2⟩) (.usersRemove ⟨7, 0⟩ bbb) ()] := rfl
  have hts : (playBeside broadcastFirst).2.1
      = [⟨.channelInactive ⟨2⟩, .ret ()⟩, ⟨messageCall ⟨1⟩ hello, .ret ()⟩] := rfl
  have hover : ⟨messageCall ⟨1⟩ hello, .ret ()⟩ ∈ (playBeside broadcastFirst).2.1 := by
    simp [hts]
  refine (broadcastSurvives_iff groupSend_hello noGhosts_twoInRoom mapsInverse_twoInRoom
    logoutsBeside_twoInRoom (run_playBeside _) broadcastRun_broadcastFirst hover trivial).mpr ?_
  have hsteps : ∀ pre act, pre ++ [act] <+: (playBeside broadcastFirst).1 → ∀ u a,
      act = .perform (messageCall ⟨1⟩ hello) (.user2ChannelCtxGet u) a → ¬ Removed u pre := by
    rw [hh]
    simp [forall_step_cons, messageCall, Removed]
  exact fun pre u a hpre => hsteps pre _ hpre u a rfl

/-- The second user logs out after the broadcast has gone to the list and before
it looks that user up: the broadcast throws. -/
theorem not_broadcastSurvives :
    ¬ ∀ (db : UserTable) (m : Message) (sender : User) (room : Long)
      (ctx : ChannelHandlerContext) (out : List Event) (s₀ s : ServerState) (h : History)
      (ts : List (Thread RegistryOp.Answer Throwable Event)) (p : HandlerProgram Unit),
        GroupSend db m sender room → s₀.registries.NoGhosts → s₀.registries.MapsInverse →
          LogoutsBeside s₀.registries ctx sender out → (chatSystem db).Run s₀ h ts s →
            BroadcastRun (messageCall ctx m) out h ts → ⟨messageCall ctx m, p⟩ ∈ ts → IsOver p →
              Survives ctx m sender room s₀ h ts s := by
  intro h
  have hts : (playBeside logoutBetween).2.1
      = [⟨.channelInactive ⟨2⟩, .ret ()⟩,
          ⟨messageCall ⟨1⟩ hello, .raise .nullPointerException⟩] := rfl
  have hover : ⟨messageCall ⟨1⟩ hello, .raise .nullPointerException⟩
      ∈ (playBeside logoutBetween).2.1 := by simp [hts]
  have hsurvives := h _ _ _ _ _ _ _ _ _ _ _ groupSend_hello noGhosts_twoInRoom
    mapsInverse_twoInRoom logoutsBeside_twoInRoom (run_playBeside _) broadcastRun_logoutBetween
    hover trivial
  have hreturned := hsurvives.completes
  rw [hts] at hreturned
  simp [messageCall] at hreturned

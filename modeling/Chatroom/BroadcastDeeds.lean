import Chatroom.ConcurrentCalls
import Chatroom.RoomMembers

/-!
# What a broadcast and a logout do

A broadcast and a logout, each along its own operations and whatever these are answered.
A broadcast finds the list of its room, goes through it as it found it, and looks up the
context of one user after the other; it returns after it has served them all, or throws
at the first that has none (`keeps_groupSend`). A logout removes its own channel, and
the user that the channel was linked as when it asked, from the contexts before the
rooms (`keeps_logout`).

What others do in the meantime has no part in this; it decides what the operations are
answered.
-/

open AtomicSystem AtomicProgram ChatroomServerHandler RegistryOp

/-! ## What a broadcast does

The conditions speak of what a call was answered and not of the registries, which change
under it. What it was answered is in the history, and can be compared with what others
did before. -/

section Broadcast

variable {room : Long} {id : Option Long} {message : Message} {d d' : CallDeeds} {u : User}

/-- A broadcast found a user in the list of the room. -/
def FoundInRoom (room : Long) (d : CallDeeds) (u : User) : Prop :=
  ∃ l us, ⟨roomStubMapGet room, some l⟩ ∈ d ∧ ⟨usersIterator l, us⟩ ∈ d ∧ u ∈ us

/-- **What a broadcast may do next**: it looks up those it found in the room, and
changes none of the registries. -/
def BroadcastStep (room : Long) (d : CallDeeds) : RegistryOp → Prop
  | user2ChannelCtxGet u => FoundInRoom room d u
  | roomStubMapGet _ | usersIterator _ | writeAndFlush _ _ => True
  | _ => False

/-- A broadcast looked up a user who has no context. The source does not test what the
map returns, and writes to it. -/
def LooksUpMissing (d : CallDeeds) : Prop := ∃ u, ⟨user2ChannelCtxGet u, none⟩ ∈ d

/-- A broadcast wrote a message to the context it found for a user. -/
def Served (message : Message) (d : CallDeeds) (u : User) : Prop :=
  ∃ c, ⟨user2ChannelCtxGet u, some c⟩ ∈ d ∧ ⟨writeAndFlush c message, ()⟩ ∈ d

theorem Served.mono (hsub : d ⊆ d') (h : Served message d u) : Served message d' u := by
  obtain ⟨c, hget, hwrite⟩ := h
  exact ⟨c, hsub hget, hsub hwrite⟩

/-- **What a broadcast has done when it returns**: everybody it looked up had a
context, and all it found in the room but the sender were served. -/
def BroadcastDone (room : Long) (id : Option Long) (message : Message) (d : CallDeeds) : Prop :=
  ¬ LooksUpMissing d
    ∧ (⟨roomStubMapGet room, none⟩ ∈ d
      ∨ ∃ l us, ⟨roomStubMapGet room, some l⟩ ∈ d ∧ ⟨usersIterator l, us⟩ ∈ d
        ∧ ∀ u ∈ us, u.id ≠ id → Served message d u)

/-- What holds of a broadcast that is part of the way through a list. -/
structure BroadcastAt (room : Long) (id : Option Long) (message : Message) (l : ListRef)
    (us pre : List User) (d : CallDeeds) : Prop where
  list : ⟨roomStubMapGet room, some l⟩ ∈ d
  found : ⟨usersIterator l, us⟩ ∈ d
  present : ¬ LooksUpMissing d
  served : ∀ u ∈ pre, u.id ≠ id → Served message d u

theorem not_looksUpMissing_snoc {x : Σ o : RegistryOp, o.Answer} (hd : ¬ LooksUpMissing d)
    (hx : ∀ u, x ≠ ⟨user2ChannelCtxGet u, none⟩) : ¬ LooksUpMissing (d ++ [x]) := by
  rintro ⟨u, hu⟩
  obtain hu | hu := List.mem_append.mp hu
  · exact hd ⟨u, hu⟩
  · exact hx u (List.mem_singleton.mp hu).symm

/-- **One user of the list** is passed over, or served; a user who has no context ends
the loop, and it is nobody's turn after that. -/
theorem keeps_sendUnless {l : ListRef} {us pre : List User} (hu : u ∈ us)
    (hd : BroadcastAt room id message l us pre d) :
    Keeps (BroadcastStep room) LooksUpMissing (sendUnless id message u) d
      (fun _ => BroadcastAt room id message l us (pre ++ [u])) := by
  obtain ⟨hlist, hfound, hpresent, hserved⟩ := hd
  rw [sendUnless]
  split
  · next hid =>
    refine ⟨hlist, hfound, hpresent, fun v hv hne => ?_⟩
    obtain hv | hv := List.mem_append.mp hv
    · exact hserved v hv hne
    · rw [List.mem_singleton.mp hv] at hne
      exact absurd hid hne
  · refine keeps_bind (keeps_perform ⟨l, us, hlist, hfound, hu⟩) ?_
    rintro c d₁ rfl
    cases c with
    | none => exact ⟨u, by simp⟩
    | some c =>
      refine ⟨trivial, fun a => ?_⟩
      have hsub : d ⊆ d ++ [⟨user2ChannelCtxGet u, some c⟩]
          ++ [⟨writeAndFlush c message, a⟩] := by
        rw [List.append_assoc]
        exact List.subset_append_left _ _
      refine ⟨hsub hlist, hsub hfound, ?_, fun v hv hne => ?_⟩
      · exact not_looksUpMissing_snoc (not_looksUpMissing_snoc hpresent (by simp)) (by simp)
      · obtain hv | hv := List.mem_append.mp hv
        · exact (hserved v hv hne).mono hsub
        · rw [List.mem_singleton.mp hv]
          exact ⟨c, by simp, by simp⟩

/-- **A group message of a stored user** is a broadcast to its room. A room without a
list is no error, and then there is nobody to serve. -/
theorem keeps_groupSend {db : UserTable} {ctx : ChannelHandlerContext} {m : Message}
    {sender : User} (hm : GroupSend db m sender room) :
    Keeps (BroadcastStep room) LooksUpMissing (handler db (.channelRead0 ctx (.message m))) []
      (fun _ => BroadcastDone room m.senderId (groupMessage m sender)) := by
  have hcode : m.type = some MessageType.groupSend.getCode := hm.type
  have hlink : MessageType.groupSend.getCode ≠ MessageType.link.getCode := by decide
  show Keeps _ _ (handleMessage db ctx m) [] _
  simp only [handleMessage, hcode, hm.sender, hm.roomId, hm.receiverId, hlink, nonNull_some,
    bind_of_pure, if_true, if_false]
  refine keeps_bind (keeps_perform trivial) ?_
  rintro l d₁ rfl
  cases l with
  | none =>
    refine ⟨?_, Or.inl (by simp)⟩
    rintro ⟨u, hu⟩
    simp at hu
  | some l =>
    refine keeps_bind (keeps_perform trivial) ?_
    rintro us d₂ rfl
    have hstart : BroadcastAt room m.senderId (groupMessage m sender) l us []
        ([⟨roomStubMapGet room, some l⟩] ++ [⟨usersIterator l, us⟩]) := by
      refine ⟨by simp, by simp, ?_, by simp⟩
      rintro ⟨u, hu⟩
      simp at hu
    refine keeps_weaken (keeps_forEach _ (fun pre u hpre d hd => ?_) hstart) (fun _ d hd => ?_)
    · exact keeps_sendUnless (mem_of_step hpre) hd
    · exact ⟨hd.present, Or.inr ⟨l, us, hd.list, hd.found, hd.served⟩⟩

end Broadcast

/-! ## What a logout does -/

section Logout

variable {ctx : ChannelHandlerContext} {d d' : CallDeeds}

/-- **What a logout may do next**: it removes the user its channel is linked as,
from the contexts before the rooms, and its own channel. -/
def LogoutStep (ctx : ChannelHandlerContext) (d : CallDeeds) : RegistryOp → Prop
  | user2ChannelCtxRemove u => ⟨channelId2UserGet ctx.channelId, some u⟩ ∈ d
  | channelId2UserRemove channelId => channelId = ctx.channelId
  | usersRemove _ u => ⟨user2ChannelCtxRemove u, ()⟩ ∈ d
  | user2ChannelCtxPut _ _ | channelId2UserPut _ _ | roomStubMapPut _ _ | usersAdd _ _ => False
  | _ => True

/-- All that is said of a logout is that it has done something before. -/
theorem LogoutStep.mono {o : RegistryOp} (hsub : d ⊆ d') (h : LogoutStep ctx d o) :
    LogoutStep ctx d' o := by
  cases o with
  | user2ChannelCtxRemove u => exact hsub h
  | usersRemove l u => exact hsub h
  | _ => exact h

/-- The notices a logout writes. They change nothing, and may be cut short. -/
theorem keeps_notices {keys : List User} {user : Option User} :
    Keeps (LogoutStep ctx) (fun _ => True)
      (forEach keys (fun u => do
        let user ← nonNull user
        sendUnless user.id (offlineNotice user) u)) d (fun _ d' => d ⊆ d') := by
  refine keeps_forEach (fun _ d' => d ⊆ d') (fun _ u _ d₁ hd₁ => ?_) (List.Subset.refl d)
  cases user with
  | none => trivial
  | some user =>
    rw [nonNull_some, bind_of_pure, sendUnless]
    split
    · exact hd₁
    · refine keeps_bind (keeps_perform trivial) ?_
      rintro c d₂ rfl
      cases c with
      | none => trivial
      | some c =>
        refine ⟨trivial, fun a => List.Subset.trans hd₁ ?_⟩
        rw [List.append_assoc]
        exact List.subset_append_left _ _

/-- **A logout** removes what is its own: the user that its channel was linked as when
it asked, and its own channel. -/
theorem keeps_logout {db : UserTable} {e : Event} (he : e.IsLogout) :
    Keeps (LogoutStep e.ctx) (fun _ => True) (handler db e) [] (fun _ _ => True) := by
  have hprogram : handler db e = handleLogout e.ctx := by
    obtain ⟨ctx, rfl | rfl⟩ := he.eq_or_eq
    · rfl
    · rfl
  rw [hprogram, handleLogout]
  refine keeps_bind (keeps_perform trivial) ?_
  rintro user d₁ rfl
  refine keeps_bind (keeps_perform trivial) ?_
  rintro keys d₂ rfl
  refine keeps_bind keeps_notices (fun _ d₃ hd₃ => ?_)
  cases user with
  | none => trivial
  | some user =>
    rw [nonNull_some, bind_of_pure]
    refine keeps_bind (keeps_perform (hd₃ (by simp))) ?_
    rintro - d₄ rfl
    refine keeps_bind (keeps_perform trivial) ?_
    rintro - d₅ rfl
    refine keeps_bind (keeps_perform rfl) ?_
    rintro - d₆ rfl
    refine keeps_bind (keeps_perform trivial) ?_
    rintro values d₇ rfl
    refine keeps_weaken (keeps_forEach (fun _ d => ⟨user2ChannelCtxRemove user, ()⟩ ∈ d)
      (fun _ l _ d hd => ⟨hd, fun a => List.mem_append_left _ hd⟩) (by simp))
      (fun _ _ _ => trivial)

end Logout

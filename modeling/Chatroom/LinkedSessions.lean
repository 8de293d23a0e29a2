import Chatroom.SessionHistory

/-!
# Sessions on linked channels

What is in the registries of a user should hang on the channels that are linked as the
user. It does where no link comes on a channel that is linked already (`LinksAfresh`),
and two things follow.

* **Nothing is left when the sessions end.** A user holds at most as many entries in a
  room as there are channels linked as the user (`LinksCovered`), however many that are,
  so that none is left when the last of them is logged out.
* **Frames go to linked channels.** A user is reached on a channel that is linked as the
  user (`ReachedWhereLinked`), so that a frame goes to a linked channel, or back on the
  channel of the frame it answers (`isTarget_of_mem_dispatch`).

Both are kept by every call that Netty makes, by the one rule for what a call keeps
(`keeps_dispatch`).
-/

open ChatroomServerHandler

/-! ## When the sessions end

A link on a channel that is linked as nobody brings one more entry into a room and one
more channel for its user, and a logout takes one of each away. A link on a channel that
is linked already brings another entry and no other channel; that is why links have to
be afresh, and why a user may stay in a room for ever where they are not. -/

/-- **Every user in the registries is somewhere linked**, and has no more entries in a
room than there are channels linked as the user. -/
structure LinksCovered (r : Registries) : Prop where
  reached : ∀ u, (r.user2ChannelCtx.get u).isSome = true → 0 < r.channelId2User.valueCount u
  entries : ∀ room u, (r.roomStubMap.users room).count u ≤ r.channelId2User.valueCount u

/-- **A link finds its channel linked as nobody.** A call that is no link of a stored
user is afresh. -/
def LinksAfresh (db : UserTable) (r : Registries) (e : Event) : Prop :=
  ∀ u, linkedBy db e = some u → r.channelId2User.get e.ctx.channelId = none

section LinksCovered

variable {db : UserTable} {r : Registries} {ctx : ChannelHandlerContext} {u : User}

theorem linksCovered_empty : LinksCovered Registries.empty :=
  ⟨fun u h => absurd h (by simp [Registries.empty]),
    fun room u => by simp [Registries.empty]⟩

/-- A link that comes on a channel without a user adds one to either side. -/
theorem linksCovered_link (h : LinksCovered r) (hctx : r.channelId2User.get ctx.channelId = none)
    (roomId : Option Long) : LinksCovered (r.link ctx u roomId) where
  reached v hv := by
    rw [Registries.channelId2User_link, ConcurrentHashMap.valueCount_put hctx]
    rw [Registries.user2ChannelCtx_link, ConcurrentHashMap.get_put] at hv
    by_cases hvu : v = u
    · rw [if_pos hvu]
      exact Nat.succ_pos _
    · rw [if_neg hvu] at hv ⊢
      exact h.reached v hv
  entries room v := by
    rw [Registries.channelId2User_link, ConcurrentHashMap.valueCount_put hctx,
      Registries.users_link]
    have hbefore := h.entries room v
    split
    · rw [List.count_append, List.count_singleton]
      refine Nat.add_le_add hbefore ?_
      by_cases hvu : v = u
      · simp [hvu]
      · simp [hvu, Ne.symm hvu]
    · exact hbefore.trans (Nat.le_add_right _ _)

/-- A logout takes one from either side, where there is one to take from the room. -/
theorem linksCovered_logout (h : LinksCovered r)
    (hctx : r.channelId2User.get ctx.channelId = some u) : LinksCovered (r.logout ctx u) where
  reached v hv := by
    rw [Registries.channelId2User_logout, ConcurrentHashMap.valueCount_remove hctx]
    rw [Registries.user2ChannelCtx_logout, ConcurrentHashMap.get_remove] at hv
    by_cases hvu : v = u
    · rw [if_pos hvu] at hv
      exact absurd hv (by simp)
    · rw [if_neg hvu] at hv ⊢
      exact h.reached v hv
  entries room v := by
    rw [Registries.channelId2User_logout, ConcurrentHashMap.valueCount_remove hctx,
      Registries.users_logout, List.count_erase]
    have hbefore := h.entries room v
    by_cases hvu : v = u
    · rw [if_pos hvu, if_pos (by simp [hvu])]
      exact Nat.sub_le_sub_right hbefore 1
    · rw [if_neg hvu, if_neg (by simpa using Ne.symm hvu)]
      exact hbefore

/-- **A call keeps the links covered**, if it is no link of a linked channel. -/
theorem linksCovered_dispatch (h : LinksCovered r) {e : Event} (he : LinksAfresh db r e) :
    LinksCovered (dispatch db e r).registries :=
  keeps_dispatch h (fun _ => ⟨h.reached, h.entries⟩)
    (fun u roomId hu => linksCovered_link h (he u hu) roomId)
    (fun _ _ _ h hu => linksCovered_logout h hu)

end LinksCovered

/-! ## Whom a call writes to

A frame goes to a context that the call found, and the call found it in the map. Whether
the channel is still open is for the pipeline to say; here it is shown to be linked. -/

/-- **Users are reached where they are linked.** The converse does not hold where a user
is linked on two channels. -/
def ReachedWhereLinked (r : Registries) : Prop :=
  ∀ u ctx, r.user2ChannelCtx.get u = some ctx → r.channelId2User.get ctx.channelId = some u

/-- **Where a call may write to**: back on the channel of its frame, or to where a user
is reached that the call does not log out. -/
def IsTarget (r : Registries) (e : Event) (ctx : ChannelHandlerContext) : Prop :=
  (∃ f, e = .channelRead0 ctx f) ∨ ∃ u, r.user2ChannelCtx.get u = some ctx
    ∧ (e.IsLogout → r.channelId2User.get e.ctx.channelId ≠ some u)

section Targets

variable {db : UserTable} {r : Registries} {e : Event} {ctx : ChannelHandlerContext} {u : User}
  {w : Written}

/-- A logout writes to the others, which are those with another id than its user. -/
theorem isTarget_of_logout (he : e.IsLogout) (hw : w ∈ (invoke db e r).written) :
    IsTarget r e w.1 := by
  cases hu : r.channelId2User.get e.ctx.channelId with
  | none =>
    rw [invoke_logout_none db r he hu] at hw
    exact absurd hw List.not_mem_nil
  | some u =>
    rw [invoke_logout_some db r he hu] at hw
    obtain ⟨-, v, hv, hget⟩ := Registries.exists_of_mem_deliveries hw
    refine Or.inr ⟨v, hget, fun _ heq => (mem_recipients.mp hv).2 ?_⟩
    rw [← Option.some.inj (hu.symm.trans heq)]

/-- What a loop over users writes goes to where they are reached. -/
theorem isTarget_of_mem_deliveries {users : List User} {id : Option Long} {message : Message}
    (he : ¬ e.IsLogout) (hw : w ∈ r.deliveries users id message) : IsTarget r e w.1 := by
  obtain ⟨-, u, -, hget⟩ := Registries.exists_of_mem_deliveries hw
  exact Or.inr ⟨u, hget, fun h => absurd h he⟩

theorem isTarget_of_channelRead0 {f : TextWebSocketFrame}
    (hw : w ∈ (invoke db (.channelRead0 ctx f) r).written) :
    IsTarget r (.channelRead0 ctx f) w.1 := by
  cases f with
  | unparsable => exact absurd hw List.not_mem_nil
  | null => exact absurd hw List.not_mem_nil
  | message m =>
    rw [invoke_channelRead0_message] at hw
    obtain hm | hm | hm | hm | ⟨hm, hm'⟩ := m.type_cases
    · rw [run_handleMessage_of_type_none db ctx r [] hm] at hw
      exact absurd hw List.not_mem_nil
    · cases hs : db.getUserById m.senderId with
      | none =>
        rw [run_link_of_unknown db ctx r [] hm hs] at hw
        exact absurd hw List.not_mem_nil
      | some u =>
        cases hr : m.roomId with
        | none =>
          rw [run_link_of_room_none db ctx r [] hm hs hr] at hw
          exact absurd hw List.not_mem_nil
        | some room =>
          rw [run_link db ctx r [] hm hs hr, written_ofRun] at hw
          exact isTarget_of_mem_deliveries id hw
    · by_cases hv : m.receiverId = none
      · cases hr : m.roomId with
        | none =>
          rw [run_groupSend_of_room_none db ctx r [] hm hv hr] at hw
          exact absurd hw List.not_mem_nil
        | some room =>
          cases hs : db.getUserById m.senderId with
          | some u =>
            rw [run_groupSend db ctx r [] hm hv hr hs, written_ofRun] at hw
            exact isTarget_of_mem_deliveries id hw
          | none =>
            by_cases hl : r.roomStubMap.get room = none
            · rw [run_groupSend_of_get_none db ctx r [] hm hv hr hl] at hw
              exact absurd hw List.not_mem_nil
            · rw [run_groupSend_of_unknown db ctx r [] hm hv hr hl hs] at hw
              exact absurd hw List.not_mem_nil
      · rw [run_groupSend_of_receiver db ctx r [] hm hv] at hw
        exact absurd hw List.not_mem_nil
    · cases hv : db.getUserById m.receiverId with
      | none =>
        rw [run_singleSend_of_unknown db ctx r [] hm hv] at hw
        exact absurd hw List.not_mem_nil
      | some v =>
        rw [run_singleSend db ctx r [] hm hv, written_ofRun, List.nil_append] at hw
        split at hw
        · exact absurd hw List.not_mem_nil
        · rw [List.mem_singleton.mp hw]
          exact Or.inl ⟨.message m, rfl⟩
    · rw [run_handleMessage_of_other db ctx r [] hm hm'] at hw
      exact absurd hw List.not_mem_nil

/-- What the logout after a failed frame writes to was there before the frame: if the
frame was a link, the one context it registered is that of the user the logout is of. -/
theorem isTarget_of_exceptionCaught {f : TextWebSocketFrame} {c : ChannelHandlerContext}
    (h : IsTarget (invoke db (.channelRead0 ctx f) r).registries (.exceptionCaught ctx) c) :
    IsTarget r (.channelRead0 ctx f) c := by
  obtain ⟨f', hf'⟩ | ⟨v, hget, hother⟩ := h
  · exact absurd hf' (by simp)
  refine Or.inr ⟨v, ?_, fun hout => absurd hout id⟩
  have hother := hother trivial
  cases hf : linkSender db f with
  | none =>
    rw [registries_of_linkSender_none r ctx hf] at hget
    exact hget
  | some u =>
    rw [registries_of_linkSender r ctx hf] at hget hother
    have hne : v ≠ u := by
      rintro rfl
      exact hother (get_channelId2User_link r ctx v f.roomId)
    rw [Registries.user2ChannelCtx_link, ConcurrentHashMap.get_put, if_neg hne] at hget
    exact hget

/-- **Each frame that a call writes goes to a target of the call**, the frames of the
logout after its exception included. -/
theorem isTarget_of_mem_dispatch (hw : w ∈ (dispatch db e r).written) : IsTarget r e w.1 := by
  cases e with
  | channelActive ctx => exact absurd hw List.not_mem_nil
  | channelInactive ctx =>
    rw [(dispatch_of_isLogout db r (e := .channelInactive ctx) trivial).2] at hw
    exact isTarget_of_logout trivial hw
  | exceptionCaught ctx =>
    rw [(dispatch_of_isLogout db r (e := .exceptionCaught ctx) trivial).2] at hw
    exact isTarget_of_logout trivial hw
  | channelRead0 ctx f =>
    by_cases hthrown : (invoke db (.channelRead0 ctx f) r).thrown = none
    · rw [dispatch_of_thrown_none db r hthrown] at hw
      exact isTarget_of_channelRead0 hw
    · rw [dispatch_of_thrown db r (by simp) hthrown] at hw
      obtain hw | hw := List.mem_append.mp hw
      · exact isTarget_of_channelRead0 hw
      · exact isTarget_of_exceptionCaught
          (isTarget_of_logout (e := .exceptionCaught ctx) trivial hw)

end Targets

section ReachedWhereLinked

variable {db : UserTable} {r : Registries} {ctx : ChannelHandlerContext} {u : User}

theorem reachedWhereLinked_empty : ReachedWhereLinked Registries.empty :=
  fun u ctx h => absurd h (by simp [Registries.empty])

theorem reachedWhereLinked_link (h : ReachedWhereLinked r)
    (hctx : r.channelId2User.get ctx.channelId = none) (roomId : Option Long) :
    ReachedWhereLinked (r.link ctx u roomId) := by
  intro v c hget
  rw [Registries.user2ChannelCtx_link, ConcurrentHashMap.get_put] at hget
  rw [Registries.channelId2User_link, ConcurrentHashMap.get_put]
  by_cases hvu : v = u
  · rw [if_pos hvu] at hget
    rw [if_pos (congrArg _ (Option.some.inj hget).symm), hvu]
  · rw [if_neg hvu] at hget
    have hlinked := h v c hget
    have hne : c.channelId ≠ ctx.channelId := by
      intro heq
      rw [heq, hctx] at hlinked
      exact absurd hlinked (by simp)
    rw [if_neg hne, hlinked]

theorem reachedWhereLinked_logout (h : ReachedWhereLinked r)
    (hctx : r.channelId2User.get ctx.channelId = some u) :
    ReachedWhereLinked (r.logout ctx u) := by
  intro v c hget
  rw [Registries.user2ChannelCtx_logout, ConcurrentHashMap.get_remove] at hget
  rw [Registries.channelId2User_logout, ConcurrentHashMap.get_remove]
  by_cases hvu : v = u
  · rw [if_pos hvu] at hget
    exact absurd hget (by simp)
  · rw [if_neg hvu] at hget
    have hlinked := h v c hget
    have hne : c.channelId ≠ ctx.channelId := by
      intro heq
      rw [heq, hctx] at hlinked
      exact hvu (Option.some.inj hlinked).symm
    rw [if_neg hne, hlinked]

/-- **A call keeps users reached where they are linked**, if it is no link of a linked
channel. -/
theorem reachedWhereLinked_dispatch (h : ReachedWhereLinked r) {e : Event}
    (he : LinksAfresh db r e) : ReachedWhereLinked (dispatch db e r).registries :=
  keeps_dispatch h (fun _ => h) (fun u roomId hu => reachedWhereLinked_link h (he u hu) roomId)
    (fun _ _ _ h hu => reachedWhereLinked_logout h hu)

end ReachedWhereLinked

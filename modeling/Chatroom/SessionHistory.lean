import Chatroom.ChannelMaps

/-!
# What the channel maps remember

The two channel maps are written by links and by logouts only, so an entry is
read off the run that made it. `CHANNEL_ID2USER` has a user for a channel
exactly if the last link of that channel was one of this user, and neither
failed nor was followed by a logout of the channel (`linkedAs_iff`).
`USER2CHANNEL_CTX` has a channel for a user exactly if the last link of that
*user* was made there, and nothing logged the user out since (`reachedOn_iff`).
The difference between the two readings is the whole of what goes wrong between
the maps: a channel is written by its own calls alone, a user by the calls of
every channel that is linked as the user.

The runs are those that Netty makes, in which a call that throws is followed by
`exceptionCaught`. `DispatchStep` lists once what such a call does to the
registries.

A room is a list, in which a link puts one entry for the user, and out of which a
logout of the user takes one, if there is any, in every room at once. So how often
a user is in a room is the greatest surplus of links over logouts from any moment
on (`rooms_hold_links`): what was logged out in vain is forgotten.
-/

open ChatroomServerHandler

/-- The user a call links its channel as, if it is a link of a stored user. -/
def linkedBy (db : UserTable) : Event → Option User
  | .channelRead0 _ f => linkSender db f
  | _ => none

/-! ## What a call does, with what Netty makes of its exception -/

/-- **The six things a call can do to the registries**, when `exceptionCaught`
follows what it throws. -/
inductive DispatchStep (db : UserTable) (r : Registries) : Event → Registries → Prop
  /-- A channel becomes active. -/
  | active (ctx : ChannelHandlerContext) :
      DispatchStep db r (.channelActive ctx)
        { r with connectedChannelCtx := r.connectedChannelCtx ++ [ctx] }
  /-- A frame that neither links nor throws. -/
  | read (ctx : ChannelHandlerContext) (f : TextWebSocketFrame)
      (hf : linkSender db f = none) (hthrows : ¬ frameThrows db r f) :
      DispatchStep db r (.channelRead0 ctx f) r
  /-- A link. -/
  | link (ctx : ChannelHandlerContext) (f : TextWebSocketFrame) (u : User)
      (hf : linkSender db f = some u) (hthrows : ¬ frameThrows db r f) :
      DispatchStep db r (.channelRead0 ctx f) (r.link ctx u f.roomId)
  /-- A link that throws, and logs out the user it has just linked. -/
  | linkFailed (ctx : ChannelHandlerContext) (f : TextWebSocketFrame) (u : User)
      (hf : linkSender db f = some u) (hthrows : frameThrows db r f) :
      DispatchStep db r (.channelRead0 ctx f) ((r.link ctx u f.roomId).logout ctx u)
  /-- A logout of a channel that is not linked. -/
  | stay (e : Event) (he : WillLogOut db r e) (hf : linkedBy db e = none)
      (hu : r.channelId2User.get e.ctx.channelId = none) : DispatchStep db r e r
  /-- A logout of a linked channel. -/
  | logout (e : Event) (he : WillLogOut db r e) (hf : linkedBy db e = none) (u : User)
      (hu : r.channelId2User.get e.ctx.channelId = some u) :
      DispatchStep db r e (r.logout e.ctx u)

section Dispatch

variable {db : UserTable} {r : Registries}

/-- A channel is linked as whom it has just been linked. -/
theorem get_channelId2User_link (r : Registries) (ctx : ChannelHandlerContext) (u : User)
    (roomId : Option Long) :
    (r.link ctx u roomId).channelId2User.get ctx.channelId = some u := by
  rw [Registries.channelId2User_link, ConcurrentHashMap.get_put, if_pos rfl]

/-- The callbacks link nobody. -/
theorem linkedBy_of_isLogout {e : Event} (he : e.IsLogout) : linkedBy db e = none := by
  obtain ⟨ctx, rfl | rfl⟩ := he.eq_or_eq
  · rfl
  · rfl

/-- What the logout after a call does that linked nobody: the call itself left the
registries as they were, so that the logout finds what the call found. -/
theorem dispatchStep_of_logout {e e' : Event} (he : WillLogOut db r e)
    (hf : linkedBy db e = none) (he' : e'.IsLogout) (hctx : e'.ctx = e.ctx) :
    DispatchStep db r e (invoke db e' r).registries := by
  cases hu : r.channelId2User.get e'.ctx.channelId with
  | none =>
    rw [invoke_logout_none db r he' hu]
    exact .stay e he hf (hctx ▸ hu)
  | some u =>
    rw [invoke_logout_some db r he' hu, hctx]
    exact .logout e he hf u (hctx ▸ hu)

/-- **A call that Netty makes takes one of the six steps.** A logout that throws is
followed by another, on registries that the first did not change, and that one throws
as well: the step is `stay`. -/
theorem dispatchStep_dispatch (db : UserTable) (e : Event) (r : Registries) :
    DispatchStep db r e (dispatch db e r).registries := by
  have hlogout : ∀ e : Event, e.IsLogout → DispatchStep db r e (dispatch db e r).registries := by
    intro e he
    rw [(dispatch_of_isLogout db r he).1]
    exact dispatchStep_of_logout (Or.inl he) (linkedBy_of_isLogout he) he rfl
  cases e with
  | channelActive ctx => exact .active ctx
  | channelInactive ctx => exact hlogout _ trivial
  | exceptionCaught ctx => exact hlogout _ trivial
  | channelRead0 ctx f =>
    by_cases hthrows : frameThrows db r f
    · have hthrown := (thrown_channelRead0_iff r ctx).mpr hthrows
      rw [dispatch_of_thrown db r (by simp) hthrown]
      show DispatchStep db r _ (invoke db (.exceptionCaught ctx)
        (invoke db (.channelRead0 ctx f) r).registries).registries
      cases hf : linkSender db f with
      | none =>
        rw [registries_of_linkSender_none r ctx hf]
        exact dispatchStep_of_logout (Or.inr ⟨f, rfl, hthrows⟩) hf trivial rfl
      | some u =>
        rw [registries_of_linkSender r ctx hf,
          invoke_logout_some db _ (e := .exceptionCaught ctx) trivial
            (get_channelId2User_link r ctx u f.roomId)]
        exact .linkFailed ctx f u hf hthrows
    · have hthrown : (invoke db (.channelRead0 ctx f) r).thrown = none :=
        not_not.mp (fun h => hthrows ((thrown_channelRead0_iff r ctx).mp h))
      rw [dispatch_of_thrown_none db r hthrown]
      cases hf : linkSender db f with
      | none =>
        rw [registries_of_linkSender_none r ctx hf]
        exact .read ctx f hf hthrows
      | some u =>
        rw [registries_of_linkSender r ctx hf]
        exact .link ctx f u hf hthrows

end Dispatch

/-- A call that links goes by a frame. -/
theorem exists_of_linkedBy {db : UserTable} {e : Event} {u : User} (h : linkedBy db e = some u) :
    ∃ f, e = .channelRead0 e.ctx f ∧ linkSender db f = some u := by
  cases e with
  | channelRead0 ctx f => exact ⟨f, rfl, h⟩
  | channelActive ctx => exact absurd h (by simp [linkedBy])
  | channelInactive ctx => exact absurd h (by simp [linkedBy])
  | exceptionCaught ctx => exact absurd h (by simp [linkedBy])

/-- **The rule for what a call keeps**: what a link by the call keeps, and any logout of a
linked channel, the call keeps. A link that fails is a link and a logout. -/
theorem keeps_dispatch {P : Registries → Prop} {db : UserTable} {r : Registries} {e : Event}
    (h : P r)
    (hactive : ∀ ctx, P { r with connectedChannelCtx := r.connectedChannelCtx ++ [ctx] })
    (hlink : ∀ u roomId, linkedBy db e = some u → P (r.link e.ctx u roomId))
    (hlogout : ∀ r ctx u, P r → r.channelId2User.get ctx.channelId = some u →
      P (r.logout ctx u)) :
    P (dispatch db e r).registries := by
  have hstep := dispatchStep_dispatch db e r
  generalize (dispatch db e r).registries = r' at hstep ⊢
  cases hstep with
  | active ctx => exact hactive ctx
  | read ctx f hf hthrows => exact h
  | link ctx f u hf hthrows => exact hlink u f.roomId hf
  | linkFailed ctx f u hf hthrows =>
    exact hlogout _ ctx u (hlink u f.roomId hf) (get_channelId2User_link r ctx u f.roomId)
  | stay e he hf hu => exact h
  | logout e he hf u hu => exact hlogout r e.ctx u h hu

theorem not_willLogOut_channelActive {db : UserTable} {r : Registries}
    {ctx : ChannelHandlerContext} : ¬ WillLogOut db r (.channelActive ctx) := by
  rintro (he | ⟨f, he, -⟩)
  · exact he
  · exact absurd he (by simp)

theorem willLogOut_channelRead0 {db : UserTable} {r : Registries} {ctx : ChannelHandlerContext}
    {f : TextWebSocketFrame} : WillLogOut db r (.channelRead0 ctx f) ↔ frameThrows db r f := by
  constructor
  · rintro (he | ⟨f', he, hthrows⟩)
    · exact absurd he id
    · cases he
      exact hthrows
  · exact fun hthrows => Or.inr ⟨f, rfl, hthrows⟩

instance (db : UserTable) (r : Registries) (e : Event) : Decidable (WillLogOut db r e) :=
  match e with
  | .channelActive _ => isFalse not_willLogOut_channelActive
  | .channelInactive _ | .exceptionCaught _ => isTrue (Or.inl trivial)
  | .channelRead0 ctx _ =>
    decidable_of_iff _ ((thrown_channelRead0_iff r ctx).trans willLogOut_channelRead0.symm)

/-! ## The entries a call writes

A map of which it is known what each call writes to an entry, if anything, has what was
written last (`eq_some_iff_lastWrite`). The two maps differ in what a logout writes: in
`CHANNEL_ID2USER` the entry of its own channel, and in `USER2CHANNEL_CTX` that of the
user the channel is linked as, which may be the entry of another channel. -/

/-- **What a call writes for a channel** in `CHANNEL_ID2USER`, if it writes there: a
logout clears the entry, and a link that goes through sets it. -/
def channelWrite (db : UserTable) (r : Registries) (ctx : ChannelHandlerContext) (e : Event) :
    Option (Option User) :=
  if e.ctx ≠ ctx then none
  else if WillLogOut db r e then some none
  else (linkedBy db e).map some

/-- **What a call writes for a user** in `USER2CHANNEL_CTX`, if it writes there: what
logs the user out clears the entry, and a link as the user that goes through sets it. -/
def contextWrite (db : UserTable) (r : Registries) (u : User) (e : Event) :
    Option (Option ChannelHandlerContext) :=
  if WillLogOut db r e then if loggedOut db r e = some u then some none else none
  else if linkedBy db e = some u then some (some e.ctx)
  else none

section Writes

variable {db : UserTable} {r : Registries} {e : Event}

/-- The user that a callback or a frame logs out which links nobody, as the channel was
linked before. -/
theorem loggedOut_of_linkedBy_none (he : WillLogOut db r e) (hf : linkedBy db e = none) :
    loggedOut db r e = r.channelId2User.get e.ctx.channelId := by
  cases e with
  | channelActive ctx => exact absurd he not_willLogOut_channelActive
  | channelInactive ctx => rfl
  | exceptionCaught ctx => rfl
  | channelRead0 ctx f =>
    have hf : linkSender db f = none := hf
    show (linkSender db f).or _ = _
    rw [hf, Option.none_or]
    rfl

theorem channelId2User_dispatch (ctx : ChannelHandlerContext) :
    (dispatch db e r).registries.channelId2User.get ctx.channelId
      = (channelWrite db r ctx e).getD (r.channelId2User.get ctx.channelId) := by
  have hid : ∀ c : ChannelHandlerContext, ctx.channelId = c.channelId ↔ c = ctx :=
    fun c => ⟨fun h => ChannelHandlerContext.ext h.symm, fun h => h ▸ rfl⟩
  have hstep := dispatchStep_dispatch db e r
  generalize (dispatch db e r).registries = r' at hstep ⊢
  unfold channelWrite
  cases hstep with
  | active c => simp [not_willLogOut_channelActive, linkedBy]
  | read c f hf hthrows => simp [willLogOut_channelRead0, hthrows, linkedBy, hf]
  | link c f u hf hthrows =>
    simp only [Registries.channelId2User_link, ConcurrentHashMap.get_put, hid,
      willLogOut_channelRead0, hthrows, linkedBy, hf, Event.ctx]
    by_cases h : c = ctx
    · simp [h]
    · simp [h]
  | linkFailed c f u hf hthrows =>
    simp only [Registries.channelId2User_logout, Registries.channelId2User_link,
      ConcurrentHashMap.get_remove, ConcurrentHashMap.get_put, hid,
      willLogOut_channelRead0, hthrows, Event.ctx]
    by_cases h : c = ctx
    · simp [h]
    · simp [h]
  | stay e he hf hu =>
    by_cases h : e.ctx = ctx
    · subst h
      simp [he, hu]
    · simp [h]
  | logout e he hf u hu =>
    simp only [Registries.channelId2User_logout, ConcurrentHashMap.get_remove, hid]
    by_cases h : e.ctx = ctx
    · simp [h, he]
    · simp [h]

theorem user2ChannelCtx_dispatch (u : User) :
    (dispatch db e r).registries.user2ChannelCtx.get u
      = (contextWrite db r u e).getD (r.user2ChannelCtx.get u) := by
  have hstep := dispatchStep_dispatch db e r
  generalize (dispatch db e r).registries = r' at hstep ⊢
  unfold contextWrite
  cases hstep with
  | active c => simp [not_willLogOut_channelActive, linkedBy]
  | read c f hf hthrows => simp [willLogOut_channelRead0, hthrows, linkedBy, hf]
  | link c f v hf hthrows =>
    simp only [Registries.user2ChannelCtx_link, ConcurrentHashMap.get_put,
      willLogOut_channelRead0, hthrows, linkedBy, hf, Event.ctx, Option.some_inj]
    by_cases h : v = u
    · simp [h]
    · simp [h, Ne.symm h]
  | linkFailed c f v hf hthrows =>
    simp only [Registries.user2ChannelCtx_logout, Registries.user2ChannelCtx_link,
      ConcurrentHashMap.get_remove, ConcurrentHashMap.get_put,
      willLogOut_channelRead0, hthrows, loggedOut, hf, Option.some_or, Option.some_inj]
    by_cases h : v = u
    · simp [h]
    · simp [h, Ne.symm h]
  | stay e he hf hu =>
    rw [if_pos he, loggedOut_of_linkedBy_none he hf, hu, if_neg (by simp)]
    rfl
  | logout e he hf v hu =>
    rw [if_pos he, loggedOut_of_linkedBy_none he hf, hu, Registries.user2ChannelCtx_logout,
      ConcurrentHashMap.get_remove]
    by_cases h : u = v
    · rw [if_pos h, if_pos (congrArg some h.symm)]
      rfl
    · rw [if_neg h, if_neg (fun heq => h (Option.some.inj heq).symm)]
      rfl

end Writes

/-! ## The last link -/

/-- **The last link of a channel was as the user**: it went through, and no call of the
channel since then was a logout, failed, or was another link. -/
def LinkedLast (db : UserTable) (es : List Event) (ctx : ChannelHandlerContext) (u : User) :
    Prop :=
  ∃ pre f, pre ++ [.channelRead0 ctx f] <+: es ∧ linkSender db f = some u
    ∧ ¬ frameThrows db (afterDispatch db pre) f
    ∧ ∀ pre' e, pre ++ [.channelRead0 ctx f] <+: pre' → pre' ++ [e] <+: es → e.ctx = ctx →
      ¬ WillLogOut db (afterDispatch db pre') e ∧ linkedBy db e = none

/-- **The last link as the user was on the channel**: it went through, and no call of
any channel since then linked the user again or logged the user out. -/
def ReachedLast (db : UserTable) (es : List Event) (u : User) (ctx : ChannelHandlerContext) :
    Prop :=
  ∃ pre f, pre ++ [.channelRead0 ctx f] <+: es ∧ linkSender db f = some u
    ∧ ¬ frameThrows db (afterDispatch db pre) f
    ∧ ∀ pre' e, pre ++ [.channelRead0 ctx f] <+: pre' → pre' ++ [e] <+: es →
      linkedBy db e ≠ some u
        ∧ (WillLogOut db (afterDispatch db pre') e →
          loggedOut db (afterDispatch db pre') e ≠ some u)

section LastLink

variable {db : UserTable} {r : Registries} {e : Event} {u : User} {ctx : ChannelHandlerContext}

theorem channelWrite_eq_none_iff :
    channelWrite db r ctx e = none
      ↔ (e.ctx = ctx → ¬ WillLogOut db r e ∧ linkedBy db e = none) := by
  unfold channelWrite
  by_cases hctx : e.ctx = ctx
  · rw [if_neg (not_not_intro hctx)]
    by_cases hout : WillLogOut db r e
    · simp [hctx, hout]
    · simp [hctx, hout]
  · rw [if_pos hctx]
    exact iff_of_true rfl (fun h => absurd h hctx)

theorem channelWrite_eq_some_iff :
    channelWrite db r ctx e = some (some u)
      ↔ ∃ f, e = .channelRead0 ctx f ∧ linkSender db f = some u ∧ ¬ frameThrows db r f := by
  unfold channelWrite
  constructor
  · intro h
    by_cases hctx : e.ctx = ctx
    · rw [if_neg (not_not_intro hctx)] at h
      by_cases hout : WillLogOut db r e
      · exact absurd h (by simp [hout])
      · have hlinked : linkedBy db e = some u := by simpa [hout] using h
        obtain ⟨f, he, hf⟩ := exists_of_linkedBy hlinked
        refine ⟨f, hctx ▸ he, hf, fun hthrows => hout ?_⟩
        rw [he]
        exact willLogOut_channelRead0.mpr hthrows
    · exact absurd h (by simp [hctx])
  · rintro ⟨f, rfl, hf, hthrows⟩
    simp [Event.ctx, willLogOut_channelRead0, hthrows, linkedBy, hf]

theorem contextWrite_eq_none_iff :
    contextWrite db r u e = none
      ↔ linkedBy db e ≠ some u ∧ (WillLogOut db r e → loggedOut db r e ≠ some u) := by
  unfold contextWrite
  by_cases hout : WillLogOut db r e
  · rw [if_pos hout]
    constructor
    · intro h
      have hne : loggedOut db r e ≠ some u := fun heq => by simp [heq] at h
      refine ⟨fun hlinked => hne ?_, fun _ => hne⟩
      -- a link that fails logs out the user it has linked
      obtain ⟨f, he, hf⟩ := exists_of_linkedBy hlinked
      rw [he, loggedOut, hf, Option.some_or]
    · exact fun h => if_neg (h.2 hout)
  · simp [hout]

theorem contextWrite_eq_some_iff :
    contextWrite db r u e = some (some ctx)
      ↔ ∃ f, e = .channelRead0 ctx f ∧ linkSender db f = some u ∧ ¬ frameThrows db r f := by
  unfold contextWrite
  constructor
  · intro h
    by_cases hout : WillLogOut db r e
    · rw [if_pos hout] at h
      split at h
      · exact absurd h (by simp)
      · exact absurd h (by simp)
    · rw [if_neg hout] at h
      by_cases hlinked : linkedBy db e = some u
      · obtain ⟨f, he, hf⟩ := exists_of_linkedBy hlinked
        have hctx : e.ctx = ctx := by simpa [hlinked] using h
        refine ⟨f, hctx ▸ he, hf, fun hthrows => hout ?_⟩
        rw [he]
        exact willLogOut_channelRead0.mpr hthrows
      · exact absurd h (by simp [hlinked])
  · rintro ⟨f, rfl, hf, hthrows⟩
    simp [Event.ctx, willLogOut_channelRead0, hthrows, linkedBy, hf]

end LastLink

/-- **A channel is linked as what it was linked as last**, whatever the calls of the
other channels were. It is the last write to the entry of the channel that counts, and
only calls of the channel write there. -/
theorem linkedAs_iff (db : UserTable) (es : List Event) (ctx : ChannelHandlerContext)
    (u : User) :
    (afterDispatch db es).channelId2User.get ctx.channelId = some u
      ↔ LinkedLast db es ctx u := by
  have hlast : (afterDispatch db es).channelId2User.get ctx.channelId = some u
      ↔ LastWrite (fun pre e => channelWrite db (afterDispatch db pre) ctx e) es u :=
    eq_some_iff_lastWrite (c := fun es => (afterDispatch db es).channelId2User.get ctx.channelId)
      rfl (fun pre e => by rw [afterDispatch_snoc, channelId2User_dispatch])
  rw [hlast]
  unfold LastWrite LinkedLast
  constructor
  · rintro ⟨pre, e, hpre, hwrite, hlater⟩
    obtain ⟨f, rfl, hf, hthrows⟩ := channelWrite_eq_some_iff.mp hwrite
    exact ⟨pre, f, hpre, hf, hthrows,
      fun pre' e' hle hstep => channelWrite_eq_none_iff.mp (hlater pre' e' hle hstep)⟩
  · rintro ⟨pre, f, hpre, hf, hthrows, hlater⟩
    exact ⟨pre, _, hpre, channelWrite_eq_some_iff.mpr ⟨f, rfl, hf, hthrows⟩,
      fun pre' e' hle hstep => channelWrite_eq_none_iff.mpr (hlater pre' e' hle hstep)⟩

/-- **A user is reached where it was linked last**, as long as no channel logs it out.
Here the writes are those of all channels: one that was linked as the user before, and
is logged out after, takes the entry of the other away. -/
theorem reachedOn_iff (db : UserTable) (es : List Event) (u : User)
    (ctx : ChannelHandlerContext) :
    (afterDispatch db es).user2ChannelCtx.get u = some ctx ↔ ReachedLast db es u ctx := by
  have hlast : (afterDispatch db es).user2ChannelCtx.get u = some ctx
      ↔ LastWrite (fun pre e => contextWrite db (afterDispatch db pre) u e) es ctx :=
    eq_some_iff_lastWrite (c := fun es => (afterDispatch db es).user2ChannelCtx.get u)
      rfl (fun pre e => by rw [afterDispatch_snoc, user2ChannelCtx_dispatch])
  rw [hlast]
  unfold LastWrite ReachedLast
  constructor
  · rintro ⟨pre, e, hpre, hwrite, hlater⟩
    obtain ⟨f, rfl, hf, hthrows⟩ := contextWrite_eq_some_iff.mp hwrite
    exact ⟨pre, f, hpre, hf, hthrows,
      fun pre' e' hle hstep => contextWrite_eq_none_iff.mp (hlater pre' e' hle hstep)⟩
  · rintro ⟨pre, f, hpre, hf, hthrows, hlater⟩
    exact ⟨pre, _, hpre, contextWrite_eq_some_iff.mpr ⟨f, rfl, hf, hthrows⟩,
      fun pre' e' hle hstep => contextWrite_eq_none_iff.mpr (hlater pre' e' hle hstep)⟩

/-- **The channel maps are the last links.** A channel is linked as the user of its own
last link, and a user is reached on the channel of the last link as the user. -/
theorem maps_hold_last_links (db : UserTable) (es : List Event) (ctx : ChannelHandlerContext)
    (u : User) :
    ((afterDispatch db es).channelId2User.get ctx.channelId = some u ↔ LinkedLast db es ctx u)
      ∧ ((afterDispatch db es).user2ChannelCtx.get u = some ctx ↔ ReachedLast db es u ctx) :=
  ⟨linkedAs_iff db es ctx u, reachedOn_iff db es u ctx⟩

/-! ## Who is in a room -/

/-- **How often a call takes the user into the room**, be it that it fails later. -/
def entries (db : UserTable) (room : Long) (u : User) (_ : List Event) : Event → ℕ
  | .channelRead0 _ f => if linkSender db f = some u ∧ f.roomId = some room then 1 else 0
  | _ => 0

/-- **How often a call takes the user out of a room.** It does so in every room, whichever
the user was taken into by the channel that is logged out. -/
def exits (db : UserTable) (u : User) (pre : List Event) (e : Event) : ℕ :=
  if WillLogOut db (afterDispatch db pre) e
      ∧ loggedOut db (afterDispatch db pre) e = some u then 1
  else 0

section Rooms

variable {db : UserTable} {room : Long} {u : User}

theorem count_logout (r : Registries) (ctx : ChannelHandlerContext) (v : User) :
    ((r.logout ctx v).roomStubMap.users room).count u
      = (r.roomStubMap.users room).count u - if v = u then 1 else 0 := by
  rw [Registries.users_logout, List.count_erase]
  by_cases h : v = u
  · rw [if_pos h, if_pos (beq_iff_eq.mpr h)]
  · rw [if_neg h, if_neg (by simpa using h)]

theorem count_link (r : Registries) (ctx : ChannelHandlerContext) (v : User)
    (roomId : Option Long) :
    ((r.link ctx v roomId).roomStubMap.users room).count u
      = (r.roomStubMap.users room).count u + if v = u ∧ roomId = some room then 1 else 0 := by
  rw [Registries.users_link]
  by_cases hroom : roomId = some room
  · rw [if_pos hroom, List.count_append, List.count_singleton]
    simp [hroom]
  · simp [hroom]

/-- A call that links nobody takes nobody into a room. A message to a room is no way
in, and nobody is taken out by one. -/
theorem entries_of_linkedBy_none {pre : List Event} {e : Event} (h : linkedBy db e = none) :
    entries db room u pre e = 0 := by
  cases e with
  | channelRead0 ctx f =>
    have hf : linkSender db f = none := h
    simp [entries, hf]
  | channelActive ctx => rfl
  | channelInactive ctx => rfl
  | exceptionCaught ctx => rfl

/-- **A call brings the entries of a user up and takes them down, in this order**, and
leaves them where there is none to take. A link that fails does both, since its user is
entered before anything throws and is logged out after. -/
theorem count_dispatch (pre : List Event) (e : Event) :
    ((afterDispatch db (pre ++ [e])).roomStubMap.users room).count u
      = ((afterDispatch db pre).roomStubMap.users room).count u + entries db room u pre e
        - exits db u pre e := by
  have hstep := dispatchStep_dispatch db e (afterDispatch db pre)
  rw [afterDispatch_snoc]
  unfold exits
  generalize (dispatch db e (afterDispatch db pre)).registries = r' at hstep ⊢
  generalize afterDispatch db pre = r at hstep ⊢
  cases hstep with
  | active c => simp [entries, not_willLogOut_channelActive]
  | read c f hf hthrows => simp [entries, hf, willLogOut_channelRead0, hthrows]
  | link c f v hf hthrows =>
    rw [count_link]
    simp [entries, hf, willLogOut_channelRead0, hthrows]
  | linkFailed c f v hf hthrows =>
    rw [count_logout, count_link]
    simp [entries, hf, willLogOut_channelRead0, hthrows, loggedOut]
  | stay e he hf hu =>
    rw [entries_of_linkedBy_none hf, loggedOut_of_linkedBy_none he hf, hu]
    simp
  | logout e he hf v hu =>
    rw [count_logout, entries_of_linkedBy_none hf, loggedOut_of_linkedBy_none he hf, hu]
    simp [he]

/-- **A room holds its links, less the logouts.** How often a user is in a room is the
greatest number by which, from some moment on, the links of the user to the room exceed
the calls that log the user out, on whatever channel. -/
theorem rooms_hold_links (db : UserTable) (es : List Event) (room : Long) (u : User) :
    IsGreatest {k : ℤ | ∃ pre later, es = pre ++ later
        ∧ k = surplus (entries db room u) (exits db u) pre later}
        (((afterDispatch db es).roomStubMap.users room).count u)
      ∧ (u ∈ (afterDispatch db es).roomStubMap.users room ↔ ∃ pre later, es = pre ++ later
        ∧ 0 < surplus (entries db room u) (exits db u) pre later) := by
  have h₀ : ((afterDispatch db []).roomStubMap.users room).count u = 0 := by
    simp [afterDispatch, Registries.empty]
  refine ⟨isGreatest_surplus
    (c := fun es => ((afterDispatch db es).roomStubMap.users room).count u)
    h₀ count_dispatch es, ?_⟩
  rw [← List.count_pos_iff]
  exact pos_iff_exists_surplus
    (c := fun es => ((afterDispatch db es).roomStubMap.users room).count u)
    h₀ count_dispatch es

end Rooms

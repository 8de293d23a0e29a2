import Chatroom.HandlerRun
import Chatroom.PrefixInduction

/-!
# The two channel maps

`USER2CHANNEL_CTX` sends a user to the context it is linked on and
`CHANNEL_ID2USER` sends a channel to the user it is linked as. A link puts one
entry into each, a logout removes one from each, and the two are meant to say
the same thing. They do as long as no link replaces an entry: the two maps have
different keys, so a link that finds the user on another channel, or the
channel under another user, overwrites one half of an old pair and leaves the
other half behind. A logout looks its user up by the channel and never finds
that half again.

`mapsAgree_iff` says that this is the only way in which the maps come apart:
they agree after every prefix of a run exactly if each link of the run is
exclusive (`LinkIsExclusive`).

The second result is about what a logout takes from the *other* channels. It
removes its user, whoever holds the entry of that user by then, so another
channel keeps its session exactly if it is the session of another user
(`noTakedown_iff`).
-/

namespace Registries

/-- **The two channel maps are mutually inverse.** -/
def MapsInverse (r : Registries) : Prop :=
  ∀ u ctx, r.user2ChannelCtx.get u = some ctx
    ↔ r.channelId2User.get ctx.channelId = some u

/-- No entry of either map refers to the channel of a context. -/
def NoReference (r : Registries) (ctx : ChannelHandlerContext) : Prop :=
  (∀ u, r.user2ChannelCtx.get u ≠ some ctx)
    ∧ r.channelId2User.get ctx.channelId = none

/-- Where the maps are inverse, a channel that is linked as nobody is nobody's
channel. -/
theorem MapsInverse.noReference {r : Registries} (h : r.MapsInverse)
    {ctx : ChannelHandlerContext} (hctx : r.channelId2User.get ctx.channelId = none) :
    r.NoReference ctx := by
  refine ⟨fun u hu => ?_, hctx⟩
  rw [h u ctx, hctx] at hu
  exact absurd hu (by simp)

end Registries

/-- **A link replaces no entry of another pair**: the user is on no other
channel, and the channel is under no other user. A call that is no link of a
stored user is exclusive. -/
def LinkIsExclusive (db : UserTable) (r : Registries) (e : Event) : Prop :=
  ∀ ctx f u, e = .channelRead0 ctx f → linkSender db f = some u →
    (∀ ctx', r.user2ChannelCtx.get u = some ctx' → ctx' = ctx)
      ∧ ∀ u', r.channelId2User.get ctx.channelId = some u' → u' = u

/-- **A link keeps the maps inverse exactly if it is exclusive.** -/
theorem mapsInverse_link_iff {r : Registries} (h : r.MapsInverse)
    (ctx : ChannelHandlerContext) (u : User) (roomId : Option Long) :
    (r.link ctx u roomId).MapsInverse
      ↔ (∀ ctx', r.user2ChannelCtx.get u = some ctx' → ctx' = ctx)
        ∧ ∀ u', r.channelId2User.get ctx.channelId = some u' → u' = u := by
  constructor
  · intro hlink
    constructor
    · intro ctx' hu
      by_contra hne
      -- the old half is the entry of the other channel
      have hid : ctx'.channelId ≠ ctx.channelId :=
        fun e => hne (ChannelHandlerContext.ext e)
      have hback := (hlink u ctx').mpr (by simpa [hid] using (h u ctx').mp hu)
      simp only [Registries.user2ChannelCtx_link, ConcurrentHashMap.get_put,
        if_pos] at hback
      exact hne (Option.some.inj hback).symm
    · intro u' hctx
      by_contra hne
      -- the old half is the entry of the other user
      have hback := (hlink u' ctx).mp (by simpa [hne] using (h u' ctx).mpr hctx)
      simp only [Registries.channelId2User_link, ConcurrentHashMap.get_put,
        if_pos] at hback
      exact hne (Option.some.inj hback).symm
  · rintro ⟨hu, hctx⟩ v ctx'
    simp only [Registries.user2ChannelCtx_link, Registries.channelId2User_link,
      ConcurrentHashMap.get_put]
    by_cases hv : v = u
    · subst hv
      rw [if_pos rfl]
      by_cases hid : ctx'.channelId = ctx.channelId
      · rw [if_pos hid, ChannelHandlerContext.ext hid]
        simp
      · rw [if_neg hid]
        refine iff_of_false (fun e => hid (by rw [Option.some.inj e])) (fun e => hid ?_)
        rw [hu ctx' ((h v ctx').mpr e)]
    · rw [if_neg hv]
      by_cases hid : ctx'.channelId = ctx.channelId
      · rw [if_pos hid, ChannelHandlerContext.ext hid]
        refine iff_of_false (fun e => hv ?_) (fun e => hv (Option.some.inj e).symm)
        exact hctx v ((h v ctx).mp e)
      · rw [if_neg hid]
        exact h v ctx'

/-- A link of a user and a channel without entries keeps the maps inverse. -/
theorem mapsInverse_link_of_none {r : Registries} (h : r.MapsInverse)
    {ctx : ChannelHandlerContext} {u : User} (roomId : Option Long)
    (hu : r.user2ChannelCtx.get u = none) (hctx : r.channelId2User.get ctx.channelId = none) :
    (r.link ctx u roomId).MapsInverse :=
  (mapsInverse_link_iff h ctx u roomId).mpr ⟨by simp [hu], by simp [hctx]⟩

/-- A logout takes both halves of one pair. -/
theorem mapsInverse_logout {r : Registries} (h : r.MapsInverse)
    {ctx : ChannelHandlerContext} {u : User}
    (hu : r.channelId2User.get ctx.channelId = some u) :
    (r.logout ctx u).MapsInverse := by
  intro v ctx'
  simp only [Registries.user2ChannelCtx_logout, Registries.channelId2User_logout,
    ConcurrentHashMap.get_remove]
  have hctx := (h u ctx).mpr hu
  by_cases hv : v = u
  · subst hv
    by_cases hid : ctx'.channelId = ctx.channelId
    · simp [hid]
    · rw [if_pos rfl, if_neg hid]
      refine iff_of_false (by simp) (fun e => hid ?_)
      rw [Option.some.inj (((h v ctx').mpr e).symm.trans hctx)]
  · rw [if_neg hv]
    by_cases hid : ctx'.channelId = ctx.channelId
    · rw [if_pos hid]
      refine iff_of_false (fun e => hv ?_) (by simp)
      have hv' := (h v ctx').mp e
      rw [hid, hu] at hv'
      exact (Option.some.inj hv').symm
    · rw [if_neg hid]
      exact h v ctx'

/-- **A call keeps the maps inverse exactly if it is exclusive.** -/
theorem mapsInverse_invoke_iff {db : UserTable} {r : Registries}
    (h : r.MapsInverse) (e : Event) :
    (invoke db e r).registries.MapsInverse ↔ LinkIsExclusive db r e := by
  have hexcl : (∀ ctx f, e = .channelRead0 ctx f → linkSender db f = none) →
      LinkIsExclusive db r e := by
    intro hnone ctx f u he hu
    rw [hnone ctx f he] at hu
    exact absurd hu (by simp)
  have hstep := registryStep_invoke db e r
  generalize (invoke db e r).registries = r' at hstep ⊢
  cases hstep with
  | active ctx => exact iff_of_true h (hexcl (fun _ _ he => by simp at he))
  | stay e he hctx =>
    refine iff_of_true h (hexcl (fun ctx f he' => ?_))
    subst he'
    exact absurd he id
  | logout e he u hu =>
    refine iff_of_true (mapsInverse_logout h hu) (hexcl (fun ctx f he' => ?_))
    subst he'
    exact absurd he id
  | read ctx f hf =>
    refine iff_of_true h (hexcl (fun ctx' f' he => ?_))
    cases he
    exact hf
  | link ctx f u hf =>
    rw [mapsInverse_link_iff h]
    constructor
    · intro hex ctx' f' u' he hu'
      cases he
      cases hf.symm.trans hu'
      exact hex
    · exact fun hex => hex ctx f u rfl hf

/-- **What the two maps are meant to satisfy after a run**: they are inverse,
and if the last call was a logout, nothing refers to its channel any more. -/
def MapsAgree (db : UserTable) (es : List Event) : Prop :=
  (after db es).MapsInverse
    ∧ ∀ pre e, es = pre ++ [e] → e.IsLogout → (after db es).NoReference e.ctx

/-- After a logout, the channel is linked as nobody, whether the logout went
through or threw. -/
theorem channelId2User_of_isLogout {db : UserTable} {e : Event} (he : e.IsLogout)
    (r : Registries) :
    (invoke db e r).registries.channelId2User.get e.ctx.channelId = none := by
  cases h : r.channelId2User.get e.ctx.channelId with
  | none =>
    rw [invoke_logout_none db r he h]
    exact h
  | some u =>
    rw [invoke_logout_some db r he h]
    simp

/-- **The two channel maps agree after every prefix of a run exactly if every
link of the run is exclusive.** -/
theorem mapsAgree_iff (db : UserTable) (es : List Event) :
    (∀ pre, pre <+: es → MapsAgree db pre)
      ↔ ∀ pre e, pre ++ [e] <+: es → LinkIsExclusive db (after db pre) e := by
  refine forall_prefix_iff_step ?_ (fun pre e _ hpre => ?_)
  · refine ⟨fun u ctx => ?_, fun pre e he => absurd he (by simp)⟩
    simp [Registries.empty]
  · rw [← mapsInverse_invoke_iff hpre.1]
    constructor
    · intro h
      have hinv := h.1
      rw [after_snoc] at hinv
      exact hinv
    · intro hinv
      refine ⟨by rw [after_snoc]; exact hinv, fun pre' e' he hlog => ?_⟩
      obtain ⟨-, he⟩ := List.append_inj' he rfl
      obtain rfl : e = e' := by simpa using he
      rw [after_snoc]
      exact hinv.noReference (channelId2User_of_isLogout hlog _)

/-- One channel links as two users: the entry of the first is left behind, and
stays when the channel has gone. -/
theorem not_mapsAgree :
    ¬ ∀ (db : UserTable) (es pre : List Event), pre <+: es → MapsAgree db pre := by
  intro h
  have hend := (h sampleTable
    [.channelActive ⟨1⟩, .channelRead0 ⟨1⟩ (.message (.link 1 7)),
      .channelRead0 ⟨1⟩ (.message (.link 2 7)), .channelInactive ⟨1⟩] _ (List.prefix_refl _)).2
    [.channelActive ⟨1⟩, .channelRead0 ⟨1⟩ (.message (.link 1 7)),
      .channelRead0 ⟨1⟩ (.message (.link 2 7))]
    (.channelInactive ⟨1⟩) rfl trivial
  exact hend.1 aaa (by decide)

/-! ## What a logout takes from the other channels -/

/-- The session of a channel is still there: its user is still linked on it,
and in every room it was in. -/
def SessionKept (r r' : Registries) (u : User) (ctx : ChannelHandlerContext) : Prop :=
  r'.user2ChannelCtx.get u = some ctx
    ∧ ∀ room, u ∈ r.roomStubMap.users room → u ∈ r'.roomStubMap.users room

/-- **The user a call logs out**, when it logs one out: the user its channel is
linked as, or was just linked as by the very frame that threw. -/
def loggedOut (db : UserTable) (r : Registries) : Event → Option User
  | .channelActive _ => none
  | .channelInactive ctx | .exceptionCaught ctx =>
      r.channelId2User.get ctx.channelId
  | .channelRead0 ctx f =>
      (linkSender db f).or (r.channelId2User.get ctx.channelId)

/-- The calls that end in a logout: the two logout callbacks, and a frame whose
handling throws. -/
def EndsInLogout (db : UserTable) (r : Registries) (e : Event) : Prop :=
  e.IsLogout ∨ ∃ f, e = .channelRead0 e.ctx f ∧ (invoke db e r).thrown ≠ none

/-- Another open channel than that of a call, and the user of its session. -/
def OtherSession (db : UserTable) (es : List Event) (e : Event) (u : User)
    (ctx : ChannelHandlerContext) : Prop :=
  e.ctx ≠ ctx ∧ ChannelOpen es e.ctx ∧ ChannelOpen es ctx
    ∧ (after db es).channelId2User.get ctx.channelId = some u
    ∧ (after db es).user2ChannelCtx.get u = some ctx

/-- **A call takes down no session of another open channel**, when it comes
after the given run. -/
def NoTakedown (db : UserTable) (es : List Event) (e : Event) : Prop :=
  ∀ u ctx, OtherSession db es e u ctx → EndsInLogout db (after db es) e →
    SessionKept (after db es) (dispatch db e (after db es)).registries u ctx

/-- The calls that are going to end in a logout, told before they are made. -/
def WillLogOut (db : UserTable) (r : Registries) (e : Event) : Prop :=
  e.IsLogout ∨ ∃ f, e = .channelRead0 e.ctx f ∧ frameThrows db r f

/-- **A call logs out nobody who has a session on another open channel.** -/
def SparesOthers (db : UserTable) (es : List Event) (e : Event) : Prop :=
  ∀ u ctx, OtherSession db es e u ctx → WillLogOut db (after db es) e →
    loggedOut db (after db es) e ≠ some u

theorem endsInLogout_iff {db : UserTable} {r : Registries} {e : Event} :
    EndsInLogout db r e ↔ WillLogOut db r e := by
  refine or_congr_right (exists_congr (fun f => and_congr_right (fun he => ?_)))
  rw [he]
  exact thrown_channelRead0_iff r _

/-- A logout keeps the sessions of all users but one. -/
theorem sessionKept_logout_iff {r r' : Registries} {u v : User}
    {ctx ctx' : ChannelHandlerContext}
    (hr' : v ≠ u → r'.user2ChannelCtx.get v = some ctx')
    (hrooms : ∀ room, v ∈ r.roomStubMap.users room → v ∈ r'.roomStubMap.users room) :
    SessionKept r (r'.logout ctx u) v ctx' ↔ u ≠ v := by
  constructor
  · rintro ⟨hget, -⟩ rfl
    rw [Registries.user2ChannelCtx_logout, ConcurrentHashMap.get_remove,
      if_pos rfl] at hget
    exact absurd hget (by simp)
  · intro hne
    refine ⟨?_, fun room hv => ?_⟩
    · rw [Registries.user2ChannelCtx_logout, ConcurrentHashMap.get_remove,
        if_neg hne.symm]
      exact hr' hne.symm
    · rw [Registries.users_logout]
      exact (List.mem_erase_of_ne hne.symm).mpr (hrooms room hv)

/-- **A logout callback keeps a session exactly if its channel is not linked as
the user.** -/
theorem sessionKept_invoke_logout_iff {db : UserTable} {r r' : Registries} {e : Event}
    (he : e.IsLogout) {u : User} {ctx : ChannelHandlerContext}
    (hu : r'.channelId2User.get e.ctx.channelId ≠ some u → r'.user2ChannelCtx.get u = some ctx)
    (hrooms : ∀ room, u ∈ r.roomStubMap.users room → u ∈ r'.roomStubMap.users room) :
    SessionKept r (invoke db e r').registries u ctx
      ↔ r'.channelId2User.get e.ctx.channelId ≠ some u := by
  cases hctx : r'.channelId2User.get e.ctx.channelId with
  | none =>
    rw [hctx] at hu
    rw [invoke_logout_none db r' he hctx]
    exact iff_of_true ⟨hu (by simp), hrooms⟩ (by simp)
  | some v =>
    rw [hctx, Ne, Option.some_inj] at hu
    rw [invoke_logout_some db r' he hctx, Ne, Option.some_inj]
    exact sessionKept_logout_iff (fun hne => hu hne.symm) hrooms

/-- **A call that ends in a logout keeps a session exactly if it logs out
another user.** -/
theorem sessionKept_dispatch_iff {db : UserTable} {r : Registries} {e : Event}
    (hend : EndsInLogout db r e) {u : User} {ctx : ChannelHandlerContext}
    (hu : r.user2ChannelCtx.get u = some ctx) :
    SessionKept r (dispatch db e r).registries u ctx ↔ loggedOut db r e ≠ some u := by
  obtain he | ⟨f, he, hthrown⟩ := hend
  · -- a logout callback
    have hlog : loggedOut db r e = r.channelId2User.get e.ctx.channelId := by
      obtain ⟨ctx, rfl | rfl⟩ := he.eq_or_eq
      · rfl
      · rfl
    rw [hlog, (dispatch_of_isLogout db r he).1]
    exact sessionKept_invoke_logout_iff he (fun _ => hu) (fun _ h => h)
  · -- a frame that threw, and the logout that follows
    generalize e.ctx = c at he
    subst he
    have hlast : (invoke db (.exceptionCaught c)
          (invoke db (.channelRead0 c f) r).registries).registries
        = (dispatch db (.channelRead0 c f) r).registries := by
      rw [dispatch_of_thrown db r (by simp) hthrown]
      rfl
    rw [← hlast]
    cases hf : linkSender db f with
    | none =>
      have hlog : loggedOut db r (.channelRead0 c f)
          = r.channelId2User.get (Event.exceptionCaught c).ctx.channelId := by
        simp only [loggedOut, hf, Option.none_or, Event.ctx]
      rw [hlog, registries_of_linkSender_none r c hf]
      exact sessionKept_invoke_logout_iff (e := .exceptionCaught c) trivial (fun _ => hu)
        (fun _ h => h)
    | some v =>
      have hlinked : (r.link c v f.roomId).channelId2User.get
          (Event.exceptionCaught c).ctx.channelId = some v := by
        simp [Event.ctx]
      have hlog : loggedOut db r (.channelRead0 c f)
          = (r.link c v f.roomId).channelId2User.get
            (Event.exceptionCaught c).ctx.channelId := by
        simp only [hlinked, loggedOut, hf, Option.some_or]
      rw [hlog, registries_of_linkSender r c hf]
      refine sessionKept_invoke_logout_iff (e := .exceptionCaught c) trivial (fun hne => ?_)
        (fun room h => ?_)
      · have huv : u ≠ v := fun heq => hne (hlinked.trans (congrArg some heq.symm))
        simpa [huv] using hu
      · rw [Registries.users_link]
        split
        · exact List.mem_append_left _ h
        · exact h

/-- **No call of a run takes down a session of another open channel exactly if
every call that ends in a logout logs out nobody who has such a session.** -/
theorem noTakedown_iff (db : UserTable) (es : List Event) :
    (∀ pre e, pre ++ [e] <+: es → NoTakedown db pre e)
      ↔ ∀ pre e, pre ++ [e] <+: es → SparesOthers db pre e := by
  refine forall₃_congr (fun pre e _ => forall₃_congr (fun u ctx hother => ?_))
  rw [← endsInLogout_iff]
  exact forall_congr' (fun hend => sessionKept_dispatch_iff hend hother.2.2.2.2)

/-- A user links on a second channel, and the first one closes: the second is
still open and still linked, and its user is linked nowhere. -/
theorem not_noTakedown :
    ¬ ∀ (db : UserTable) (es : List Event) (e : Event), NoTakedown db es e := by
  intro h
  have hkept := h sampleTable
    [.channelActive ⟨1⟩, .channelActive ⟨2⟩, .channelRead0 ⟨1⟩ (.message (.link 1 7)),
      .channelRead0 ⟨2⟩ (.message (.link 1 7))]
    (.channelInactive ⟨1⟩) aaa ⟨2⟩
    ⟨by decide, by decide, by decide, by decide, by decide⟩ (Or.inl trivial)
  exact absurd hkept.1 (by decide)

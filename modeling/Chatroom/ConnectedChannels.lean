import Chatroom.HandlerRun
import Chatroom.PrefixInduction

/-!
# The connected channels

`CONNECTED_CHANNEL_CTX` is filled by `channelActive` and emptied inside
`handleLogout`. The removal stands behind the loop that tells the others, and
so behind everything that can throw there; and the same routine is run by
`exceptionCaught`, on a channel that stays open. Hence two ways in which the
list leaves the set of the open channels:

* a channel that closes while it is linked as nobody stays in the list for
  good, since its logout throws before the removal;
* a channel that is linked and raises an exception leaves the list, and is
  still open.

`connectedExactly_iff` says that there is no third way.
-/

/-- **What Netty grants about the life of a channel**: it becomes active once,
and becomes inactive while it is open. -/
def LifeStep (es : List Event) : Event → Prop
  | .channelActive ctx => .channelActive ctx ∉ es
  | .channelInactive ctx => ChannelOpen es ctx
  | _ => True

instance (es : List Event) (e : Event) : Decidable (LifeStep es e) :=
  match e with
  | .channelActive ctx => inferInstanceAs (Decidable (.channelActive ctx ∉ es))
  | .channelInactive ctx => inferInstanceAs (Decidable (ChannelOpen es ctx))
  | .channelRead0 _ _ | .exceptionCaught _ => isTrue trivial

/-- A run in which every channel lives once. -/
def LivesOnce (es : List Event) : Prop :=
  ∀ pre e, pre ++ [e] <+: es → LifeStep pre e

/-- A run in which a call that throws is followed at once by `exceptionCaught`
on its channel, but for `exceptionCaught` itself. -/
def ThrowsAreCaught (db : UserTable) (es : List Event) : Prop :=
  ∀ pre e e', pre ++ [e, e'] <+: es → (∀ ctx, e ≠ .exceptionCaught ctx) →
    (invoke db e (after db pre)).thrown ≠ none → e' = .exceptionCaught e.ctx

/-- **The list of connected channels is the set of the open ones**, each
once. -/
def ConnectedExactly (db : UserTable) (es : List Event) : Prop :=
  ∀ ctx, (after db es).connectedChannelCtx.count ctx = if ChannelOpen es ctx then 1 else 0

/-- **A call leaves the list right**: a closing channel is linked, and an open
channel that raises an exception is not. -/
def TracksConnection (es : List Event) (r : Registries) : Event → Prop
  | .channelInactive ctx => (r.channelId2User.get ctx.channelId).isSome = true
  | .exceptionCaught ctx => ChannelOpen es ctx → r.channelId2User.get ctx.channelId = none
  | _ => True

instance (es : List Event) (r : Registries) (e : Event) :
    Decidable (TracksConnection es r e) :=
  match e with
  | .channelInactive ctx =>
      inferInstanceAs (Decidable ((r.channelId2User.get ctx.channelId).isSome = true))
  | .exceptionCaught ctx =>
      inferInstanceAs
        (Decidable (ChannelOpen es ctx → r.channelId2User.get ctx.channelId = none))
  | .channelActive _ | .channelRead0 _ _ => isTrue trivial

section Lives

variable {es pre : List Event} {ctx : ChannelHandlerContext}

theorem channelOpen_snoc {e : Event} :
    ChannelOpen (es ++ [e]) ctx
      ↔ (.channelActive ctx ∈ es ∨ e = .channelActive ctx)
        ∧ .channelInactive ctx ∉ es ∧ e ≠ .channelInactive ctx := by
  simp [ChannelOpen, eq_comm]

/-- Calls other than the two that open and close a channel leave it as it
is. -/
theorem channelOpen_snoc_of_ne {e : Event} (hactive : e ≠ .channelActive ctx)
    (hinactive : e ≠ .channelInactive ctx) :
    ChannelOpen (es ++ [e]) ctx ↔ ChannelOpen es ctx := by
  rw [channelOpen_snoc, ChannelOpen]
  simp [hactive, hinactive]

/-- A channel that was closed was open before. -/
theorem LivesOnce.channelActive_mem (h : LivesOnce es) (hpre : pre <+: es)
    (hin : .channelInactive ctx ∈ pre) : .channelActive ctx ∈ pre := by
  obtain ⟨s, t, rfl⟩ := List.mem_iff_append.mp hin
  have hs : s ++ [.channelInactive ctx] <+: s ++ .channelInactive ctx :: t :=
    ⟨t, by simp⟩
  have hopen : ChannelOpen s ctx := h s _ (hs.trans hpre)
  exact List.mem_append_left _ hopen.1

/-- A channel that becomes active is open from then on. -/
theorem LivesOnce.channelOpen_channelActive (h : LivesOnce es)
    (hpre : pre ++ [.channelActive ctx] <+: es) :
    ¬ ChannelOpen pre ctx ∧ ChannelOpen (pre ++ [.channelActive ctx]) ctx := by
  have hnew : .channelActive ctx ∉ pre := h pre _ hpre
  refine ⟨fun hopen => hnew hopen.1, channelOpen_snoc.mpr ⟨Or.inr rfl, fun hin => ?_, by simp⟩⟩
  exact hnew (h.channelActive_mem (before_of_step hpre) hin)

end Lives

/-- The count of a context in a list it may have been erased from. -/
theorem count_erase_ite (cs : List ChannelHandlerContext)
    (ctx ctx' : ChannelHandlerContext) :
    (cs.erase ctx).count ctx' = cs.count ctx' - if ctx' = ctx then 1 else 0 := by
  rw [List.count_erase]
  by_cases h : ctx' = ctx
  · simp [h]
  · simp [h, Ne.symm h]

section Steps

variable {db : UserTable} {pre : List Event}

/-- **A closing channel** leaves the list right exactly if it is linked. -/
theorem connectedExactly_channelInactive (h : ConnectedExactly db pre)
    {ctx : ChannelHandlerContext} (hopen : ChannelOpen pre ctx) :
    ConnectedExactly db (pre ++ [.channelInactive ctx])
      ↔ ((after db pre).channelId2User.get ctx.channelId).isSome = true := by
  have hcount := h ctx
  rw [if_pos hopen] at hcount
  have hclosed : ¬ ChannelOpen (pre ++ [.channelInactive ctx]) ctx := by
    rw [channelOpen_snoc]
    exact fun hc => hc.2.2 rfl
  unfold ConnectedExactly
  rw [after_snoc]
  cases hu : (after db pre).channelId2User.get ctx.channelId with
  | none =>
    -- the logout throws, and the channel is still in the list
    rw [invoke_logout_none db _ (e := .channelInactive ctx) trivial hu]
    refine iff_of_false (fun hall => ?_) (by simp)
    have hleft := hall ctx
    rw [if_neg hclosed] at hleft
    exact absurd (hcount.symm.trans hleft) (by decide)
  | some u =>
    rw [invoke_logout_some db _ (e := .channelInactive ctx) trivial hu]
    refine iff_of_true (fun ctx' => ?_) rfl
    rw [Registries.connectedChannelCtx_logout, count_erase_ite,
      show (Event.channelInactive ctx).ctx = ctx from rfl]
    by_cases hctx : ctx' = ctx
    · rw [hctx, if_pos rfl, if_neg hclosed, hcount]
    · have hsame : ChannelOpen (pre ++ [.channelInactive ctx]) ctx' ↔ ChannelOpen pre ctx' :=
        channelOpen_snoc_of_ne (by simp) (by simpa using Ne.symm hctx)
      rw [if_neg hctx, h ctx', if_congr hsame rfl rfl]
      rfl

/-- **A channel that raises an exception** leaves the list right exactly if it
is not open, or not linked. -/
theorem connectedExactly_exceptionCaught (h : ConnectedExactly db pre)
    (ctx : ChannelHandlerContext) :
    ConnectedExactly db (pre ++ [.exceptionCaught ctx])
      ↔ (ChannelOpen pre ctx → (after db pre).channelId2User.get ctx.channelId = none) := by
  have hsame : ∀ ctx', ChannelOpen (pre ++ [.exceptionCaught ctx]) ctx' ↔ ChannelOpen pre ctx' :=
    fun ctx' => channelOpen_snoc_of_ne (by simp) (by simp)
  unfold ConnectedExactly
  rw [after_snoc]
  cases hu : (after db pre).channelId2User.get ctx.channelId with
  | none =>
    rw [invoke_logout_none db _ (e := .exceptionCaught ctx) trivial hu]
    refine iff_of_true (fun ctx' => ?_) (fun _ => rfl)
    rw [h ctx', if_congr (hsame ctx') rfl rfl]
  | some u =>
    rw [invoke_logout_some db _ (e := .exceptionCaught ctx) trivial hu]
    simp only [Registries.connectedChannelCtx_logout, count_erase_ite, hsame, h _]
    by_cases hopen : ChannelOpen pre ctx
    · -- the channel is taken from the list, and is still open
      refine iff_of_false (fun hall => ?_) (fun himp => absurd (himp hopen) (by simp))
      have hgone := hall ctx
      simp [hopen, Event.ctx] at hgone
    · refine iff_of_true (fun ctx' => ?_) (fun hc => absurd hc hopen)
      by_cases hctx : ctx' = ctx
      · rw [hctx, if_neg hopen, Nat.zero_sub]
      · rw [show (Event.exceptionCaught ctx).ctx = ctx from rfl, if_neg hctx, Nat.sub_zero]

/-- A frame changes neither the list nor the open channels. -/
theorem connectedExactly_channelRead0 (h : ConnectedExactly db pre)
    (ctx : ChannelHandlerContext) (f : TextWebSocketFrame) :
    ConnectedExactly db (pre ++ [.channelRead0 ctx f]) := by
  intro ctx'
  have hsame : ChannelOpen (pre ++ [.channelRead0 ctx f]) ctx' ↔ ChannelOpen pre ctx' :=
    channelOpen_snoc_of_ne (by simp) (by simp)
  rw [after_snoc, if_congr hsame rfl rfl, ← h ctx']
  cases hf : linkSender db f with
  | none => rw [registries_of_linkSender_none _ ctx hf]
  | some u => rw [registries_of_linkSender _ ctx hf, Registries.connectedChannelCtx_link]

/-- A channel that becomes active enters the list. -/
theorem connectedExactly_channelActive {es : List Event} (hlives : LivesOnce es)
    {ctx : ChannelHandlerContext} (hpre : pre ++ [.channelActive ctx] <+: es)
    (h : ConnectedExactly db pre) :
    ConnectedExactly db (pre ++ [.channelActive ctx]) := by
  intro ctx'
  obtain ⟨hbefore, hopen⟩ := hlives.channelOpen_channelActive hpre
  rw [after_snoc, invoke_channelActive, List.count_append, h ctx', List.count_singleton]
  by_cases hctx : ctx' = ctx
  · subst hctx
    simp [hbefore, hopen]
  · have hsame : ChannelOpen (pre ++ [.channelActive ctx]) ctx' ↔ ChannelOpen pre ctx' :=
      channelOpen_snoc_of_ne (by simpa using Ne.symm hctx) (by simp)
    rw [if_congr hsame rfl rfl]
    simp [Ne.symm hctx]

end Steps

/-- **The list of connected channels is the set of the open channels after
every prefix of a run exactly if every channel is linked when it closes, and
none is linked when it raises an exception while it is open.** -/
theorem connectedExactly_iff (db : UserTable) (es : List Event) (hlives : LivesOnce es) :
    (∀ pre, pre <+: es → ConnectedExactly db pre)
      ↔ ∀ pre e, pre ++ [e] <+: es → TracksConnection pre (after db pre) e := by
  refine forall_prefix_iff_step (fun ctx => ?_) (fun pre e hpre h => ?_)
  · simp [Registries.empty, ChannelOpen]
  · cases e with
    | channelActive ctx =>
      exact iff_of_true (connectedExactly_channelActive hlives hpre h) trivial
    | channelRead0 ctx f => exact iff_of_true (connectedExactly_channelRead0 h ctx f) trivial
    | channelInactive ctx => exact connectedExactly_channelInactive h (hlives pre _ hpre)
    | exceptionCaught ctx => exact connectedExactly_exceptionCaught h ctx

/-- A client that links before it goes. -/
theorem connectedExactly_of_link :
    ConnectedExactly sampleTable [.channelActive ⟨1⟩, .channelRead0 ⟨1⟩ (.message (.link 1 7)),
      .channelInactive ⟨1⟩] := by
  refine (connectedExactly_iff sampleTable _ ?_).mpr ?_ _ (List.prefix_refl _)
  · unfold LivesOnce
    simp only [forall_step_cons, forall_step_nil]
    decide
  · simp only [forall_step_cons, forall_step_nil]
    decide

/-- A client that goes without having linked stays in the list. -/
theorem not_connectedExactly :
    ¬ ∀ (db : UserTable) (es : List Event), LivesOnce es → ThrowsAreCaught db es →
      ∀ pre, pre <+: es → ConnectedExactly db pre := by
  intro h
  have hend := h sampleTable
    [.channelActive ⟨1⟩, .channelInactive ⟨1⟩, .exceptionCaught ⟨1⟩] ?_ ?_ _
    (List.prefix_refl _) ⟨1⟩
  · exact absurd hend (by decide)
  · unfold LivesOnce
    simp only [forall_step_cons, forall_step_nil]
    decide
  · intro pre e e' hpre he hthrown
    rcases pre with _ | ⟨a, _ | ⟨b, pre⟩⟩
    · obtain ⟨rfl, rfl⟩ : e = .channelActive ⟨1⟩ ∧ e' = .channelInactive ⟨1⟩ := by
        simpa using hpre
      exact absurd rfl hthrown
    · obtain ⟨-, rfl, rfl⟩ : a = .channelActive ⟨1⟩ ∧ e = .channelInactive ⟨1⟩
          ∧ e' = .exceptionCaught ⟨1⟩ := by
        simpa using hpre
      rfl
    · exact absurd hpre.length_le (by simp)

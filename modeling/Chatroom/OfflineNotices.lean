import Chatroom.ChannelMaps
import Chatroom.RoomMembers

/-!
# Offline notices

A logout is made by `channelInactive` and by `exceptionCaught`, and one failure
may cause both; an exception of a logout even causes another one. The notices
are still sent once. They are sent by the first half of the routine, which
reads everything it needs before it writes anything, and whose loop cannot
break off, since it asks for the channels of the very users it walks through.
The second half takes the binding of the channel away, and without it the
first half throws at its first step: the next logout does nothing until a link
makes a new binding.

So a logout either goes through or does nothing, and what decides is whether
`CHANNEL_ID2USER` has the channel. `Emits` says that it goes through. It then
sends one notice to each other user who is linked, which may be none at all.
-/

open ChatroomServerHandler

/-- A logout of a channel. -/
def LogsOut (e : Event) (ctx : ChannelHandlerContext) : Prop := e.IsLogout ∧ e.ctx = ctx

/-- A call registers a channel: it is the link of a stored user there, which
puts the channel into `CHANNEL_ID2USER`. -/
def Registers (db : UserTable) (e : Event) (ctx : ChannelHandlerContext) : Prop :=
  ∃ f u, e = .channelRead0 ctx f ∧ linkSender db f = some u

/-- **A logout gets its notices out**: it runs to its end. -/
def Emits (db : UserTable) (r : Registries) (e : Event) : Prop := (invoke db e r).thrown = none

section Logout

variable {db : UserTable} {r : Registries} {e : Event} {ctx : ChannelHandlerContext}

/-- **A logout emits exactly if its channel is linked.** -/
theorem LogsOut.emits_iff (he : LogsOut e ctx) :
    Emits db r e ↔ (r.channelId2User.get ctx.channelId).isSome = true := by
  obtain ⟨he, rfl⟩ := he
  unfold Emits
  cases h : r.channelId2User.get e.ctx.channelId with
  | none => simp [invoke_logout_none db r he h]
  | some u => simp [invoke_logout_some db r he h]

/-- A logout that emits writes one notice for each key with another id. -/
theorem LogsOut.written_of_emits (he : LogsOut e ctx) (hemits : Emits db r e) :
    ∃ u, r.channelId2User.get ctx.channelId = some u
      ∧ (invoke db e r).written.map some
        = (recipients r.user2ChannelCtx.keySet u.id).map
          (fun v => (r.user2ChannelCtx.get v).map (fun c => (c, offlineNotice u))) := by
  obtain ⟨u, hu⟩ := Option.isSome_iff_exists.mp (he.emits_iff.mp hemits)
  obtain ⟨he, rfl⟩ := he
  refine ⟨u, hu, ?_⟩
  rw [invoke_logout_some db r he hu]
  exact map_some_deliveries (r.reachesAll_keySet u.id) _

/-- A logout that does not emit does nothing. -/
theorem LogsOut.of_not_emits (he : LogsOut e ctx) (hemits : ¬ Emits db r e) :
    (invoke db e r).registries = r ∧ (invoke db e r).written = [] := by
  rw [he.emits_iff, Bool.not_eq_true, Option.isSome_eq_false_iff, Option.isNone_iff_eq_none]
    at hemits
  obtain ⟨he, rfl⟩ := he
  rw [invoke_logout_none db r he hemits]
  exact ⟨rfl, rfl⟩

/-- After a logout its channel is not linked, so that another one does
nothing. -/
theorem LogsOut.idempotent (he : LogsOut e ctx) :
    (invoke db e (invoke db e r).registries).registries = (invoke db e r).registries := by
  have hgone : (invoke db e r).registries.channelId2User.get e.ctx.channelId = none :=
    channelId2User_of_isLogout he.1 r
  rw [invoke_logout_none db _ he.1 hgone]

/-- **Only a registration links a channel.** -/
theorem registers_of_channelId2User (hnone : r.channelId2User.get ctx.channelId = none)
    (hsome : ((invoke db e r).registries.channelId2User.get ctx.channelId).isSome = true) :
    Registers db e ctx := by
  have hstep := registryStep_invoke db e r
  generalize (invoke db e r).registries = r' at hstep hsome
  cases hstep with
  | active c => simp [hnone] at hsome
  | stay e he hctx => simp [hnone] at hsome
  | read c f hf => simp [hnone] at hsome
  | logout e he u hu => simp [hnone] at hsome
  | link c f u hf =>
    by_cases hc : ctx.channelId = c.channelId
    · rw [ChannelHandlerContext.ext hc]
      exact ⟨f, u, rfl, hf⟩
    · simp [hnone, hc] at hsome

end Logout

/-- Where a channel was not linked and is linked later, it was registered in
between. -/
theorem exists_registers {db : UserTable} {pre mid : List Event} {ctx : ChannelHandlerContext}
    (hnone : (after db pre).channelId2User.get ctx.channelId = none)
    (hsome : ((after db (pre ++ mid)).channelId2User.get ctx.channelId).isSome = true) :
    ∃ e ∈ mid, Registers db e ctx := by
  induction mid using List.reverseRecOn with
  | nil => simp [hnone] at hsome
  | append_singleton mid e ih =>
    cases hlinked : (after db (pre ++ mid)).channelId2User.get ctx.channelId with
    | some u =>
      obtain ⟨e', he', hreg⟩ := ih (by simp [hlinked])
      exact ⟨e', List.mem_append_left _ he', hreg⟩
    | none =>
      rw [← List.append_assoc, after_snoc] at hsome
      exact ⟨e, by simp, registers_of_channelId2User hlinked hsome⟩

/-- **The notices of a channel are not repeated**, in a run. -/
structure NoticesNotRepeated (db : UserTable) (es : List Event) (ctx : ChannelHandlerContext) :
    Prop where
  /-- No logout emits before the channel is registered. -/
  registered : ∀ pre e, pre ++ [e] <+: es → LogsOut e ctx → Emits db (after db pre) e →
    ∃ e' ∈ pre, Registers db e' ctx
  /-- Between two logouts that emit, the channel is registered again. -/
  again : ∀ pre e mid e', pre ++ e :: mid ++ [e'] <+: es → LogsOut e ctx → LogsOut e' ctx →
    Emits db (after db pre) e → Emits db (after db (pre ++ e :: mid)) e' →
      ∃ e'' ∈ mid, Registers db e'' ctx
  /-- A logout that emits writes one notice for each linked user with another
  id. -/
  written : ∀ pre e, pre ++ [e] <+: es → LogsOut e ctx → Emits db (after db pre) e →
    ∃ u, (after db pre).channelId2User.get ctx.channelId = some u
      ∧ ((invoke db e (after db pre)).written.map some).Perm
        ((recipients (after db pre).user2ChannelCtx.keySet u.id).map
          (fun v => ((after db pre).user2ChannelCtx.get v).map (fun c => (c, offlineNotice u))))
  /-- Any other logout does nothing. -/
  otherwise : ∀ pre e, pre ++ [e] <+: es → LogsOut e ctx → ¬ Emits db (after db pre) e →
    (invoke db e (after db pre)).registries = after db pre
      ∧ (invoke db e (after db pre)).written = []
  /-- A logout made twice in a row leaves what it leaves made once. -/
  idempotent : ∀ pre e, pre <+: es → LogsOut e ctx →
    (invoke db e (invoke db e (after db pre)).registries).registries
      = (invoke db e (after db pre)).registries

/-- **Offline notices are not repeated**, in any run and for any channel. -/
theorem noticesNotRepeated (db : UserTable) (es : List Event) (ctx : ChannelHandlerContext) :
    NoticesNotRepeated db es ctx where
  registered pre e _ he hemits := by
    have hnone : (after db []).channelId2User.get ctx.channelId = none := by
      simp [Registries.empty]
    exact exists_registers hnone (he.emits_iff.mp hemits)
  again pre e mid e' _ he he' _ hemits := by
    have hlinked := he'.emits_iff.mp hemits
    rw [List.append_cons] at hlinked
    refine exists_registers ?_ hlinked
    rw [after_snoc, ← he.2]
    exact channelId2User_of_isLogout he.1 _
  written pre e _ he hemits := by
    obtain ⟨u, hu, hwritten⟩ := he.written_of_emits hemits
    exact ⟨u, hu, .of_eq hwritten⟩
  otherwise pre e _ he hemits := he.of_not_emits hemits
  idempotent pre e _ he := he.idempotent

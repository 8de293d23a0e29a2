import Chatroom.BroadcastDeeds
import Chatroom.RoomIsolation

/-!
# What a call may do to whom

A call works on registries that all channels share, and nothing but its program
keeps it from touching what belongs to others. `CallStep` says what that program
does: which operations a call performs, with which arguments, and what it has been
answered before it performs them. It says only what a call *has* done, so that it
holds however the calls are interleaved, and also of a call that begins twice.

Two things follow, for every interleaving.

* **Nobody is touched by strangers** (`session_changed_by_own_channel`): what a
  channel is linked as is changed by calls for that channel only, and the context of
  a user, or its place in a room, only by a call on a channel that has linked as that
  user – but for a link that puts a list in the place of another.
* **Every frame has an origin** (`origin_of_frame`): it is the relay of a link or a
  group message, to a channel that has linked as a user who joined the room, the
  notice of a user's own logout, or the answer to a message to one user, on the
  sender's own channel. In particular nobody but a logout speaks for the system to
  others (`FrameOrigin.system`).
-/

open AtomicSystem AtomicProgram ChatroomServerHandler RegistryOp

/-! ## The operations of a call

`CallStep` and `Writes` are read off the programs. What a call has done so far stands in
its deeds, each operation with the answer to it, and the conditions ask only that
something is among them. So they hold on once they hold (`CallStep.mono`), and it does
not matter how many of the operations of other calls came in between. -/

/-- **What a call may write**, after what it has done. There is one constructor for each
place of the source that writes: the relay of a link and that of a group message are
one, as both go through `broadcast`. -/
inductive Writes (db : UserTable) (e : Event) (d : CallDeeds) :
    ChannelHandlerContext → Message → Prop
  /-- A link or a group message is relayed to a context found for a user who was found
  in the list of its room. -/
  | relay {ctx c : ChannelHandlerContext} {m message : Message} {u v : User} {room : Long}
      {l : ListRef} {us : List User} (call : e = .channelRead0 ctx (.message m))
      (sender : db.getUserById m.senderId = some u) (roomId : m.roomId = some room)
      (relayed : (m.HasType .link ∧ message = linkMessage m u)
        ∨ (m.HasType .groupSend ∧ m.receiverId = none ∧ message = groupMessage m u))
      (list : ⟨roomStubMapGet room, some l⟩ ∈ d) (found : ⟨usersIterator l, us⟩ ∈ d)
      (member : v ∈ us) (other : v.id ≠ m.senderId)
      (context : ⟨user2ChannelCtxGet v, some c⟩ ∈ d) : Writes db e d c message
  /-- The sender of a message to one user is told that the receiver is offline. -/
  | undelivered {ctx : ChannelHandlerContext} {m : Message} {v : User}
      (call : e = .channelRead0 ctx (.message m)) (type : m.HasType .singleSend)
      (receiver : db.getUserById m.receiverId = some v)
      (offline : ⟨user2ChannelCtxContainsKey v, false⟩ ∈ d) :
      Writes db e d ctx (undeliveredNotice m.senderId)
  /-- A logout tells of the user its channel is linked as. -/
  | offline {c : ChannelHandlerContext} {u v : User} (logout : e.IsLogout)
      (user : ⟨channelId2UserGet e.ctx.channelId, some u⟩ ∈ d) (other : v.id ≠ u.id)
      (context : ⟨user2ChannelCtxGet v, some c⟩ ∈ d) : Writes db e d c (offlineNotice u)

/-- **What a call may do next**, after what it has done. A link registers its own sender
on its own channel and adds it to a list it was answered for its room; a logout removes
the user that it was answered for its own channel, wherever it removes it from. Lookups
and traversals are free. -/
def CallStep (db : UserTable) (e : Event) (d : CallDeeds) : RegistryOp → Prop
  | user2ChannelCtxPut u ctx => ∃ f, e = .channelRead0 ctx f ∧ linkSender db f = some u
  | channelId2UserPut c u =>
      c = e.ctx.channelId ∧ ∃ ctx f, e = .channelRead0 ctx f ∧ linkSender db f = some u
  | roomStubMapPut room us =>
      ∃ ctx f u, e = .channelRead0 ctx f ∧ linkSender db f = some u ∧ f.roomId = some room
        ∧ us = [u]
  | usersAdd l u =>
      ∃ ctx f room, e = .channelRead0 ctx f ∧ linkSender db f = some u ∧ f.roomId = some room
        ∧ ⟨roomStubMapGet room, some l⟩ ∈ d
  | connectedChannelCtxAdd ctx => e = .channelActive ctx
  | connectedChannelCtxRemove ctx => e.IsLogout ∧ ctx = e.ctx
  | user2ChannelCtxRemove u => e.IsLogout ∧ ⟨channelId2UserGet e.ctx.channelId, some u⟩ ∈ d
  | channelId2UserRemove c => e.IsLogout ∧ c = e.ctx.channelId
  | usersRemove _ u => e.IsLogout ∧ ⟨channelId2UserGet e.ctx.channelId, some u⟩ ∈ d
  | writeAndFlush c message => Writes db e d c message
  | _ => True

section Keeps

variable {db : UserTable} {e : Event} {d d' : CallDeeds} {c ctx : ChannelHandlerContext}
  {m message : Message}

/-- A call that may write a frame may still write it after more deeds. -/
theorem Writes.mono (hsub : d ⊆ d') (hw : Writes db e d c message) :
    Writes db e d' c message := by
  cases hw with
  | relay call sender roomId relayed list found member other context =>
    exact .relay call sender roomId relayed (hsub list) (hsub found) member other (hsub context)
  | undelivered call type receiver offline =>
    exact .undelivered call type receiver (hsub offline)
  | offline logout user other context => exact .offline logout (hsub user) other (hsub context)

/-- All that is said of a call is that it has done something before. -/
theorem CallStep.mono {o : RegistryOp} (hsub : d ⊆ d') (h : CallStep db e d o) :
    CallStep db e d' o := by
  cases o with
  | usersAdd l u =>
    obtain ⟨ctx, f, room, he, hf, hroom, hl⟩ := h
    exact ⟨ctx, f, room, he, hf, hroom, hsub hl⟩
  | user2ChannelCtxRemove u => exact ⟨h.1, hsub h.2⟩
  | usersRemove l u => exact ⟨h.1, hsub h.2⟩
  | writeAndFlush c message => exact Writes.mono hsub h
  | _ => exact h

/-- One user of a loop: what is written to the context found for it. Where none is
found the call throws, and then it has written nothing. -/
theorem keeps_write {id : Option Long} {u : User}
    (hwrite : ∀ c d', d ⊆ d' → u.id ≠ id → ⟨user2ChannelCtxGet u, some c⟩ ∈ d' →
      Writes db e d' c message) :
    Keeps (CallStep db e) (fun _ => True) (sendUnless id message u) d (fun _ d' => d ⊆ d') := by
  rw [sendUnless]
  split
  · exact List.Subset.refl d
  · next hid =>
    refine keeps_bind (keeps_perform trivial) ?_
    rintro c d₁ rfl
    cases c with
    | none => trivial
    | some c =>
      refine ⟨hwrite c _ (List.subset_append_left _ _) hid (by simp), fun a => ?_⟩
      rw [List.append_assoc]
      exact List.subset_append_left _ _

/-- A loop over users writes to each what it may. -/
theorem keeps_writes {id : Option Long} {us : List User}
    (hwrite : ∀ u ∈ us, ∀ c d', d ⊆ d' → u.id ≠ id → ⟨user2ChannelCtxGet u, some c⟩ ∈ d' →
      Writes db e d' c message) :
    Keeps (CallStep db e) (fun _ => True) (forEach us (sendUnless id message)) d
      (fun _ d' => d ⊆ d') := by
  refine keeps_forEach (fun _ d' => d ⊆ d') (fun pre u hpre d₁ hd₁ => ?_) (List.Subset.refl d)
  have hu : u ∈ us := mem_of_step hpre
  refine keeps_weaken
    (keeps_write (fun c d₂ hd₂ => hwrite u hu c d₂ (List.Subset.trans hd₁ hd₂))) ?_
  exact fun _ d₂ hd₂ => List.Subset.trans hd₁ hd₂

/-! ### A logout -/

/-- **A logout** removes the user its channel is linked as, and tells of it. It asks for
that user once, at the beginning, and every later operation names the user it was
answered: a channel that is linked anew meanwhile does not change what is removed. -/
theorem keeps_handleLogout (he : e.IsLogout) :
    Keeps (CallStep db e) (fun _ => True) (handleLogout e.ctx) [] (fun _ _ => True) := by
  refine keeps_bind (keeps_perform trivial) ?_
  rintro user d₁ rfl
  refine keeps_bind (keeps_perform trivial) ?_
  rintro keys d₂ rfl
  cases user with
  | none =>
    refine keeps_bind (Q := fun _ _ => True) (keeps_forEach (fun _ _ => True) ?_ trivial) ?_
    · exact fun _ u _ _ _ => trivial
    · exact fun _ _ _ => trivial
  | some u =>
    have huser : ⟨channelId2UserGet e.ctx.channelId, some u⟩
        ∈ ([] ++ [⟨channelId2UserGet e.ctx.channelId, some u⟩] ++ [⟨user2ChannelCtxKeySet, keys⟩]
          : CallDeeds) := by simp
    refine keeps_bind (keeps_writes (fun v _ c d' hd' hid hctx =>
      .offline he (hd' huser) hid hctx)) (fun _ d₃ hd₃ => ?_)
    rw [nonNull_some, bind_of_pure]
    -- the removals, each of what the first lookup was answered
    refine keeps_bind (keeps_perform ⟨he, hd₃ huser⟩) ?_
    rintro - d₄ rfl
    refine keeps_bind (keeps_perform ⟨he, rfl⟩) ?_
    rintro - d₅ rfl
    refine keeps_bind (keeps_perform ⟨he, rfl⟩) ?_
    rintro - d₆ rfl
    refine keeps_bind (keeps_perform trivial) ?_
    rintro values d₇ rfl
    refine keeps_weaken (keeps_forEach
      (fun _ d => ⟨channelId2UserGet e.ctx.channelId, some u⟩ ∈ d)
      (fun _ l _ d hd => ⟨⟨he, hd⟩, fun a => List.mem_append_left _ hd⟩) ?_)
      (fun _ _ _ => trivial)
    exact (List.subset_append_left _ _) ((List.subset_append_left _ _)
      ((List.subset_append_left _ _) ((List.subset_append_left _ _) (hd₃ huser))))

/-! ### Frames -/

/-- **A relay** goes to the users found in the list of the room, each on the context
found for it and not on the one it had when it entered. -/
theorem keeps_relay {u : User} {room : Long} {l : ListRef}
    (hsender : db.getUserById m.senderId = some u) (hroom : m.roomId = some room)
    (hrelayed : (m.HasType .link ∧ message = linkMessage m u)
      ∨ (m.HasType .groupSend ∧ m.receiverId = none ∧ message = groupMessage m u))
    (hl : ⟨roomStubMapGet room, some l⟩ ∈ d) :
    Keeps (CallStep db (.channelRead0 ctx (.message m))) (fun _ => True)
      (broadcast l m.senderId message) d (fun _ _ => True) := by
  refine keeps_bind (keeps_perform trivial) ?_
  rintro us d₁ rfl
  refine keeps_weaken (keeps_writes (fun v hv c d' hd' hid hctx => ?_)) (fun _ _ _ => trivial)
  have hlist : ⟨roomStubMapGet room, some l⟩ ∈ d' := hd' (List.mem_append_left _ hl)
  have hfound : ⟨usersIterator l, us⟩ ∈ d' := hd' (by simp)
  exact .relay rfl hsender hroom hrelayed hlist hfound hv hid hctx

/-- The entry of a link into its room, by a fresh list or by an addition to the one it
was answered last. -/
theorem keeps_enter {f : TextWebSocketFrame} {u : User} {room : Long}
    (hf : linkSender db f = some u) (hroom : f.roomId = some room) :
    Keeps (CallStep db (.channelRead0 ctx f)) (fun _ => True) (joinRoom room u) d
      (fun _ _ => True) := by
  refine keeps_bind (keeps_perform trivial) ?_
  rintro l d₁ rfl
  cases l with
  | none => exact ⟨⟨ctx, f, u, rfl, hf, hroom, rfl⟩, fun _ => trivial⟩
  | some l₀ =>
    refine keeps_bind (keeps_perform trivial) ?_
    rintro l d₂ rfl
    cases l with
    | none => trivial
    | some l => exact ⟨⟨ctx, f, room, rfl, hf, hroom, by simp⟩, fun _ => trivial⟩

/-- **A link** registers its user on its own channel, enters the room it names and is
relayed there. An exception may come between any two, and undoes nothing. -/
theorem keeps_linkMessage (hm : m.HasType .link) :
    Keeps (CallStep db (.channelRead0 ctx (.message m))) (fun _ => True)
      (handleMessage db ctx m) [] (fun _ _ => True) := by
  have hcode : m.type = some MessageType.link.getCode := hm
  cases hs : db.getUserById m.senderId with
  | none =>
    simp only [handleMessage, hcode, hs, nonNull_some, bind_of_pure, if_true, nonNull_none,
      bind_of_raise]
    trivial
  | some u =>
    have hf : linkSender db (.message m) = some u := (linkSender_of_link hm).trans hs
    simp only [handleMessage, hcode, hs, nonNull_some, bind_of_pure, if_true]
    refine keeps_bind (keeps_perform ⟨_, rfl, hf⟩) ?_
    rintro - d₁ rfl
    refine keeps_bind (keeps_perform ⟨rfl, ctx, _, rfl, hf⟩) ?_
    rintro - d₂ rfl
    cases hr : m.roomId with
    | none => trivial
    | some room =>
      rw [nonNull_some, bind_of_pure]
      refine keeps_bind (keeps_enter hf hr) (fun _ d₃ _ => ?_)
      refine keeps_bind (keeps_perform trivial) ?_
      rintro l d₄ rfl
      cases l with
      | none => trivial
      | some l => exact keeps_relay hs hr (Or.inl ⟨hm, rfl⟩) (by simp)

/-- A message to a room is relayed and does nothing else; it registers nobody, whoever
its sender is. -/
theorem keeps_groupMessage (hm : m.HasType .groupSend) :
    Keeps (CallStep db (.channelRead0 ctx (.message m))) (fun _ => True)
      (handleMessage db ctx m) [] (fun _ _ => True) := by
  have hcode : m.type = some MessageType.groupSend.getCode := hm
  have hlink : MessageType.groupSend.getCode ≠ MessageType.link.getCode := by decide
  simp only [handleMessage, hcode, nonNull_some, bind_of_pure, if_neg hlink, if_true]
  split
  · next hv =>
    cases hr : m.roomId with
    | none => trivial
    | some room =>
      rw [nonNull_some, bind_of_pure]
      refine keeps_bind (keeps_perform trivial) ?_
      rintro l d₁ rfl
      cases l with
      | none => trivial
      | some l =>
        cases hs : db.getUserById m.senderId with
        | none => trivial
        | some u => exact keeps_relay hs hr (Or.inr ⟨hm, hv, rfl⟩) (by simp)
  · trivial

/-- A message to one user is answered on the channel it came from, and only if the
receiver had no context; the receiver is written nothing. -/
theorem keeps_singleMessage (hm : m.HasType .singleSend) :
    Keeps (CallStep db (.channelRead0 ctx (.message m))) (fun _ => True)
      (handleMessage db ctx m) [] (fun _ _ => True) := by
  have hcode : m.type = some MessageType.singleSend.getCode := hm
  have hlink : MessageType.singleSend.getCode ≠ MessageType.link.getCode := by decide
  have hgroup : MessageType.singleSend.getCode ≠ MessageType.groupSend.getCode := by decide
  simp only [handleMessage, hcode, nonNull_some, bind_of_pure, if_neg hlink, if_neg hgroup,
    if_true]
  cases hv : db.getUserById m.receiverId with
  | none => trivial
  | some v =>
    rw [nonNull_some, bind_of_pure]
    refine keeps_bind (keeps_perform trivial) ?_
    rintro b d₁ rfl
    cases b with
    | true => trivial
    | false => exact ⟨.undelivered rfl hm hv (by simp), fun _ => trivial⟩

/-- **Every call does what it may**: from no deeds at all, whatever it is answered. -/
theorem keeps_handler (db : UserTable) (e : Event) :
    Keeps (CallStep db e) (fun _ => True) (handler db e) [] (fun _ _ => True) := by
  cases e with
  | channelActive ctx => exact ⟨rfl, fun _ => trivial⟩
  | channelInactive ctx => exact keeps_handleLogout (e := .channelInactive ctx) trivial
  | exceptionCaught ctx => exact keeps_handleLogout (e := .exceptionCaught ctx) trivial
  | channelRead0 ctx f =>
    cases f with
    | unparsable => trivial
    | null => trivial
    | message m =>
      show Keeps _ _ (handleMessage db ctx m) [] _
      obtain hm | hm | hm | hm | ⟨hm, hm'⟩ := m.type_cases
      · rw [handleMessage, hm]
        trivial
      · exact keeps_linkMessage hm
      · exact keeps_groupMessage hm
      · exact keeps_singleMessage hm
      · obtain ⟨code, hcode⟩ := Option.ne_none_iff_exists'.mp hm
        have hne : ∀ t : MessageType, code ≠ t.getCode :=
          fun t ht => hm' t (hcode.trans (congrArg some ht))
        simp only [handleMessage, hcode, nonNull_some, bind_of_pure, if_neg (hne _)]
        trivial

end Keeps

/-! ## Who changes what

A change of the registries is one operation, and by `callStep_of_run` that operation is
one its call may perform. What the call was answered before is then traced back in the
history: a context that was found was put there by a link, and a user that a channel was
linked as had linked there. -/

section Changes

variable {db : UserTable} {h pre : History}
  {ts : List (Thread RegistryOp.Answer Throwable Event)}
  {s : ServerState} {e : Event} {o : RegistryOp} {a : o.Answer} {u : User}

/-- **Every operation of a run is one its call may perform**, after the operations that
were performed for the call before. If a call begins twice these are the operations of
both, and the condition, which only asks for more deeds, holds of them too. -/
theorem callStep_of_run {s₀ : ServerState} (run : (chatSystem db).Run s₀ h ts s)
    (hpre : pre ++ [.perform e o a] <+: h) : CallStep db e (ownOps e pre) o :=
  run.step_of_keeps_of_mono CallStep.mono (keeps_handler db e) hpre

/-- A link that is under way has linked its channel. -/
theorem linkedAs_of_linkSender {s₀ : ServerState} (run : (chatSystem db).Run s₀ h ts s)
    {ctx : ChannelHandlerContext} {f : TextWebSocketFrame}
    (hpre : pre ++ [.perform (.channelRead0 ctx f) o a] <+: h) (hf : linkSender db f = some u) :
    LinkedAs db pre ctx u := by
  obtain ⟨m, rfl, hm, hs⟩ := linkSender_eq_some hf
  exact ⟨m, run.begin_mem_of_step hpre, hm, hs⟩

/-- **A channel is linked as a user only if it sent a link as that user.** The induction
is on the history, and only two operations touch the map: a removal takes the user away,
and what is put is put by a link of that very channel. -/
theorem linkedAs_of_channelId2User (run : (chatSystem db).Run .empty h ts s) (hpre : pre <+: h)
    {c : ChannelId} (hu : (stateAfter .empty pre).registries.channelId2User.get c = some u) :
    LinkedAs db pre ⟨c⟩ u := by
  refine forall_later_of_step (P := fun p => ∀ c u,
    (stateAfter .empty p).registries.channelId2User.get c = some u → LinkedAs db p ⟨c⟩ u)
    (fun c u hu => ?_) (fun p act _ hstep hp c u hu => ?_) (List.nil_prefix) hpre c u hu
  · exact absurd hu (by simp [stateAfter, ServerState.empty, Registries.empty])
  · have hmono : ∀ {c u}, LinkedAs db p ⟨c⟩ u → LinkedAs db (p ++ [act]) ⟨c⟩ u :=
      fun hl => hl.mono (List.prefix_append _ _)
    cases act with
    | begin e =>
      rw [stateAfter, replay_begin] at hu
      exact hmono (hp c u hu)
    | perform e o a =>
      rw [stateAfter, replay_perform] at hu
      have hcall := callStep_of_run run hstep
      have hbefore := hp c u
      unfold stateAfter at hbefore
      generalize replay RegistryOp.exec ServerState.empty p = sp at hu hbefore
      obtain ⟨r, w⟩ := sp
      cases o with
      | channelId2UserPut c' v =>
        obtain ⟨rfl, ctx, f, rfl, hf⟩ := hcall
        have hget : (r.channelId2User.put ctx.channelId v).get c = some u := hu
        rw [ConcurrentHashMap.get_put] at hget
        split at hget
        · next hc =>
          rw [hc, ← Option.some.inj hget]
          exact (linkedAs_of_linkSender run hstep hf).mono (List.prefix_append _ _)
        · exact hmono (hbefore hget)
      | channelId2UserRemove c' =>
        have hget : (r.channelId2User.remove c').get c = some u := hu
        rw [ConcurrentHashMap.get_remove] at hget
        split at hget
        · exact absurd hget (by simp)
        · exact hmono (hbefore hget)
      | _ => exact hmono (hbefore hu)

/-- A call that was answered that its channel is linked as a user is for a channel
that linked as that user, be it linked as another by now. -/
theorem linkedAs_of_answered (run : (chatSystem db).Run .empty h ts s) (hpre : pre <+: h)
    (hmem : ⟨channelId2UserGet e.ctx.channelId, some u⟩ ∈ ownOps e pre) :
    LinkedAs db pre e.ctx u := by
  obtain ⟨p, hp, hu⟩ := exists_answer_eq_exec run hpre id hmem
  have hp' := before_of_step hp
  exact (linkedAs_of_channelId2User run (hp'.trans hpre) hu.symm).mono hp'

/-- A call changes what a channel is linked as only if it is a call for it. -/
theorem ctx_of_channelId2User_ne {d : CallDeeds} (hcall : CallStep db e d o) {c : ChannelId}
    (hne : (o.exec s).2.registries.channelId2User.get c ≠ s.registries.channelId2User.get c) :
    e.ctx.channelId = c := by
  obtain ⟨r, w⟩ := s
  cases o with
  | channelId2UserPut c' v =>
    have hne : (r.channelId2User.put c' v).get c ≠ r.channelId2User.get c := hne
    rw [ConcurrentHashMap.get_put] at hne
    split at hne
    · next hc => exact hcall.1.symm.trans hc.symm
    · exact absurd rfl hne
  | channelId2UserRemove c' =>
    have hne : (r.channelId2User.remove c').get c ≠ r.channelId2User.get c := hne
    rw [ConcurrentHashMap.get_remove] at hne
    split at hne
    · next hc => exact hcall.2.symm.trans hc.symm
    · exact absurd rfl hne
  | _ => exact absurd rfl hne

/-- The context of a user is changed only on a channel that linked as that user. -/
theorem linkedAs_of_context_ne (run : (chatSystem db).Run .empty h ts s)
    (hpre : pre ++ [.perform e o a] <+: h) {s' : ServerState}
    (hne : (o.exec s').2.registries.user2ChannelCtx.get u
      ≠ s'.registries.user2ChannelCtx.get u) :
    LinkedAs db pre e.ctx u := by
  have hcall := callStep_of_run run hpre
  obtain ⟨r, w⟩ := s'
  cases o with
  | user2ChannelCtxPut v ctx =>
    have hne : (r.user2ChannelCtx.put v ctx).get u ≠ r.user2ChannelCtx.get u := hne
    rw [ConcurrentHashMap.get_put] at hne
    split at hne
    · next hu =>
      obtain ⟨f, rfl, hf⟩ := hcall
      rw [hu]
      exact linkedAs_of_linkSender run hpre hf
    · exact absurd rfl hne
  | user2ChannelCtxRemove v =>
    have hne : (r.user2ChannelCtx.remove v).get u ≠ r.user2ChannelCtx.get u := hne
    rw [ConcurrentHashMap.get_remove] at hne
    split at hne
    · next hu =>
      rw [hu]
      exact linkedAs_of_answered run (before_of_step hpre) hcall.2
    · exact absurd rfl hne
  | _ => exact absurd rfl hne

/-- A user is moved in or out of a room only on a channel that linked as that user,
but for a list that is replaced. -/
theorem linkedAs_of_users_ne (run : (chatSystem db).Run .empty h ts s)
    (hpre : pre ++ [.perform e o a] <+: h) {s' : ServerState} {room : Long}
    (hne : ¬ (u ∈ (o.exec s').2.registries.roomStubMap.users room
      ↔ u ∈ s'.registries.roomStubMap.users room)) :
    LinkedAs db pre e.ctx u
      ∨ ((∃ v, o = roomStubMapPut room [v]) ∧ s'.registries.roomStubMap.get room ≠ none) := by
  have hcall := callStep_of_run run hpre
  obtain ⟨r, w⟩ := s'
  cases o with
  | roomStubMapPut room' us =>
    obtain ⟨ctx, f, v, rfl, hf, -, rfl⟩ := hcall
    have hne : ¬ (u ∈ (r.roomStubMap.put room' [v]).users room
        ↔ u ∈ r.roomStubMap.users room) := hne
    rw [RoomStubMap.users_put] at hne
    split at hne
    · next hroom =>
      by_cases hu : u = v
      · rw [hu]
        exact Or.inl (linkedAs_of_linkSender run hpre hf)
      · refine Or.inr ⟨⟨v, by rw [hroom]⟩, fun hnone => hne ?_⟩
        have hnone : r.roomStubMap.get room = none := hnone
        rw [RoomStubMap.users_of_get_none hnone, List.mem_singleton]
        exact iff_of_false hu List.not_mem_nil
    · exact absurd Iff.rfl hne
  | usersAdd l v =>
    obtain ⟨ctx, f, room', rfl, hf, -⟩ := hcall
    have hne : ¬ (u ∈ (r.roomStubMap.add l v).users room ↔ u ∈ r.roomStubMap.users room) := hne
    rw [RoomStubMap.mem_users_add] at hne
    by_cases hu : u = v
    · rw [hu]
      exact Or.inl (linkedAs_of_linkSender run hpre hf)
    · exact absurd (or_iff_left (fun hc => hu hc.2)) hne
  | usersRemove l v =>
    have hne : ¬ (u ∈ (r.roomStubMap.remove l v).users room
        ↔ u ∈ r.roomStubMap.users room) := hne
    by_cases hu : u = v
    · rw [hu]
      exact Or.inl (linkedAs_of_answered run (before_of_step hpre) hcall.2)
    · refine absurd ?_ hne
      by_cases hget : r.roomStubMap.get room = some l
      · rw [RoomStubMap.users_remove hget, if_pos rfl, List.mem_erase_of_ne hu]
      · rw [RoomStubMap.remove, RoomStubMap.users_setList_of_ne hget]
  | _ => exact absurd Iff.rfl hne

/-- **Nobody is touched by strangers.** In any interleaved run, a call changes what a
channel is linked as only if it is a call for that channel; it changes the context of
a user only on a channel that has linked as that user; and it takes a user into a room
or out of it only on such a channel, unless it puts a list in the place of the room's. -/
theorem session_changed_by_own_channel (run : (chatSystem db).Run .empty h ts s)
    (hpre : pre ++ [.perform e o a] <+: h) :
    (∀ c, (stateAfter .empty (pre ++ [.perform e o a])).registries.channelId2User.get c
          ≠ (stateAfter .empty pre).registries.channelId2User.get c → e.ctx.channelId = c)
      ∧ (∀ u, (stateAfter .empty (pre ++ [.perform e o a])).registries.user2ChannelCtx.get u
          ≠ (stateAfter .empty pre).registries.user2ChannelCtx.get u → LinkedAs db pre e.ctx u)
      ∧ ∀ u room,
          ¬ (u ∈ (stateAfter .empty (pre ++ [.perform e o a])).registries.roomStubMap.users room
            ↔ u ∈ (stateAfter .empty pre).registries.roomStubMap.users room) →
          LinkedAs db pre e.ctx u
            ∨ ((∃ v, o = roomStubMapPut room [v])
              ∧ (stateAfter .empty pre).registries.roomStubMap.get room ≠ none) := by
  have hstep : stateAfter .empty (pre ++ [.perform e o a])
      = (o.exec (stateAfter .empty pre)).2 :=
    replay_perform _ _ _ _ _ _
  rw [hstep]
  exact ⟨fun c => ctx_of_channelId2User_ne (callStep_of_run run hpre),
    fun u => linkedAs_of_context_ne run hpre, fun u room => linkedAs_of_users_ne run hpre⟩

/-! ## The origin of a frame

Where `Writes` says what the call was answered, `FrameOrigin` says what had happened in
the run when it was: the members of a room had joined it, and the channels had linked. -/

/-- **Where a frame comes from**, which a call writes to a channel after a history. -/
inductive FrameOrigin (db : UserTable) (pre : History) (e : Event) (c : ChannelHandlerContext) :
    Message → Prop
  /-- A link or a group message of a stored user, to a channel that linked as another
  user, who joined the room of the message. -/
  | relay {ctx : ChannelHandlerContext} {m message : Message} {u v : User} {room : Long}
      (call : e = .channelRead0 ctx (.message m)) (sender : db.getUserById m.senderId = some u)
      (roomId : m.roomId = some room)
      (relayed : (m.HasType .link ∧ message = linkMessage m u)
        ∨ (m.HasType .groupSend ∧ m.receiverId = none ∧ message = groupMessage m u))
      (other : v.id ≠ m.senderId) (joined : JoinedRoom db pre room v)
      (linked : LinkedAs db pre c v) :
      FrameOrigin db pre e c message
  /-- The answer to a message to one user, who had no context at some moment before. -/
  | undelivered {m : Message} {v : User} {p : History} (call : e = .channelRead0 c (.message m))
      (type : m.HasType .singleSend) (receiver : db.getUserById m.receiverId = some v)
      (before : p <+: pre)
      (offline : (stateAfter .empty p).registries.user2ChannelCtx.get v = none) :
      FrameOrigin db pre e c (undeliveredNotice m.senderId)
  /-- The notice of a logout on a channel that linked as the user it names, to a channel
  that linked as another. -/
  | offline {u v : User} (logout : e.IsLogout) (user : LinkedAs db pre e.ctx u)
      (other : v.id ≠ u.id) (linked : LinkedAs db pre c v) :
      FrameOrigin db pre e c (offlineNotice u)

/-- **What holds of the registries at any moment of a run**, as the history says. -/
theorem roomInv_of_run (run : (chatSystem db).Run .empty h ts s) (hpre : pre <+: h) :
    RoomInv db pre (stateAfter .empty pre) := by
  obtain ⟨ts', s', run'⟩ := run.of_prefix hpre
  have h₀ : RoomInv db [] .empty := by
    refine ⟨fun u ctx hu => ?_, fun l u hu => absurd hu List.not_mem_nil⟩
    exact absurd hu (by simp [ServerState.empty, Registries.empty])
  rw [stateAfter_eq run']
  exact (Discipline.run_inv (safeTask_handler db) h₀ run').1

/-- What a call writes has an origin. Each answer that `Writes` names was right at some
moment before (`exists_answer_eq_exec`), and at that moment `RoomInv` says what the
history had brought about. -/
theorem frameOrigin_of_write (run : (chatSystem db).Run .empty h ts s)
    {c : ChannelHandlerContext} {message : Message}
    (hpre : pre ++ [.perform e (writeAndFlush c message) ()] <+: h) :
    FrameOrigin db pre e c message := by
  have hpre' := before_of_step hpre
  have hcontext : ∀ v, ⟨user2ChannelCtxGet v, some c⟩ ∈ ownOps e pre → LinkedAs db pre c v := by
    intro v hv
    obtain ⟨p, hp, hctx⟩ := exists_answer_eq_exec run hpre' id hv
    have hp' := before_of_step hp
    exact ((roomInv_of_run run (hp'.trans hpre')).user2ChannelCtx v c hctx.symm).mono hp'
  have hwrites : Writes db e (ownOps e pre) c message := callStep_of_run run hpre
  cases hwrites with
  | @relay ctx _ m _ u v room l us call sender roomId relayed list found member other context =>
    obtain ⟨p, hp, hus⟩ := exists_answer_eq_exec run hpre' id found
    obtain ⟨q, hq, hl⟩ := exists_answer_eq_exec run hpre' id list
    have hp' := before_of_step hp
    have hroom : l.roomId = room := RoomStubMap.roomId_of_get hl.symm
    have hlists : us = (stateAfter .empty p).registries.roomStubMap.lists l := hus
    have hjoined := (roomInv_of_run run (hp'.trans hpre')).lists l v (hlists ▸ member)
    rw [hroom] at hjoined
    exact .relay call sender roomId relayed other (hjoined.mono hp') (hcontext v context)
  | @undelivered ctx m v call type receiver offline =>
    obtain ⟨p, hp, hoff⟩ := exists_answer_eq_exec run hpre' id offline
    refine .undelivered call type receiver (before_of_step hp) ?_
    have hoff : false = (stateAfter .empty p).registries.user2ChannelCtx.containsKey v := hoff
    rw [ConcurrentHashMap.containsKey_eq] at hoff
    exact Option.not_isSome_iff_eq_none.mp (by simp [← hoff])
  | @offline _ u v logout user other context =>
    exact .offline logout (linkedAs_of_answered run hpre' user) other (hcontext v context)

/-- **Nobody speaks for the system to others**: where no stored user has the id 0, only
a logout writes a frame with the sender 0 to another channel. -/
theorem FrameOrigin.system {c : ChannelHandlerContext} {message : Message}
    (horigin : FrameOrigin db pre e c message) (hzero : ∀ u ∈ db.rows, u.id ≠ some 0)
    (hsender : message.senderId = some 0) :
    (e.IsLogout ∧ ∃ u, message = offlineNotice u ∧ LinkedAs db pre e.ctx u)
      ∨ ∃ m, e = .channelRead0 c (.message m) ∧ m.HasType .singleSend
        ∧ message = undeliveredNotice (some 0) := by
  cases horigin with
  | @relay ctx m _ u v room call sender roomId relayed =>
    have hid : u.id = m.senderId := UserTable.id_eq_of_getUserById sender
    have hsame : message.senderId = m.senderId := by
      obtain ⟨-, rfl⟩ | ⟨-, -, rfl⟩ := relayed
      · rfl
      · rfl
    have hstored := hzero u (UserTable.mem_of_getUserById sender)
    rw [hid, ← hsame] at hstored
    exact absurd hsender hstored
  | @undelivered m v p call type =>
    have hm : m.senderId = some 0 := hsender
    rw [hm]
    exact Or.inr ⟨m, call, type, rfl⟩
  | @offline u v logout user => exact Or.inl ⟨logout, u, rfl, user⟩

/-- **Every frame has an origin**, in any interleaved run, and nobody speaks for the
system to others: where no stored user has the id 0, a frame with the sender 0 is the
notice of a logout on a channel that linked as the user it names, or the answer to a
message that claimed to come from 0, on the very channel that sent it. -/
theorem origin_of_frame (run : (chatSystem db).Run .empty h ts s) {c : ChannelHandlerContext}
    {message : Message} (hpre : pre ++ [.perform e (writeAndFlush c message) ()] <+: h) :
    FrameOrigin db pre e c message
      ∧ ((∀ u ∈ db.rows, u.id ≠ some 0) → message.senderId = some 0 →
        (e.IsLogout ∧ ∃ u, message = offlineNotice u ∧ LinkedAs db pre e.ctx u)
          ∨ ∃ m, e = .channelRead0 c (.message m) ∧ m.HasType .singleSend
            ∧ message = undeliveredNotice (some 0)) :=
  ⟨frameOrigin_of_write run hpre, fun hzero => (frameOrigin_of_write run hpre).system hzero⟩

end Changes

/-! ## A run -/

/-- Two users link to one room, and the first goes. -/
def linkLinkGo : History :=
  let first := handler sampleTable (.channelRead0 ⟨1⟩ (.message (.link 1 7)))
  let second := handler sampleTable (.channelRead0 ⟨2⟩ (.message (.link 2 7)))
  let s₁ := (first.run RegistryOp.exec .empty).2
  let s₂ := (second.run RegistryOp.exec s₁).2
  .begin (.channelRead0 ⟨1⟩ (.message (.link 1 7)))
    :: callTrace sampleTable (.channelRead0 ⟨1⟩ (.message (.link 1 7))) .empty
    ++ .begin (.channelRead0 ⟨2⟩ (.message (.link 2 7)))
      :: callTrace sampleTable (.channelRead0 ⟨2⟩ (.message (.link 2 7))) s₁
    ++ .begin (.channelInactive ⟨1⟩) :: callTrace sampleTable (.channelInactive ⟨1⟩) s₂

theorem exists_run_linkLinkGo :
    ∃ ts s, (chatSystem sampleTable).Run .empty linkLinkGo ts s := by
  have hstart : (chatSystem sampleTable).Run .empty [] [] .empty := .start
  have hfirst := run_call hstart (.channelRead0 ⟨1⟩ (.message (.link 1 7)))
  have hsecond := run_call hfirst (.channelRead0 ⟨2⟩ (.message (.link 2 7)))
  exact ⟨_, _, run_call hsecond (.channelInactive ⟨1⟩)⟩

/-- The logout of the first takes its context away, and its channel had linked as it. -/
theorem session_changed_by_own_channel_linkLinkGo :
    LinkedAs sampleTable (linkLinkGo.take 22) ⟨1⟩ aaa := by
  obtain ⟨ts, s, run⟩ := exists_run_linkLinkGo
  have hremove : linkLinkGo.take 22
      ++ [.perform (.channelInactive ⟨1⟩) (.user2ChannelCtxRemove aaa) ()] <+: linkLinkGo :=
    ⟨linkLinkGo.drop 23, by rfl⟩
  exact (session_changed_by_own_channel run hremove).2.1 aaa (by decide)

/-- The second is told. -/
theorem origin_of_frame_linkLinkGo :
    FrameOrigin sampleTable (linkLinkGo.take 21) (.channelInactive ⟨1⟩) ⟨2⟩
      (offlineNotice aaa) := by
  obtain ⟨ts, s, run⟩ := exists_run_linkLinkGo
  have hwrite : linkLinkGo.take 21
      ++ [.perform (.channelInactive ⟨1⟩) (.writeAndFlush ⟨2⟩ (offlineNotice aaa)) ()]
        <+: linkLinkGo :=
    ⟨linkLinkGo.drop 22, by rfl⟩
  exact (origin_of_frame run hwrite).1

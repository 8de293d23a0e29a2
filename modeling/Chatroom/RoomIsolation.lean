import Chatroom.ConcurrentCalls

/-!
# Room isolation

Who receives what is said in a room is found in two steps, through shared data
that anyone may change in between: the list of the room names users, and
`USER2CHANNEL_CTX` names a channel for each. The two may belong to different
times. A user found in the list may have logged out, and the channel found for
it may be one on which it linked later, to another room.

What can still be said is said about the history (`RoomInv`): a user gets into
a list only by a link to the room of that list, and a channel becomes the
channel of a user only by a link as that user. Both are kept by every single
operation of every call, under any interleaving, and so a broadcast reaches
only channels that linked as someone who joined the room (`room_isolation`).
-/

open AtomicSystem AtomicProgram Discipline ChatroomServerHandler RegistryOp

/-- **The handling of a link of a stored user began** on a channel. That it began is
all that can be asked, since the link may still be under way when its effects are seen. -/
structure LinkBegan (db : UserTable) (h : History) (ctx : ChannelHandlerContext) (u : User)
    (m : Message) : Prop where
  began : .begin (.channelRead0 ctx (.message m)) ∈ h
  type : m.HasType .link
  sender : db.getUserById m.senderId = some u

/-- A channel sent a link as a user. -/
def LinkedAs (db : UserTable) (h : History) (ctx : ChannelHandlerContext) (u : User) : Prop :=
  ∃ m, LinkBegan db h ctx u m

/-- The handling of a link of a user to a room began, on some channel. -/
def JoinedRoom (db : UserTable) (h : History) (room : Long) (u : User) : Prop :=
  ∃ ctx m, LinkBegan db h ctx u m ∧ m.roomId = some room

section History

variable {db : UserTable} {h h' : History} {ctx : ChannelHandlerContext} {u : User} {room : Long}

theorem LinkBegan.mono {m : Message} (hh : h <+: h') (hb : LinkBegan db h ctx u m) :
    LinkBegan db h' ctx u m :=
  ⟨hh.subset hb.began, hb.type, hb.sender⟩

theorem LinkedAs.mono (hh : h <+: h') (hl : LinkedAs db h ctx u) : LinkedAs db h' ctx u := by
  obtain ⟨m, hb⟩ := hl
  exact ⟨m, hb.mono hh⟩

theorem JoinedRoom.mono (hh : h <+: h') (hj : JoinedRoom db h room u) :
    JoinedRoom db h' room u := by
  obtain ⟨ctx, m, hb, hr⟩ := hj
  exact ⟨ctx, m, hb.mono hh, hr⟩

end History

/-- **A channel may be written to by a broadcast**: it linked as another user
than the sender, who joined the room. -/
def MayHear (db : UserTable) (h : History) (m : Message) (ctx : ChannelHandlerContext) : Prop :=
  ∃ u room, u.id ≠ m.senderId ∧ m.roomId = some room ∧ JoinedRoom db h room u
    ∧ LinkedAs db h ctx u

/-- **What the state owes to the history.** Lists that are no longer those of their rooms
are included: a broadcast that found one before it was replaced still reads it. -/
structure RoomInv (db : UserTable) (h : History) (s : ServerState) : Prop where
  user2ChannelCtx : ∀ u ctx, s.registries.user2ChannelCtx.get u = some ctx → LinkedAs db h ctx u
  lists : ∀ l, ∀ u ∈ s.registries.roomStubMap.lists l, JoinedRoom db h l.roomId u

/-- **What a call may do**: register channels and users that linked, and write
room messages to those who may hear them. -/
def Permitted (db : UserTable) (e : Event) (h : History) : RegistryOp → Prop
  | user2ChannelCtxPut u ctx => LinkedAs db h ctx u
  | roomStubMapPut room us => ∀ u ∈ us, JoinedRoom db h room u
  | usersAdd l u => JoinedRoom db h l.roomId u
  | writeAndFlush ctx _ => ∀ c m, e = .channelRead0 c (.message m) →
      m.HasType .link ∨ m.HasType .groupSend → MayHear db h m ctx
  | _ => True

/-- What an answer says about the history: a context is one on which the user linked, and
the users of a list have joined its room, if perhaps long ago. -/
def AnswerTells (db : UserTable) (h : History) : (o : RegistryOp) → o.Answer → Prop
  | user2ChannelCtxGet u, ctx => ∀ c, ctx = some c → LinkedAs db h c u
  | roomStubMapGet room, l => ∀ l', l = some l' → l'.roomId = room
  | usersIterator l, us => ∀ u ∈ us, JoinedRoom db h l.roomId u
  | _, _ => True

section Discipline

variable {db : UserTable} {h h' : History} {s s' : ServerState} {e : Event} {o : RegistryOp}
  {answer : o.Answer}

theorem RoomInv.mono (hh : h <+: h') (hinv : RoomInv db h s) : RoomInv db h' s where
  user2ChannelCtx u ctx hu := (hinv.user2ChannelCtx u ctx hu).mono hh
  lists l u hu := (hinv.lists l u hu).mono hh

/-- **A permitted operation keeps what the state owes to the history.** What a removal
takes away owes nothing any more, and what is put in is owed by the permission. -/
theorem RoomInv.exec (hinv : RoomInv db h s) (hperm : Permitted db e h o)
    (hexec : o.exec s = (answer, s')) : RoomInv db h s' := by
  obtain ⟨hctx, hlists⟩ := hinv
  obtain ⟨r, w⟩ := s
  cases o <;> cases hexec
  case user2ChannelCtxPut u ctx =>
    refine ⟨fun v c hv => ?_, hlists⟩
    rw [show ConcurrentHashMap.get _ v = if v = u then some ctx else _ from
      ConcurrentHashMap.get_put _ _ _ _] at hv
    split at hv
    · next hvu =>
      rw [hvu, ← Option.some.inj hv]
      exact hperm
    · exact hctx v c hv
  case user2ChannelCtxRemove u =>
    refine ⟨fun v c hv => ?_, hlists⟩
    rw [show ConcurrentHashMap.get _ v = if v = u then none else _ from
      ConcurrentHashMap.get_remove _ _ _] at hv
    split at hv
    · exact absurd hv (by simp)
    · exact hctx v c hv
  case roomStubMapPut room us =>
    refine ⟨hctx, fun l v hv => ?_⟩
    by_cases hl : l = ⟨room, r.roomStubMap.nextIndex room⟩
    · subst hl
      exact hperm v (by simpa [RoomStubMap.put] using hv)
    · exact hlists l v (by simpa [RoomStubMap.put, hl] using hv)
  case usersAdd l u =>
    refine ⟨hctx, fun l' v hv => ?_⟩
    by_cases hl : l' = l
    · subst hl
      have hmem : v ∈ r.roomStubMap.lists l' ++ [u] := by
        simpa [RoomStubMap.add, RoomStubMap.setList] using hv
      obtain hv | hv := List.mem_append.mp hmem
      · exact hlists l' v hv
      · rw [List.mem_singleton.mp hv]
        exact hperm
    · exact hlists l' v (by simpa [RoomStubMap.add, RoomStubMap.setList, hl] using hv)
  case usersRemove l u =>
    exact ⟨hctx, fun l' v hv => hlists l' v (RoomStubMap.mem_of_mem_lists_remove hv)⟩
  all_goals exact ⟨hctx, hlists⟩

/-- **The discipline of the calls**: an invariant, what a call may do, and what it learns
from an answer. All three only grow with the history, so that what a call has learnt
holds on while others perform their operations. -/
def roomDiscipline (db : UserTable) : Discipline (chatSystem db) where
  Inv := RoomInv db
  Allowed := Permitted db
  Learnt o answer h := AnswerTells db h o answer
  inv_begin _ hinv := hinv.mono (List.prefix_append _ _)
  inv_perform hinv hperm hhappens := by
    refine RoomInv.mono (List.prefix_append _ _) ?_
    obtain ⟨-, rfl⟩ | hexec := hhappens
    · exact hinv
    · exact hinv.exec hperm hexec
  learnt {h s o answer s'} hinv hhappens := by
    obtain ⟨htrav, -⟩ | hexec := hhappens
    · cases o <;> trivial
    · cases o <;> cases hexec <;> try trivial
      · exact fun c hc => hinv.user2ChannelCtx _ c hc
      · exact fun l' hl => RoomStubMap.roomId_of_get hl
      · exact hinv.lists _
  learnt_mono {o answer h h'} hh htells := by
    cases o <;> try trivial
    · exact fun c hc => (htells c hc).mono hh
    · exact fun u hu => (htells u hu).mono hh

end Discipline

/-! ## The calls keep the discipline

Each program is gone through once, from the history at which it begins, and nothing is
assumed of what its operations are answered but what `AnswerTells` says. -/

section Safe

variable {db : UserTable} {h : History} {e : Event}

/-- An operation that is permitted to every call. -/
theorem safe_free {o : RegistryOp} (hfree : ∀ h', Permitted db e h' o) :
    (roomDiscipline db).Safe e (perform o : HandlerProgram o.Answer) h
      (fun answer h' => AnswerTells db h' o answer) :=
  safe_perform (fun h' _ => hfree h')

/-- The same where the answer is of no use. -/
theorem safe_free' {o : RegistryOp} (hfree : ∀ h', Permitted db e h' o) :
    (roomDiscipline db).Safe e (perform o : HandlerProgram o.Answer) h (fun _ _ => True) :=
  safe_weaken (safe_free hfree) (fun _ _ _ _ => trivial)

/-- A logout writes, but it is no broadcast to a room. -/
theorem safe_handleLogout (he : e.IsLogout) (ctx : ChannelHandlerContext) :
    (roomDiscipline db).Safe e (handleLogout ctx) h (fun _ _ => True) := by
  have hwrite : ∀ c m h', Permitted db e h' (writeAndFlush c m) := by
    rintro c m h' c' m' rfl
    exact absurd he id
  refine safe_bind (safe_free' (fun _ => trivial)) (fun user h₁ _ _ => ?_)
  refine safe_bind (safe_free' (fun _ => trivial)) (fun keys h₂ _ _ => ?_)
  refine safe_bind (safe_forEach (fun u _ h₃ _ => ?_)) (fun _ h₃ _ _ => ?_)
  · cases user with
    | none => trivial
    | some user =>
      rw [nonNull_some, bind_of_pure, sendUnless]
      split
      · trivial
      · refine safe_bind (safe_free' (fun _ => trivial)) (fun c h₄ _ _ => ?_)
        cases c with
        | none => trivial
        | some c => exact safe_free' (hwrite c _)
  · cases user with
    | none => trivial
    | some user =>
      rw [nonNull_some, bind_of_pure]
      refine safe_bind (safe_free' (fun _ => trivial)) (fun _ h₄ _ _ => ?_)
      refine safe_bind (safe_free' (fun _ => trivial)) (fun _ h₅ _ _ => ?_)
      refine safe_bind (safe_free' (fun _ => trivial)) (fun _ h₆ _ _ => ?_)
      refine safe_bind (safe_free' (fun _ => trivial)) (fun values h₇ _ _ => ?_)
      exact safe_forEach (fun l _ h₈ _ => safe_free' (fun _ => trivial))

section Frames

variable {ctx : ChannelHandlerContext} {m : Message}

/-- **A broadcast to the room of its message** writes to those who may hear it:
the list says who joined, and the map where they linked. -/
theorem safe_broadcast {l : ListRef} (hroom : m.roomId = some l.roomId) (message : Message) :
    (roomDiscipline db).Safe (.channelRead0 ctx (.message m)) (broadcast l m.senderId message) h
      (fun _ _ => True) := by
  refine safe_bind (safe_free (fun _ => trivial)) (fun users h₁ _ hjoined => ?_)
  refine safe_forEach (fun u hu h₂ hh₂ => ?_)
  rw [sendUnless]
  split
  · trivial
  · next hid =>
    refine safe_bind (safe_free (fun _ => trivial)) (fun c h₃ hh₃ hlinked => ?_)
    cases c with
    | none => trivial
    | some c =>
      refine safe_weaken (safe_perform (fun h₄ hh₄ => ?_)) (fun _ _ _ _ => trivial)
      rintro ctx' m' he -
      cases he
      exact ⟨u, l.roomId, hid, hroom, (hjoined u hu).mono ((hh₂.trans hh₃).trans hh₄),
        (hlinked c rfl).mono hh₄⟩

/-- A link enters its user into its room. The list it adds to is one it was answered for
the room, if not the one that is there by then. -/
theorem safe_joinRoom {room : Long} {u : User} (hjoined : JoinedRoom db h room u) :
    (roomDiscipline db).Safe e (joinRoom room u) h (fun _ _ => True) := by
  refine safe_bind (safe_free' (fun _ => trivial)) (fun l h₁ hh₁ _ => ?_)
  cases l with
  | none =>
    refine safe_weaken (safe_perform (fun h₂ hh₂ v hv => ?_)) (fun _ _ _ _ => trivial)
    rw [List.mem_singleton.mp hv]
    exact hjoined.mono (hh₁.trans hh₂)
  | some _ =>
    refine safe_bind (safe_free (fun _ => trivial)) (fun l h₂ hh₂ hl => ?_)
    cases l with
    | none => trivial
    | some l =>
      refine safe_weaken (safe_perform (fun h₃ hh₃ => ?_)) (fun _ _ _ _ => trivial)
      show JoinedRoom db h₃ l.roomId u
      rw [hl l rfl]
      exact hjoined.mono ((hh₁.trans hh₂).trans hh₃)

/-- **A link** registers and enters the user it is a link of, and is relayed to the room
it has just entered. -/
theorem safe_link (hm : m.HasType .link)
    (hbegan : .begin (.channelRead0 ctx (.message m)) ∈ h) :
    (roomDiscipline db).Safe (.channelRead0 ctx (.message m)) (handleMessage db ctx m) h
      (fun _ _ => True) := by
  have hcode : m.type = some MessageType.link.getCode := hm
  cases hs : db.getUserById m.senderId with
  | none =>
    simp only [handleMessage, hcode, hs, nonNull_some, bind_of_pure, if_true, nonNull_none,
      bind_of_raise]
    trivial
  | some u =>
    have hlinked : LinkBegan db h ctx u m := ⟨hbegan, hm, hs⟩
    simp only [handleMessage, hcode, hs, nonNull_some, bind_of_pure, if_true]
    refine safe_bind (safe_perform (fun h₁ hh₁ => ⟨m, hlinked.mono hh₁⟩)) (fun _ h₁ hh₁ _ => ?_)
    refine safe_bind (safe_free' (fun _ => trivial)) (fun _ h₂ hh₂ _ => ?_)
    cases hr : m.roomId with
    | none =>
      rw [nonNull_none, bind_of_raise]
      trivial
    | some room =>
      rw [nonNull_some, bind_of_pure]
      have hjoined : JoinedRoom db h₂ room u := ⟨ctx, m, hlinked.mono (hh₁.trans hh₂), hr⟩
      refine safe_bind (safe_joinRoom hjoined) (fun _ h₃ _ _ => ?_)
      refine safe_bind (safe_free (fun _ => trivial)) (fun l h₄ _ hl => ?_)
      cases l with
      | none => trivial
      | some l =>
        rw [nonNull_some, bind_of_pure]
        exact safe_broadcast (hr.trans (congrArg some (hl l rfl).symm)) _

/-- A message to a room, whose sender need not have joined it. -/
theorem safe_groupSend (hm : m.HasType .groupSend) :
    (roomDiscipline db).Safe (.channelRead0 ctx (.message m)) (handleMessage db ctx m) h
      (fun _ _ => True) := by
  have hcode : m.type = some MessageType.groupSend.getCode := hm
  have hlink : MessageType.groupSend.getCode ≠ MessageType.link.getCode := by decide
  simp only [handleMessage, hcode, nonNull_some, bind_of_pure, if_neg hlink, if_true]
  split
  · cases hr : m.roomId with
    | none =>
      rw [nonNull_none, bind_of_raise]
      trivial
    | some room =>
      rw [nonNull_some, bind_of_pure]
      refine safe_bind (safe_free (fun _ => trivial)) (fun l h₁ _ hl => ?_)
      cases l with
      | none => trivial
      | some l =>
        cases db.getUserById m.senderId with
        | none => trivial
        | some u => exact safe_broadcast (hr.trans (congrArg some (hl l rfl).symm)) _
  · trivial

/-- A message to one user writes to its own channel, and is no broadcast. -/
theorem safe_singleSend (hm : m.HasType .singleSend) :
    (roomDiscipline db).Safe (.channelRead0 ctx (.message m)) (handleMessage db ctx m) h
      (fun _ _ => True) := by
  have hcode : m.type = some MessageType.singleSend.getCode := hm
  have hlink : MessageType.singleSend.getCode ≠ MessageType.link.getCode := by decide
  have hgroup : MessageType.singleSend.getCode ≠ MessageType.groupSend.getCode := by decide
  simp only [handleMessage, hcode, nonNull_some, bind_of_pure, if_neg hlink, if_neg hgroup,
    if_true]
  cases db.getUserById m.receiverId with
  | none => trivial
  | some u =>
    rw [nonNull_some, bind_of_pure]
    refine safe_bind (safe_free' (fun _ => trivial)) (fun b h₁ _ _ => ?_)
    cases b with
    | true => trivial
    | false =>
      refine safe_free' (fun h₂ c m' he hm' => ?_)
      cases he
      obtain hm' | hm' := hm'
      · exact absurd hm (hm'.not_hasType (by decide))
      · exact absurd hm (hm'.not_hasType (by decide))

/-- **A frame** keeps the discipline. -/
theorem safe_channelRead0 (ctx : ChannelHandlerContext) (f : TextWebSocketFrame)
    (hbegan : .begin (.channelRead0 ctx f) ∈ h) :
    (roomDiscipline db).Safe (.channelRead0 ctx f) (channelRead0 db ctx f) h
      (fun _ _ => True) := by
  cases f with
  | unparsable => trivial
  | null => trivial
  | message m =>
    show (roomDiscipline db).Safe _ (handleMessage db ctx m) h _
    obtain hm | hm | hm | hm | ⟨hm, hm'⟩ := m.type_cases
    · rw [handleMessage, hm]
      trivial
    · exact safe_link hm hbegan
    · exact safe_groupSend hm
    · exact safe_singleSend hm
    · obtain ⟨code, hcode⟩ := Option.ne_none_iff_exists'.mp hm
      have hne : ∀ t : MessageType, code ≠ t.getCode :=
        fun t ht => hm' t (hcode.trans (congrArg some ht))
      simp only [handleMessage, hcode, nonNull_some, bind_of_pure, if_neg (hne _)]
      trivial

end Frames

/-- **Every call keeps the discipline.** -/
theorem safeTask_handler (db : UserTable) (e : Event) : (roomDiscipline db).SafeTask e := by
  intro h
  cases e with
  | channelActive ctx => exact safe_free' (fun _ => trivial)
  | channelInactive ctx => exact safe_handleLogout (e := .channelInactive ctx) trivial ctx
  | exceptionCaught ctx => exact safe_handleLogout (e := .exceptionCaught ctx) trivial ctx
  | channelRead0 ctx f => exact safe_channelRead0 ctx f (by simp)

end Safe

/-- **Room isolation**: whenever a link or a group message writes to a channel,
a user other than its sender joined its room before, and the channel linked as
that user before – however the operations of all calls interleave. -/
theorem room_isolation (db : UserTable) {h : History}
    {ts : List (Thread RegistryOp.Answer Throwable Event)} {s : ServerState}
    (run : (chatSystem db).Run .empty h ts s) {pre : History}
    {ctx c : ChannelHandlerContext} {m message : Message}
    (hwrite : pre ++ [.perform (.channelRead0 ctx (.message m)) (.writeAndFlush c message) ()]
      <+: h) (hm : m.HasType .link ∨ m.HasType .groupSend) : MayHear db pre m c := by
  have h₀ : RoomInv db [] .empty := by
    refine ⟨fun u ctx hu => ?_, fun l u hu => ?_⟩
    · exact absurd hu (by simp [ServerState.empty, Registries.empty])
    · exact absurd hu List.not_mem_nil
  exact run_allowed (safeTask_handler db) h₀ run hwrite ctx m rfl hm

/-- Two users link to one room, one after the other. -/
def twoLinks : History :=
  let first := handler sampleTable (.channelRead0 ⟨1⟩ (.message (.link 1 7)))
  .begin (.channelRead0 ⟨1⟩ (.message (.link 1 7)))
    :: callTrace sampleTable (.channelRead0 ⟨1⟩ (.message (.link 1 7))) .empty
    ++ .begin (.channelRead0 ⟨2⟩ (.message (.link 2 7)))
      :: callTrace sampleTable (.channelRead0 ⟨2⟩ (.message (.link 2 7)))
        (first.run RegistryOp.exec .empty).2

/-- The first of the two is told of the second. -/
theorem room_isolation_twoLinks :
    MayHear sampleTable twoLinks.dropLast (.link 2 7) ⟨1⟩ := by
  have hstart : (chatSystem sampleTable).Run .empty [] [] .empty := .start
  have hfirst := run_call hstart (.channelRead0 ⟨1⟩ (.message (.link 1 7)))
  have hrun := run_call hfirst (.channelRead0 ⟨2⟩ (.message (.link 2 7)))
  have hwrite : twoLinks.dropLast ++ [.perform (.channelRead0 ⟨2⟩ (.message (.link 2 7)))
      (.writeAndFlush ⟨1⟩ (linkMessage (.link 2 7) bbb)) ()] <+: twoLinks := ⟨[], rfl⟩
  exact room_isolation sampleTable hrun hwrite (Or.inl rfl)

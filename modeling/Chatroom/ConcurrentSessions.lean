import Chatroom.SettledViews

/-!
# Sessions among other threads

`sessions_refinement` says that the registries represent a session table, for calls
made one at a time. Here the clients are served side by side, operation by
operation, each on its own channels, and every client is left with a view that is
settled (`follows_eventLoop`). Together the views are the two channel maps and the
rooms; of the list of the connected channels they say nothing.

Two things are different among other threads.

* A logout goes through all the users it found online, and may look one up who has
  gone in the meantime. It then throws before it has removed anything, and the
  session stays; `SessionsAfter` leaves that open, for a client that did look up
  somebody who was gone. The same exception may end a session whose client did
  nothing wrong.
* A link may put a fresh list at a room that has got one since it looked, and
  everybody in that one is lost to the room – to this room, and to no other.

Apart from that the sessions are those of the clients, each by its own calls
(`concurrent_sessions`), and where none of it happens they are determined by the
calls alone, whatever the order of the operations (`concurrent_sessions_determined`).
-/

open AtomicSystem AtomicProgram Views ChatroomServerHandler RegistryOp

/-! ## The clients side by side

What is known of a client by itself, that its loop settles its view, holds along a run
of all loops (`kept_of_run`). In the end there is then a session table for each client,
and as no two of them have a channel or a user in common, the tables are parts of one. -/

/-- The sessions of all clients, each told by the table of its own. -/
def Sessions.merge (T : User → Sessions) : Sessions := fun c u => T u c u

/-- **The channel maps and the rooms represent a session table, but for lost members**: as
`Represents`, except that a room may lack users whose list was replaced. -/
structure RepresentsWithin (db : UserTable) (T : Sessions) (r : Registries) : Prop where
  /-- A user is reached on the channel of its session. -/
  user2ChannelCtx : ∀ u ctx, r.user2ChannelCtx.get u = some ctx ↔ T.Has ctx u
  /-- A channel is linked as the user of its session. -/
  channelId2User : ∀ u ctx, r.channelId2User.get ctx.channelId = some u ↔ T.Has ctx u
  /-- Nobody is in a room twice. -/
  nodup : ∀ room, (r.roomStubMap.users room).Nodup
  /-- Who is in a room has a session there: there are no ghosts. -/
  members : ∀ room, ∀ u ∈ r.roomStubMap.users room, ∃ ctx, T.InRoom ctx u room
  /-- Sessions are those of stored users. -/
  stored : ∀ u ctx, T.Has ctx u → u ∈ db.rows

/-- **All clients are done**: those with calls have begun, and every loop is over. -/
def AllDone (calls : User → List Event) (h : LoopHistory)
    (ts : List (Thread RegistryOp.Answer Throwable User)) : Prop :=
  (∀ u, calls u ≠ [] → u ∈ begins h) ∧ ∀ th ∈ ts, IsOver th.program

section Clients

variable {db : UserTable} {calls : User → List Event} {h : LoopHistory} {s : ServerState}
  {ts : List (Thread RegistryOp.Answer Throwable User)} {T : User → Sessions}

/-- What a client has come to: its view is that of a session its calls may leave. -/
def HasSettled (db : UserTable) (calls : User → List Event) (h : LoopHistory) (u : User)
    (v : ClientView) : Prop :=
  ∃ T, SessionsAfter db (LooksUpMissing (ownOps u h)) (calls u) T ∧ Settled db h u T v

/-- To begin with, the view of every client is that of no session. -/
theorem settled_empty (db : UserTable) (calls : User → List Event) (h : LoopHistory) (u : User) :
    Settled db h u SessionTable.empty (ClientView.of calls h u .empty) := by
  refine Settled.empty ?_ ?_ ?_
  · intro c
    simp [ClientView.of, ServerState.empty, Registries.empty]
  · simp [ClientView.of, ServerState.empty, Registries.empty]
  · intro l
    simp [ClientView.of, ServerState.empty, Registries.empty, RoomStubMap.empty]

/-- **Along a run of the loops**, the registries keep their invariant, and what is
left of each client is on its way to settle. A client that has not begun finds its view
as the others leave it, and that is the view of no session. -/
theorem kept_of_run (hdisjoint : ChannelsDisjoint calls) (hmeet : ValuesMeet h)
    (horderly : ∀ u, Orderly db u (LooksUpMissing (ownOps u h)) (calls u))
    (run : (serverSystem db calls).Run .empty h ts s) (hone : (begins h).Nodup) :
    Kept (clientViews calls h) (HasSettled db calls h) (fun _ _ _ => False) .empty h ts s := by
  refine Run.follows (respected_clientViews hdisjoint hmeet) hone ?_ (fun u v hv => ?_) run
  · refine ⟨rfl, fun _ _ => rfl, fun c w hc => ?_⟩
    simp [ServerState.empty, Registries.empty] at hc
  · exact follows_eventLoop ((settled_empty db calls h u).rely hv) (horderly u)

/-- **A client that is done has settled**, and so has one that has nothing to do. The
one has a thread that is over, and its program left a settled view; the other has no
thread, and the view it started with. -/
theorem hasSettled_of_allDone
    (hkept :
      Kept (clientViews calls h) (HasSettled db calls h) (fun _ _ _ => False) .empty h ts s)
    (run : (serverSystem db calls).Run .empty h ts s) (hdone : AllDone calls h ts) (u : User) :
    HasSettled db calls h u (ClientView.of calls h u s) := by
  by_cases hbegun : u ∈ begins h
  · rw [← List.mem_reverse, ← run.map_task] at hbegun
    obtain ⟨th, hth, rfl⟩ := List.mem_map.mp hbegun
    obtain ⟨-, v, hv, T, hT, hs⟩ | ⟨-, -, v, -, hfalse⟩ :=
      (hkept.onView th hth).over (hdone.2 th hth)
    · exact ⟨T, hT, hs.rely hv⟩
    · exact absurd hfalse id
  · have hnone : calls u = [] := by
      by_contra hne
      exact hbegun (hdone.1 u hne)
    rw [HasSettled, hnone]
    exact ⟨_, .nil, (settled_empty db calls h u).rely (hkept.waiting u hbegun)⟩

/-- A reader of a room in the end finds the content of its last list. It is the list
that the view counts entries in, so that the count is the view's. -/
theorem count_users_of_isLast (run : (serverSystem db calls).Run .empty h ts s) {u : User}
    {l : ListRef} (hl : IsLast h l) :
    (s.registries.roomStubMap.users l.roomId).count u
      = (ClientView.of calls h u s).entries l := by
  have hstate : stateAt h = s := (Run.replay_eq (fun _ _ _ _ => eq_exec_of_happens) run).1
  have hget : s.registries.roomStubMap.get l.roomId = some l := hstate ▸ hl
  rw [RoomStubMap.users_of_get hget]
  exact (if_pos hl).symm

/-- Who is in a room in the end has an entry in its list. -/
theorem exists_isLast_of_mem_users (run : (serverSystem db calls).Run .empty h ts s) {u : User}
    {room : Long} (hu : u ∈ s.registries.roomStubMap.users room) :
    ∃ l, l.roomId = room ∧ IsLast h l := by
  have hstate : stateAt h = s := (Run.replay_eq (fun _ _ _ _ => eq_exec_of_happens) run).1
  cases hget : s.registries.roomStubMap.get room with
  | none =>
    rw [RoomStubMap.users_of_get_none hget] at hu
    exact absurd hu List.not_mem_nil
  | some l =>
    have hroom := RoomStubMap.roomId_of_get hget
    refine ⟨l, hroom, ?_⟩
    unfold IsLast
    rw [hstate, hroom, hget]

/-- **The views of all clients together** are the registries. A channel that is linked
belongs to a client (`LoopInv.linked`), and is linked as that client's user; a context
is in the view of its user. Of the rooms the views say how often each user is in the
last list, and that is the list a reader finds. -/
theorem representsWithin_merge (run : (serverSystem db calls).Run .empty h ts s)
    (hinv : LoopInv calls h s)
    (hs : ∀ u, Settled db h u (T u) (ClientView.of calls h u s)) :
    RepresentsWithin db (Sessions.merge T) s.registries := by
  refine ⟨fun u ctx => (hs u).context ctx, fun u ctx => ⟨fun hu => ?_, fun hu => ?_⟩,
    fun room => ?_, fun room u hu => ?_, fun u ctx hu => ((hs u).stored ctx u hu).2⟩
  · obtain ⟨v, hv⟩ := hinv.linked _ u hu
    have hview : (ClientView.of calls h v s).channelUser ctx.channelId = some u :=
      (if_pos hv).trans hu
    have hhas := ((hs v).channelUser ctx u).mp hview
    obtain rfl : u = v := ((hs v).stored ctx u hhas).1
    exact hhas
  · have hview : (if ctx.channelId ∈ channelsOf calls u then
        s.registries.channelId2User.get ctx.channelId else none) = some u :=
      ((hs u).channelUser ctx u).mpr hu
    split at hview
    · exact hview
    · exact absurd hview (by simp)
  · refine List.nodup_iff_count_le_one.mpr (fun u => ?_)
    by_cases hu : u ∈ s.registries.roomStubMap.users room
    · obtain ⟨l, rfl, hl⟩ := exists_isLast_of_mem_users run hu
      rw [count_users_of_isLast run hl]
      exact (hs u).entries_le l
    · rw [List.count_eq_zero.mpr hu]
      exact Nat.zero_le 1
  · obtain ⟨l, rfl, hl⟩ := exists_isLast_of_mem_users run hu
    refine (hs u).entries_room l ?_
    rw [← count_users_of_isLast run hl]
    exact List.count_pos_iff.mpr hu

/-- **A room at which no list was replaced has lost nobody.** Its last list is the one
that its members entered, so their entries are still to be found. -/
theorem mem_users_of_inRoom (run : (serverSystem db calls).Run .empty h ts s)
    (hs : ∀ u, Settled db h u (T u) (ClientView.of calls h u s)) {room : Long}
    (hno : NoListReplacedAt h room) {u : User} {ctx : ChannelHandlerContext}
    (hin : (Sessions.merge T).InRoom ctx u room) : u ∈ s.registries.roomStubMap.users room := by
  obtain ⟨hmade, hentry⟩ := (hs u).present ctx room hno hin
  have hl : IsLast h ⟨room, s.made room - 1⟩ := by
    by_contra hnot
    have hzero : (ClientView.of calls h u s).entries ⟨room, s.made room - 1⟩ = 0 := if_neg hnot
    exact absurd (hzero.symm.trans hentry) (by simp)
  have hcount : (s.registries.roomStubMap.users room).count u
      = (ClientView.of calls h u s).entries ⟨room, s.made room - 1⟩ :=
    count_users_of_isLast run hl
  rw [← List.count_pos_iff, hcount.trans hentry]
  exact Nat.one_pos

/-- **Where no list was replaced, nobody is lost**: the registries then represent the
sessions as they do for calls made one at a time. -/
theorem represents_merge (run : (serverSystem db calls).Run .empty h ts s)
    (hinv : LoopInv calls h s) (hno : NoListReplaced h)
    (hs : ∀ u, Settled db h u (T u) (ClientView.of calls h u s)) :
    Represents db (Sessions.merge T) s.registries := by
  have hwithin := representsWithin_merge run hinv hs
  refine ⟨hwithin.user2ChannelCtx, hwithin.channelId2User, hwithin.nodup,
    fun room u => ⟨hwithin.members room u, ?_⟩, hwithin.stored⟩
  rintro ⟨ctx, hin⟩
  exact mem_users_of_inRoom run hs (hno room) hin

end Clients

/-- The sessions that the calls of a client leave if nothing goes wrong: links open
them, logouts end them. -/
def Sessions.afterCalls (db : UserTable) (es : List Event) : Sessions :=
  es.foldl (fun T e => T.step db false e) SessionTable.empty

/-- **Nothing goes wrong with the calls of a client**: no frame is faulty, and each
link is one of its own user that the sessions of its calls admit. -/
structure WellBehaved (db : UserTable) (u : User) (es : List Event) : Prop where
  sound : ∀ ctx f, .channelRead0 ctx f ∈ es → ¬ f.Faulty db
  admitted : ∀ pre e, pre ++ [e] <+: es → ∀ ctx f w, e = .channelRead0 ctx f →
    linkSender db f = some w → w = u ∧ (Sessions.afterCalls db pre).Admits ctx u f.roomId

section WellBehaved

variable {db : UserTable} {u : User} {missed : Prop} {es : List Event} {T : Sessions}

/-- **A client that looks up nobody who is gone**, with no faulty frame, has exactly
the sessions of its calls. The induction is on the sessions that its calls may leave,
call by call: what may be kept is not ended by `Sessions.step`, and what may end is. -/
theorem eq_afterCalls (hmissed : ¬ missed)
    (hsound : ∀ ctx f, .channelRead0 ctx f ∈ es → ¬ f.Faulty db)
    (hT : SessionsAfter db missed es T) : T = Sessions.afterCalls db es := by
  induction hT with
  | nil => rfl
  | @kept es T e before why ih =>
    have hbefore := ih (fun ctx f hf => hsound ctx f (List.mem_append_left _ hf))
    have hends : ¬ Sessions.Ends false e := by
      cases e with
      | channelActive ctx => exact id
      | channelInactive ctx => exact absurd (why trivial) hmissed
      | exceptionCaught ctx => exact absurd (why trivial) hmissed
      | channelRead0 ctx f => exact Bool.false_ne_true
    rw [Sessions.afterCalls, List.foldl_append, ← Sessions.afterCalls, ← hbefore]
    exact (if_neg hends).symm
  | @ended es T e before why ih =>
    have hbefore := ih (fun ctx f hf => hsound ctx f (List.mem_append_left _ hf))
    have hends : Sessions.Ends false e := by
      cases e with
      | channelActive ctx => exact absurd why id
      | channelInactive ctx => trivial
      | exceptionCaught ctx => trivial
      | channelRead0 ctx f =>
        obtain hfaulty | hmissed' := why
        · exact absurd hfaulty (hsound ctx f (by simp))
        · exact absurd hmissed' hmissed
    rw [Sessions.afterCalls, List.foldl_append, ← Sessions.afterCalls, ← hbefore]
    exact (if_pos hends).symm

/-- A well-behaved client that looks up nobody who is gone is orderly: of the sessions
there may be before a link there is only one, and that one admits it. -/
theorem WellBehaved.orderly (hes : WellBehaved db u es) (hmissed : ¬ missed) :
    Orderly db u missed es := by
  intro pre e T hpre hT
  have hsound : ∀ ctx f, .channelRead0 ctx f ∈ pre → ¬ f.Faulty db :=
    fun ctx f hf => hes.sound ctx f ((before_of_step hpre).subset hf)
  rw [eq_afterCalls hmissed hsound hT]
  exact hes.admitted pre e hpre

end WellBehaved

/-- **The sessions are determined by the calls of the clients**, each for itself, and
not by the order in which their operations were performed – where no client looks up
anybody who is gone, and no list replaces another. -/
theorem concurrent_sessions_determined {db : UserTable} {calls : User → List Event}
    {h : LoopHistory} {ts : List (Thread RegistryOp.Answer Throwable User)} {s : ServerState}
    (hdisjoint : ChannelsDisjoint calls) (hcalls : ∀ u, WellBehaved db u (calls u))
    (run : (serverSystem db calls).Run .empty h ts s) (hone : (begins h).Nodup)
    (hmeet : ValuesMeet h) (hdone : AllDone calls h ts)
    (hfound : ∀ u, ¬ LooksUpMissing (ownOps u h)) (hno : NoListReplaced h) :
    Represents db (Sessions.merge (fun u => Sessions.afterCalls db (calls u))) s.registries := by
  have horderly : ∀ u, Orderly db u (LooksUpMissing (ownOps u h)) (calls u) :=
    fun u => (hcalls u).orderly (hfound u)
  have hkept := kept_of_run hdisjoint hmeet horderly run hone
  refine represents_merge run hkept.inv hno (fun u => ?_)
  obtain ⟨T, hT, hs⟩ := hasSettled_of_allDone hkept run hdone u
  rw [← eq_afterCalls (hfound u) (hcalls u).sound hT]
  exact hs

/-! ## Two clients

A run in which the hypotheses of both theorems are met, and the operations of the two
clients are not in the order of their calls: one client is in the middle of a link while
the other goes, is found online by it and told. -/

/-- In a run by a schedule a traversal meets all there is. -/
theorem valuesMeet_play {db : UserTable} {calls : User → List Event} {us : List User}
    {schedule : List ℕ} :
    ValuesMeet
      (play RegistryOp.exec (serverSystem db calls) us schedule ServerState.empty).1 := by
  intro pre u ls hpre l hl _
  have hls : ls = (stateAt pre).registries.roomStubMap.values := answer_eq_of_play hpre
  rw [hls]
  exact hl

/-- One client comes and goes, the other comes. -/
def twoClients (u : User) : List Event :=
  if u = aaa then [.channelRead0 ⟨1⟩ (.message (.link 1 7)), .channelInactive ⟨1⟩]
  else if u = bbb then [.channelRead0 ⟨2⟩ (.message (.link 2 7))]
  else []

/-- The second client comes while the first is about to go. -/
def playTwoClients : Configuration RegistryOp.Answer Throwable User ServerState :=
  play RegistryOp.exec (serverSystem sampleTable twoClients) [aaa, bbb]
    (List.replicate 6 1 ++ List.replicate 2 0 ++ List.replicate 2 1 ++ List.replicate 7 0
      ++ List.replicate 7 1) .empty

theorem run_playTwoClients :
    (serverSystem sampleTable twoClients).Run .empty playTwoClients.1 playTwoClients.2.1
      playTwoClients.2.2 :=
  run_play (fun _ _ => Or.inr rfl) _ _ _

/-- What happens in that run. -/
theorem history_playTwoClients : playTwoClients.1 =
    [.begin aaa, .begin bbb,
      .perform aaa (.user2ChannelCtxPut aaa ⟨1⟩) (),
      .perform aaa (.channelId2UserPut 1 aaa) (),
      .perform aaa (.roomStubMapGet 7) none,
      .perform aaa (.roomStubMapPut 7 [aaa]) (),
      .perform aaa (.roomStubMapGet 7) (some ⟨7, 0⟩),
      .perform aaa (.usersIterator ⟨7, 0⟩) [aaa],
      .perform bbb (.user2ChannelCtxPut bbb ⟨2⟩) (),
      .perform bbb (.channelId2UserPut 2 bbb) (),
      .perform aaa (.channelId2UserGet 1) (some aaa),
      .perform aaa .user2ChannelCtxKeySet [bbb, aaa],
      .perform bbb (.roomStubMapGet 7) (some ⟨7, 0⟩),
      .perform bbb (.roomStubMapGet 7) (some ⟨7, 0⟩),
      .perform bbb (.usersAdd ⟨7, 0⟩ bbb) (),
      .perform bbb (.roomStubMapGet 7) (some ⟨7, 0⟩),
      .perform bbb (.usersIterator ⟨7, 0⟩) [aaa, bbb],
      .perform bbb (.user2ChannelCtxGet aaa) (some ⟨1⟩),
      .perform bbb (.writeAndFlush ⟨1⟩ (linkMessage (.link 2 7) bbb)) (),
      .perform aaa (.user2ChannelCtxGet bbb) (some ⟨2⟩),
      .perform aaa (.writeAndFlush ⟨2⟩ (offlineNotice aaa)) (),
      .perform aaa (.user2ChannelCtxRemove aaa) (),
      .perform aaa (.connectedChannelCtxRemove ⟨1⟩) (),
      .perform aaa (.channelId2UserRemove 1) (),
      .perform aaa .roomStubMapValues [⟨7, 0⟩],
      .perform aaa (.usersRemove ⟨7, 0⟩ aaa) ()] := by
  rfl

/-- The clients there are, by their calls. -/
theorem twoClients_cases (u : User) :
    (u = aaa ∧ twoClients u
        = [.channelRead0 ⟨1⟩ (.message (.link 1 7)), .channelInactive ⟨1⟩])
      ∨ (u = bbb ∧ twoClients u = [.channelRead0 ⟨2⟩ (.message (.link 2 7))])
      ∨ twoClients u = [] := by
  unfold twoClients
  split
  · next hu => exact Or.inl ⟨hu, rfl⟩
  · split
    · next hu => exact Or.inr (Or.inl ⟨hu, rfl⟩)
    · exact Or.inr (Or.inr rfl)

theorem channelsDisjoint_twoClients : ChannelsDisjoint twoClients := by
  have hchannel : ∀ u c, c ∈ channelsOf twoClients u →
      (u = aaa ∧ c = 1) ∨ (u = bbb ∧ c = 2) := by
    intro u c hc
    unfold channelsOf at hc
    obtain ⟨hu, hcalls⟩ | ⟨hu, hcalls⟩ | hcalls := twoClients_cases u
    · rw [hcalls] at hc
      simp only [List.map_cons, List.map_nil, Event.ctx, List.mem_cons, List.not_mem_nil,
        or_false, or_self] at hc
      exact Or.inl ⟨hu, hc⟩
    · rw [hcalls] at hc
      simp only [List.map_cons, List.map_nil, Event.ctx, List.mem_singleton] at hc
      exact Or.inr ⟨hu, hc⟩
    · rw [hcalls] at hc
      exact absurd hc List.not_mem_nil
  intro u v c hu hv
  obtain ⟨rfl, hc⟩ | ⟨rfl, hc⟩ := hchannel u c hu
  · obtain ⟨rfl, -⟩ | ⟨-, hc'⟩ := hchannel v c hv
    · rfl
    · exact absurd (hc.symm.trans hc') (by decide)
  · obtain ⟨-, hc'⟩ | ⟨rfl, -⟩ := hchannel v c hv
    · exact absurd (hc.symm.trans hc') (by decide)
    · rfl

/-- A first link of a stored user is well-behaved. -/
theorem wellBehaved_twoClients (u : User) : WellBehaved sampleTable u (twoClients u) := by
  have hsound : ∀ id room, sampleTable.getUserById (some id) ≠ none →
      ¬ (TextWebSocketFrame.message (.link id room)).Faulty sampleTable := by
    intro id room hid
    have hlink : (Message.link id room).HasType .link := rfl
    rintro (hf | ⟨-, hf | hf⟩ | ⟨hf, -⟩ | ⟨hf, -⟩)
    · exact absurd hf (by simp [Message.link])
    · exact hid hf
    · exact absurd hf (by simp [Message.link])
    · exact hf.not_hasType (by decide) hlink
    · exact hf.not_hasType (by decide) hlink
  have hadmits : ∀ c room, (SessionTable.empty : Sessions).Admits c u room := by
    intro c room
    refine ⟨fun c' hc => ?_, fun v hv => ?_, fun r _ hr => ?_⟩
    · exact absurd hc SessionTable.not_has_empty
    · exact absurd hv SessionTable.not_has_empty
    · exact SessionTable.not_inRoom_empty hr
  obtain ⟨rfl, hcalls⟩ | ⟨rfl, hcalls⟩ | hcalls := twoClients_cases u
  · rw [hcalls]
    refine ⟨fun ctx f hf => ?_, ?_⟩
    · simp only [List.mem_cons, Event.channelRead0.injEq, List.not_mem_nil, or_false,
        reduceCtorEq] at hf
      rw [hf.2]
      exact hsound 1 7 (by decide)
    · rw [forall_step_cons, forall_step_cons]
      refine ⟨?_, ?_, forall_step_nil.mpr trivial⟩
      · rintro ctx f w he hw
        cases he
        exact ⟨(Option.some.inj hw).symm, hadmits _ _⟩
      · rintro ctx f w he
        cases he
  · rw [hcalls]
    refine ⟨fun ctx f hf => ?_, ?_⟩
    · simp only [List.mem_singleton, Event.channelRead0.injEq] at hf
      rw [hf.2]
      exact hsound 2 7 (by decide)
    · rw [forall_step_cons]
      refine ⟨?_, forall_step_nil.mpr trivial⟩
      rintro ctx f w he hw
      cases he
      exact ⟨(Option.some.inj hw).symm, hadmits _ _⟩
  · rw [hcalls]
    exact ⟨fun ctx f hf => absurd hf List.not_mem_nil, forall_step_nil.mpr trivial⟩

theorem allDone_playTwoClients : AllDone twoClients playTwoClients.1 playTwoClients.2.1 := by
  refine ⟨fun u hu => ?_, ?_⟩
  · have hbegins : begins playTwoClients.1 = [aaa, bbb] := rfl
    rw [hbegins]
    by_contra hnot
    simp only [List.mem_cons, List.not_mem_nil, or_false, not_or] at hnot
    exact hu ((if_neg hnot.1).trans (if_neg hnot.2))
  · have hts : playTwoClients.2.1 = [⟨bbb, .ret ()⟩, ⟨aaa, .ret ()⟩] := rfl
    rw [hts]
    simp [IsOver]

theorem not_looksUpMissing_playTwoClients (u : User) :
    ¬ LooksUpMissing (ownOps u playTwoClients.1) := by
  rintro ⟨w, hw⟩
  rw [mem_ownOps, history_playTwoClients] at hw
  simp at hw

theorem noListReplaced_playTwoClients : NoListReplaced playTwoClients.1 := by
  have hsteps : ∀ pre act, pre ++ [act] <+: playTwoClients.1 → ∀ u room us a,
      act = .perform u (roomStubMapPut room us) a →
        (stateAt pre).registries.roomStubMap.get room = none := by
    rw [history_playTwoClients]
    simp only [forall_step_cons, forall_step_nil]
    simp [stateAt, replay, effect, RegistryOp.exec, ServerState.empty, Registries.empty]
  exact fun room pre u us a hpre => hsteps pre _ hpre u room us a rfl

theorem nodup_begins_playTwoClients : (begins playTwoClients.1).Nodup := by
  have hbegins : begins playTwoClients.1 = [aaa, bbb] := rfl
  rw [hbegins]
  decide

theorem concurrent_sessions_determined_twoClients :
    Represents sampleTable
      (Sessions.merge (fun u => Sessions.afterCalls sampleTable (twoClients u)))
      playTwoClients.2.2.registries :=
  concurrent_sessions_determined channelsDisjoint_twoClients wellBehaved_twoClients
    run_playTwoClients nodup_begins_playTwoClients valuesMeet_play allDone_playTwoClients
    not_looksUpMissing_playTwoClients noListReplaced_playTwoClients

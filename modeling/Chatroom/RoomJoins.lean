import Chatroom.ConcurrentCalls

/-!
# Users who join a room at one time

A link enters its user into a room in two operations: it asks whether the room
has a list, and then it adds the user to that list, or puts a fresh one there
with the user in it. Each of them is atomic, the two together are not. Links
that run side by side may all find the room without a list, and then each puts a
list of its own there; the last one stays, and the users of the others are gone
with theirs.

Nothing else can go wrong. A user who is in the list of a room stays there until
the list is replaced, so that everybody has joined in the end exactly if no
fresh list is put where there is one already (`noLostJoin_iff`).
-/

open AtomicSystem AtomicProgram ChatroomServerHandler RegistryOp

/-- The operations by which a user gets into a room. -/
def RegistryOp.IsJoin : RegistryOp → Prop
  | roomStubMapPut _ _ | usersAdd _ _ => True
  | _ => False

/-- The operations that change what a room reads. -/
def RegistryOp.ChangesRooms : RegistryOp → Prop
  | roomStubMapPut _ _ | usersAdd _ _ | usersRemove _ _ => True
  | _ => False

/-- A call has entered its user into a room, into whichever list. -/
def HasJoined (d : CallDeeds) : Prop := ∃ x ∈ d, IsJoin x.1

/-! ## What one link does

A link that has found a list asks for it a second time before it adds its user. Where
lists are never taken away the second answer is a list as well, so that every link joins
a list; whether that list is still the one of the room is another question. -/

section Link

variable {room : Long} {u : User} {d : CallDeeds}

/-- **What a link may do next**: it puts a fresh list where it found none, adds
its user to the list it found, and does neither twice. -/
def LinkStep (room : Long) (u : User) (d : CallDeeds) : RegistryOp → Prop
  | roomStubMapPut r us => r = room ∧ us = [u] ∧ ⟨roomStubMapGet room, none⟩ ∈ d ∧ ¬ HasJoined d
  | usersAdd l v => v = u ∧ ⟨roomStubMapGet room, some l⟩ ∈ d ∧ ¬ HasJoined d
  | usersRemove _ _ => False
  | _ => True

/-- What a link has done when it throws: it has joined the room, or the room had
a list and then had none. -/
def LinkRaises (room : Long) (d : CallDeeds) : Prop :=
  HasJoined d
    ∨ ∃ d' l, d = d' ++ [⟨roomStubMapGet room, none⟩] ∧ ⟨roomStubMapGet room, some l⟩ ∈ d'

theorem HasJoined.mono {d' : CallDeeds} (hd : HasJoined d) (hh : d <+: d') : HasJoined d' := by
  obtain ⟨y, hy, hjoin⟩ := hd
  exact ⟨y, hh.subset hy, hjoin⟩

theorem not_hasJoined_snoc {x : Σ o : RegistryOp, o.Answer} (hd : ¬ HasJoined d)
    (hx : ¬ IsJoin x.1) : ¬ HasJoined (d ++ [x]) := by
  rintro ⟨y, hy, hjoin⟩
  obtain hy | hy := List.mem_append.mp hy
  · exact hd ⟨y, hy, hjoin⟩
  · rw [List.mem_singleton.mp hy] at hjoin
    exact hx hjoin

/-- After a link has joined, it does nothing more to the rooms. -/
theorem keeps_perform_of_hasJoined {o : RegistryOp} (ho : ¬ ChangesRooms o) (hd : HasJoined d) :
    Keeps (LinkStep room u) (LinkRaises room) (perform o : HandlerProgram o.Answer) d
      (fun _ => HasJoined) := by
  refine ⟨?_, fun a => hd.mono (List.prefix_append d _)⟩
  cases o <;> first | trivial | exact absurd trivial ho

theorem keeps_broadcast {l : ListRef} {id : Option Long} {message : Message} (hd : HasJoined d) :
    Keeps (LinkStep room u) (LinkRaises room) (broadcast l id message) d
      (fun _ => HasJoined) := by
  refine keeps_bind (keeps_perform_of_hasJoined not_false hd) (fun users d₁ hd₁ => ?_)
  refine keeps_forEach (fun _ => HasJoined) (fun _ v _ d₂ hd₂ => ?_) hd₁
  rw [sendUnless]
  split
  · exact hd₂
  · refine keeps_bind (keeps_perform_of_hasJoined not_false hd₂) (fun c d₃ hd₃ => ?_)
    cases c with
    | none => exact Or.inl hd₃
    | some c => exact keeps_perform_of_hasJoined not_false hd₃

/-- **Entering a room**: with a fresh list, or in the one there is. -/
theorem keeps_joinRoom (hd : ¬ HasJoined d) :
    Keeps (LinkStep room u) (LinkRaises room) (joinRoom room u) d (fun _ => HasJoined) := by
  refine keeps_bind (keeps_perform trivial) ?_
  rintro l d₁ rfl
  have hd₁ : ∀ l, ¬ HasJoined (d ++ [⟨roomStubMapGet room, l⟩]) :=
    fun l => not_hasJoined_snoc hd not_false
  cases l with
  | none =>
    refine ⟨⟨rfl, rfl, by simp, hd₁ none⟩, fun a => ?_⟩
    exact ⟨⟨roomStubMapPut room [u], a⟩, by simp, trivial⟩
  | some l₀ =>
    refine keeps_bind (keeps_perform trivial) ?_
    rintro l d₂ rfl
    cases l with
    | none => exact Or.inr ⟨_, l₀, rfl, by simp⟩
    | some l =>
      refine ⟨⟨rfl, by simp, not_hasJoined_snoc (hd₁ (some l₀)) not_false⟩, fun a => ?_⟩
      exact ⟨⟨usersAdd l u, a⟩, by simp, trivial⟩

/-- **A link of a stored user to a room** joins the room, and does so once. The relay
after it may throw, and that undoes nothing. -/
theorem keeps_link {db : UserTable} {ctx : ChannelHandlerContext} {m : Message}
    (hm : m.HasType .link) (hs : db.getUserById m.senderId = some u)
    (hr : m.roomId = some room) :
    Keeps (LinkStep room u) (LinkRaises room)
      (handler db (.channelRead0 ctx (.message m))) []
      (fun _ => HasJoined) := by
  have hcode : m.type = some MessageType.link.getCode := hm
  show Keeps _ _ (handleMessage db ctx m) [] _
  simp only [handleMessage, hcode, hs, hr, nonNull_some, bind_of_pure, if_true]
  refine keeps_bind (keeps_perform trivial) ?_
  rintro - d₁ rfl
  refine keeps_bind (keeps_perform trivial) ?_
  rintro - d₂ rfl
  refine keeps_bind (keeps_joinRoom ?_) (fun _ d₃ hd₃ => ?_)
  · rintro ⟨x, hx, hjoin⟩
    simp only [List.nil_append, List.cons_append, List.mem_cons, List.not_mem_nil,
      or_false] at hx
    obtain rfl | rfl := hx
    · exact hjoin
    · exact hjoin
  · refine keeps_bind (keeps_perform_of_hasJoined not_false hd₃) (fun l d₄ hd₄ => ?_)
    cases l with
    | none => exact Or.inl hd₄
    | some l => exact keeps_broadcast hd₄

end Link

/-! ## Links side by side -/

/-- The call that a frame is handled by. -/
def frameCall (f : ChannelHandlerContext × Message) : Event := .channelRead0 f.1 (.message f.2)

/-- **Links of distinct stored users to one room**, on distinct channels. -/
structure LinksTo (db : UserTable) (room : Long)
    (frames : List (ChannelHandlerContext × Message)) : Prop where
  type : ∀ f ∈ frames, f.2.HasType .link
  roomId : ∀ f ∈ frames, f.2.roomId = some room
  sender : ∀ f ∈ frames, ∃ u, db.getUserById f.2.senderId = some u
  channels_nodup : (frames.map Prod.fst).Nodup
  senders_nodup : (frames.map (fun f => f.2.senderId)).Nodup

/-- **Everybody has joined the room**: the sender of each frame is in its list. -/
def AllJoined (db : UserTable) (room : Long) (frames : List (ChannelHandlerContext × Message))
    (s : ServerState) : Prop :=
  ∀ f ∈ frames, ∀ u, db.getUserById f.2.senderId = some u →
    u ∈ s.registries.roomStubMap.users room

/-- **A fresh list is put at a room only where there is none.** -/
def PutsWhereNone (room : Long) (s₀ : ServerState) (h : History) : Prop :=
  ∀ pre e us, pre ++ [.perform e (.roomStubMapPut room us) ()] <+: h →
    (stateAfter s₀ pre).registries.roomStubMap.get room = none

namespace LinksTo

variable {db : UserTable} {room : Long} {frames : List (ChannelHandlerContext × Message)}

theorem calls_nodup (hf : LinksTo db room frames) : (frames.map frameCall).Nodup := by
  refine List.Nodup.of_map Event.ctx ?_
  rw [List.map_map]
  exact hf.channels_nodup

/-- The users are told apart by the calls: no two frames have one sender id, and a user
has only one. -/
theorem user_ne (hf : LinksTo db room frames) {f f' : ChannelHandlerContext × Message}
    (hmem : f ∈ frames) (hmem' : f' ∈ frames) {u u' : User}
    (hu : db.getUserById f.2.senderId = some u) (hu' : db.getUserById f'.2.senderId = some u')
    (hne : frameCall f ≠ frameCall f') : u ≠ u' := by
  rintro rfl
  have hid : f.2.senderId = f'.2.senderId := by
    rw [← UserTable.id_eq_of_getUserById hu, ← UserTable.id_eq_of_getUserById hu']
  exact hne (congrArg frameCall (List.inj_on_of_nodup_map hf.senders_nodup hmem hmem' hid))

end LinksTo

section Run

variable {db : UserTable} {room : Long} {frames : List (ChannelHandlerContext × Message)}
  {s₀ s : ServerState} {h pre pre' : History}
  {ts : List (Thread RegistryOp.Answer Throwable Event)}

/-- The list a call was answered was that of the room at an earlier moment. -/
theorem exists_get_of_answered (run : (chatSystem db).Run s₀ h ts s) (hpre : pre <+: h)
    {e : Event} {l : Option ListRef} (hmem : ⟨roomStubMapGet room, l⟩ ∈ ownOps e pre) :
    ∃ p, p <+: pre ∧ (stateAfter s₀ p).registries.roomStubMap.get room = l := by
  obtain ⟨p, hp, hget⟩ := exists_answer_eq_exec run hpre id hmem
  exact ⟨p, before_of_step hp, hget.symm⟩

end Run

/-- **A run of the calls of some frames**: each of them began, once, and nothing
else did. -/
def RunOf (frames : List (ChannelHandlerContext × Message)) (h : History) : Prop :=
  (begins h).Perm (frames.map frameCall)

/-- No call begins twice. -/
theorem LinksTo.begins_once {db : UserTable} {room : Long}
    {frames : List (ChannelHandlerContext × Message)} {h : History} (hf : LinksTo db room frames)
    (hrun : RunOf frames h) (e : Event) : (begins h).count e ≤ 1 :=
  List.nodup_iff_count_le_one.mp (hrun.nodup_iff.mpr hf.calls_nodup) e

/-- **What a step of such a run does to the rooms**: a link that has not joined
yet puts a fresh list where it found none, or adds its user to the list it
found; nothing else changes. -/
inductive Enters (db : UserTable) (room : Long) (frames : List (ChannelHandlerContext × Message))
    (pre : History) (rooms : RoomStubMap) :
    AtomicAction RegistryOp.Answer Event → RoomStubMap → Prop
  | nothing {act : AtomicAction RegistryOp.Answer Event} :
      Enters db room frames pre rooms act rooms
  | put {f : ChannelHandlerContext × Message} {u : User} (hmem : f ∈ frames)
      (hu : db.getUserById f.2.senderId = some u)
      (hnew : ¬ HasJoined (ownOps (frameCall f) pre)) :
      Enters db room frames pre rooms (.perform (frameCall f) (.roomStubMapPut room [u]) ())
        (rooms.put room [u])
  | add {f : ChannelHandlerContext × Message} {u : User} {l : ListRef} (hmem : f ∈ frames)
      (hu : db.getUserById f.2.senderId = some u)
      (hnew : ¬ HasJoined (ownOps (frameCall f) pre)) :
      Enters db room frames pre rooms (.perform (frameCall f) (.usersAdd l u) ()) (rooms.add l u)

section Links

variable {db : UserTable} {room : Long} {frames : List (ChannelHandlerContext × Message)}
  {s₀ s : ServerState} {h pre pre' : History}
  {ts : List (Thread RegistryOp.Answer Throwable Event)}
  (hf : LinksTo db room frames) (run : (chatSystem db).Run s₀ h ts s) (hrun : RunOf frames h)
include hf run hrun

/-- **Every operation of the run** is what the link of one of the frames may do
next. -/
theorem exists_linkStep {e : Event} {o : RegistryOp} {a : o.Answer}
    (hpre : pre ++ [.perform e o a] <+: h) :
    ∃ f ∈ frames, ∃ u, e = frameCall f ∧ db.getUserById f.2.senderId = some u
      ∧ LinkStep room u (ownOps e pre) o := by
  have hbegan : e ∈ begins h := run.mem_begins (mem_of_step hpre)
  obtain ⟨f, hmem, rfl⟩ := List.mem_map.mp (hrun.subset hbegan)
  obtain ⟨u, hu⟩ := hf.sender f hmem
  refine ⟨f, hmem, u, rfl, hu, ?_⟩
  exact run.step_of_keeps (hf.begins_once hrun _)
    (keeps_link (hf.type f hmem) hu (hf.roomId f hmem)) hpre

/-- **Every step of the run** does to the rooms what a link may: there are no logouts in
it, so that nobody leaves a list. -/
theorem enters {act : AtomicAction RegistryOp.Answer Event} (hpre : pre ++ [act] <+: h) :
    Enters db room frames pre (stateAfter s₀ pre).registries.roomStubMap act
      (stateAfter s₀ (pre ++ [act])).registries.roomStubMap := by
  cases act with
  | begin e =>
    rw [stateAfter, stateAfter, replay_begin]
    exact .nothing
  | perform e o a =>
    obtain ⟨f, hmem, u, rfl, hu, hstep⟩ := exists_linkStep hf run hrun hpre
    rw [stateAfter, stateAfter, replay_perform]
    cases o with
    | roomStubMapPut r us =>
      obtain ⟨rfl, rfl, -, hnew⟩ := hstep
      exact .put hmem hu hnew
    | usersAdd l v =>
      obtain ⟨rfl, -, hnew⟩ := hstep
      exact .add hmem hu hnew
    | usersRemove l v => exact absurd hstep id
    | _ => exact .nothing

/-- A room that once had a list has one. -/
theorem isSome_get_later (hh : pre <+: pre') (hh' : pre' <+: h)
    (hsome : ((stateAfter s₀ pre).registries.roomStubMap.get room).isSome = true) :
    ((stateAfter s₀ pre').registries.roomStubMap.get room).isSome = true := by
  refine forall_later_of_step
    (P := fun p => ((stateAfter s₀ p).registries.roomStubMap.get room).isSome = true) hsome
    (fun p act _ hp hsome => ?_) hh hh'
  have hstep := enters hf run hrun hp
  generalize (stateAfter s₀ (p ++ [act])).registries.roomStubMap = rooms at hstep ⊢
  cases hstep with
  | nothing => exact hsome
  | put => simp
  | add => exact hsome

/-- **A link that is over has joined the room**: a room that had a list does not
lose it. -/
theorem hasJoined_of_isOver {f : ChannelHandlerContext × Message} (hmem : f ∈ frames)
    (hover : ∀ th ∈ ts, IsOver th.program) : HasJoined (ownOps (frameCall f) h) := by
  obtain ⟨u, hu⟩ := hf.sender f hmem
  have htask : frameCall f ∈ ts.map Thread.task := by
    rw [run.map_task, List.mem_reverse]
    exact hrun.symm.subset (List.mem_map_of_mem hmem)
  obtain ⟨⟨e, p⟩, hth, rfl⟩ := List.mem_map.mp htask
  obtain ⟨-, hjoined⟩ | ⟨-, hjoined | ⟨d, l, hlast, hl⟩⟩ :=
    run.over_of_keeps (hf.begins_once hrun _)
      (keeps_link (hf.type f hmem) hu (hf.roomId f hmem)) hth (hover _ hth)
  · exact hjoined
  · exact hjoined
  · -- the two answers contradict each other
    obtain ⟨pre, hpre, rfl⟩ := exists_of_ownOps_eq hlast
    obtain ⟨p, hp, hget⟩ := exists_get_of_answered run (before_of_step hpre) hl
    have hnone : none = (stateAfter s₀ pre).registries.roomStubMap.get room :=
      answer_eq_exec run id hpre
    have hfound : ((stateAfter s₀ p).registries.roomStubMap.get room).isSome = true := by
      rw [hget]
      rfl
    have hsome := isSome_get_later hf run hrun hp (before_of_step hpre) hfound
    rw [← hnone] at hsome
    exact absurd hsome (by simp)

/-- **A user in the room stays there** as long as fresh lists are put where there
is none. -/
theorem mem_users_later (hputs : PutsWhereNone room s₀ h) {u : User} (hh : pre <+: pre')
    (hh' : pre' <+: h) (hu : u ∈ (stateAfter s₀ pre).registries.roomStubMap.users room) :
    u ∈ (stateAfter s₀ pre').registries.roomStubMap.users room := by
  refine forall_later_of_step
    (P := fun p => u ∈ (stateAfter s₀ p).registries.roomStubMap.users room) hu
    (fun p act _ hp hu => ?_) hh hh'
  have hstep := enters hf run hrun hp
  generalize (stateAfter s₀ (p ++ [act])).registries.roomStubMap = rooms at hstep ⊢
  cases hstep with
  | nothing => exact hu
  | put =>
    rw [RoomStubMap.users_of_get_none (hputs p _ _ hp)] at hu
    exact absurd hu List.not_mem_nil
  | add => exact RoomStubMap.mem_users_add.mpr (Or.inl hu)

/-- The list of the room stays the same as long as fresh lists are put where
there is none. -/
theorem get_later (hputs : PutsWhereNone room s₀ h) {l : ListRef} (hh : pre <+: pre')
    (hh' : pre' <+: h)
    (hl : (stateAfter s₀ pre).registries.roomStubMap.get room = some l) :
    (stateAfter s₀ pre').registries.roomStubMap.get room = some l := by
  refine forall_later_of_step
    (P := fun p => (stateAfter s₀ p).registries.roomStubMap.get room = some l) hl
    (fun p act _ hp hl => ?_) hh hh'
  have hstep := enters hf run hrun hp
  generalize (stateAfter s₀ (p ++ [act])).registries.roomStubMap = rooms at hstep ⊢
  cases hstep with
  | nothing => exact hl
  | put => exact absurd (hl.symm.trans (hputs p _ _ hp)) (by simp)
  | add => exact hl

/-- A user joins the room with the operation that is its link's entry. -/
theorem mem_users_of_isJoin (hputs : PutsWhereNone room s₀ h)
    {f : ChannelHandlerContext × Message} {u : User} (hu : db.getUserById f.2.senderId = some u)
    {o : RegistryOp} {a : o.Answer} (ho : IsJoin o)
    (hpre : pre ++ [.perform (frameCall f) o a] <+: h) :
    u ∈ (stateAfter s₀
      (pre ++ [.perform (frameCall f) o a])).registries.roomStubMap.users room := by
  obtain ⟨f', -, v, he, hv, hstep⟩ := exists_linkStep hf run hrun hpre
  obtain rfl : u = v := by
    have hid : f.2.senderId = f'.2.senderId := by
      simp only [frameCall, Event.channelRead0.injEq, TextWebSocketFrame.message.injEq] at he
      rw [he.2]
    rw [hid, hv] at hu
    exact (Option.some.inj hu).symm
  rw [stateAfter, replay_perform]
  cases o with
  | roomStubMapPut r us =>
    obtain ⟨rfl, rfl, -, -⟩ := hstep
    show u ∈ RoomStubMap.users (RoomStubMap.put _ r [u]) r
    simp
  | usersAdd l w =>
    obtain ⟨rfl, hl, -⟩ := hstep
    obtain ⟨p, hp, hget⟩ := exists_get_of_answered run (before_of_step hpre) hl
    have hcurrent := get_later hf run hrun hputs hp (before_of_step hpre) hget
    exact RoomStubMap.mem_users_add.mpr (Or.inr ⟨hcurrent, rfl⟩)
  | _ => exact absurd ho id

/-- A user who is not in the room, and whose link has joined it already, is not
in it later on: nobody else enters that user. -/
theorem not_mem_users_later {f : ChannelHandlerContext × Message} (hmem : f ∈ frames) {u : User}
    (hu : db.getUserById f.2.senderId = some u) (hjoined : HasJoined (ownOps (frameCall f) pre))
    (hh : pre <+: pre') (hh' : pre' <+: h)
    (hnot : u ∉ (stateAfter s₀ pre).registries.roomStubMap.users room) :
    u ∉ (stateAfter s₀ pre').registries.roomStubMap.users room := by
  refine forall_later_of_step
    (P := fun p => u ∉ (stateAfter s₀ p).registries.roomStubMap.users room) hnot
    (fun p act hpre hp hnot => ?_) hh hh'
  -- an entry is one of another link, and so of another user
  have hother : ∀ f' ∈ frames, ∀ v, db.getUserById f'.2.senderId = some v →
      ¬ HasJoined (ownOps (frameCall f') p) → u ≠ v := by
    intro f' hmem' v hv hnew
    refine hf.user_ne hmem hmem' hu hv (fun he => hnew ?_)
    rw [← he]
    exact hjoined.mono (ownOps_mono hpre)
  have hstep := enters hf run hrun hp
  generalize (stateAfter s₀ (p ++ [act])).registries.roomStubMap = rooms at hstep ⊢
  cases hstep with
  | nothing => exact hnot
  | put hmem' hv hnew => simpa using hother _ hmem' _ hv hnew
  | add hmem' hv hnew =>
    intro hin
    obtain hin | ⟨-, he⟩ := RoomStubMap.mem_users_add.mp hin
    · exact hnot hin
    · exact hother _ hmem' _ hv hnew he

/-- A room that gets a list gets it by a put. This is what the first list of the room is
found by, where there was none at first. -/
theorem exists_put (hh : pre <+: pre') (hh' : pre' <+: h)
    (hnone : (stateAfter s₀ pre).registries.roomStubMap.get room = none)
    (hsome : (stateAfter s₀ pre').registries.roomStubMap.get room ≠ none) :
    ∃ p e us, p ++ [.perform e (.roomStubMapPut room us) ()] <+: pre' := by
  by_contra hno
  push Not at hno
  refine hsome (forall_later_of_step
    (P := fun p => (stateAfter s₀ p).registries.roomStubMap.get room = none) hnone
    (fun p act _ hp hnone => ?_) hh (List.prefix_refl pre'))
  have hstep := enters hf run hrun (hp.trans hh')
  generalize (stateAfter s₀ (p ++ [act])).registries.roomStubMap = rooms at hstep ⊢
  cases hstep with
  | nothing => exact hnone
  | put => exact absurd hp (hno p _ _)
  | add => exact hnone

end Links

/-- **Everybody has joined the room in the end exactly if a fresh list was put
there only where there was none** – whatever the order in which the operations
of the links were performed. -/
theorem noLostJoin_iff {db : UserTable} {room : Long}
    {frames : List (ChannelHandlerContext × Message)} (hf : LinksTo db room frames)
    {s₀ s : ServerState} {h : History} {ts : List (Thread RegistryOp.Answer Throwable Event)}
    (run : (chatSystem db).Run s₀ h ts s) (hrun : RunOf frames h)
    (hover : ∀ th ∈ ts, IsOver th.program) :
    AllJoined db room frames s ↔ PutsWhereNone room s₀ h := by
  rw [← stateAfter_eq run]
  constructor
  · intro hall pre e us hpre
    by_contra hsome
    -- the put replaces a list: that of another link, which found none either
    obtain ⟨f, hmem, v, rfl, hv, -, rfl, hanswer, hnew⟩ := exists_linkStep hf run hrun hpre
    obtain ⟨p, hp, hnone⟩ :=
      exists_get_of_answered run (before_of_step hpre) hanswer
    have hph := before_of_step hpre
    obtain ⟨q, e', us', hq⟩ := exists_put hf run hrun hp hph hnone hsome
    have hqh := hq.trans hph
    obtain ⟨f', hmem', v', rfl, hv', -, rfl, -, -⟩ := exists_linkStep hf run hrun hqh
    have hjoined : HasJoined (ownOps (frameCall f') pre) :=
      ⟨⟨.roomStubMapPut room [v'], ()⟩, mem_ownOps.mpr (mem_of_step hq), trivial⟩
    have hne : v' ≠ v := by
      refine hf.user_ne hmem' hmem hv' hv (fun he => hnew ?_)
      rwa [← he]
    refine not_mem_users_later hf run hrun hmem' hv' ?_ hpre (List.prefix_refl h) ?_
      (hall f' hmem' v' hv')
    · exact hjoined.mono (ownOps_mono (List.prefix_append pre _))
    · rw [stateAfter, replay_perform]
      show v' ∉ RoomStubMap.users (RoomStubMap.put _ room [v]) room
      simpa using hne
  · intro hputs f hmem u hu
    obtain ⟨⟨o, a⟩, hx, hjoin⟩ := hasJoined_of_isOver hf run hrun hmem hover
    obtain ⟨pre, hpre⟩ := exists_prefix_of_mem (mem_ownOps.mp hx)
    exact mem_users_later hf run hrun hputs hpre (List.prefix_refl h)
      (mem_users_of_isJoin hf run hrun hputs hu hjoin hpre)

/-! ## Two links -/

/-- Two users who link to one room, on two channels. -/
def twoFrames : List (ChannelHandlerContext × Message) := [(⟨1⟩, .link 1 7), (⟨2⟩, .link 2 7)]

theorem linksTo_twoFrames : LinksTo sampleTable 7 twoFrames where
  type := by decide
  roomId := by decide
  sender := by
    intro f hf
    obtain rfl | rfl : f = (⟨1⟩, .link 1 7) ∨ f = (⟨2⟩, .link 2 7) := by
      simpa [twoFrames] using hf
    · exact ⟨aaa, by decide⟩
    · exact ⟨bbb, by decide⟩
  channels_nodup := by decide
  senders_nodup := by decide

/-- A run of the two links, by a schedule. -/
def playTwo (schedule : List ℕ) : Configuration RegistryOp.Answer Throwable Event ServerState :=
  play RegistryOp.exec (chatSystem sampleTable) (twoFrames.map frameCall) schedule .empty

theorem run_playTwo (schedule : List ℕ) :
    (chatSystem sampleTable).Run .empty (playTwo schedule).1 (playTwo schedule).2.1
      (playTwo schedule).2.2 :=
  run_play (fun _ _ => Or.inr rfl) _ _ _

/-- The first link is over before the second begins its work: both have joined. -/
def oneByOne : List ℕ := List.replicate 6 1 ++ List.replicate 9 0

/-- Both links ask for the list of the room before either puts one there. -/
def sideBySide : List ℕ := List.replicate 3 1 ++ List.replicate 3 0 ++ [1] ++ List.replicate 9 0
  ++ List.replicate 9 1

theorem runOf_playTwo_oneByOne : RunOf twoFrames (playTwo oneByOne).1 := by
  have hbegins : begins (playTwo oneByOne).1 = twoFrames.map frameCall := by decide
  exact .of_eq hbegins

theorem runOf_playTwo_sideBySide : RunOf twoFrames (playTwo sideBySide).1 := by
  have hbegins : begins (playTwo sideBySide).1 = twoFrames.map frameCall := by decide
  exact .of_eq hbegins

/-- One link after the other: a fresh list is put at the room once. -/
theorem noLostJoin_oneByOne : PutsWhereNone 7 .empty (playTwo oneByOne).1 := by
  refine (noLostJoin_iff linksTo_twoFrames (run_playTwo oneByOne) runOf_playTwo_oneByOne
    (by decide)).mp ?_
  have husers : (playTwo oneByOne).2.2.registries.roomStubMap.users 7 = [aaa, bbb] := by decide
  intro f hf u hu
  rw [husers]
  obtain rfl | rfl : f = (⟨1⟩, .link 1 7) ∨ f = (⟨2⟩, .link 2 7) := by simpa [twoFrames] using hf
  · have haaa : sampleTable.getUserById (Message.link 1 7).senderId = some aaa := by decide
    rw [Option.some.inj (hu.symm.trans haaa)]
    decide
  · have hbbb : sampleTable.getUserById (Message.link 2 7).senderId = some bbb := by decide
    rw [Option.some.inj (hu.symm.trans hbbb)]
    decide

/-- Side by side, both links put a fresh list at the room, and the first user is
lost. -/
theorem not_noLostJoin :
    ¬ ∀ (db : UserTable) (room : Long) (frames : List (ChannelHandlerContext × Message))
      (s₀ s : ServerState) (h : History)
      (ts : List (Thread RegistryOp.Answer Throwable Event)),
        2 ≤ frames.length → LinksTo db room frames → (chatSystem db).Run s₀ h ts s →
          RunOf frames h → (∀ th ∈ ts, IsOver th.program) → AllJoined db room frames s := by
  intro h
  have hall := h _ _ _ _ _ _ _ (by decide) linksTo_twoFrames (run_playTwo sideBySide)
    runOf_playTwo_sideBySide (by decide)
  have hlost : (playTwo sideBySide).2.2.registries.roomStubMap.users 7 = [bbb] := by decide
  have haaa := hall (⟨1⟩, .link 1 7) (by decide) aaa (by decide)
  rw [hlost] at haaa
  exact absurd haaa (by decide)

import Chatroom.Invocation
import Mathlib.Data.List.Infix

/-!
# Runs of the handler, one call at a time

A run is the list of the calls Netty makes. Two readings of it are used:

* `after` makes the calls as listed. It assumes nothing about their order, so
  what is proved of all its runs holds however callbacks follow each other;
* `afterDispatch` adds Netty's own rule: a call that throws is followed at once
  by `exceptionCaught` on the same channel, and an exception of
  `exceptionCaught` itself is dropped.

`RegistryStep` lists the five things a call can do to the registries, and
`registryStep_invoke` is the case analysis every invariant is proved by.
`frameThrows` says, before a frame is handled, whether its handling will throw.
-/

open AtomicProgram RegistryOp ChatroomServerHandler

/-- **What is observed of a call**: the exception that left it, the registries
it leaves, and the frames it wrote, in order. -/
structure Outcome where
  thrown : Option Throwable
  registries : Registries
  written : List Written

/-- The outcome of a program that has run. -/
def Outcome.ofRun : Except Throwable Unit × ServerState → Outcome
  | (.ok _, s) => ⟨none, s.registries, s.written⟩
  | (.error e, s) => ⟨some e, s.registries, s.written⟩

/-- **One call of the handler**, alone. -/
def invoke (db : UserTable) (e : Event) (r : Registries) : Outcome :=
  Outcome.ofRun ((handler db e).run exec ⟨r, []⟩)

/-- One call of the handler with what Netty makes of its exception. -/
def dispatch (db : UserTable) (e : Event) (r : Registries) : Outcome :=
  match invoke db e r, e with
  | ⟨none, r', w⟩, _ => ⟨none, r', w⟩
  | ⟨some t, r', w⟩, .exceptionCaught _ => ⟨some t, r', w⟩
  | ⟨some t, r', w⟩, e =>
      let o := invoke db (.exceptionCaught e.ctx) r'
      ⟨some t, o.registries, w ++ o.written⟩

/-- The registries after a list of calls. -/
def after (db : UserTable) (es : List Event) : Registries :=
  es.foldl (fun r e => (invoke db e r).registries) Registries.empty

/-- The registries after a list of calls that Netty makes. -/
def afterDispatch (db : UserTable) (es : List Event) : Registries :=
  es.foldl (fun r e => (dispatch db e r).registries) Registries.empty

/-- A channel is open once it became active, until it becomes inactive. -/
def ChannelOpen (es : List Event) (ctx : ChannelHandlerContext) : Prop :=
  .channelActive ctx ∈ es ∧ .channelInactive ctx ∉ es

instance (es : List Event) (ctx : ChannelHandlerContext) :
    Decidable (ChannelOpen es ctx) :=
  inferInstanceAs (Decidable (_ ∧ _))

/-- The calls whose method is a logout. -/
def Event.IsLogout : Event → Prop
  | channelInactive _ | exceptionCaught _ => True
  | _ => False

instance (e : Event) : Decidable e.IsLogout :=
  match e with
  | .channelInactive _ | .exceptionCaught _ => isTrue trivial
  | .channelActive _ | .channelRead0 _ _ => isFalse id

/-- The two logout callbacks. -/
theorem Event.IsLogout.eq_or_eq {e : Event} (he : e.IsLogout) :
    ∃ ctx, e = .channelInactive ctx ∨ e = .exceptionCaught ctx := by
  cases e with
  | channelInactive ctx => exact ⟨ctx, Or.inl rfl⟩
  | exceptionCaught ctx => exact ⟨ctx, Or.inr rfl⟩
  | channelActive ctx => exact absurd he id
  | channelRead0 ctx f => exact absurd he id

/-- **The user a frame links its channel as**, if it does: the stored user it
names, when it is a link. -/
def linkSender (db : UserTable) : TextWebSocketFrame → Option User
  | .message m => if m.HasType .link then db.getUserById m.senderId else none
  | _ => none

/-- **Whether the handling of a frame throws**, told from the frame, the user
table and the registries before it. -/
def frameThrows (db : UserTable) (r : Registries) : TextWebSocketFrame → Prop
  | .unparsable | .null => True
  | .message m =>
      m.type = none
      ∨ (m.HasType .link ∧ (db.getUserById m.senderId = none
          ∨ ∀ room, m.roomId = some room →
              r.reachesAll (r.roomStubMap.users room) m.senderId = false))
      ∨ (m.HasType .groupSend ∧ m.receiverId = none ∧ ∀ room, m.roomId = some room →
          (db.getUserById m.senderId = none ∧ r.roomStubMap.get room ≠ none)
          ∨ r.reachesAll (r.roomStubMap.users room) m.senderId = false)
      ∨ (m.HasType .singleSend ∧ db.getUserById m.receiverId = none)

section Runs

variable (db : UserTable) (es : List Event) (e : Event)

@[simp] theorem after_nil : after db [] = Registries.empty := rfl

@[simp] theorem after_snoc :
    after db (es ++ [e]) = (invoke db e (after db es)).registries := by
  simp [after]

@[simp] theorem afterDispatch_nil : afterDispatch db [] = Registries.empty := rfl

@[simp] theorem afterDispatch_snoc :
    afterDispatch db (es ++ [e])
      = (dispatch db e (afterDispatch db es)).registries := by
  simp [afterDispatch]

end Runs

/-! ## Outcomes of the single calls -/

section Calls

variable (db : UserTable) (r : Registries) (ctx : ChannelHandlerContext)

theorem invoke_channelActive :
    invoke db (.channelActive ctx) r
      = ⟨none, { r with connectedChannelCtx := r.connectedChannelCtx ++ [ctx] }, []⟩ :=
  rfl

/-- The two logout callbacks are one method. -/
theorem invoke_of_isLogout {e : Event} (he : e.IsLogout) :
    invoke db e r = Outcome.ofRun ((handleLogout e.ctx).run exec ⟨r, []⟩) := by
  obtain ⟨ctx, rfl | rfl⟩ := he.eq_or_eq
  · rfl
  · rfl

theorem invoke_logout_none {e : Event} (he : e.IsLogout)
    (h : r.channelId2User.get e.ctx.channelId = none) :
    invoke db e r = ⟨some .nullPointerException, r, []⟩ := by
  rw [invoke_of_isLogout db r he, run_handleLogout_none h]
  rfl

theorem invoke_logout_some {e : Event} (he : e.IsLogout) {u : User}
    (h : r.channelId2User.get e.ctx.channelId = some u) :
    invoke db e r = ⟨none, r.logout e.ctx u,
      r.deliveries r.user2ChannelCtx.keySet u.id (offlineNotice u)⟩ := by
  rw [invoke_of_isLogout db r he, run_handleLogout_some h]
  rfl

theorem invoke_channelRead0_message (m : Message) :
    invoke db (.channelRead0 ctx (.message m)) r
      = Outcome.ofRun ((handleMessage db ctx m).run exec ⟨r, []⟩) := rfl

end Calls

/-! ## What a frame does

The branches of the handler, put together again: a frame links its channel or
leaves the registries as they are, and it throws exactly where
`frameThrows` says. -/

/-- The room a frame names. -/
def TextWebSocketFrame.roomId : TextWebSocketFrame → Option Long
  | .message m => m.roomId
  | _ => none

namespace Registries

/-- **What a link does to the registries**: the two puts, and the entry into a
room if one is named. -/
def link (r : Registries) (ctx : ChannelHandlerContext) (u : User) :
    Option Long → Registries
  | none => r.register ctx u
  | some room => r.join ctx u room

section Link

variable (r : Registries) (ctx : ChannelHandlerContext) (u : User)
  (roomId : Option Long)

@[simp] theorem user2ChannelCtx_link :
    (r.link ctx u roomId).user2ChannelCtx = r.user2ChannelCtx.put u ctx := by
  cases roomId <;> rfl

@[simp] theorem channelId2User_link :
    (r.link ctx u roomId).channelId2User
      = r.channelId2User.put ctx.channelId u := by
  cases roomId <;> rfl

@[simp] theorem connectedChannelCtx_link :
    (r.link ctx u roomId).connectedChannelCtx = r.connectedChannelCtx := by
  cases roomId <;> rfl

@[simp] theorem users_link (room : Long) :
    (r.link ctx u roomId).roomStubMap.users room
      = if roomId = some room then r.roomStubMap.users room ++ [u]
        else r.roomStubMap.users room := by
  cases roomId with
  | none => rfl
  | some room' =>
    show (r.roomStubMap.join room' u).users room = _
    rw [RoomStubMap.users_join]
    by_cases h : room = room'
    · subst h
      simp
    · simp [h, Ne.symm h]

end Link

end Registries

section Frames

variable {db : UserTable} {m : Message} {f : TextWebSocketFrame}

/-- The kinds of message there are, for a case analysis. -/
theorem Message.type_cases (m : Message) :
    m.type = none ∨ m.HasType .link ∨ m.HasType .groupSend ∨ m.HasType .singleSend
      ∨ (m.type ≠ none ∧ ∀ t, ¬ m.HasType t) := by
  by_cases hnone : m.type = none
  · exact Or.inl hnone
  by_cases hsome : ∃ t, m.HasType t
  · obtain ⟨t, ht⟩ := hsome
    cases t with
    | link => exact Or.inr (Or.inl ht)
    | groupSend => exact Or.inr (Or.inr (Or.inl ht))
    | singleSend => exact Or.inr (Or.inr (Or.inr (Or.inl ht)))
  · exact Or.inr (Or.inr (Or.inr (Or.inr ⟨hnone, fun t ht => hsome ⟨t, ht⟩⟩)))

theorem linkSender_of_link (h : m.HasType .link) :
    linkSender db (.message m) = db.getUserById m.senderId := if_pos h

theorem linkSender_of_not_link (h : ¬ m.HasType .link) :
    linkSender db (.message m) = none := if_neg h

/-- A frame that links its channel is a link, sent by the user it links as. -/
theorem linkSender_eq_some {u : User} (h : linkSender db f = some u) :
    ∃ m, f = .message m ∧ m.HasType .link ∧ db.getUserById m.senderId = some u := by
  cases f with
  | unparsable => exact absurd h (by simp [linkSender])
  | null => exact absurd h (by simp [linkSender])
  | message m =>
    by_cases hm : m.HasType .link
    · exact ⟨m, rfl, hm, (linkSender_of_link hm).symm.trans h⟩
    · rw [linkSender_of_not_link hm] at h
      exact absurd h (by simp)

variable (r : Registries) (ctx : ChannelHandlerContext)

theorem frameThrows_of_type_none (h : m.type = none) :
    frameThrows db r (.message m) := Or.inl h

theorem frameThrows_of_link (h : m.HasType .link) :
    frameThrows db r (.message m)
      ↔ db.getUserById m.senderId = none
        ∨ ∀ room, m.roomId = some room →
            r.reachesAll (r.roomStubMap.users room) m.senderId = false := by
  have hgroup : ¬ m.HasType .groupSend := h.not_hasType (by decide)
  have hsingle : ¬ m.HasType .singleSend := h.not_hasType (by decide)
  simp [frameThrows, h, h.type_ne_none, hgroup, hsingle]

theorem frameThrows_of_groupSend (h : m.HasType .groupSend) :
    frameThrows db r (.message m)
      ↔ m.receiverId = none ∧ ∀ room, m.roomId = some room →
          (db.getUserById m.senderId = none ∧ r.roomStubMap.get room ≠ none)
          ∨ r.reachesAll (r.roomStubMap.users room) m.senderId = false := by
  have hlink : ¬ m.HasType .link := h.not_hasType (by decide)
  have hsingle : ¬ m.HasType .singleSend := h.not_hasType (by decide)
  simp [frameThrows, h, h.type_ne_none, hlink, hsingle]

theorem frameThrows_of_singleSend (h : m.HasType .singleSend) :
    frameThrows db r (.message m) ↔ db.getUserById m.receiverId = none := by
  have hlink : ¬ m.HasType .link := h.not_hasType (by decide)
  have hgroup : ¬ m.HasType .groupSend := h.not_hasType (by decide)
  simp [frameThrows, h, h.type_ne_none, hlink, hgroup]

theorem not_frameThrows_of_other (h : m.type ≠ none) (ht : ∀ t, ¬ m.HasType t) :
    ¬ frameThrows db r (.message m) := by
  simp [frameThrows, h, ht]

/-- The outcome of a loop throws exactly if the loop misses a recipient. -/
theorem thrown_ofRun_ite (b : Bool) (s : ServerState) :
    (Outcome.ofRun (if b then .ok () else .error .nullPointerException, s)).thrown
        ≠ none ↔ b = false := by
  cases b <;> simp [Outcome.ofRun]

theorem registries_ofRun (x : Except Throwable Unit) (s : ServerState) :
    (Outcome.ofRun (x, s)).registries = s.registries := by
  cases x <;> rfl

theorem written_ofRun (x : Except Throwable Unit) (s : ServerState) :
    (Outcome.ofRun (x, s)).written = s.written := by
  cases x <;> rfl

/-- **A link**: the registries change by it whether or not its handling throws
later on, and it throws where it is said to. -/
theorem channelRead0_of_link (hm : m.HasType .link) {u : User}
    (hs : db.getUserById m.senderId = some u) :
    (invoke db (.channelRead0 ctx (.message m)) r).registries
        = r.link ctx u m.roomId
      ∧ ((invoke db (.channelRead0 ctx (.message m)) r).thrown ≠ none
          ↔ frameThrows db r (.message m)) := by
  rw [invoke_channelRead0_message, frameThrows_of_link r hm, hs]
  cases hr : m.roomId with
  | none =>
    rw [run_link_of_room_none db ctx r [] hm hs hr]
    exact ⟨rfl, iff_of_true (Option.some_ne_none _)
      (Or.inr (fun room h => absurd h (by simp)))⟩
  | some room =>
    rw [run_link db ctx r [] hm hs hr, registries_ofRun, thrown_ofRun_ite]
    exact ⟨rfl, by simp⟩

/-- **A group message** leaves the registries as they are, and throws where it
is said to. -/
theorem channelRead0_of_groupSend (hm : m.HasType .groupSend) :
    (invoke db (.channelRead0 ctx (.message m)) r).registries = r
      ∧ ((invoke db (.channelRead0 ctx (.message m)) r).thrown ≠ none
          ↔ frameThrows db r (.message m)) := by
  rw [invoke_channelRead0_message, frameThrows_of_groupSend r hm]
  by_cases hv : m.receiverId = none
  · cases hr : m.roomId with
    | none =>
      rw [run_groupSend_of_room_none db ctx r [] hm hv hr]
      exact ⟨rfl, iff_of_true (Option.some_ne_none _) ⟨hv, by simp⟩⟩
    | some room =>
      cases hs : db.getUserById m.senderId with
      | some u =>
        rw [run_groupSend db ctx r [] hm hv hr hs, registries_ofRun, thrown_ofRun_ite]
        exact ⟨rfl, by simp [hv]⟩
      | none =>
        by_cases hl : r.roomStubMap.get room = none
        · -- nobody ever joined the room, so nobody is missed
          rw [run_groupSend_of_get_none db ctx r [] hm hv hr hl]
          refine ⟨rfl, iff_of_false (fun hne => hne rfl) ?_⟩
          simp [hl, RoomStubMap.users_of_get_none hl, Registries.reachesAll, recipients]
        · rw [run_groupSend_of_unknown db ctx r [] hm hv hr hl hs]
          exact ⟨rfl, iff_of_true (Option.some_ne_none _) ⟨hv, by simp [hl]⟩⟩
  · rw [run_groupSend_of_receiver db ctx r [] hm hv]
    exact ⟨rfl, iff_of_false (fun hne => hne rfl) (fun hc => hv hc.1)⟩

/-- **A private message** does so too. -/
theorem channelRead0_of_singleSend (hm : m.HasType .singleSend) :
    (invoke db (.channelRead0 ctx (.message m)) r).registries = r
      ∧ ((invoke db (.channelRead0 ctx (.message m)) r).thrown ≠ none
          ↔ frameThrows db r (.message m)) := by
  rw [invoke_channelRead0_message, frameThrows_of_singleSend r hm]
  cases hv : db.getUserById m.receiverId with
  | none =>
    rw [run_singleSend_of_unknown db ctx r [] hm hv]
    exact ⟨rfl, iff_of_true (Option.some_ne_none _) rfl⟩
  | some u =>
    rw [run_singleSend db ctx r [] hm hv]
    exact ⟨rfl, iff_of_false (fun hne => hne rfl) (Option.some_ne_none _)⟩

/-- **Any frame that links nobody** does. -/
theorem channelRead0_of_linkSender_none (h : linkSender db f = none) :
    (invoke db (.channelRead0 ctx f) r).registries = r
      ∧ ((invoke db (.channelRead0 ctx f) r).thrown ≠ none ↔ frameThrows db r f) := by
  cases f with
  | unparsable => exact ⟨rfl, iff_of_true (Option.some_ne_none _) trivial⟩
  | null => exact ⟨rfl, iff_of_true (Option.some_ne_none _) trivial⟩
  | message m =>
    obtain hm | hm | hm | hm | ⟨hm, hm'⟩ := m.type_cases
    · rw [invoke_channelRead0_message, run_handleMessage_of_type_none db ctx r [] hm]
      exact ⟨rfl, iff_of_true (Option.some_ne_none _) (frameThrows_of_type_none r hm)⟩
    · rw [linkSender_of_link hm] at h
      rw [invoke_channelRead0_message, run_link_of_unknown db ctx r [] hm h,
        frameThrows_of_link r hm]
      exact ⟨rfl, iff_of_true (Option.some_ne_none _) (Or.inl h)⟩
    · exact channelRead0_of_groupSend r ctx hm
    · exact channelRead0_of_singleSend r ctx hm
    · rw [invoke_channelRead0_message, run_handleMessage_of_other db ctx r [] hm hm']
      exact ⟨rfl, iff_of_false (fun hne => hne rfl) (not_frameThrows_of_other r hm hm')⟩

/-- **A frame that links its channel** changes the registries by that link. -/
theorem registries_of_linkSender {u : User} (h : linkSender db f = some u) :
    (invoke db (.channelRead0 ctx f) r).registries = r.link ctx u f.roomId := by
  obtain ⟨m, rfl, hm, hs⟩ := linkSender_eq_some h
  exact (channelRead0_of_link r ctx hm hs).1

/-- **A frame that does not** leaves the registries as they are. -/
theorem registries_of_linkSender_none (h : linkSender db f = none) :
    (invoke db (.channelRead0 ctx f) r).registries = r :=
  (channelRead0_of_linkSender_none r ctx h).1

/-- **A frame throws exactly where it is said to.** -/
theorem thrown_channelRead0_iff :
    (invoke db (.channelRead0 ctx f) r).thrown ≠ none ↔ frameThrows db r f := by
  cases h : linkSender db f with
  | none => exact (channelRead0_of_linkSender_none r ctx h).2
  | some u =>
    obtain ⟨m, rfl, hm, hs⟩ := linkSender_eq_some h
    exact (channelRead0_of_link r ctx hm hs).2

end Frames

/-! ## What a call does to the registries -/

namespace Registries

section Logout

variable (r : Registries) (ctx : ChannelHandlerContext) (u : User)

@[simp] theorem user2ChannelCtx_logout :
    (r.logout ctx u).user2ChannelCtx = r.user2ChannelCtx.remove u := rfl

@[simp] theorem channelId2User_logout :
    (r.logout ctx u).channelId2User = r.channelId2User.remove ctx.channelId := rfl

@[simp] theorem connectedChannelCtx_logout :
    (r.logout ctx u).connectedChannelCtx = r.connectedChannelCtx.erase ctx := rfl

@[simp] theorem users_logout (room : Long) :
    (r.logout ctx u).roomStubMap.users room = (r.roomStubMap.users room).erase u :=
  r.roomStubMap.users_removeFromAll u room

end Logout

end Registries

/-- **The five things a call can do to the registries.** Every invariant is
proved by these cases. -/
inductive RegistryStep (db : UserTable) (r : Registries) : Event → Registries → Prop
  /-- A channel becomes active. -/
  | active (ctx : ChannelHandlerContext) :
      RegistryStep db r (.channelActive ctx)
        { r with connectedChannelCtx := r.connectedChannelCtx ++ [ctx] }
  /-- A logout of a channel that is not linked. -/
  | stay (e : Event) (he : e.IsLogout)
      (h : r.channelId2User.get e.ctx.channelId = none) : RegistryStep db r e r
  /-- A logout of a linked channel. -/
  | logout (e : Event) (he : e.IsLogout) (u : User)
      (h : r.channelId2User.get e.ctx.channelId = some u) :
      RegistryStep db r e (r.logout e.ctx u)
  /-- A frame that links nobody. -/
  | read (ctx : ChannelHandlerContext) (f : TextWebSocketFrame)
      (h : linkSender db f = none) : RegistryStep db r (.channelRead0 ctx f) r
  /-- A frame that links its channel. -/
  | link (ctx : ChannelHandlerContext) (f : TextWebSocketFrame) (u : User)
      (h : linkSender db f = some u) :
      RegistryStep db r (.channelRead0 ctx f) (r.link ctx u f.roomId)

/-- **A call takes one of the five steps.** -/
theorem registryStep_invoke (db : UserTable) (e : Event) (r : Registries) :
    RegistryStep db r e (invoke db e r).registries := by
  have hlogout : ∀ e : Event, e.IsLogout →
      RegistryStep db r e (invoke db e r).registries := by
    intro e he
    cases h : r.channelId2User.get e.ctx.channelId with
    | none =>
      rw [invoke_logout_none db r he h]
      exact .stay e he h
    | some u =>
      rw [invoke_logout_some db r he h]
      exact .logout e he u h
  cases e with
  | channelActive ctx => exact .active ctx
  | channelInactive ctx => exact hlogout _ trivial
  | exceptionCaught ctx => exact hlogout _ trivial
  | channelRead0 ctx f =>
    cases h : linkSender db f with
    | none =>
      rw [registries_of_linkSender_none r ctx h]
      exact .read ctx f h
    | some u =>
      rw [registries_of_linkSender r ctx h]
      exact .link ctx f u h

/-! ## What Netty makes of a call -/

section Dispatch

variable (db : UserTable) (r : Registries)

theorem dispatch_of_thrown_none {e : Event} (h : (invoke db e r).thrown = none) :
    dispatch db e r = invoke db e r := by
  unfold dispatch
  cases ho : invoke db e r with
  | mk t r' w =>
    rw [ho] at h
    cases h
    rfl

/-- A call that threw is followed by a logout of its channel. -/
theorem dispatch_of_thrown {e : Event} (he : ∀ ctx, e ≠ .exceptionCaught ctx)
    (h : (invoke db e r).thrown ≠ none) :
    dispatch db e r
      = ⟨(invoke db e r).thrown,
        (invoke db (.exceptionCaught e.ctx) (invoke db e r).registries).registries,
        (invoke db e r).written
          ++ (invoke db (.exceptionCaught e.ctx) (invoke db e r).registries).written⟩ := by
  unfold dispatch
  cases ho : invoke db e r with
  | mk t r' w =>
    rw [ho] at h
    obtain ⟨t, rfl⟩ := Option.ne_none_iff_exists'.mp h
    cases e with
    | exceptionCaught ctx => exact absurd rfl (he ctx)
    | channelActive ctx => rfl
    | channelInactive ctx => rfl
    | channelRead0 ctx f => rfl

/-- **A logout of a linked channel** needs nothing of Netty. -/
theorem dispatch_logout_some {e : Event} (he : e.IsLogout) {u : User}
    (h : r.channelId2User.get e.ctx.channelId = some u) :
    dispatch db e r = ⟨none, r.logout e.ctx u,
      r.deliveries r.user2ChannelCtx.keySet u.id (offlineNotice u)⟩ := by
  have hinv := invoke_logout_some db r he h
  rw [dispatch_of_thrown_none db r (by rw [hinv]), hinv]

/-- **A logout of a channel that is not linked** throws, is repeated, throws
again, and has done nothing. -/
theorem dispatch_logout_none {e : Event} (he : e.IsLogout)
    (h : r.channelId2User.get e.ctx.channelId = none) :
    dispatch db e r = ⟨some .nullPointerException, r, []⟩ := by
  have hinv := invoke_logout_none db r he h
  obtain ⟨ctx, rfl | rfl⟩ := he.eq_or_eq
  · have hexc := invoke_logout_none db r (e := .exceptionCaught ctx) trivial h
    rw [dispatch_of_thrown db r (by simp) (by rw [hinv]; simp), hinv]
    show Outcome.mk _ (invoke db (.exceptionCaught ctx) r).registries _ = _
    rw [show (Event.channelInactive ctx).ctx = ctx from rfl, hexc]
    rfl
  · unfold dispatch
    rw [hinv]

/-- The exception that leaves a call is not caught by the logout after it. -/
theorem thrown_dispatch (e : Event) :
    (dispatch db e r).thrown = (invoke db e r).thrown := by
  unfold dispatch
  cases ho : invoke db e r with
  | mk t r' w =>
    cases t with
    | none => rfl
    | some t => cases e <;> rfl

/-- Making a logout again that threw does nothing. -/
theorem dispatch_of_isLogout {e : Event} (he : e.IsLogout) :
    (dispatch db e r).registries = (invoke db e r).registries
      ∧ (dispatch db e r).written = (invoke db e r).written := by
  cases hctx : r.channelId2User.get e.ctx.channelId with
  | none => rw [dispatch_logout_none db r he hctx, invoke_logout_none db r he hctx]; simp
  | some u => rw [dispatch_logout_some db r he hctx, invoke_logout_some db r he hctx]; simp

end Dispatch

import Chatroom.HandlerRun

/-!
# Whom a message is from, and whom it reaches

A link binds a channel to a user, in `CHANNEL_ID2USER`. The two kinds of
message that come after it are handled without a look at that binding.

A message to a room names its sender itself. The server relays it under that
name, whatever the channel it came on is linked as, and also if it is linked as
nobody. What the relayed frame says is still not arbitrary: it carries the id
and the name of one stored user (`groupSend_attribution`).

A message to one user is answered by a look into `USER2CHANNEL_CTX`, and only
to find that the receiver is missing there. A receiver that is present is not
written to, so the message reaches nobody; and as a user who is linked on some
channel may be missing from that map, its sender may be told so all the same
(`privateDelivery_iff`).
-/

open AtomicProgram RegistryOp ChatroomServerHandler

/-! ## The sender of a group message -/

/-- Every user a channel is linked as, or that has a channel, is stored. -/
structure Registries.UsersStored (db : UserTable) (r : Registries) : Prop where
  user2ChannelCtx : ∀ u ctx, r.user2ChannelCtx.get u = some ctx → u ∈ db.rows
  channelId2User : ∀ id u, r.channelId2User.get id = some u → u ∈ db.rows

/-- A call links stored users only. -/
theorem usersStored_invoke {db : UserTable} {r : Registries} (h : r.UsersStored db) (e : Event) :
    (invoke db e r).registries.UsersStored db := by
  have hstep := registryStep_invoke db e r
  generalize (invoke db e r).registries = r' at hstep ⊢
  cases hstep with
  | active ctx => exact ⟨h.user2ChannelCtx, h.channelId2User⟩
  | stay e he hctx => exact h
  | read ctx f hf => exact h
  | logout e he u hu =>
    refine ⟨fun v ctx hv => ?_, fun id v hv => ?_⟩
    · rw [Registries.user2ChannelCtx_logout, ConcurrentHashMap.get_remove] at hv
      split at hv
      · exact absurd hv (by simp)
      · exact h.user2ChannelCtx v ctx hv
    · rw [Registries.channelId2User_logout, ConcurrentHashMap.get_remove] at hv
      split at hv
      · exact absurd hv (by simp)
      · exact h.channelId2User id v hv
  | link ctx f u hf =>
    obtain ⟨m, -, -, hsender⟩ := linkSender_eq_some hf
    have hu : u ∈ db.rows := UserTable.mem_of_getUserById hsender
    refine ⟨fun v ctx' hv => ?_, fun id v hv => ?_⟩
    · rw [Registries.user2ChannelCtx_link, ConcurrentHashMap.get_put] at hv
      split at hv
      · next hvu => exact hvu ▸ hu
      · exact h.user2ChannelCtx v ctx' hv
    · rw [Registries.channelId2User_link, ConcurrentHashMap.get_put] at hv
      split at hv
      · exact Option.some.inj hv ▸ hu
      · exact h.channelId2User id v hv

/-- **Linked users are stored**, after every run. -/
theorem usersStored_after (db : UserTable) (es : List Event) :
    (after db es).UsersStored db := by
  induction es using List.reverseRecOn with
  | nil => constructor <;> simp [Registries.empty]
  | append_singleton es e ih =>
    rw [after_snoc]
    exact usersStored_invoke ih e

/-- **A relayed message is attributed to a user**: it carries the user's id,
and its content is what was said, after the user's name. -/
structure AttributedTo (m : Message) (u : User) (relayed : Message) : Prop where
  senderId : relayed.senderId = u.id
  content : relayed.content
    = some (javaString u.userName ++ "说：" ++ javaString m.content)

/-- **Every frame a group message makes the handler write is attributed to the
user its channel is linked as.** -/
def SenderAuthentic (db : UserTable) (r : Registries) (ctx : ChannelHandlerContext)
    (m : Message) : Prop :=
  ∀ w ∈ (invoke db (.channelRead0 ctx (.message m)) r).written,
    ∃ u, r.channelId2User.get ctx.channelId = some u ∧ AttributedTo m u w.2

/-- **What a group message makes the handler write** is its message under the
name of the stored user it names. -/
theorem written_groupSend {db : UserTable} {m : Message} (hm : m.HasType .groupSend)
    (r : Registries) (ctx : ChannelHandlerContext) {w : Written}
    (hw : w ∈ (invoke db (.channelRead0 ctx (.message m)) r).written) :
    ∃ sender, db.getUserById m.senderId = some sender ∧ w.2 = groupMessage m sender := by
  rw [invoke_channelRead0_message] at hw
  by_cases hv : m.receiverId = none
  · cases hr : m.roomId with
    | none =>
      rw [run_groupSend_of_room_none db ctx r [] hm hv hr] at hw
      exact absurd hw List.not_mem_nil
    | some room =>
      cases hs : db.getUserById m.senderId with
      | none =>
        by_cases hl : r.roomStubMap.get room = none
        · rw [run_groupSend_of_get_none db ctx r [] hm hv hr hl] at hw
          exact absurd hw List.not_mem_nil
        · rw [run_groupSend_of_unknown db ctx r [] hm hv hr hl hs] at hw
          exact absurd hw List.not_mem_nil
      | some sender =>
        refine ⟨sender, rfl, ?_⟩
        rw [run_groupSend db ctx r [] hm hv hr hs, written_ofRun, List.nil_append] at hw
        exact (Registries.exists_of_mem_deliveries hw).1
  · rw [run_groupSend_of_receiver db ctx r [] hm hv] at hw
    exact absurd hw List.not_mem_nil

/-- **The sender of a relayed message is the one the message names**: its id
and name are those of the stored user with that id, on whatever channel it
came. That user is the one the channel is linked as exactly if the message names
it. -/
theorem groupSend_attribution (db : UserTable) (es : List Event) (ctx : ChannelHandlerContext)
    (m : Message) (hm : m.HasType .groupSend) :
    ∀ w ∈ (invoke db (.channelRead0 ctx (.message m)) (after db es)).written,
      (∃ sender, db.getUserById m.senderId = some sender ∧ AttributedTo m sender w.2)
        ∧ ((∃ u, (after db es).channelId2User.get ctx.channelId = some u ∧ AttributedTo m u w.2)
          ↔ ∃ u, (after db es).channelId2User.get ctx.channelId = some u
              ∧ u.id = m.senderId) := by
  intro w hw
  obtain ⟨sender, hs, hrelayed⟩ := written_groupSend hm _ ctx hw
  have hid : sender.id = m.senderId := UserTable.id_eq_of_getUserById hs
  have hsender : AttributedTo m sender w.2 := by
    rw [hrelayed]
    exact ⟨hid.symm, rfl⟩
  refine ⟨⟨sender, hs, hsender⟩, exists_congr (fun u => and_congr_right (fun hu => ?_))⟩
  constructor
  · intro hattr
    rw [← hid, ← hattr.senderId, hsender.senderId]
  · -- linked users are stored, so the ids tell them apart
    intro hu'
    have hstored := (usersStored_after db es).channelId2User _ u hu
    have hsame : u = sender :=
      UserTable.eq_of_id_eq (UserTable.getUserById_of_mem hstored) hs (hu'.trans hid.symm)
    rw [hsame]
    exact hsender

/-- A run in which one of two clients links. -/
def oneLinks : List Event :=
  [.channelActive ⟨1⟩, .channelActive ⟨2⟩, .channelRead0 ⟨1⟩ (.message (.link 1 7))]

/-- A client that is linked as nobody speaks in another user's name. -/
theorem groupSend_attribution_unlinked :
    ∃ sender, sampleTable.getUserById (some 2) = some sender
      ∧ AttributedTo (.groupSend 2 7 "hi") sender
          (groupMessage (.groupSend 2 7 "hi") bbb) :=
  (groupSend_attribution sampleTable oneLinks ⟨2⟩ (.groupSend 2 7 "hi") rfl
    (⟨1⟩, groupMessage (.groupSend 2 7 "hi") bbb) (by decide)).1

/-- A message in the name of a user is relayed from a channel that is linked as
nobody. -/
theorem not_senderAuthentic :
    ¬ ∀ (db : UserTable) (es : List Event) (ctx : ChannelHandlerContext) (m : Message),
      m.HasType .groupSend → SenderAuthentic db (after db es) ctx m := by
  intro h
  obtain ⟨u, hu, -⟩ := h sampleTable oneLinks ⟨2⟩ (.groupSend 2 7 "hi") rfl
    (⟨1⟩, groupMessage (.groupSend 2 7 "hi") bbb) (by decide)
  have hnobody : (after sampleTable oneLinks).channelId2User.get 2 = none := by decide
  exact absurd (hu.symm.trans hnobody) (by simp)

/-! ## The receiver of a private message -/

/-- A private message between two stored users. -/
structure SingleSend (db : UserTable) (m : Message) (sender receiver : User) : Prop where
  type : m.HasType .singleSend
  sender : db.getUserById m.senderId = some sender
  receiver : db.getUserById m.receiverId = some receiver

/-- A user is linked on an open channel. -/
def LinkedSomewhere (es : List Event) (r : Registries) (u : User) : Prop :=
  ∃ ctx, ChannelOpen es ctx ∧ r.channelId2User.get ctx.channelId = some u

/-- A frame hands a private message to its receiver: it is from its sender, for
its receiver, and goes to a channel that is linked as that receiver. -/
def HandsOver (r : Registries) (m : Message) (receiver : User) (w : Written) : Prop :=
  w.2.senderId = m.senderId ∧ w.2.receiverId = m.receiverId
    ∧ r.channelId2User.get w.1.channelId = some receiver

/-- **No private message is silently lost**: it is handed to its receiver, and
no notice is sent, if the receiver is linked on an open channel; and otherwise
its sender gets one notice. The registries stay as they are. -/
structure PrivateDelivery (db : UserTable) (es : List Event) (ctx : ChannelHandlerContext)
    (m : Message) (receiver : User) : Prop where
  registries : (invoke db (.channelRead0 ctx (.message m)) (after db es)).registries
    = after db es
  online : LinkedSomewhere es (after db es) receiver →
    (∃ w ∈ (invoke db (.channelRead0 ctx (.message m)) (after db es)).written,
        HandsOver (after db es) m receiver w)
      ∧ ∀ w ∈ (invoke db (.channelRead0 ctx (.message m)) (after db es)).written,
          w.2 ≠ undeliveredNotice m.senderId
  offline : ¬ LinkedSomewhere es (after db es) receiver →
    (invoke db (.channelRead0 ctx (.message m)) (after db es)).written
      = [(ctx, undeliveredNotice m.senderId)]

/-- **What a private message does**: it writes nothing, or one notice to its own
channel. -/
theorem invoke_singleSend {db : UserTable} {m : Message} {sender receiver : User}
    (hm : SingleSend db m sender receiver) (r : Registries) (ctx : ChannelHandlerContext) :
    invoke db (.channelRead0 ctx (.message m)) r
      = ⟨none, r, if r.user2ChannelCtx.containsKey receiver then []
          else [(ctx, undeliveredNotice m.senderId)]⟩ := by
  rw [invoke_channelRead0_message, run_singleSend db ctx r [] hm.type hm.receiver]
  rfl

/-- **A private message is not lost exactly if its receiver is offline in both
maps**: linked on no open channel, and without a channel of its own. -/
theorem privateDelivery_iff (db : UserTable) (es : List Event) (ctx : ChannelHandlerContext)
    (m : Message) (sender receiver : User) (hm : SingleSend db m sender receiver) :
    PrivateDelivery db es ctx m receiver
      ↔ ¬ LinkedSomewhere es (after db es) receiver
        ∧ (after db es).user2ChannelCtx.get receiver = none := by
  have hinv := invoke_singleSend hm (after db es) ctx
  rw [ConcurrentHashMap.containsKey_eq] at hinv
  constructor
  · intro hp
    by_cases hon : LinkedSomewhere es (after db es) receiver
    · -- nothing that is written is for the receiver
      obtain ⟨⟨w, hw, -, hreceiver, -⟩, -⟩ := hp.online hon
      rw [hinv] at hw
      split at hw
      · exact absurd hw List.not_mem_nil
      · have hnone : m.receiverId = none := by
          rw [← hreceiver, List.mem_singleton.mp hw]
          rfl
        exact absurd hm.receiver (by simp [hnone])
    · have hnotice := hp.offline hon
      rw [hinv] at hnotice
      refine ⟨hon, ?_⟩
      cases hk : (after db es).user2ChannelCtx.get receiver with
      | none => rfl
      | some c => simp [hk] at hnotice
  · rintro ⟨hoff, hk⟩
    refine ⟨by rw [hinv], fun hon => absurd hon hoff, fun _ => ?_⟩
    simp [hinv, hk]

/-- The receiver is offline, and its sender is told. -/
theorem privateDelivery_offline :
    PrivateDelivery sampleTable oneLinks ⟨1⟩
      { Message.new with type := some 3, senderId := some 1, receiverId := some 2 } bbb := by
  refine (privateDelivery_iff sampleTable oneLinks ⟨1⟩ _ aaa bbb
    ⟨by decide, by decide, by decide⟩).mpr
    ⟨?_, by decide⟩
  rintro ⟨⟨id⟩, ⟨hactive, -⟩, hlinked⟩
  obtain rfl | rfl : id = 1 ∨ id = 2 := by simpa [oneLinks] using hactive
  · exact absurd hlinked (by decide)
  · exact absurd hlinked (by decide)

/-- A user writes to another who is online, and nothing is written to anyone. -/
theorem not_privateDelivery :
    ¬ ∀ (db : UserTable) (es : List Event) (ctx : ChannelHandlerContext) (m : Message)
      (sender receiver : User), SingleSend db m sender receiver →
        ChannelOpen es ctx → (after db es).channelId2User.get ctx.channelId = some sender →
          PrivateDelivery db es ctx m receiver := by
  intro h
  have hp := h sampleTable
    (oneLinks ++ [.channelRead0 ⟨2⟩ (.message (.link 2 7))]) ⟨1⟩
    { Message.new with type := some 3, senderId := some 1, receiverId := some 2 } aaa bbb
    ⟨by decide, by decide, by decide⟩ (by decide) (by decide)
  obtain ⟨w, hw, -⟩ := (hp.online ⟨⟨2⟩, by decide, by decide⟩).1
  have hnothing : (invoke sampleTable (.channelRead0 ⟨1⟩ (.message
      { Message.new with type := some 3, senderId := some 1, receiverId := some 2 }))
      (after sampleTable
        (oneLinks ++ [.channelRead0 ⟨2⟩ (.message (.link 2 7))]))).written = [] := by
    decide
  rw [hnothing] at hw
  exact absurd hw List.not_mem_nil

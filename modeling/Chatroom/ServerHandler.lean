import Chatroom.AtomicProgram
import Chatroom.Registry

/-!
# The chat handler

`ChatroomServerHandler`, method by method, as programs over the atomic
operations of `Registry`. Two things of Java are written out:

* reading a field of a null reference, unboxing a null `Integer` and giving a
  null key to a concurrent map all throw a `NullPointerException`. `nonNull` is
  that check, and stands where the source would throw;
* the user table is read by every message, before its type is looked at. It is
  a parameter of the handler, which never writes it.

A text frame is known by what `JSON.parseObject` makes of its text. What a
handler passes on along the pipeline (`ctx.fireChannelActive()` and the like)
reaches no handler of this server.
-/

/-- The exceptions a handler throws. -/
inductive Throwable where
  | nullPointerException
  | jsonException
  deriving DecidableEq, Repr

/-- A text frame, by what `JSON.parseObject` makes of it: an exception, null
(an empty text is one), or a message. -/
inductive TextWebSocketFrame where
  | unparsable
  | null
  | message (m : Message)
  deriving DecidableEq, Repr

/-- The message by which a client comes online in a room. -/
def Message.link (senderId roomId : Long) : Message :=
  { Message.new with
    type := some MessageType.link.getCode
    senderId := some senderId
    roomId := some roomId }

/-- The message by which a client speaks to a room. -/
def Message.groupSend (senderId roomId : Long) (content : String) : Message :=
  { Message.new with
    type := some MessageType.groupSend.getCode
    content := some content
    senderId := some senderId
    roomId := some roomId }

/-- **One call of the handler by Netty.** -/
inductive Event where
  | channelActive (ctx : ChannelHandlerContext)
  | channelInactive (ctx : ChannelHandlerContext)
  | channelRead0 (ctx : ChannelHandlerContext) (frame : TextWebSocketFrame)
  | exceptionCaught (ctx : ChannelHandlerContext)
  deriving DecidableEq, Repr

/-- The channel a call is about. -/
def Event.ctx : Event → ChannelHandlerContext
  | channelActive ctx | channelInactive ctx | channelRead0 ctx _
  | exceptionCaught ctx => ctx

/-- The programs the methods of the handler are. -/
abbrev HandlerProgram : Type → Type :=
  AtomicProgram RegistryOp.Answer Throwable

namespace ChatroomServerHandler

open AtomicProgram RegistryOp

/-- Use a reference, which throws if it is null. -/
def nonNull {α : Type} : Option α → HandlerProgram α
  | some a => pure a
  | none => raise .nullPointerException

@[simp] theorem nonNull_some {α : Type} (a : α) : nonNull (some a) = pure a := rfl

@[simp] theorem nonNull_none {α : Type} :
    (nonNull none : HandlerProgram α) = raise .nullPointerException := rfl

/-- `JSON.parseObject`. -/
def parseObject : TextWebSocketFrame → HandlerProgram (Option Message)
  | .unparsable => raise .jsonException
  | .null => pure none
  | .message m => pure (some m)

/-- The body of the loops that write to several users: the user is passed over
if it has the given id, and otherwise sent the message where it is linked. -/
def sendUnless (id : Option Long) (message : Message) (u : User) :
    HandlerProgram Unit := do
  if u.id = id then
    pure ()
  else do
    let context ← perform (user2ChannelCtxGet u)
    let context ← nonNull context
    perform (writeAndFlush context message)

/-! ## Coming and going -/

def handleLogin (ctx : ChannelHandlerContext) : HandlerProgram Unit :=
  perform (connectedChannelCtxAdd ctx)

/-- The notice that a user went offline. -/
def offlineNotice (user : User) : Message :=
  { Message.new with
    senderId := some 0
    type := some 2
    content := some ("[系统信息]:" ++ javaString user.userName ++ "下线了") }

def handleLogout (ctx : ChannelHandlerContext) : HandlerProgram Unit := do
  let channelId := ctx.channelId
  let user ← perform (channelId2UserGet channelId)
  let keys ← perform user2ChannelCtxKeySet
  forEach keys (fun u => do
    let user ← nonNull user
    sendUnless user.id (offlineNotice user) u)
  -- a concurrent map takes no null key, to remove either
  let user ← nonNull user
  perform (user2ChannelCtxRemove user)
  perform (connectedChannelCtxRemove ctx)
  perform (channelId2UserRemove channelId)
  let values ← perform roomStubMapValues
  forEach values (fun users => perform (usersRemove users user))

/-! ## Messages -/

/-- The loop of both kinds of broadcast: the message goes to the users of a
list, but for those with the id of the sender. -/
def broadcast (roomUsers : ListRef) (senderId : Option Long) (message : Message) :
    HandlerProgram Unit := do
  let users ← perform (usersIterator roomUsers)
  forEach users (sendUnless senderId message)

/-- What the room of a user coming online is told. -/
def linkMessage (message : Message) (sender : User) : Message :=
  { message with
    content := some ("[系统信息]===>" ++ javaLong message.roomId ++ "号房间: "
      ++ javaString sender.userName ++ "上线了...") }

/-- What the room is told when a user speaks. -/
def groupMessage (message : Message) (sender : User) : Message :=
  { message with
    content := some (javaString sender.userName ++ "说：" ++ javaString message.content) }

/-- What a sender is told whose receiver is offline. -/
def undeliveredNotice (senderId : Option Long) : Message :=
  { Message.new with
    senderId := senderId
    type := some 2
    content := some "[系统信息]:用户已下线, 你的消息未能送达" }

/-- The entry of a user into a room. -/
def joinRoom (roomId : Long) (sender : User) : HandlerProgram Unit := do
  match ← perform (roomStubMapGet roomId) with
  | some _ => do
      -- the list is fetched a second time to be added to
      let users ← perform (roomStubMapGet roomId)
      let users ← nonNull users
      perform (usersAdd users sender)
  | none => perform (roomStubMapPut roomId [sender])

def handleMessage (db : UserTable) (ctx : ChannelHandlerContext)
    (message : Message) : HandlerProgram Unit := do
  let senderId := message.senderId
  let sender := db.getUserById senderId
  let type ← nonNull message.type
  if type = MessageType.link.getCode then do
    let sender ← nonNull sender
    perform (user2ChannelCtxPut sender ctx)
    perform (channelId2UserPut ctx.channelId sender)
    let roomId ← nonNull message.roomId
    joinRoom roomId sender
    let roomUsers ← perform (roomStubMapGet roomId)
    let roomUsers ← nonNull roomUsers
    broadcast roomUsers senderId (linkMessage message sender)
  else if type = MessageType.groupSend.getCode then do
    if message.receiverId = none then do
      let roomId ← nonNull message.roomId
      match ← perform (roomStubMapGet roomId) with
      | some roomUsers => do
          let sender ← nonNull sender
          broadcast roomUsers senderId (groupMessage message sender)
      | none => pure ()
    else
      pure ()
  else if type = MessageType.singleSend.getCode then do
    let receiver ← nonNull (db.getUserById message.receiverId)
    if ← perform (user2ChannelCtxContainsKey receiver) then
      -- the receiver is online, and nothing is done
      pure ()
    else
      perform (writeAndFlush ctx (undeliveredNotice senderId))
  else
    pure ()

/-! ## The calls Netty makes -/

def channelRead0 (db : UserTable) (ctx : ChannelHandlerContext)
    (frame : TextWebSocketFrame) : HandlerProgram Unit := do
  let message ← parseObject frame
  -- `handleMessage` starts by reading the type of its message
  let message ← nonNull message
  handleMessage db ctx message

/-- **The method Netty calls.** -/
def handler (db : UserTable) : Event → HandlerProgram Unit
  | .channelActive ctx => handleLogin ctx
  | .channelInactive ctx => handleLogout ctx
  | .channelRead0 ctx frame => channelRead0 db ctx frame
  | .exceptionCaught ctx => handleLogout ctx

end ChatroomServerHandler

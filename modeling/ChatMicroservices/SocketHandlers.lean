import ChatMicroservices.JsonParsing
import ChatMicroservices.MessageNotification

/-!
# The Socket.IO handlers of the chat service

The listeners that `registerSocketHandlers` installs for the four client events, and the
handlers behind them. The payload of an event is any value a client can put on the wire;
only the checks written in the handlers stand between it and the store.
-/

namespace ChatMicroservices.SocketHandlers
open JavaScriptValues EffectPrograms MessagesTable ChatEffects MessageNotification

/-- `if (typingTimeouts.has(userId)) { clearTimeout(…); typingTimeouts.delete(userId) }` -/
def clearTypingTimeout (userId : JsString) : Handler Unit := do
  if ← perform (.hasTyping userId) then perform (.clearTyping userId)

def handleTyping (userId : JsString) (data : Value) : Handler Unit := do
  let receiverId ← readField "data" data "receiverId"
  let isTyping ← readField "data" data "isTyping"
  clearTypingTimeout userId
  if isTyping.truthy then
    perform (.emit receiverId (.typing userId true))
    perform (.armTyping userId receiverId)
  else
    perform (.emit receiverId (.typing userId false))

/-- The callback of the timeout, three seconds later unless it is cleared. -/
def typingTimeout (userId : JsString) (receiverId : Value) : Handler Unit := do
  perform (.emit receiverId (.typing userId false))
  perform (.deleteTyping userId)

/-- The timer is cleared before anything is awaited. Neither presence store rejects. -/
def handleDisconnect (userId socketId : JsString) : Handler Unit := do
  clearTypingTimeout userId
  let isLast ← perform (.disconnectPresence userId socketId)
  if isLast then
    let lastSeen ← perform .currentTime
    perform (.emitToAll (.presence userId false (some lastSeen)))

def validateMessage (message ack : Value) : Handler (Option JsString) :=
  match message.nonEmptyString with
  | none => do
    acknowledgeWith ack (.fail "Invalid message content")
    pure none
  | some message => do
    let trimmed := trim message
    if trimmed.length = 0 ∨ trimmed.length > 5000 then
      acknowledgeWith ack (.fail "Message must be between 1 and 5000 characters")
      pure none
    else pure (some trimmed)

/-- `env?.__encrypted === true && typeof env?.body === 'string'` -/
def isEnvelope (env : Json) : Bool :=
  (Value.field (.json env) "__encrypted").strictEq (.json (.bool true)) &&
    (Value.field (.json env) "body").isString

structure RetrieveOrSaveParams where
  _id : Value
  trimmed : JsString
  senderId : JsString
  receiverId : Value
  username : JsString
  email : JsString
  ack : Value

/-- The existing row belongs to the pair of users of the event. -/
def ownedBy (existing : Message) (senderId : JsString) (receiverId : Value) : Bool :=
  existing.senderId = senderId && (Value.json existing.receiverId).strictEq receiverId

/-- The branch of `retrieveOrSaveMessage` for a truthy `_id`. -/
def retrieveMessage (params : RetrieveOrSaveParams) : Handler (Option Message) := do
  match ← Program.attempt (perform (.findOne params._id)) with
  | none =>
    acknowledgeWith params.ack (.fail "Message not found")
    pure none
  | some existing =>
    if ¬ ownedBy existing params.senderId params.receiverId then
      acknowledgeWith params.ack (.fail "Message not found")
      pure none
    else if ¬ existing.isEncrypted then
      acknowledgeWith params.ack
        (.fail "Server policy: plaintext messages are not allowed")
      pure none
    else pure (some existing)

/-- The entity that both send paths insert. -/
def encryptedMessage (senderId : JsString) (receiverId : Value) (trimmed : JsString) :
    NewMessage where
  senderId := senderId
  receiverId := receiverId.column
  message := trimmed
  isEncrypted := true
  status := .notDelivered

/-- The branch of `retrieveOrSaveMessage` for a message without `_id`. -/
def saveMessage (params : RetrieveOrSaveParams) : Handler (Option Message) :=
  match JSON.parse params.trimmed with
  | .error _ => do
    acknowledgeWith params.ack
      (.fail "Messages must be end-to-end encrypted (invalid envelope)")
    pure none
  | .ok parsed =>
    if ¬ isEnvelope parsed then do
      acknowledgeWith params.ack (.fail "Messages must be end-to-end encrypted")
      pure none
    else do
      let saved ← Program.attempt (perform
        (.insert none (encryptedMessage params.senderId params.receiverId params.trimmed)))
      logged (handleMessageReceived {
        senderName := params.username
        senderEmail := params.email
        receiverId := params.receiverId
        messageContent := js "[Encrypted message]"
        isEncrypted := true
        envelope := some params.trimmed })
      pure (some saved)

def retrieveOrSaveMessage (params : RetrieveOrSaveParams) : Handler (Option Message) :=
  if params._id.truthy then retrieveMessage params else saveMessage params

def formatMessageForClient (msg : Message) (username : JsString) : ClientMessage where
  _id := msg.id
  id := msg.id
  senderId := msg.senderId
  senderUsername := if username = [] then none else some username
  senderName := if username = [] then none else some username
  receiverId := msg.receiverId
  content := msg.message
  message := msg.message
  timestamp := msg.createdAt
  createdAt := msg.createdAt
  updatedAt := msg.updatedAt
  read := false
  isRead := false

/-- The tail of the `try` block: clear the typing indicator, emit, acknowledge. -/
def deliver (user : AuthUser) (receiverId : Value) (msg : Message) (ack : Value) :
    Handler Unit := do
  clearTypingTimeout user.id
  perform (.emit receiverId (.typing user.id false))
  perform (.emit receiverId (.receiveMessage (formatMessageForClient msg user.username)))
  acknowledgeWith ack (.ok msg.id)

/-- The `try` block of `handleSendMessage`. -/
def trySendMessage (user : AuthUser) (data ack : Value) : Handler Unit := do
  let senderId ← readField "data" data "senderId"
  let receiverId ← readField "data" data "receiverId"
  let message ← readField "data" data "message"
  let _id ← readField "data" data "_id"
  if ¬ senderId.strictEq (.json (.str user.id)) then
    acknowledgeWith ack (.fail "Unauthorized: cannot send as another user")
  else
    match ← validateMessage message ack with
    | none => pure ()
    | some trimmedMessage =>
      if ¬ receiverId.truthy ∨ senderId.strictEq receiverId then
        acknowledgeWith ack (.fail "Invalid receiver")
      else
        match ← retrieveOrSaveMessage ⟨_id, trimmedMessage, user.id, receiverId,
            user.username, user.email, ack⟩ with
        | none => pure ()
        | some msg => deliver user receiverId msg ack

/-- The `catch` block. Its acknowledgement is outside any `try`. -/
def reportFailure (ack : Value) : Handler Unit := do
  acknowledgeWith ack (.fail "Failed to send message")
  perform (.emitToSelf (.serverError "Failed to send message"))

def handleSendMessage (user : AuthUser) (data ack : Value) : Handler Unit :=
  Program.tryCatch (trySendMessage user data ack) fun _ => reportFailure ack

/-- `messageRepo.save(entity)` for an entity with an id: read the row again, then write the
columns in which the entity differs from it. -/
def save (entity : Message) : Handler Unit := do
  match ← Program.attempt (perform (.reread entity.id)) with
  | some stored =>
    if changesFrom entity stored = Changes.none then pure ()
    else Program.attempt (perform (.update entity.id (changesFrom entity stored)))
  | none => do
    let _ ← Program.attempt (perform (.insert (some entity.id)
      ⟨entity.senderId, entity.receiverId, entity.message, entity.isEncrypted, entity.status⟩))

/-- The rest of `handleMessageDelivered` once the message is found. -/
def confirmDelivery (userId : JsString) (messageId : Value) (existing : Message) :
    Handler Unit := do
  if existing.receiverId ≠ .str userId then pure ()
  else
    if existing.status = .notDelivered then save { existing with status := .delivered }
    perform (.emit (.json (.str existing.senderId)) (.messageDelivered messageId userId))

def handleMessageDelivered (userId : JsString) (data : Value) : Handler Unit :=
  let messageId := data.field "messageId"
  if ¬ messageId.truthy then pure ()
  else do
    match ← Program.attempt (perform (.findOne messageId)) with
    | none => pure ()
    | some existing => confirmDelivery userId messageId existing

def handleMarkRead (userId : JsString) (data : Value) : Handler Unit :=
  let senderId := data.field "senderId"
  if ¬ senderId.truthy then pure ()
  else do
    let _ ← Program.attempt (perform (.markSeen senderId userId))
    perform (.emit senderId (.messageRead userId))

/-- The parameter in position `i` of a listener that was called with `args`. -/
def argument (args : List Value) (i : ℕ) : Value := args.getD i .undefined

/-- The listener of an event. Socket.IO neither catches what it throws nor looks at the
promise it returns. -/
def listener (user : AuthUser) (event : ClientEvent) (args : List Value) : Handler Unit :=
  match event with
  | .typing => uncaught (handleTyping user.id (argument args 0))
  | .sendMessage => floating (handleSendMessage user (argument args 0) (argument args 1))
  | .messageDelivered => logged (handleMessageDelivered user.id (argument args 0))
  | .markRead => logged (handleMarkRead user.id (argument args 0))

end ChatMicroservices.SocketHandlers

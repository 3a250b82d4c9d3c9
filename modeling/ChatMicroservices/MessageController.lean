import ChatMicroservices.SocketHandlers

/-!
# The REST handlers that write messages

`sendMessage` and `markAsRead` of the message controller. Each answers with `res.json` or
passes an error to `next`; the `try` block covers the whole handler, so it never rejects.
-/

namespace ChatMicroservices.MessageController
open JavaScriptValues EffectPrograms MessagesTable ChatEffects MessageNotification
open SocketHandlers (isEnvelope encryptedMessage)

inductive ResponseData where
  | message (newMessage : Message)
  | modifiedCount (n : ℕ)
  deriving DecidableEq

/-- How a handler ends the request. -/
inductive HttpResult where
  | json (status : ℕ) (message : String) (data : ResponseData)
  | next (error : JsError)
  deriving DecidableEq

/-- The handler's `try { … } catch (error) { next(error) }`. -/
def orNext (p : Handler HttpResult) : Handler HttpResult :=
  Program.tryCatch p fun error => pure (.next error)

def validateReceiver (senderId : JsString) (receiverId : Value) : Except JsError Unit :=
  if ¬ receiverId.truthy then .error (.apiError 404 "Receiver ID is required")
  else if (Value.json (.str senderId)).strictEq receiverId then
    .error (.apiError 400 "Sender and receiver cannot be the same user")
  else .ok ()

/-- The checks on the message and its envelope; the result is the trimmed message. -/
def validateContent (message : Value) : Except JsError JsString :=
  match message.nonEmptyString with
  | none => .error (.apiError 400 "Invalid message content")
  | some message =>
    let trimmedMessage := trim message
    if trimmedMessage.length = 0 then .error (.apiError 400 "Message cannot be empty")
    else if trimmedMessage.length > 5000 then
      .error (.apiError 400 "Message exceeds maximum length of 5000 characters")
    else
      match JSON.parse trimmedMessage with
      | .error _ =>
        .error (.apiError 400 "Messages must be end-to-end encrypted (invalid envelope)")
      | .ok parsedEnvelope =>
        if ¬ isEnvelope parsedEnvelope then
          .error (.apiError 400 "Messages must be end-to-end encrypted")
        else .ok trimmedMessage

def sendMessage (user : AuthUser) (body : Value) : Handler HttpResult := orNext do
  let receiverId ← readField "req.body" body "receiverId"
  let message ← readField "req.body" body "message"
  sync (validateReceiver user.id receiverId)
  let trimmedMessage ← sync (validateContent message)
  let newMessage ← Program.attempt
    (perform (.insert none (encryptedMessage user.id receiverId trimmedMessage)))
  handleMessageReceived {
    senderName := user.username
    senderEmail := user.email
    receiverId := receiverId
    messageContent := js "[Encrypted message]"
    isEncrypted := true
    envelope := some trimmedMessage }
  pure (.json 200 "Message sent successfully" (.message newMessage))

def markAsRead (user : AuthUser) (senderId : Value) : Handler HttpResult := orNext do
  if ¬ senderId.truthy then throw (.apiError 400 "Sender ID is required")
  else do
    let affected ← Program.attempt (perform (.markSeen senderId user.id))
    pure (.json 200 "Messages marked as read" (.modifiedCount affected))

end ChatMicroservices.MessageController

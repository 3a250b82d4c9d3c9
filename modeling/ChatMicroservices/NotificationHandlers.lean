import ChatMicroservices.EffectPrograms
import ChatMicroservices.EmailTemplates

/-!
# Consuming notifications

The consumer of the notifications queue, the two handlers that it dispatches to, and the push
and e-mail services that they use. Every layer has a `try` block of its own: the handlers settle
the message themselves, the consumer drops what does not get to a handler.
-/

namespace ChatMicroservices.NotificationHandlers
open JavaScriptValues EffectPrograms EmailTemplates

inductive NotificationType where
  | message | system | alert
  deriving DecidableEq

/-- The columns that are given to `save`. -/
structure NewNotification where
  userId : Value
  type : NotificationType
  title : JsString
  message : Value
  read : Bool
  deriving DecidableEq

structure FCMMessagePayload where
  title : JsString
  body : Value
  token : Value
  data : List (JsString × Value)
  deriving DecidableEq

/-- `SMTP` when a relay is configured, and otherwise the HTTP API. -/
inductive Transport where
  | smtp | brevo
  deriving DecidableEq

structure Mail where
  transport : Transport
  sender : JsString
  toAddress : Value
  subject : JsString
  htmlContent : JsString
  deriving DecidableEq

inductive Op where
  | getRepository
  | countConsumed (type : Value)
  | save (row : NewNotification)
  | isUserOnline (userId : Value)
  | initializeFirebase
  | send (payload : FCMMessagePayload)
  | readTemplate (name : JsString)
  | getFullYear
  | sendMail (mail : Mail)
  | ack
  | nack (requeue : Bool)
  deriving DecidableEq

@[reducible] def Ans : Op → Type
  | .getRepository | .countConsumed _ | .save _ | .send _ | .sendMail _ | .ack | .nack _ =>
    Except JsError Unit
  | .isUserOnline _ | .initializeFirebase => Bool
  | .readTemplate _ => Except JsError JsString
  | .getFullYear => ℕ

abbrev Handler (α : Type) := Program Ans JsError α

def perform (op : Op) : Handler (Ans op) := Program.call op

/-- The environment of the service; an empty text is a variable that is not set. -/
structure Config where
  sendinblueApiKey : JsString
  emailFrom : JsString
  smtpConfigured : Bool
  appUrl : JsString

def logoUrl : JsString :=
  js "https://res.cloudinary.com/dpqt9h7cn/image/upload/v1764081536/logo_blqxwc.png"

/-- `v || text` -/
def orText (v : Value) (text : String) : Value := if v.truthy then v else .json (.str (js text))

/-- `promise` in a `try` block that only logs. -/
def logged (p : Handler Unit) : Handler Unit := p.tryCatch fun _ => pure ()

/-- `FCMService.sendPushNotification` -/
def sendPushNotification (token message : Value) (data : List (JsString × Value)) :
    Handler Unit := do
  let ready ← perform .initializeFirebase
  if ready then logged (Program.attempt (perform (.send ⟨js "New Message", message, token, data⟩)))
  else pure ()

/-- `SecureEmailService.sendEmail`. A failure of the transport is logged and thrown again. -/
def sendEmail (config : Config) (toAddress : Value) (subject htmlContent : JsString) :
    Handler Unit :=
  if config.sendinblueApiKey = [] then
    throw (.failure "[SecureEmailService] API key not configured")
  else if config.emailFrom = [] then
    throw (.failure "[SecureEmailService] EMAIL_FROM not configured")
  else Program.attempt (perform (.sendMail
    ⟨if config.smtpConfigured then .smtp else .brevo, config.emailFrom, toAddress, subject,
      htmlContent⟩))

/-- `loadTemplate`. Whether a template is cached makes no difference to its text. -/
def loadTemplate (name : String) : Handler JsString :=
  Program.tryCatch (Program.attempt (perform (.readTemplate (js name)))) fun _ => pure []

/-- The variables that both templates have besides their `BODY`. -/
def commonVars (config : Config) (year : ℕ) : Vars :=
  [(js "APP_URL", .str config.appUrl), (js "YEAR", .str (js (toString year))),
    (js "EMAIL_FROM", .str (if config.emailFrom = [] then js "notifications@chat-app"
      else config.emailFrom)),
    (js "LOGO_DATA_URI", .str logoUrl)]

/-- `New message from ${fromName || 'Unknown'}` -/
def titleFrom (fromName : Value) : Except JsError JsString := do
  let name ← toText (orText fromName "Unknown").column
  .ok (js "New message from " ++ name)

/-- The data payload of an encrypted message. -/
def pushData (envelope message : Value) : List (JsString × Value) :=
  if envelope.truthy then
    [(js "envelope", if envelope.isString then envelope
      else .json (.str (JSON.stringify envelope.column)))]
  else if message.truthy then [(js "envelope", message)]
  else []

def sendPush (payload : Value) : Handler Unit :=
  if ¬ (payload.field "userToken").truthy then pure ()
  else if (payload.field "isEncrypted").truthy then
    sendPushNotification (payload.field "userToken") (.json (.str (js "[Encrypted message]")))
      (pushData (payload.field "envelope") (payload.field "message"))
  else
    sendPushNotification (payload.field "userToken")
      (orText (payload.field "message") "You have a new message") []

def sendMessageEmail (config : Config) (payload : Value) (messageTpl : JsString) :
    Handler Unit :=
  if ¬ (payload.field "userEmail").truthy then pure ()
  else do
    let emailBody :=
      if (payload.field "isEncrypted").truthy then
        .json (.str (js "You have a new encrypted message. Open the app to view it."))
      else orText (payload.field "message") ""
    let title ← .done (titleFrom (payload.field "fromName"))
    let year ← perform .getFullYear
    let html ← .done (renderTemplate messageTpl
      ((js "TITLE", .str title) :: (js "BODY", emailBody.column) :: commonVars config year))
    let subject ← .done (titleFrom (payload.field "fromName"))
    sendEmail config (payload.field "userEmail") subject html

def messageRow (payload : Value) (title : JsString) : NewNotification where
  userId := payload.field "userId"
  type := .message
  title := title
  message :=
    if (payload.field "isEncrypted").truthy then .json (.str (js "[Encrypted message]"))
    else orText (payload.field "message") "You have a new message"
  read := false

/-- `try { channel.nack(msg, false, false) } catch (er) { logError(…) }` -/
def dropMessage : Handler Unit := logged (Program.attempt (perform (.nack false)))

def handleMessageReceived (config : Config) (payload : Value) : Handler Unit :=
  Program.tryCatch (do
    let title ← .done (titleFrom (payload.field "fromName"))
    Program.attempt (perform (.save (messageRow payload title)))
    let online ← perform (.isUserOnline (payload.field "userId"))
    let messageTpl ← loadTemplate "message.html"
    if online && (payload.field "userToken").truthy then do
      sendPush payload
      Program.attempt (perform .ack)
    else if (payload.field "userEmail").truthy then do
      sendMessageEmail config payload messageTpl
      Program.attempt (perform .ack)
    else Program.attempt (perform .ack))
    fun _ => dropMessage

def welcomeMessage (payload : Value) : Value :=
  orText (payload.field "message") "Thanks for registering. Welcome to Chat App!"

def welcomeRow (payload : Value) : NewNotification where
  userId := payload.field "userId"
  type := .system
  title := js "Welcome to Chat App"
  message := welcomeMessage payload
  read := false

def sendWelcomeEmail (config : Config) (payload : Value) : Handler Unit := do
  let welcomeTpl ← loadTemplate "welcome.html"
  let year ← perform .getFullYear
  let html ← .done (renderTemplate welcomeTpl
    ((js "BODY", (welcomeMessage payload).column) :: commonVars config year))
  sendEmail config (payload.field "userEmail") (js "Welcome to Chat App") html

def handleUserRegistered (config : Config) (payload : Value) : Handler Unit :=
  Program.tryCatch (do
    Program.attempt (perform (.save (welcomeRow payload)))
    if (payload.field "userEmail").truthy then logged (sendWelcomeEmail config payload)
    else pure ()
    Program.attempt (perform .ack))
    fun _ => dropMessage

/-- The dispatch on the type. Events of other types are ignored. -/
def handleMessage (config : Config) (payload : Value) : Handler Unit := do
  let type ← .done (payload.destructure "payload" "type")
  Program.attempt (perform .getRepository)
  Program.attempt (perform (.countConsumed (orText type "unknown")))
  if type = .json (.str (js "MESSAGE_RECEIVED")) then handleMessageReceived config payload
  else if type = .json (.str (js "USER_REGISTERED")) then handleUserRegistered config payload
  else Program.attempt (perform .ack)

/-- The callback that `consumeNotification` gives to `consume`. -/
def onNotification (config : Config) (content : JsString) : Handler Unit :=
  Program.tryCatch (do
    let payload ← .done (JSON.parse content)
    handleMessage config (.json payload))
    fun _ => dropMessage

end ChatMicroservices.NotificationHandlers

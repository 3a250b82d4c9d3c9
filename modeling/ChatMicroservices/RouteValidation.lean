import ChatMicroservices.AuthValidation
import ChatMicroservices.ErrorAnswers
import ChatMicroservices.MessageValidation
import ChatMicroservices.NotificationController

/-!
# Validation of the other routes

The chains of the chat service and of the notification service on any body. What a chain leaves
in the body is what its handler reads.
-/

namespace ChatMicroservices.RouteValidation
open JavaScriptValues JavaScriptOperators ErrorAnswers AuthValidation
open PrekeyDatabase (FieldError)
open EmailTemplates (toText join)
open MessageValidation (isUUID sendBody)

/-- `isString` looks at the value itself, not at its texts. -/
def checkString (field message : String) (v : Value) : List FieldError :=
  if v.isString then [] else [⟨field, message⟩]

/-- `body(field).trim().notEmpty().withMessage(required).isUUID().withMessage(valid)` -/
def uuidChain (field required valid : String) (v : Value) :
    Except JsError (Value × List FieldError) := do
  let v ← trimField v
  let missing ← check field required notEmpty v
  let invalid ← check field valid isUUID v
  .ok (v, missing ++ invalid)

/-- The same chain on a parameter of the path, which is a text. -/
def uuidParam (field required valid : String) (s : JsString) : JsString × List FieldError :=
  let s := trim s
  (s, (if notEmpty s then [] else [⟨field, required⟩]) ++
    if isUUID s then [] else [⟨field, valid⟩])

/-- The chain of `message`, the same in the two services. -/
def messageChain (message : Value) : Except JsError (List FieldError) := do
  let required ← check "message" "Message is required" notEmpty message
  let length ← check "message" "Message exceeds maximum length of 5000 characters"
    (isLength 0 5000) message
  .ok (required ++ checkString "message" "Message must be a string" message ++ length)

/-- A sanitizer assigns what it has found to the field of the body. -/
def withField (body : Value) (key : String) (v : Value) : Value :=
  match body, v with
  | .json (.obj fields), .json v => .json (.obj (assign (js key) v fields))
  | body, _ => body

def receiverIdChain : Value → Except JsError (Value × List FieldError) :=
  uuidChain "receiverId" "Receiver ID is required" "Receiver ID must be a valid UUID"

/-- The body as the chains leave it, and what they found. -/
def sendMessageValidation (body : Value) : Except JsError (Value × List FieldError) := do
  let (receiverId, receiverIdErrors) ← receiverIdChain (body.field "receiverId")
  let messageErrors ← messageChain (body.field "message")
  .ok (withField body "receiverId" receiverId, receiverIdErrors ++ messageErrors)

def fetchConversationValidation : JsString → JsString × List FieldError :=
  uuidParam "receiverId" "Receiver ID is required" "Receiver ID must be a valid UUID"

def chatMarkAsReadValidation : JsString → JsString × List FieldError :=
  uuidParam "senderId" "Sender ID is required" "Sender ID must be a valid UUID"

def notificationIdParam : JsString → JsString × List FieldError :=
  uuidParam "notificationId" "Notification ID is required" "Notification ID must be a valid UUID"

def markAsReadValidation : JsString → JsString × List FieldError := notificationIdParam

def deleteNotificationValidation : JsString → JsString × List FieldError := notificationIdParam

def userIdChain : Value → Except JsError (Value × List FieldError) :=
  uuidChain "userId" "User ID is required" "User ID must be a valid UUID"

/-- `isIn(['message', 'system', 'alert'])` -/
def isType (s : JsString) : Bool := s = js "message" ∨ s = js "system" ∨ s = js "alert"

def typeChain (type : Value) : Except JsError (Value × List FieldError) := do
  let type ← trimField type
  let required ← check "type" "Notification type is required" notEmpty type
  let known ← check "type" "Notification type must be: message, system, or alert" isType type
  .ok (type, required ++ checkString "type" "Notification type must be a string" type ++ known)

def titleChain (title : Value) : Except JsError (Value × List FieldError) := do
  let title ← trimField title
  let required ← check "title" "Title is required" notEmpty title
  let length ← check "title" "Title exceeds maximum length of 255 characters" (isLength 0 255)
    title
  .ok (title, required ++ checkString "title" "Title must be a string" title ++ length)

/-- The body as the chains leave it, and what they found. -/
def createNotificationValidation (body : Value) : Except JsError (Value × List FieldError) := do
  let (userId, userIdErrors) ← userIdChain (body.field "userId")
  let (type, typeErrors) ← typeChain (body.field "type")
  let (title, titleErrors) ← titleChain (body.field "title")
  let messageErrors ← messageChain (body.field "message")
  .ok (withField (withField (withField body "userId" userId) "type" type) "title" title,
    userIdErrors ++ typeErrors ++ titleErrors ++ messageErrors)

end ChatMicroservices.RouteValidation

import ChatMicroservices.NotificationsTable

/-!
# The notification controller

Six handlers behind the authentication. Each answers with `res.json` or passes an error to
`next`; the `try` block covers the whole handler.
-/

namespace ChatMicroservices.NotificationController
open JavaScriptValues EffectPrograms NotificationsTable
open NotificationHandlers (NotificationType)

inductive ResponseData where
  | notifications (data : List Notification)
  | count (n : ℕ)
  | notification (data : Notification)
  | modifiedCount (n : ℕ)
  | created (data : SavedNotification)
  | none
  deriving DecidableEq

/-- How a handler ends the request. -/
inductive HttpResult where
  | json (status : ℕ) (message : String) (data : ResponseData)
  | next (error : JsError)
  deriving DecidableEq

abbrev Handler (α : Type) := Program Ans JsError α

def perform (op : Op) : Handler (Ans op) := Program.call op

/-- The handler's `try { … } catch (error) { next(error) }`. -/
def orNext (p : Handler HttpResult) : Handler HttpResult :=
  p.tryCatch fun error => pure (.next error)

/-- `param || text`, for the values that the query has for a key. -/
def paramOr (values : List JsString) (text : String) : JsString :=
  match values with
  | [] | [[]] => js text
  | values => List.intercalate (js ",") values

def signed : JsString → Bool × JsString
  | [] => (false, [])
  | u :: rest => if u = 0x2D then (true, rest) else (false, if u = 0x2B then rest else u :: rest)

/-- `Number.parseInt(s, 10)` -/
def parseInt (s : JsString) : ParsedInt :=
  let (negative, s) := signed (trimStart s)
  let digits := s.takeWhile JSON.isDigit
  let n : ℚ := JSON.decimalValue digits
  if digits = [] then none else some (JSON.toDouble (if negative then -n else n))

example : parseInt (js " -12px") = some (.finite (-12)) ∧ parseInt (js "px") = none := by
  decide +kernel

section Handlers

variable (userId : JsString)

def getNotifications (limit offset : List JsString) : Handler HttpResult := orNext do
  let take := parseInt (paramOr limit "20")
  let skip := parseInt (paramOr offset "0")
  let notifications ← Program.attempt (perform (.find userId skip take))
  pure (.json 200 "Notifications fetched successfully" (.notifications notifications))

def getUnreadCount : Handler HttpResult := orNext do
  let count ← Program.attempt (perform (.count userId false))
  pure (.json 200 "Unread count fetched successfully" (.count count))

def markAsRead (notificationId : JsString) : Handler HttpResult := orNext do
  match ← Program.attempt (perform (.findOne notificationId userId)) with
  | none => throw (.apiError 404 "Notification not found")
  | some notification => do
    let notification ← Program.attempt (perform (.save { notification with read := true }))
    pure (.json 200 "Notification marked as read" (.notification notification))

def markAllAsRead : Handler HttpResult := orNext do
  let affected ← Program.attempt (perform (.setRead userId))
  pure (.json 200 "All notifications marked as read" (.modifiedCount affected))

def deleteNotification (notificationId : JsString) : Handler HttpResult := orNext do
  match ← Program.attempt (perform (.findOne notificationId userId)) with
  | none => throw (.apiError 404 "Notification not found")
  | some notification => do
    Program.attempt (perform (.remove notification))
    pure (.json 200 "Notification deleted successfully" .none)

/-- `['message', 'system', 'alert'].includes(type)` -/
def asType (type : Value) : Option NotificationType :=
  if type = .json (.str (js "message")) then some .message
  else if type = .json (.str (js "system")) then some .system
  else if type = .json (.str (js "alert")) then some .alert
  else none

/-- The checks of `createNotification`, and the entity that it saves. -/
def newNotification (body : Value) : Except JsError NewNotification := do
  let owner ← body.destructure "req.body" "userId"
  let type := body.field "type"
  let title := body.field "title"
  let message := body.field "message"
  if ¬ owner.truthy ∨ ¬ type.truthy ∨ ¬ title.truthy ∨ ¬ message.truthy then
    .error (.apiError 400 "Missing required fields: userId, type, title, message")
  else if ¬ owner.strictEq (.json (.str userId)) then
    .error (.apiError 403 "Forbidden: Cannot create notifications for other users")
  else
    match asType type with
    | none => .error (.apiError 400 "Invalid notification type. Must be: message, system, or alert")
    | some type => .ok ⟨userId, type, title, message, false⟩

def createNotification (body : Value) : Handler HttpResult := orNext do
  let entity ← .done (newNotification userId body)
  let notification ← Program.attempt (perform (.insert entity))
  pure (.json 201 "Notification created successfully" (.created notification))

end Handlers

inductive Request where
  | getNotifications (limit offset : List JsString)
  | getUnreadCount
  | markAsRead (notificationId : JsString)
  | markAllAsRead
  | deleteNotification (notificationId : JsString)
  | createNotification (body : Value)

/-- The handler of a request of the user that `authMiddleware` has found. -/
def handler (userId : JsString) : Request → Handler HttpResult
  | .getNotifications limit offset => getNotifications userId limit offset
  | .getUnreadCount => getUnreadCount userId
  | .markAsRead notificationId => markAsRead userId notificationId
  | .markAllAsRead => markAllAsRead userId
  | .deleteNotification notificationId => deleteNotification userId notificationId
  | .createNotification body => createNotification userId body

/-- Go on with the answer of a call, or pass its error to `next`. -/
def answered {α : Type} (r : Except JsError α) (f : α → Handler HttpResult) :
    Handler HttpResult :=
  match r with
  | .ok a => f a
  | .error e => .done (.ok (.next e))

theorem answered_issues {P : Op → Prop} {α : Type} (r : Except JsError α)
    {f : α → Handler HttpResult} (hf : ∀ a, (f a).Issues P) : (answered r f).Issues P := by
  cases r with
  | ok a => exact hf a
  | error e => trivial

section Calls

variable (userId : JsString)

theorem getNotifications_eq (limit offset : List JsString) :
    getNotifications userId limit offset =
      .perform (.find userId (parseInt (paramOr offset "0")) (parseInt (paramOr limit "20")))
        fun r => answered r fun notifications => .done (.ok (.json 200
          "Notifications fetched successfully" (.notifications notifications))) := by
  refine congrArg (Program.perform _) (funext fun r => ?_)
  cases r with
  | ok notifications => rfl
  | error e => rfl

theorem getUnreadCount_eq : getUnreadCount userId = .perform (.count userId false) fun r =>
    answered r fun n => .done (.ok (.json 200 "Unread count fetched successfully" (.count n))) := by
  refine congrArg (Program.perform _) (funext fun r => ?_)
  cases r with
  | ok n => rfl
  | error e => rfl

/-- What `markAsRead` does with the notification that it has found. -/
def saveAsRead (notification : Notification) : Handler HttpResult :=
  .perform (.save { notification with read := true }) fun r => answered r fun saved =>
    .done (.ok (.json 200 "Notification marked as read" (.notification saved)))

/-- What `deleteNotification` does with the notification that it has found. -/
def removeFound (notification : Notification) : Handler HttpResult :=
  .perform (.remove notification) fun r => answered r fun _ =>
    .done (.ok (.json 200 "Notification deleted successfully" .none))

/-- Go on with a notification that was found, if any. -/
def found (f : Notification → Handler HttpResult) (n : Option Notification) :
    Handler HttpResult :=
  n.elim (.done (.ok (.next (.apiError 404 "Notification not found")))) f

theorem found_issues {P : Op → Prop} (n : Option Notification)
    {f : Notification → Handler HttpResult} (hf : ∀ a, (f a).Issues P) : (found f n).Issues P := by
  cases n with
  | none => trivial
  | some a => exact hf a

theorem markAsRead_eq (notificationId : JsString) : markAsRead userId notificationId =
    .perform (.findOne notificationId userId) fun r => answered r (found saveAsRead) := by
  refine congrArg (Program.perform _) (funext fun r => ?_)
  cases r with
  | error e => rfl
  | ok n =>
    cases n with
    | none => rfl
    | some notification =>
      refine congrArg (Program.perform _) (funext fun r => ?_)
      cases r with
      | ok saved => rfl
      | error e => rfl

theorem markAllAsRead_eq : markAllAsRead userId = .perform (.setRead userId) fun r =>
    answered r fun n =>
      .done (.ok (.json 200 "All notifications marked as read" (.modifiedCount n))) := by
  refine congrArg (Program.perform _) (funext fun r => ?_)
  cases r with
  | ok n => rfl
  | error e => rfl

theorem deleteNotification_eq (notificationId : JsString) :
    deleteNotification userId notificationId =
      .perform (.findOne notificationId userId) fun r => answered r (found removeFound) := by
  refine congrArg (Program.perform _) (funext fun r => ?_)
  cases r with
  | error e => rfl
  | ok n =>
    cases n with
    | none => rfl
    | some notification =>
      refine congrArg (Program.perform _) (funext fun r => ?_)
      cases r with
      | ok u => rfl
      | error e => rfl

theorem createNotification_eq (body : Value) : createNotification userId body =
    answered (newNotification userId body) fun entity => .perform (.insert entity) fun r =>
      answered r fun saved =>
        .done (.ok (.json 201 "Notification created successfully" (.created saved))) := by
  rw [createNotification]
  cases newNotification userId body with
  | error e => rfl
  | ok entity =>
    refine congrArg (Program.perform _) (funext fun r => ?_)
    cases r with
    | ok saved => rfl
    | error e => rfl

end Calls

end ChatMicroservices.NotificationController

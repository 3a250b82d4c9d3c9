import ChatMicroservices.AccountLookups
import ChatMicroservices.ConversationPages
import ChatMicroservices.ProgramCouplings
import ChatMicroservices.RouteValidation
import ChatMicroservices.UserDetails

/-!
# The routes of the three services

A request has its body read and its token verified, passes the chains of its route, and reaches
its handler. Whatever is thrown on the way ends in the error handlers. Rate limits and the other
middleware that every request passes are left out.
-/

namespace ChatMicroservices.RestRoutes
open JavaScriptValues EffectPrograms ErrorAnswers Authentication RouteValidation
open AuthValidation (EmailRules registrationValidation loginValidation trimField)
open AuthController (CaseMapping)
open ChatEffects (AuthUser)
open ConversationList (ConversationRow)
open PrekeyDatabase (FieldError)
open ExpiringCaches InsertionMaps MicrotaskQueues
open UserDetails (Caller fetchUserDetails partnerId usernameOf)

/-- The body parsers, and `jwt.verify(token, JWT_SECRET, { algorithms: ['HS256'] })`. -/
inductive Entry where
  | readBody
  | verify (token : Value)

/-- A token that verifies carries the claims of a user. -/
@[reducible] def EntryAns : Entry → Type
  | .readBody => Except JsError Value
  | .verify _ => Except Thrown AuthUser

abbrev RouteAns {Op : Type} (Ans : Op → Type) : Entry ⊕ Op → Type := Sum.elim EntryAns Ans

/-- A route over the effects of its handler. -/
abbrev Route {Op : Type} (Ans : Op → Type) (α : Type) := Program (RouteAns Ans) JsError α

section Entry

variable {Op : Type} {Ans : Op → Type} {α β γ : Type}

def readBody : Route Ans Value :=
  Program.attempt (Program.callLeft Entry.readBody)

def claims (user : AuthUser) : Payload :=
  .object [(js "username", .str user.username), (js "email", .str user.email),
    (js "id", .str user.id)]

/-- A middleware in front of a handler. It does not proceed with a token that is refused. -/
def admitted (outcome : Outcome β) (answer : Except Thrown AuthUser) : Except JsError AuthUser :=
  match outcome, answer with
  | .reject error, _ => .error error
  | .proceed _, .ok user => .ok user
  | .proceed _, .error thrown => .error thrown.error

/-- A middleware at work. Without a token it does not look at the answer. -/
def authenticate (middleware : Verify → Request → Outcome β) (req : Request) :
    Route Ans AuthUser := do
  let answer ← Program.callLeft (Entry.verify (requestToken req))
  .done (admitted (middleware (fun _ => answer.map claims) req) answer)

/-- The chains of a route and `validateRequest`, in front of a handler. -/
def validateRequest (chains : Except JsError (α × List FieldError))
    (handler : α → Route Ans (Verdict γ)) : Route Ans (Verdict γ) :=
  match chains with
  | .error error => .done (.error error)
  | .ok (fields, errors) => if errors = [] then handler fields else pure (.invalid errors)

end Entry

inductive MessageRoute where
  | sendMessage
  | markAsRead (senderId : JsString)

def ofMessages : MessageController.HttpResult → Verdict MessageController.HttpResult
  | .json status message data => .sent (.json status message data)
  | .next error => .next error

/-- `POST /send` and `PUT /messages/read/:senderId` -/
def messageRoute (req : Request) (route : MessageRoute) :
    Route ChatEffects.Ans (Verdict MessageController.HttpResult) := do
  let body ← readBody
  let user ← authenticate ChatService.authMiddleware req
  match route with
  | .sendMessage =>
    validateRequest (sendMessageValidation body) fun body =>
      ofMessages <$> (MessageController.sendMessage user body).lift
  | .markAsRead senderId =>
    validateRequest (.ok (chatMarkAsReadValidation senderId)) fun senderId =>
      ofMessages <$> (MessageController.markAsRead user (.json (.str senderId))).lift

/-- `GET /get/:receiverId` -/
structure PageRequest where
  receiverId : JsString
  limit : List JsString
  offset : List JsString

def ofPages : ConversationPages.HttpResult → Verdict ConversationPages.HttpResult
  | .json status message data pagination => .sent (.json status message data pagination)
  | .next error => .next error

def pageRoute (req : Request) (page : PageRequest) :
    Route ConversationPages.Ans (Verdict ConversationPages.HttpResult) := do
  let _ ← readBody
  let user ← authenticate ChatService.authMiddleware req
  validateRequest (.ok (fetchConversationValidation page.receiverId)) fun receiverId =>
    ofPages <$> (ConversationPages.fetchConversation user receiverId page.limit page.offset).lift

/-- The query of `getConversations`; the cache and the user service are asked with the effects
of `fetchUserDetails`. -/
inductive ListQuery where
  | conversations (userId : JsString)

@[reducible] def ListQueryAns : ListQuery → Type
  | .conversations _ => Except JsError (List ConversationRow)

abbrev ListAns : ListQuery ⊕ UserDetails.Op → Type := Sum.elim ListQueryAns UserDetails.Ans

inductive ListResult where
  | json (status : ℕ) (message : String) (data : List (ConversationRow × Value))
  | next (error : JsError)

/-- The loop over the user ids: what the cache has, and the ids that it does not have. -/
def lookUpAll : List JsString → InsertionMap JsString Value → List JsString →
    UserDetails.Handler (InsertionMap JsString Value × List JsString)
  | [], results, uncached => pure (results, uncached)
  | id :: ids, results, uncached => do
    match ← UserDetails.perform (.cacheGet id) with
    | some data => lookUpAll ids (results.set id data) uncached
    | none => lookUpAll ids results (uncached ++ [id])

/-- The loop asks the cache for the same ids as a batch that starts. -/
theorem lookUpAll_segment {cache : ExpiringCache JsString Value UserDetails.USER_CACHE_TTL_MS}
    (now : ℕ) (answer : JsString → UserDetails.Headers → Except JsError UserDetails.Response)
    (ids : List JsString) (results : InsertionMap JsString Value) (uncached : List JsString)
    (w : UserDetails.World cache) :
    runSegment UserDetails.waits (UserDetails.exec now answer) (lookUpAll ids results uncached) w =
      let out := UserDetails.lookUp now ids w.entries results uncached
      (.inl (.ok (out.1, out.2.1)), { w with entries := out.2.2 }) := by
  induction ids generalizing results uncached w with
  | nil => rfl
  | cons id ids ih =>
    rw [UserDetails.lookUp]
    cases hget : cache.get now id w.entries with
    | mk hit entries =>
      cases hit with
      | none =>
        have hrest := ih results (uncached ++ [id]) { w with entries := entries }
        simpa [lookUpAll, UserDetails.perform, Program.call, runSegment, UserDetails.waits,
          UserDetails.exec, hget] using hrest
      | some data =>
        have hrest := ih (results.set id data) uncached { w with entries := entries }
        simpa [lookUpAll, UserDetails.perform, Program.call, runSegment, UserDetails.waits,
          UserDetails.exec, hget] using hrest

/-- The calls for the ids that the cache does not have run side by side; what they wait for
settles in the order of the schedule. -/
def fetchUserDetailsBatch (userServiceUrl : Option JsString) (caller : Caller)
    (schedule : List ℕ) (userIds : List JsString) :
    UserDetails.Handler (InsertionMap JsString Value) := do
  let (results, uncached) ← lookUpAll userIds InsertionMap.empty []
  let fetched ← Program.together schedule (uncached.map (fetchUserDetails userServiceUrl caller))
  pure (results.setAll (uncached.zip fetched))

def getConversations (userServiceUrl : Option JsString) (user : AuthUser) (caller : Caller)
    (schedule : List ℕ) : Program ListAns JsError ListResult :=
  Program.tryCatch (do
    let rows ← Program.attempt (Program.callLeft (ListQuery.conversations user.id))
    let details ← (fetchUserDetailsBatch userServiceUrl caller schedule (rows.map partnerId)).lift
    let conversations := rows.map fun row => (row, usernameOf (details.get (partnerId row)))
    pure (.json 200 "Conversations fetched successfully" conversations))
    fun error => pure (.next error)

def ofList : ListResult → Verdict ListResult
  | .json status message data => .sent (.json status message data)
  | .next error => .next error

/-- `GET /conversations` -/
def listRoute (userServiceUrl : Option JsString) (req : Request) (caller : Caller)
    (schedule : List ℕ) : Route ListAns (Verdict ListResult) := do
  let _ ← readBody
  let user ← authenticate ChatService.authMiddleware req
  ofList <$> (getConversations userServiceUrl user caller schedule).lift

inductive AccountRoute where
  | register
  | login

def ofAccounts : AuthController.HttpResult → Verdict AuthController.HttpResult
  | .json status message data => .sent (.json status message data)
  | .next error => .next error

/-- `POST /register` and `POST /login` -/
def accountRoute (case : CaseMapping) (rules : EmailRules) (production : Bool)
    (route : AccountRoute) : Route AuthController.Ans (Verdict AuthController.HttpResult) := do
  let body ← readBody
  match route with
  | .register =>
    validateRequest (registrationValidation rules body) fun body =>
      ofAccounts <$> (AuthController.registration case production body).lift
  | .login =>
    validateRequest (loginValidation rules body) fun body =>
      ofAccounts <$> (AuthController.login production body.email body.password).lift

inductive LookupRoute where
  | getCurrentUser
  | getUserById (userId : JsString)
  | search (q : Value)
  | logout

def ofLookups : AccountLookups.HttpResult → Verdict AccountLookups.HttpResult
  | .user message data => .sent (.user message data)
  | .found data => .sent (.found data)
  | .loggedOut cleared message => .sent (.loggedOut cleared message)
  | .next error => .next error

/-- `GET /me`, `GET /users/:userId`, `GET /search` and `POST /logout`, of which only the last
does without a token. -/
def lookupRoute (production : Bool) (req : Request) (route : LookupRoute) :
    Route AccountLookups.Ans (Verdict AccountLookups.HttpResult) := do
  let _ ← readBody
  match route with
  | .logout => ofLookups <$> (AccountLookups.logout production).lift
  | .getCurrentUser => do
    let user ← authenticate UserService.authenticated req
    ofLookups <$> (AccountLookups.getCurrentUser (some (claims user))).lift
  | .getUserById userId => do
    let _ ← authenticate UserService.authenticated req
    ofLookups <$> (AccountLookups.getUserById userId).lift
  | .search q => do
    let user ← authenticate UserService.authenticated req
    ofLookups <$> (AccountLookups.search user.id q).lift

inductive PrekeyRoute where
  | getPrekeyBundle (userId : JsString)
  | storeSignalKeys
  | getSignalKeys (deviceId : Value)
  | publishPrekey

/-- `POST /prekeys`: `trim` replaces the device in the body in front of the other checks. -/
def publishRoute (user : AuthUser) (body : Value) : PrekeyDatabase.Handler Unit :=
  match trimField (body.field "deviceId") with
  | .error error => .done (.error error)
  | .ok deviceId => PrekeyValidation.postPrekeys user.id (withField body "deviceId" deviceId)

/-- `GET /prekeys/:userId`, which anyone may ask for, `POST` and `GET /signal-keys`, and
`POST /prekeys`. These handlers answer with an effect. -/
def prekeyRoute (req : Request) (route : PrekeyRoute) : Route PrekeyDatabase.Ans Unit := do
  let body ← readBody
  match route with
  | .getPrekeyBundle userId => (PrekeyController.getPrekeyBundle userId).lift
  | .storeSignalKeys => do
    let user ← authenticate UserService.authenticated req
    (PrekeyController.storeSignalKeys (some user.id) body).lift
  | .getSignalKeys deviceId => do
    let user ← authenticate UserService.authenticated req
    (PrekeyController.getSignalKeys (some user.id) deviceId).lift
  | .publishPrekey => do
    let user ← authenticate UserService.authenticated req
    (publishRoute user body).lift

def ofPrekeys : PrekeyDatabase.Answer → Verdict PrekeyDatabase.Answer
  | .next error => .next error
  | .invalid errors => .invalid errors
  | .bundle userId deviceId bundle => .sent (.bundle userId deviceId bundle)
  | .keys deviceId encryptedBundle => .sent (.keys deviceId encryptedBundle)
  | .message status message => .sent (.message status message)

/-- The answer among the effects of a run. -/
def responded : List (Entry ⊕ PrekeyDatabase.Op) → Option PrekeyDatabase.Answer
  | [] => none
  | .inr (.respond answer) :: _ => some answer
  | _ :: effects => responded effects

/-- The first answer counts; without one, the framework passes on the rejection. -/
def prekeyVerdict (effects : List (Entry ⊕ PrekeyDatabase.Op)) (r : Except JsError Unit) :
    Verdict PrekeyDatabase.Answer :=
  match responded effects, r with
  | some answer, _ => ofPrekeys answer
  | none, .error error => .next error
  | none, .ok () => .silent

inductive NotificationRoute where
  | getNotifications (limit offset : List JsString)
  | getUnreadCount
  | markAllAsRead
  | markAsRead (notificationId : JsString)
  | deleteNotification (notificationId : JsString)
  | createNotification

/-- What the chains of a route leave for its handler, and what they found. -/
def NotificationRoute.validation (body : Value) :
    NotificationRoute → Except JsError (NotificationController.Request × List FieldError)
  | .getNotifications limit offset => .ok (.getNotifications limit offset, [])
  | .getUnreadCount => .ok (.getUnreadCount, [])
  | .markAllAsRead => .ok (.markAllAsRead, [])
  | .markAsRead notificationId =>
    let (notificationId, errors) := markAsReadValidation notificationId
    .ok (.markAsRead notificationId, errors)
  | .deleteNotification notificationId =>
    let (notificationId, errors) := deleteNotificationValidation notificationId
    .ok (.deleteNotification notificationId, errors)
  | .createNotification =>
    (createNotificationValidation body).map fun (body, errors) =>
      (.createNotification body, errors)

def ofNotifications : NotificationController.HttpResult →
    Verdict NotificationController.HttpResult
  | .json status message data => .sent (.json status message data)
  | .next error => .next error

def notificationRoute (req : Request) (route : NotificationRoute) :
    Route NotificationsTable.Ans (Verdict NotificationController.HttpResult) := do
  let body ← readBody
  let user ← authenticate NotificationService.authMiddleware req
  validateRequest (route.validation body) fun request =>
    ofNotifications <$> (NotificationController.handler user.id request).lift

end ChatMicroservices.RestRoutes

import ChatMicroservices.CookieHeaders
import ChatMicroservices.JavaScriptValues

/-!
# Authentication

The middleware of the three services and of the Socket.IO server. A request brings its token in
its `Authorization` header or in the cookie `jwt`. The services leave the cookie to the cookie
parser, the Socket.IO server reads the header itself.
-/

namespace ChatMicroservices.Authentication
open JavaScriptValues CookieHeaders

/-- What `verify` or the middleware itself throws, and whether it is an instance of
`jwt.JsonWebTokenError` and of `jwt.TokenExpiredError`. -/
structure Thrown where
  error : JsError
  isJsonWebTokenError : Bool
  isTokenExpiredError : Bool
  extends_jsonWebTokenError : isTokenExpiredError → isJsonWebTokenError

/-- What `verify` returns: a text, or an object. -/
inductive Payload where
  | text (s : JsString)
  | object (fields : List (JsString × Json))

def Payload.field (decoded : Payload) (key : String) : Value :=
  match decoded with
  | text s => (Value.json (.str s)).field key
  | object fields => (Value.json (.obj fields)).field key

/-- `jwt.verify(token, JWT_SECRET, { algorithms: ['HS256'] })` at some time. -/
abbrev Verify : Type := Value → Except Thrown Payload

/-- What the middleware reads of a request. The cookie parser has set `req.cookies`. -/
structure Request where
  authorization : Option JsString
  cookies : Value

/-- The user that is attached to a request or to a socket. -/
structure IUser where
  id : Value
  username : Value
  email : Value

/-- How the middleware goes on: `next()`, or `next(error)`. -/
inductive Outcome (α : Type) where
  | proceed (user : α)
  | reject (error : JsError)

def Outcome.map {α β : Type} (f : α → β) : Outcome α → Outcome β
  | .proceed user => .proceed (f user)
  | .reject error => .reject error

/-- The token of the `Authorization` header. -/
def bearerToken (authorization : Option JsString) : Value :=
  match authorization with
  | some authHeader =>
    if (js "Bearer ").isPrefixOf authHeader then .json (.str (authHeader.drop 7)) else .undefined
  | none => .undefined

/-- The token of a request, the same in the three services. -/
def requestToken (req : Request) : Value :=
  let token := bearerToken req.authorization
  if ¬ token.truthy ∧ (req.cookies.field "jwt").truthy then req.cookies.field "jwt" else token

def attached (decoded : Payload) : IUser :=
  ⟨decoded.field "id", decoded.field "username", decoded.field "email"⟩

namespace ChatService

def authMiddleware (verify : Verify) (req : Request) : Outcome IUser :=
  let token := requestToken req
  if ¬ token.truthy then .reject (.apiError 401 "Authentication required")
  else
    match verify token with
    | .ok decoded => .proceed (attached decoded)
    | .error _ => .reject (.apiError 401 "Invalid or expired token")

end ChatService

/-- An error that is none of the token library. -/
def Thrown.foreign (error : JsError) : Thrown := ⟨error, false, false, id⟩

/-- The `try` block of the other two services. -/
def verified (verify : Verify) (req : Request) : Except Thrown Payload :=
  let token := requestToken req
  if ¬ token.truthy then
    .error (.foreign (.apiError 401 "Authentication required. Please log in."))
  else verify token

/-- The `catch` block of the other two services. -/
def caught (thrown : Thrown) : JsError :=
  if thrown.isJsonWebTokenError then .apiError 401 "Invalid token. Please log in again."
  else if thrown.isTokenExpiredError then .apiError 401 "Token expired. Please log in again."
  else thrown.error

namespace UserService

def authenticated (verify : Verify) (req : Request) : Outcome Payload :=
  match verified verify req with
  | .ok decoded => .proceed decoded
  | .error error => .reject (caught error)

end UserService

namespace NotificationService

def authMiddleware (verify : Verify) (req : Request) : Outcome IUser :=
  match verified verify req with
  | .ok decoded => .proceed (attached decoded)
  | .error error => .reject (caught error)

end NotificationService

structure Handshake where
  authToken : Value
  cookie : Option JsString

/-- The token in the `Cookie` header. -/
def cookieToken (cookieHeader : JsString) : Option JsString :=
  (((cookieHeader.splitOn 0x3B).map trim).find? (js "jwt=").isPrefixOf).map
    (List.drop (js "jwt=").length)

def handshakeToken (handshake : Handshake) : Value :=
  if ¬ handshake.authToken.truthy then
    match handshake.cookie with
    | some cookieHeader =>
      if cookieHeader = [] then handshake.authToken
      else
        match cookieToken cookieHeader with
        | some token => .json (.str token)
        | none => handshake.authToken
    | none => handshake.authToken
  else handshake.authToken

namespace SocketServer

def authMiddleware (verify : Verify) (handshake : Handshake) : Outcome IUser :=
  let token := handshakeToken handshake
  if ¬ token.truthy then .reject (.failure "Authentication required")
  else
    match verify token with
    | .ok decoded => .proceed (attached decoded)
    | .error _ => .reject (.failure "Invalid token")

end SocketServer

def http : Punctuation UInt16 where
  separator := 0x3B
  space := 0x20
  equals := 0x3D
  blank := isSpace
  space_ne := by decide
  space_blank := by decide

theorem cookieToken_eq (cookieHeader : JsString) :
    cookieToken cookieHeader = http.find cookieHeader (js "jwt") := rfl

end ChatMicroservices.Authentication

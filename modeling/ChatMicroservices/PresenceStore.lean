import ChatMicroservices.EffectPrograms
import ChatMicroservices.JavaScriptValues
import ChatMicroservices.RegisteredSets
import Mathlib.Data.Finset.Basic
import Mathlib.Data.Finset.Card

/-!
# The Redis presence store

`RedisPresenceStore` keeps the sockets of each user in a Redis set, and the users with a
socket in another one. Every method is a sequence of single commands. A pipeline reports the
errors of its commands in its result, which the store does not look at.
-/

namespace ChatMicroservices.PresenceStore
open JavaScriptValues EffectPrograms RegisteredSets

/-- Redis commands, and the moments at which a call of the store begins and returns. -/
inductive Op where
  | sadd (key member : JsString)
  | srem (key member : JsString)
  | scard (key : JsString)
  | sismember (key member : JsString)
  | smembers (key : JsString)
  | expire (key : JsString) (seconds : ℕ)
  | begin
  | finish (result : Bool)
  deriving DecidableEq

@[reducible] def Ans : Op → Type
  | .sadd _ _ | .srem _ _ | .scard _ | .sismember _ _ | .expire _ _ => Except JsError ℕ
  | .smembers _ => Except JsError (Finset JsString)
  | .begin | .finish _ => Unit

abbrev Handler (α : Type) := Program Ans JsError α

def perform (op : Op) : Handler (Ans op) := Program.call op

/-- The sets of the server. An empty set and a missing key are the same. -/
abbrev Sets := JsString → Finset JsString

def keySockets (userId : JsString) : JsString := js "ps:sockets:" ++ userId

def keyOnline : JsString := js "ps:online"

def socketTtlSeconds : ℕ := 3600

@[simp] theorem keySockets_inj {a b : JsString} : keySockets a = keySockets b ↔ a = b :=
  List.append_right_inj _

/-- The keys differ in their fourth unit. -/
@[simp] theorem keySockets_ne_keyOnline (userId : JsString) : keySockets userId ≠ keyOnline := by
  intro h
  have hunit : (js "ps:sockets:" ++ userId)[3]? = (js "ps:online")[3]? :=
    congrArg (fun key : JsString => key[3]?) h
  rw [List.getElem?_append_left (by decide)] at hunit
  exact absurd hunit (by decide)

@[simp] theorem keyOnline_ne_keySockets (userId : JsString) : keyOnline ≠ keySockets userId :=
  (keySockets_ne_keyOnline userId).symm

def connect (userId socketId : JsString) : Handler Bool :=
  Program.tryCatch (do
    let _ ← perform (.sadd (keySockets userId) socketId)
    let _ ← perform (.expire (keySockets userId) socketTtlSeconds)
    let count ← Program.attempt (perform (.scard (keySockets userId)))
    if count = 1 then do
      let _ ← Program.attempt (perform (.sadd keyOnline userId))
      pure true
    else pure false)
    fun _ => pure false

/-- An error counts as the last connection, so that no user stays online. -/
def disconnect (userId socketId : JsString) : Handler Bool :=
  Program.tryCatch (do
    let _ ← Program.attempt (perform (.srem (keySockets userId) socketId))
    let count ← Program.attempt (perform (.scard (keySockets userId)))
    if count = 0 then do
      let _ ← Program.attempt (perform (.srem keyOnline userId))
      pure true
    else pure false)
    fun _ => pure true

def isOnline (userId : JsString) : Handler Bool :=
  Program.tryCatch (do
    let reply ← Program.attempt (perform (.sismember keyOnline userId))
    pure (reply = 1))
    fun _ => pure false

/-- `SMEMBERS` lists each member once, in no particular order. -/
def getOnlineUserIds (excludeUserId : JsString) : Handler (Finset JsString) :=
  Program.tryCatch (do
    let all ← Program.attempt (perform (.smembers keyOnline))
    pure (all.filter fun id => id ≠ excludeUserId))
    fun _ => pure ∅

inductive Call where
  | connect (userId socketId : JsString)
  | disconnect (userId socketId : JsString)
  deriving DecidableEq

namespace Call

def userId : Call → JsString
  | connect userId _ | disconnect userId _ => userId

/-- The call connects a socket of the user. -/
def connects (user : JsString) : Call → Bool
  | connect userId _ => userId = user
  | disconnect _ _ => false

/-- The call disconnects a socket of the user. -/
def disconnects (user : JsString) : Call → Bool
  | connect _ _ => false
  | disconnect userId _ => userId = user

def body : Call → Handler Bool
  | connect userId socketId => PresenceStore.connect userId socketId
  | disconnect userId socketId => PresenceStore.disconnect userId socketId

def program (call : Call) : Handler Unit := do
  perform .begin
  let result ← call.body
  perform (.finish result)

/-- What the call does to the set of connected pairs of a user and a socket. -/
def change : Call → Change (JsString × JsString)
  | connect userId socketId => .add (userId, socketId)
  | disconnect userId socketId => .remove (userId, socketId)

end Call

/-- What the application asks of a presence store. -/
inductive Request where
  | call (c : Call)
  | isOnline (userId : JsString)
  | getOnlineUserIds (excludeUserId : JsString)
  deriving DecidableEq

/-- The answer to a request, where `Ids` is the type of its lists of user ids. -/
inductive Reply (Ids : Type) where
  | flag (value : Bool)
  | userIds (ids : Ids)
  deriving DecidableEq

def Reply.map {Ids Ids' : Type} (f : Ids → Ids') : Reply Ids → Reply Ids'
  | flag value => flag value
  | userIds ids => userIds (f ids)

namespace Request

def program : Request → Handler (Reply (Finset JsString))
  | call c => do
    let value ← c.body
    pure (.flag value)
  | isOnline userId => do
    let value ← PresenceStore.isOnline userId
    pure (.flag value)
  | getOnlineUserIds excludeUserId => do
    let ids ← PresenceStore.getOnlineUserIds excludeUserId
    pure (.userIds ids)

def change : Request → Option (Change (JsString × JsString))
  | call c => some c.change
  | isOnline _ | getOnlineUserIds _ => none

end Request

/-- The socket of the user has been connected, and not disconnected since. -/
def Connected (history : List (Change (JsString × JsString))) (userId socketId : JsString) :
    Prop := Live history (userId, socketId)

def Online (history : List (Change (JsString × JsString))) (userId : JsString) : Prop :=
  ∃ socketId, Connected history userId socketId

end ChatMicroservices.PresenceStore

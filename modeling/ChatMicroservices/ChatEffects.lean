import ChatMicroservices.EffectPrograms
import ChatMicroservices.MessagesTable

/-!
# The effects of the chat service

Handlers of the chat service are programs over the operations below: repository
statements, presence, the broker client, Socket.IO emissions, acknowledgements, the typing
timers, and the two process hooks that shut the service down. Logging and metrics have no
effect that a handler can observe, and are left out.
-/

namespace ChatMicroservices.ChatEffects
open JavaScriptValues EffectPrograms KeyedTables MessagesTable

/-- `socket.data.user` and `req.user`: the claims of a verified token. The id is the
primary key of a stored user, so it is a non-empty string. -/
structure AuthUser where
  id : JsString
  email : JsString
  username : JsString
  id_ne : id ≠ []

/-- An event on the wire: JSON arguments, and whether the client asked to be called back. -/
structure Packet where
  args : List Json
  wantsAck : Bool

/-- What Socket.IO passes to a listener: the callback comes after the arguments. -/
def Packet.arguments (p : Packet) : List Value :=
  p.args.map .json ++ if p.wantsAck then [.function] else []

inductive ClientEvent where
  | typing | sendMessage | messageDelivered | markRead
  deriving DecidableEq

/-- The result of `formatMessageForClient`. -/
structure ClientMessage where
  _id : JsString
  id : JsString
  senderId : JsString
  senderUsername : Option JsString
  senderName : Option JsString
  receiverId : Json
  content : JsString
  message : JsString
  timestamp : ℕ
  createdAt : ℕ
  updatedAt : ℕ
  read : Bool
  isRead : Bool
  deriving DecidableEq

inductive ServerEvent where
  | typing (userId : JsString) (isTyping : Bool)
  | receiveMessage (message : ClientMessage)
  | messageDelivered (messageId : Value) (receiver : JsString)
  | messageRead (receiver : JsString)
  | presence (userId : JsString) (online : Bool) (lastSeen : Option ℕ)
  | serverError (message : String)
  deriving DecidableEq

inductive AckResult where
  | ok (id : JsString)
  | fail (error : String)
  deriving DecidableEq

structure NotificationPayload where
  messageType : String
  userId : Value
  message : JsString
  sender : JsString
  fromName : JsString
  isEncrypted : Bool
  envelope : Option JsString
  userEmail : Option Value
  userToken : Option Value
  deriving DecidableEq

inductive Op where
  | findOne (id : Value)
  | insert (id : Option JsString) (row : NewMessage)
  | reread (id : JsString)
  | update (id : JsString) (changes : Changes)
  | markSeen (senderId : Value) (receiverId : JsString)
  | isOnline (userId : Value)
  | disconnectPresence (userId socketId : JsString)
  | currentTime
  | registerCallback
  | sendRequest (correlationId : JsString) (userId : Value)
  | awaitCallback
  | publish (payload : NotificationPayload)
  | emit (room : Value) (event : ServerEvent)
  | emitToSelf (event : ServerEvent)
  | emitToAll (event : ServerEvent)
  | acknowledge (res : AckResult)
  | hasTyping (userId : JsString)
  | clearTyping (userId : JsString)
  | armTyping (userId : JsString) (receiverId : Value)
  | deleteTyping (userId : JsString)
  | uncaughtException (e : JsError)
  | unhandledRejection (e : JsError)
  deriving DecidableEq

@[reducible] def Ans : Op → Type
  | .findOne _ | .reread _ => Except JsError (Option Message)
  | .insert _ _ => Except JsError Message
  | .update _ _ | .sendRequest _ _ | .publish _ => Except JsError Unit
  | .markSeen _ _ => Except JsError ℕ
  | .isOnline _ | .disconnectPresence _ _ | .hasTyping _ => Bool
  | .currentTime => ℕ
  | .registerCallback => JsString
  | .awaitCallback => Value
  | .emit _ _ | .emitToSelf _ | .emitToAll _ | .acknowledge _ | .clearTyping _ => Unit
  | .armTyping _ _ | .deleteTyping _ => Unit
  | .uncaughtException _ | .unhandledRejection _ => Unit

abbrev Handler (α : Type) := Program Ans JsError α

def perform (op : Op) : Handler (Ans op) := Program.call op

inductive Queue where
  | request | notifications
  deriving DecidableEq

/-- The field `channel` of the broker client: unassigned before the first connection,
closed after the connection is lost. -/
inductive Channel where
  | missing | closed | working
  deriving DecidableEq

/-- What `this.channel.sendToQueue` does: it throws unless the channel works. -/
def Channel.sendToQueue : Channel → Except JsError Unit
  | missing =>
    .error (.typeError "Cannot read properties of undefined (reading 'sendToQueue')")
  | closed => .error (.failure "Channel closed")
  | working => .ok ()

/-- A message on the response queue; the body is `none` when it does not parse. -/
structure Reply where
  correlationId : JsString
  body : Option Json
  deriving DecidableEq

/-- What the callback of a call is first given: the body of the first parseable reply with
its correlation id, and `null` from the five-second timer when there is none. -/
def callbackArgument (correlationId : JsString) : List Reply → Value
  | [] => .json .null
  | r :: rest =>
    match r.body with
    | some user =>
      if r.correlationId = correlationId then .json user else callbackArgument correlationId rest
    | none => callbackArgument correlationId rest

/-- Everything outside the service that a handler meets, except the repository. -/
structure Surroundings where
  isOnline : Value → Bool
  isLast : JsString → JsString → Bool
  now : ℕ
  channel : Queue → Channel
  correlationId : JsString
  replies : List Reply

/-- An armed timeout and what its closure captured. -/
structure Timer where
  handle : ℕ
  userId : JsString
  receiverId : Value
  deriving DecidableEq

/-- `typingTimeouts`, and the timeouts that the event loop holds. -/
structure TypingTimers where
  typingTimeouts : List (JsString × ℕ)
  armed : List Timer
  nextHandle : ℕ

namespace TypingTimers

def empty : TypingTimers := ⟨[], [], 0⟩

def has (t : TypingTimers) (userId : JsString) : Bool :=
  t.typingTimeouts.any fun e => e.1 = userId

/-- `clearTimeout(typingTimeouts.get(userId)); typingTimeouts.delete(userId)` -/
def clear (t : TypingTimers) (userId : JsString) : TypingTimers where
  typingTimeouts := t.typingTimeouts.filter fun e => e.1 ≠ userId
  armed := t.armed.filter fun timer => (userId, timer.handle) ∉ t.typingTimeouts
  nextHandle := t.nextHandle

/-- `typingTimeouts.set(userId, setTimeout(…, 3000))` -/
def arm (t : TypingTimers) (userId : JsString) (receiverId : Value) : TypingTimers where
  typingTimeouts :=
    t.typingTimeouts.filter (fun e => e.1 ≠ userId) ++ [(userId, t.nextHandle)]
  armed := t.armed ++ [⟨t.nextHandle, userId, receiverId⟩]
  nextHandle := t.nextHandle + 1

/-- `typingTimeouts.delete(userId)` -/
def delete (t : TypingTimers) (userId : JsString) : TypingTimers :=
  { t with typingTimeouts := t.typingTimeouts.filter fun e => e.1 ≠ userId }

end TypingTimers

structure World (τ : Type) where
  db : τ
  typing : TypingTimers

/-- The service in its surroundings. Emissions and acknowledgements are queued packets;
they always succeed and leave the state alone. -/
def exec {τ : Type} (repo : Repository τ) (here : Surroundings) :
    (op : Op) → World τ → Ans op × World τ
  | .findOne id, w => ((repo.findOne id w.db).1, { w with db := (repo.findOne id w.db).2 })
  | .insert id row, w =>
    ((repo.insert id row w.db).1, { w with db := (repo.insert id row w.db).2 })
  | .reread id, w => ((repo.reread id w.db).1, { w with db := (repo.reread id w.db).2 })
  | .update id changes, w =>
    ((repo.update id changes w.db).1, { w with db := (repo.update id changes w.db).2 })
  | .markSeen senderId receiverId, w =>
    ((repo.markSeen senderId receiverId w.db).1,
      { w with db := (repo.markSeen senderId receiverId w.db).2 })
  | .isOnline userId, w => (here.isOnline userId, w)
  | .disconnectPresence userId socketId, w => (here.isLast userId socketId, w)
  | .currentTime, w => (here.now, w)
  | .registerCallback, w => (here.correlationId, w)
  | .sendRequest _ _, w => ((here.channel .request).sendToQueue, w)
  | .awaitCallback, w => (callbackArgument here.correlationId here.replies, w)
  | .publish _, w => ((here.channel .notifications).sendToQueue, w)
  | .emit _ _, w | .emitToSelf _, w | .emitToAll _, w | .acknowledge _, w => ((), w)
  | .hasTyping userId, w => (w.typing.has userId, w)
  | .clearTyping userId, w => ((), { w with typing := w.typing.clear userId })
  | .armTyping userId receiverId, w => ((), { w with typing := w.typing.arm userId receiverId })
  | .deleteTyping userId, w => ((), { w with typing := w.typing.delete userId })
  | .uncaughtException _, w | .unhandledRejection _, w => ((), w)

/-- Everything one effect can do to the table: a statement that fails, a read and an effect
outside the store leave it alone. -/
theorem exec_db {encode : JsString → JsString} (c : Conditions) (here : Surroundings) (op : Op)
    (w : World Table) :
    (exec (statements encode c) here op w).2.db = w.db ∨
    (∃ id row, op = .insert id row ∧
      w.db.insert ((row.toRow (id.getD c.newId) c.now).encoded encode) =
        some (exec (statements encode c) here op w).2.db) ∨
    (∃ id changes, op = .update id changes ∧ (exec (statements encode c) here op w).2.db =
      updateWhere w.db (fun m => m.id = id) (changes.encoded encode) c.now) ∨
    (∃ senderId receiverId, op = .markSeen senderId receiverId ∧
      (exec (statements encode c) here op w).2.db =
        updateWhere w.db (unreadFrom (c.asText senderId) receiverId) (Changes.onlyStatus .seen)
          c.now) := by
  cases op with
  | findOne id => exact .inl rfl
  | insert id row =>
    rcases statements_insert_db id row with h | h
    · exact .inl h
    · exact .inr (.inl ⟨id, row, rfl, h⟩)
  | reread id => exact .inl (statements_reread_db id)
  | update id changes =>
    rcases statements_update_db id changes with h | h
    · exact .inl h
    · exact .inr (.inr (.inl ⟨id, changes, rfl, h⟩))
  | markSeen senderId receiverId =>
    rcases statements_markSeen_db senderId receiverId with h | h
    · exact .inl h
    · exact .inr (.inr (.inr ⟨senderId, receiverId, rfl, h⟩))
  | _ => exact .inl rfl

/-- Synchronous code, which returns or throws. -/
@[simp] def sync {α : Type} (r : Except JsError α) : Handler α := .done r

/-- `const { key } = source`; the exception for `undefined` and `null` is the handler's. -/
def readField (source : String) (v : Value) (key : String) : Handler Value :=
  sync (v.destructure source key)

/-- `promise.catch(err => logError(…))`, and `try` blocks that only log. -/
def logged (p : Handler Unit) : Handler Unit := p.tryCatch fun _ => pure ()

/-- A promise that nobody handles: its rejection reaches the process hook. -/
def floating (p : Handler Unit) : Handler Unit :=
  p.tryCatch fun e => perform (.unhandledRejection e)

/-- A listener called by Socket.IO, which does not catch what the listener throws. -/
def uncaught (p : Handler Unit) : Handler Unit :=
  p.tryCatch fun e => perform (.uncaughtException e)

/-- `ack?.(res)` -/
def acknowledgeWith (ack : Value) (res : AckResult) : Handler Unit :=
  match ack with
  | .undefined | .json .null => pure ()
  | .function => perform (.acknowledge res)
  | .json _ => throw (.typeError "ack is not a function")

section Observations

variable {τ : Type}

/-- The effects of a run, without the states they met. -/
def effects (t : List (Op × World τ)) : List Op := t.map Prod.fst

@[simp] theorem effects_nil : effects ([] : List (Op × World τ)) = [] := rfl

@[simp] theorem effects_cons (op : Op) (w : World τ) (t : List (Op × World τ)) :
    effects ((op, w) :: t) = op :: effects t := rfl

@[simp] theorem effects_append (t t' : List (Op × World τ)) :
    effects (t ++ t') = effects t ++ effects t' := List.map_append

@[simp] theorem effects_map (ops : List Op) (w : World τ) :
    effects (ops.map fun op => (op, w)) = ops := by
  rw [effects, List.map_map]
  exact List.map_id ops

/-- An effect that makes `unexpectedErrorHandler` shut the service down. -/
def IsCrash : Op → Prop
  | .uncaughtException _ | .unhandledRejection _ => True
  | _ => False

instance : DecidablePred IsCrash := fun op => by
  unfold IsCrash
  split <;> infer_instance

/-- No effect of the run reaches a process hook. -/
def Contained (t : List (Op × World τ)) : Prop := ∀ op ∈ effects t, ¬ IsCrash op

instance (t : List (Op × World τ)) : Decidable (Contained t) :=
  inferInstanceAs (Decidable (∀ op ∈ effects t, ¬ IsCrash op))

@[simp] theorem contained_nil : Contained ([] : List (Op × World τ)) := by
  simp [Contained, effects]

@[simp] theorem contained_cons (op : Op) (w : World τ) (t : List (Op × World τ)) :
    Contained ((op, w) :: t) ↔ ¬ IsCrash op ∧ Contained t := by
  simp [Contained, effects]

@[simp] theorem contained_append (t t' : List (Op × World τ)) :
    Contained (t ++ t') ↔ Contained t ∧ Contained t' := by
  simp only [Contained, effects, List.map_append, List.mem_append]
  constructor
  · intro h
    exact ⟨fun op ho => h op (.inl ho), fun op ho => h op (.inr ho)⟩
  · rintro ⟨h, h'⟩ op (ho | ho)
    · exact h op ho
    · exact h' op ho

end Observations

def alice : AuthUser := ⟨js "alice", js "alice@example.com", js "alice", by decide⟩

def bob : AuthUser := ⟨js "bob", js "bob@example.com", js "bob", by decide⟩

/-- Statements succeed, and any string is read as a key. -/
def calm : Conditions where
  now := 0
  newId := js "m1"
  asUuid
    | .json (.str s) => .ok s
    | _ => .error (.failure "invalid input syntax for type uuid")
  asText
    | .json (.str s) => some s
    | _ => none
  failure _ := none

/-- Nobody is online, the broker works, and no lookup is answered in time. -/
def quiet : Surroundings where
  isOnline _ := false
  isLast _ _ := true
  now := 0
  channel _ := .working
  correlationId := js "c1"
  replies := []

def World.empty : World Table := ⟨KeyedTable.empty, TypingTimers.empty⟩

end ChatMicroservices.ChatEffects

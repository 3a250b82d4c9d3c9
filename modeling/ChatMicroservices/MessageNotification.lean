import ChatMicroservices.ChatEffects

/-!
# Notifying the receiver of a message

`handleMessageReceived` asks whether the receiver is online and otherwise looks the
receiver up over the broker and publishes a notification. The lookup wraps a callback in
a promise and drops the promise of the call that sends the request, so that promise is the
one whose rejection nobody handles.
-/

namespace ChatMicroservices.MessageNotification
open JavaScriptValues EffectPrograms MessagesTable ChatEffects

/-- `getUserDetails`: register the callback and its timer, then send the request. -/
def getUserDetails (userId : Value) : Handler Unit := do
  let correlationId ← perform .registerCallback
  Program.attempt (perform (.sendRequest correlationId userId))

structure NotifyReceiverArgs where
  receiverId : Value
  messageContent : JsString
  senderEmail : JsString
  senderName : JsString
  isEncrypted : Bool
  envelope : Option JsString
  receiverEmail : Value
  receiverToken : Value

/-- An optional field of the payload: present when the value is truthy. -/
def whenTruthy (v : Value) : Option Value := if v.truthy then some v else none

def notificationPayload (args : NotifyReceiverArgs) : NotificationPayload where
  messageType := "MESSAGE_RECEIVED"
  userId := args.receiverId
  message := args.messageContent
  sender := args.senderEmail
  fromName := args.senderName
  isEncrypted := args.isEncrypted
  envelope := args.envelope.filter fun e => e ≠ []
  userEmail := whenTruthy args.receiverEmail
  userToken := whenTruthy args.receiverToken

def notifyReceiver (args : NotifyReceiverArgs) : Handler Unit :=
  logged (Program.attempt (perform (.publish (notificationPayload args))))

/-- The executor of the promise starts `getUserDetails` and drops its promise; the `try`
block only awaits the callback. -/
def resolveReceiver (receiverId : Value) : Handler Value :=
  Program.tryCatch (do
    floating (getUserDetails receiverId)
    perform .awaitCallback) fun _ => pure (.json .null)

structure IncomingMessageNotification where
  senderName : JsString
  senderEmail : JsString
  receiverId : Value
  messageContent : JsString
  isEncrypted : Bool := false
  envelope : Option JsString := none

/-- The body of a notification: never the text of an encrypted message. -/
def notifyBody (args : IncomingMessageNotification) : JsString :=
  if args.isEncrypted then js "[Encrypted message]" else args.messageContent

/-- What `handleMessageReceived` hands to the broker client once `receiver` is resolved. -/
def notifyArgs (args : IncomingMessageNotification) (receiver : Value) :
    NotifyReceiverArgs where
  receiverId := args.receiverId
  messageContent := notifyBody args
  senderEmail := args.senderEmail
  senderName := args.senderName
  isEncrypted := args.isEncrypted
  envelope := args.envelope
  receiverEmail := receiver.field "email"
  receiverToken := .undefined

def handleMessageReceived (args : IncomingMessageNotification) : Handler Unit := do
  let recipientOnline ← perform (.isOnline args.receiverId)
  if recipientOnline then pure ()
  else do
    let receiver ← resolveReceiver args.receiverId
    notifyReceiver (notifyArgs args receiver)

section Runs

variable {τ : Type} (repo : Repository τ) (here : Surroundings)

/-- The payload published for an offline receiver. -/
def published (args : IncomingMessageNotification) : NotificationPayload :=
  notificationPayload (notifyArgs args (callbackArgument here.correlationId here.replies))

/-- The effects of one lookup. A request that cannot be sent is an unhandled rejection. -/
def lookupEffects (receiverId : Value) : List Op :=
  [.registerCallback, .sendRequest here.correlationId receiverId] ++
    (match (here.channel .request).sendToQueue with
      | .ok () => []
      | .error e => [.unhandledRejection e]) ++
    [.awaitCallback]

/-- The effects of `handleMessageReceived`. -/
def receivedEffects (args : IncomingMessageNotification) : List Op :=
  .isOnline args.receiverId ::
    if here.isOnline args.receiverId then []
    else lookupEffects here args.receiverId ++ [.publish (published here args)]

/-- The effects by which the receiver of a message is found and notified. -/
def Notifies : Op → Prop
  | .isOnline _ | .registerCallback | .sendRequest _ _ | .unhandledRejection _ => True
  | .awaitCallback | .publish _ => True
  | _ => False

theorem receivedEffects_notify {args : IncomingMessageNotification} {op : Op}
    (h : op ∈ receivedEffects here args) : Notifies op := by
  rcases List.mem_cons.mp h with rfl | h
  · trivial
  · split at h
    · cases h
    · simp only [lookupEffects, List.mem_append, List.mem_cons, List.not_mem_nil,
        or_false] at h
      rcases h with (((rfl | rfl) | h) | rfl) | rfl
      · trivial
      · trivial
      · split at h
        · cases h
        · obtain rfl := List.mem_singleton.mp h
          trivial
      · trivial
      · trivial

theorem resolveReceiver_run (receiverId : Value) (w : World τ) :
    (resolveReceiver receiverId).run (exec repo here) w =
      (.ok (callbackArgument here.correlationId here.replies), w) := by
  cases h : (here.channel .request).sendToQueue with
  | ok u => simp [resolveReceiver, getUserDetails, floating, perform, Program.call,
      Program.attempt, exec, h]
  | error e => simp [resolveReceiver, getUserDetails, floating, perform, Program.call,
      Program.attempt, exec, h]

theorem resolveReceiver_trace (receiverId : Value) (w : World τ) :
    (resolveReceiver receiverId).trace (exec repo here) w =
      (lookupEffects here receiverId).map fun op => (op, w) := by
  cases h : (here.channel .request).sendToQueue with
  | ok u => simp [resolveReceiver, getUserDetails, floating, perform, Program.call,
      Program.attempt, exec, lookupEffects, h]
  | error e => simp [resolveReceiver, getUserDetails, floating, perform, Program.call,
      Program.attempt, exec, lookupEffects, h]

/-- A failing publication is logged, so publishing neither throws nor changes anything. -/
theorem notifyReceiver_run (args : NotifyReceiverArgs) (w : World τ) :
    (notifyReceiver args).run (exec repo here) w = (.ok (), w) := by
  cases h : (here.channel .notifications).sendToQueue with
  | ok u => simp [notifyReceiver, logged, perform, Program.call, Program.attempt, exec, h]
  | error e => simp [notifyReceiver, logged, perform, Program.call, Program.attempt, exec, h]

theorem notifyReceiver_trace (args : NotifyReceiverArgs) (w : World τ) :
    (notifyReceiver args).trace (exec repo here) w =
      [(.publish (notificationPayload args), w)] := by
  cases h : (here.channel .notifications).sendToQueue with
  | ok u => simp [notifyReceiver, logged, perform, Program.call, Program.attempt, exec, h]
  | error e => simp [notifyReceiver, logged, perform, Program.call, Program.attempt, exec, h]

/-- Whatever the broker does, `handleMessageReceived` resolves. -/
theorem handleMessageReceived_run (args : IncomingMessageNotification) (w : World τ) :
    (handleMessageReceived args).run (exec repo here) w = (.ok (), w) := by
  by_cases h : here.isOnline args.receiverId = true
  · simp [handleMessageReceived, perform, exec, h]
  · simp [handleMessageReceived, perform, exec, h, Program.run_bind, resolveReceiver_run,
      notifyReceiver_run]

theorem handleMessageReceived_trace (args : IncomingMessageNotification) (w : World τ) :
    (handleMessageReceived args).trace (exec repo here) w =
      (receivedEffects here args).map fun op => (op, w) := by
  by_cases h : here.isOnline args.receiverId = true
  · simp [handleMessageReceived, perform, exec, receivedEffects, h]
  · simp [handleMessageReceived, perform, exec, receivedEffects, h, Program.trace_bind,
      resolveReceiver_run, resolveReceiver_trace, notifyReceiver_trace, published]

/-- The broker client can be asked for the receiver, or need not be. -/
def LookupWorks (receiverId : Value) : Prop :=
  here.isOnline receiverId = true ∨ here.channel .request = .working

instance (receiverId : Value) : Decidable (LookupWorks here receiverId) :=
  inferInstanceAs (Decidable (_ ∨ _))

theorem sendToQueue_eq_ok {c : Channel} : c.sendToQueue = .ok () ↔ c = .working := by
  cases c <;> simp [Channel.sendToQueue]

theorem receivedEffects_contained_iff (args : IncomingMessageNotification) :
    (∀ op ∈ receivedEffects here args, ¬ IsCrash op) ↔ LookupWorks here args.receiverId := by
  by_cases h : here.isOnline args.receiverId = true
  · simp [receivedEffects, LookupWorks, IsCrash, h]
  · rw [LookupWorks, ← sendToQueue_eq_ok]
    cases hs : (here.channel .request).sendToQueue with
    | ok u => simp [receivedEffects, lookupEffects, IsCrash, h, hs]
    | error e => simp [receivedEffects, lookupEffects, IsCrash, h, hs]

end Runs

end ChatMicroservices.MessageNotification

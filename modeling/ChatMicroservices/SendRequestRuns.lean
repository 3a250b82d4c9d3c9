import ChatMicroservices.MessageController
import ChatMicroservices.SendMessageRuns

/-!
# Runs of `sendMessage`

The checks of a request to send a message are pure, so a request is rejected before any
effect, or it has a text to store. Then its run is the insertion and, if that succeeds, the
notification of the receiver.
-/

namespace ChatMicroservices.SendRequestRuns
open JavaScriptValues EffectPrograms MessagesTable ChatEffects MessageNotification
open SocketHandlers SendMessageRuns MessageController

theorem validateReceiver_ok {senderId : JsString} {receiverId : Value}
    (h : validateReceiver senderId receiverId = .ok ()) : receiverId ≠ .json (.str senderId) := by
  unfold validateReceiver at h
  rw [Value.strictEq_str_left] at h
  split at h
  · cases h
  · split at h
    · cases h
    · rename_i hne
      simpa using hne

theorem validateContent_ok {message : Value} {text : JsString}
    (h : validateContent message = .ok text) : EncryptedText text := by
  unfold validateContent at h
  cases hm : message.nonEmptyString with
  | none => simp [hm] at h
  | some message =>
    simp only [hm] at h
    split at h
    · cases h
    · split at h
      · cases h
      · rename_i hpos hshort
        cases hp : JSON.parse (trim message) with
        | error e => simp [hp] at h
        | ok env =>
          simp only [hp] at h
          split at h
          · cases h
          · rename_i henv
            obtain rfl := Except.ok.inj h
            exact ⟨trim_trimmed message, by omega, by omega, env, hp, by simpa using henv⟩

/-- The text that a request wants to store, or the error of its first failing check. -/
def checkBody (user : AuthUser) (body : Value) : Except JsError JsString :=
  if body.Nullish then .error (body.destructureError "req.body" "receiverId")
  else
    match validateReceiver user.id (body.field "receiverId") with
    | .error e => .error e
    | .ok () => validateContent (body.field "message")

theorem checkBody_eq_ok {user : AuthUser} {body : Value} {text : JsString} :
    checkBody user body = .ok text ↔ ¬ body.Nullish ∧
      validateReceiver user.id (body.field "receiverId") = .ok () ∧
        validateContent (body.field "message") = .ok text := by
  unfold checkBody
  by_cases hbody : body.Nullish
  · simp [hbody]
  · cases hreceiver : validateReceiver user.id (body.field "receiverId") with
    | error e => simp [hbody]
    | ok u => simp [hbody]

/-- What follows the checks. -/
def storeAndAnswer (user : AuthUser) (receiverId : Value) (text : JsString) :
    Handler HttpResult := do
  let newMessage ← Program.attempt
    (perform (.insert none (encryptedMessage user.id receiverId text)))
  handleMessageReceived (notification user receiverId text)
  pure (.json 200 "Message sent successfully" (.message newMessage))

/-- The checks decide the request. -/
theorem sendMessage_eq (user : AuthUser) (body : Value) : sendMessage user body =
    match checkBody user body with
    | .error e => .done (.ok (.next e))
    | .ok text => orNext (storeAndAnswer user (body.field "receiverId") text) := by
  unfold checkBody
  by_cases hbody : body.Nullish
  · simp [sendMessage, orNext, readField, Value.destructure_of_nullish hbody, hbody]
  · cases hreceiver : validateReceiver user.id (body.field "receiverId") with
    | error e =>
      simp [sendMessage, orNext, readField, Value.destructure_of_not_nullish hbody, hbody,
        hreceiver]
    | ok u =>
      cases hcontent : validateContent (body.field "message") with
      | error e =>
        simp [sendMessage, orNext, readField, Value.destructure_of_not_nullish hbody, hbody,
          hreceiver, hcontent]
      | ok text =>
        simp [sendMessage, readField, Value.destructure_of_not_nullish hbody, hbody, hreceiver,
          hcontent, storeAndAnswer, notification]

section Runs

variable {τ : Type} (repo : Repository τ) (here : Surroundings) (user : AuthUser)

/-- How a request ends, as its insertion did. -/
def answer : Except JsError Message → HttpResult
  | .error e => .next e
  | .ok saved => .json 200 "Message sent successfully" (.message saved)

theorem storeAndAnswer_run (receiverId : Value) (text : JsString) (w : World τ) :
    (orNext (storeAndAnswer user receiverId text)).run (exec repo here) w =
      (.ok (answer (repo.insert none (encryptedMessage user.id receiverId text) w.db).1),
        withDb w (repo.insert none (encryptedMessage user.id receiverId text) w.db).2) := by
  cases hi : (repo.insert none (encryptedMessage user.id receiverId text) w.db).1 with
  | error e =>
    simp [orNext, storeAndAnswer, Program.attempt, perform, Program.call, exec, hi, answer, withDb]
  | ok saved =>
    simp [orNext, storeAndAnswer, Program.attempt, perform, Program.call, exec, hi, answer, withDb,
      Program.run_bind, Program.run_tryCatch, handleMessageReceived_run]

/-- The effects after the insertion. -/
def answerTrace (receiverId : Value) (text : JsString) :
    Except JsError Message → World τ → List (Op × World τ)
  | .error _, _ => []
  | .ok _, w => (receivedEffects here (notification user receiverId text)).map fun op => (op, w)

theorem storeAndAnswer_trace (receiverId : Value) (text : JsString) (w : World τ) :
    (orNext (storeAndAnswer user receiverId text)).trace (exec repo here) w =
      (.insert none (encryptedMessage user.id receiverId text), w) ::
        answerTrace here user receiverId text
          (repo.insert none (encryptedMessage user.id receiverId text) w.db).1
          (withDb w (repo.insert none (encryptedMessage user.id receiverId text) w.db).2) := by
  cases hi : (repo.insert none (encryptedMessage user.id receiverId text) w.db).1 with
  | error e =>
    simp [orNext, storeAndAnswer, Program.attempt, perform, Program.call, exec, hi, answerTrace]
  | ok saved =>
    simp [orNext, storeAndAnswer, Program.attempt, perform, Program.call, exec, hi, answerTrace,
      withDb, Program.run_bind, Program.trace_bind, Program.trace_tryCatch,
      handleMessageReceived_run, handleMessageReceived_trace]

variable {user} {body : Value}

theorem sendMessage_rejected {e : JsError} (h : checkBody user body = .error e) :
    sendMessage user body = .done (.ok (.next e)) := by
  rw [sendMessage_eq, h]

theorem sendMessage_checked {text : JsString} (h : checkBody user body = .ok text) :
    sendMessage user body = orNext (storeAndAnswer user (body.field "receiverId") text) := by
  rw [sendMessage_eq, h]

/-- A request whose checks pass and whose row is stored notifies the receiver. -/
theorem sendMessage_stored {text : JsString} (h : checkBody user body = .ok text)
    {saved : Message} {w : World τ} (hi : (repo.insert none
      (encryptedMessage user.id (body.field "receiverId") text) w.db).1 = .ok saved) :
    effects ((sendMessage user body).trace (exec repo here) w) =
      .insert none (encryptedMessage user.id (body.field "receiverId") text) ::
        receivedEffects here (notification user (body.field "receiverId") text) := by
  rw [sendMessage_checked h, storeAndAnswer_trace, hi, effects_cons, answerTrace, effects_map]

end Runs

end ChatMicroservices.SendRequestRuns

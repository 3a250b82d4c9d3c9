import ChatMicroservices.SocketHandlers

/-!
# Runs of `handleSendMessage`

The checks of `handleSendMessage` are pure up to the first repository call, so they sort
payloads into verdicts: refused, to be sent again from the store, or to be stored. Each
verdict has one run, and the theorems about the event are assembled from those runs.
-/

namespace ChatMicroservices.SendMessageRuns
open JavaScriptValues EffectPrograms MessagesTable ChatEffects MessageNotification
open SocketHandlers

inductive Verdict where
  | refuse (error : String)
  | resend (trimmed : JsString)
  | store (trimmed : JsString)
  deriving DecidableEq

def checkMessage (message : Value) : Except String JsString :=
  match message.nonEmptyString with
  | none => .error "Invalid message content"
  | some message =>
    if (trim message).length = 0 ∨ (trim message).length > 5000 then
      .error "Message must be between 1 and 5000 characters"
    else .ok (trim message)

def checkEnvelope (trimmed : JsString) : Verdict :=
  match JSON.parse trimmed with
  | .error _ => .refuse "Messages must be end-to-end encrypted (invalid envelope)"
  | .ok parsed =>
    if isEnvelope parsed then .store trimmed
    else .refuse "Messages must be end-to-end encrypted"

/-- What the checks make of a payload that has properties. -/
def verdict (user : AuthUser) (data : Value) : Verdict :=
  if data.field "senderId" ≠ .json (.str user.id) then
    .refuse "Unauthorized: cannot send as another user"
  else
    match checkMessage (data.field "message") with
    | .error e => .refuse e
    | .ok trimmed =>
      if (data.field "receiverId").truthy = false ∨
          data.field "receiverId" = .json (.str user.id) then .refuse "Invalid receiver"
      else if (data.field "_id").truthy then .resend trimmed
      else checkEnvelope trimmed

/-- A text that may be stored: trimmed, of a legal length, and an encrypted envelope. -/
structure EncryptedText (text : JsString) : Prop where
  trimmed : Trimmed text
  nonempty : 1 ≤ text.length
  short : text.length ≤ 5000
  envelope : ∃ env, JSON.parse text = .ok env ∧ isEnvelope env = true

theorem checkMessage_eq_ok {message : Value} {trimmed : JsString}
    (h : checkMessage message = .ok trimmed) :
    ∃ text, message = .json (.str text) ∧ trimmed = trim text ∧ 1 ≤ trimmed.length ∧
      trimmed.length ≤ 5000 := by
  unfold checkMessage at h
  cases hm : message.nonEmptyString with
  | none => simp [hm] at h
  | some text =>
    simp only [hm] at h
    split at h
    · cases h
    · rename_i hlen
      obtain rfl := Except.ok.inj h
      refine ⟨text, Value.eq_of_nonEmptyString hm, rfl, ?_, ?_⟩ <;> omega

theorem checkEnvelope_eq_store {text trimmed : JsString}
    (h : checkEnvelope text = .store trimmed) :
    trimmed = text ∧ ∃ env, JSON.parse text = .ok env ∧ isEnvelope env = true := by
  unfold checkEnvelope at h
  cases hp : JSON.parse text with
  | error e => simp [hp] at h
  | ok env =>
    simp only [hp] at h
    split at h
    · rename_i he
      exact ⟨(Verdict.store.inj h).symm, env, rfl, he⟩
    · cases h

/-- What a payload whose message is stored looks like. -/
structure StoredPayload (user : AuthUser) (data : Value) (trimmed : JsString) : Prop where
  senderId : data.field "senderId" = .json (.str user.id)
  message : ∃ text, data.field "message" = .json (.str text) ∧ trimmed = trim text
  receiverId_truthy : (data.field "receiverId").truthy = true
  receiverId_ne : data.field "receiverId" ≠ .json (.str user.id)
  _id : (data.field "_id").truthy = false
  encrypted : EncryptedText trimmed

theorem verdict_eq_store {user : AuthUser} {data : Value} {trimmed : JsString}
    (h : verdict user data = .store trimmed) : StoredPayload user data trimmed := by
  unfold verdict at h
  split at h
  · cases h
  · rename_i hsender
    cases hm : checkMessage (data.field "message") with
    | error e => simp [hm] at h
    | ok text =>
      obtain ⟨raw, hraw, rfl, hpos, hshort⟩ := checkMessage_eq_ok hm
      simp only [hm] at h
      split at h
      · cases h
      · rename_i hreceiver
        split at h
        · cases h
        · rename_i hid
          obtain ⟨rfl, henv⟩ := checkEnvelope_eq_store h
          rw [not_or] at hreceiver
          exact {
            senderId := not_not.mp hsender
            message := ⟨raw, hraw, rfl⟩
            receiverId_truthy := by simpa using hreceiver.1
            receiverId_ne := hreceiver.2
            _id := by simpa using hid
            encrypted := ⟨trim_trimmed raw, hpos, hshort, henv⟩ }

theorem verdict_resend_id {user : AuthUser} {data : Value} {trimmed : JsString}
    (h : verdict user data = .resend trimmed) : (data.field "_id").truthy = true := by
  unfold verdict checkEnvelope at h
  split at h
  · cases h
  · split at h
    · cases h
    · split at h
      · cases h
      · split at h
        · assumption
        · split at h
          · cases h
          · split at h <;> cases h

theorem verdict_nullish (user : AuthUser) {data : Value} (h : data.Nullish) :
    verdict user data = .refuse "Unauthorized: cannot send as another user" := by
  simp [verdict, Value.field_of_nullish h]

def params (user : AuthUser) (data : Value) (trimmed : JsString) (ack : Value) :
    RetrieveOrSaveParams :=
  ⟨data.field "_id", trimmed, user.id, data.field "receiverId", user.username, user.email, ack⟩

/-- The notification of a stored message. -/
def notification (user : AuthUser) (receiverId : Value) (trimmed : JsString) :
    IncomingMessageNotification where
  senderName := user.username
  senderEmail := user.email
  receiverId := receiverId
  messageContent := js "[Encrypted message]"
  isEncrypted := true
  envelope := some trimmed

/-- Store the message, notify its receiver, then deliver it. -/
def storeAndDeliver (user : AuthUser) (receiverId : Value) (trimmed : JsString) (ack : Value) :
    Handler Unit := do
  let saved ← Program.attempt
    (perform (.insert none (encryptedMessage user.id receiverId trimmed)))
  logged (handleMessageReceived (notification user receiverId trimmed))
  deliver user receiverId saved ack

/-- Look the message up, then deliver it if it is one that may be sent again. -/
def resendAndDeliver (user : AuthUser) (data : Value) (trimmed : JsString) (ack : Value) :
    Handler Unit := do
  match ← retrieveMessage (params user data trimmed ack) with
  | none => pure ()
  | some msg => deliver user (data.field "receiverId") msg ack

def afterVerdict (user : AuthUser) (data ack : Value) : Verdict → Handler Unit
  | .refuse error => acknowledgeWith ack (.fail error)
  | .resend trimmed => resendAndDeliver user data trimmed ack
  | .store trimmed => storeAndDeliver user (data.field "receiverId") trimmed ack

theorem validateMessage_eq (message ack : Value) :
    validateMessage message ack =
      match checkMessage message with
      | .error e => (acknowledgeWith ack (.fail e)).bind fun _ => .done (.ok none)
      | .ok trimmed => .done (.ok (some trimmed)) := by
  unfold validateMessage checkMessage
  cases message.nonEmptyString with
  | none => rfl
  | some message =>
    by_cases h : (trim message).length = 0 ∨ (trim message).length > 5000
    · simp only [h, if_true]
      rfl
    · simp only [h, if_false]
      rfl

theorem saveMessage_bind (user : AuthUser) (data : Value) (trimmed : JsString) (ack : Value) :
    ((saveMessage (params user data trimmed ack)).bind fun
      | none => .done (.ok ())
      | some msg => deliver user (data.field "receiverId") msg ack) =
      afterVerdict user data ack (checkEnvelope trimmed) := by
  unfold saveMessage checkEnvelope
  cases hp : JSON.parse trimmed with
  | error e => simp [params, hp, afterVerdict, Program.bind_assoc, Program.bind_done]
  | ok parsed =>
    by_cases he : isEnvelope parsed = true
    · simp [params, hp, he, afterVerdict, storeAndDeliver, notification, Program.bind_assoc]
    · simp [params, hp, he, afterVerdict, Program.bind_assoc, Program.bind_done]

/-- The `try` block is decided by the verdict, unless the payload is `undefined` or `null`. -/
theorem trySendMessage_eq (user : AuthUser) {data : Value} (ack : Value) (h : ¬ data.Nullish) :
    trySendMessage user data ack = afterVerdict user data ack (verdict user data) := by
  unfold trySendMessage verdict
  simp only [readField, sync, Value.destructure_of_not_nullish h, Program.bind_eq, Program.bind_ok,
    Value.strictEq_str_right, validateMessage_eq]
  by_cases hs : data.field "senderId" = .json (.str user.id)
  · simp only [hs, Value.strictEq_str_left]
    cases hm : checkMessage (data.field "message") with
    | error e => simp [afterVerdict, Program.bind_assoc, Program.bind_done]
    | ok trimmed =>
      by_cases hr : (data.field "receiverId").truthy = false ∨
          data.field "receiverId" = .json (.str user.id)
      · simp [hr, afterVerdict]
      · by_cases hid : (data.field "_id").truthy = true
        · simp only [decide_true, not_true_eq_false, if_false, Program.pure_eq, Bool.not_eq_true,
            decide_eq_true_eq, hr, retrieveOrSaveMessage, hid, if_true, Program.bind_ok,
            afterVerdict, ne_eq]
          rfl
        · simp only [decide_true, not_true_eq_false, if_false, Program.pure_eq, Bool.not_eq_true,
            decide_eq_true_eq, hr, retrieveOrSaveMessage, hid, Bool.false_eq_true,
            Program.bind_ok, ne_eq]
          exact saveMessage_bind user data trimmed ack
  · simp [hs, afterVerdict]

theorem trySendMessage_nullish (user : AuthUser) {data : Value} (ack : Value)
    (h : data.Nullish) :
    trySendMessage user data ack = .done (.error (data.destructureError "data" "senderId")) := by
  simp [trySendMessage, readField, Value.destructure_of_nullish h]

/-- What decides the `try` block, and what it then does. -/
theorem trySendMessage_cases (user : AuthUser) (data ack : Value) :
    (data.Nullish ∧
      trySendMessage user data ack = .done (.error (data.destructureError "data" "senderId"))) ∨
    (∃ error, verdict user data = .refuse error ∧
      trySendMessage user data ack = acknowledgeWith ack (.fail error)) ∨
    (∃ trimmed, verdict user data = .resend trimmed ∧
      trySendMessage user data ack = resendAndDeliver user data trimmed ack) ∨
    ∃ trimmed, verdict user data = .store trimmed ∧ trySendMessage user data ack =
      storeAndDeliver user (data.field "receiverId") trimmed ack := by
  by_cases hd : data.Nullish
  · exact .inl ⟨hd, trySendMessage_nullish user ack hd⟩
  · rw [trySendMessage_eq user ack hd]
    cases verdict user data with
    | refuse error => exact .inr (.inl ⟨error, rfl, rfl⟩)
    | resend trimmed => exact .inr (.inr (.inl ⟨trimmed, rfl, rfl⟩))
    | store trimmed => exact .inr (.inr (.inr ⟨trimmed, rfl, rfl⟩))

/-- An existing message that may be sent again, or the text of the refusal. -/
def resendable (user : AuthUser) (receiverId : Value) : Option Message → Except String Message
  | none => .error "Message not found"
  | some existing =>
    if ownedBy existing user.id receiverId = false then .error "Message not found"
    else if existing.isEncrypted = false then
      .error "Server policy: plaintext messages are not allowed"
    else .ok existing

theorem resendAndDeliver_eq (user : AuthUser) (data : Value) (trimmed : JsString)
    (ack : Value) :
    resendAndDeliver user data trimmed ack =
      (Program.attempt (perform (.findOne (data.field "_id")))).bind fun found =>
        match resendable user (data.field "receiverId") found with
        | .error e => acknowledgeWith ack (.fail e)
        | .ok existing => deliver user (data.field "receiverId") existing ack := by
  simp only [resendAndDeliver, retrieveMessage, params, Program.bind_eq, Program.bind_assoc]
  refine congrArg _ (funext fun found => ?_)
  cases found with
  | none => simp [resendable, Program.bind_assoc, Program.bind_done]
  | some existing =>
    by_cases ho : ownedBy existing user.id (data.field "receiverId") = true
    · by_cases he : existing.isEncrypted = true
      · simp [resendable, ho, he]
      · simp [resendable, ho, he, Program.bind_assoc, Program.bind_done]
    · simp [resendable, ho, Program.bind_assoc, Program.bind_done]

/-- The acknowledgement argument is absent or can be called. -/
def CanAcknowledge (ack : Value) : Prop :=
  ack = .undefined ∨ ack = .json .null ∨ ack = .function

instance : DecidablePred CanAcknowledge := fun _ => inferInstanceAs (Decidable (_ ∨ _ ∨ _))

def ackEffects (ack : Value) (res : AckResult) : List Op :=
  if ack = .function then [.acknowledge res] else []

theorem mem_ackEffects {ack : Value} {res : AckResult} {op : Op} (h : op ∈ ackEffects ack res) :
    op = .acknowledge res := by
  unfold ackEffects at h
  split at h
  · exact List.mem_singleton.mp h
  · cases h

theorem acknowledgeWith_ends {ack : Value} (h : CanAcknowledge ack) (res : AckResult) :
    (acknowledgeWith ack res).Ends fun r => r = .ok () := by
  rcases h with rfl | rfl | rfl
  · rfl
  · rfl
  · exact fun _ => rfl

theorem acknowledgeWith_throws {ack : Value} (h : ¬ CanAcknowledge ack) (res : AckResult) :
    acknowledgeWith ack res = .done (.error (.typeError "ack is not a function")) := by
  unfold CanAcknowledge at h
  cases ack with
  | undefined => simp at h
  | function => simp at h
  | json v =>
    cases v with
    | null => simp at h
    | _ => rfl

section Runs

variable {τ : Type} (repo : Repository τ) (here : Surroundings) (user : AuthUser)

theorem acknowledgeWith_trace (ack : Value) (res : AckResult) (w : World τ) :
    (acknowledgeWith ack res).trace (exec repo here) w =
      (ackEffects ack res).map fun op => (op, w) := by
  cases ack with
  | undefined => rfl
  | function => rfl
  | json v => cases v <;> rfl

/-- The world after the typing indicator of a sender is cleared. -/
def typingCleared (w : World τ) (userId : JsString) : World τ :=
  if w.typing.has userId then { w with typing := w.typing.clear userId } else w

@[simp] theorem typingCleared_db (w : World τ) (userId : JsString) :
    (typingCleared w userId).db = w.db := by
  unfold typingCleared
  split <;> rfl

/-- The effects of clearing the typing indicator. -/
def clearingTrace (w : World τ) (userId : JsString) : List (Op × World τ) :=
  (.hasTyping userId, w) ::
    if w.typing.has userId then [(.clearTyping userId, w)] else []

theorem mem_clearingTrace {w w' : World τ} {userId : JsString} {op : Op}
    (h : (op, w') ∈ clearingTrace w userId) :
    op = .hasTyping userId ∨ op = .clearTyping userId := by
  rcases List.mem_cons.mp h with h | h
  · exact .inl (congrArg Prod.fst h)
  · split at h
    · exact .inr (congrArg Prod.fst (List.mem_singleton.mp h))
    · cases h

/-- The two emissions and the acknowledgement that end an accepted event. -/
def deliveryEffects (receiverId : Value) (msg : Message) (ack : Value) : List Op :=
  [.emit receiverId (.typing user.id false),
    .emit receiverId (.receiveMessage (formatMessageForClient msg user.username))] ++
    ackEffects ack (.ok msg.id)

theorem clearTypingTimeout_run (w : World τ) :
    (clearTypingTimeout user.id).run (exec repo here) w = (.ok (), typingCleared w user.id) := by
  by_cases h : w.typing.has user.id = true
  · simp [clearTypingTimeout, perform, exec, typingCleared, h]
  · simp [clearTypingTimeout, perform, exec, typingCleared, h]

theorem clearTypingTimeout_trace (w : World τ) :
    (clearTypingTimeout user.id).trace (exec repo here) w = clearingTrace w user.id := by
  by_cases h : w.typing.has user.id = true
  · simp [clearTypingTimeout, perform, exec, clearingTrace, h]
  · simp [clearTypingTimeout, perform, exec, clearingTrace, h]

theorem deliver_trace (receiverId : Value) (msg : Message) (ack : Value) (w : World τ) :
    (deliver user receiverId msg ack).trace (exec repo here) w =
      clearingTrace w user.id ++
        (deliveryEffects user receiverId msg ack).map fun op => (op, typingCleared w user.id) := by
  simp [deliver, Program.trace_bind, clearTypingTimeout_run, clearTypingTimeout_trace, perform,
    exec, deliveryEffects, acknowledgeWith_trace]

/-- The world after a repository call left `db`. -/
def withDb (w : World τ) (db : τ) : World τ := { w with db := db }

@[simp] theorem withDb_db (w : World τ) (db : τ) : (withDb w db).db = db := rfl

/-- The effects after the lookup of an existing message. -/
def resendTrace (receiverId ack : Value) :
    Except JsError (Option Message) → World τ → List (Op × World τ)
  | .error _, _ => []
  | .ok found, w =>
    match resendable user receiverId found with
    | .error e => (ackEffects ack (.fail e)).map fun op => (op, w)
    | .ok existing => clearingTrace w user.id ++
        (deliveryEffects user receiverId existing ack).map fun op => (op, typingCleared w user.id)

theorem resendAndDeliver_trace (data : Value) (trimmed : JsString) (ack : Value)
    (w : World τ) :
    (resendAndDeliver user data trimmed ack).trace (exec repo here) w =
      (.findOne (data.field "_id"), w) ::
        resendTrace user (data.field "receiverId") ack (repo.findOne (data.field "_id") w.db).1
          (withDb w (repo.findOne (data.field "_id") w.db).2) := by
  rw [resendAndDeliver_eq]
  cases hf : (repo.findOne (data.field "_id") w.db).1 with
  | error e => simp [Program.attempt, perform, Program.call, exec, hf, resendTrace]
  | ok found =>
    cases hr : resendable user (data.field "receiverId") found with
    | error e => simp [Program.attempt, perform, Program.call, exec, hf, hr, resendTrace,
        acknowledgeWith_trace, withDb]
    | ok existing => simp [Program.attempt, perform, Program.call, exec, hf, hr, resendTrace,
        deliver_trace, withDb]

/-- The effects after the insertion of a new message. -/
def storeTrace (receiverId : Value) (trimmed : JsString) (ack : Value) :
    Except JsError Message → World τ → List (Op × World τ)
  | .error _, _ => []
  | .ok saved, w =>
    (receivedEffects here (notification user receiverId trimmed)).map (fun op => (op, w)) ++
      clearingTrace w user.id ++
      (deliveryEffects user receiverId saved ack).map fun op => (op, typingCleared w user.id)

theorem storeAndDeliver_trace (receiverId : Value) (trimmed : JsString) (ack : Value)
    (w : World τ) :
    (storeAndDeliver user receiverId trimmed ack).trace (exec repo here) w =
      (.insert none (encryptedMessage user.id receiverId trimmed), w) ::
        storeTrace here user receiverId trimmed ack
          (repo.insert none (encryptedMessage user.id receiverId trimmed) w.db).1
          (withDb w (repo.insert none (encryptedMessage user.id receiverId trimmed) w.db).2) := by
  cases hi : (repo.insert none (encryptedMessage user.id receiverId trimmed) w.db).1 with
  | error e =>
    simp [storeAndDeliver, Program.attempt, perform, Program.call, exec, hi, storeTrace]
  | ok saved =>
    simp [storeAndDeliver, Program.attempt, perform, Program.call, exec, hi, storeTrace, logged,
      Program.trace_bind, Program.run_tryCatch, Program.trace_tryCatch,
      handleMessageReceived_run, handleMessageReceived_trace, deliver_trace, withDb]

theorem acknowledgeWith_run {ack : Value} (h : CanAcknowledge ack) (res : AckResult)
    (w : World τ) : (acknowledgeWith ack res).run (exec repo here) w = (.ok (), w) := by
  rcases h with rfl | rfl | rfl <;> rfl

theorem acknowledgeWith_state (ack : Value) (res : AckResult) (w : World τ) :
    ((acknowledgeWith ack res).run (exec repo here) w).2 = w := by
  cases ack with
  | undefined => rfl
  | function => rfl
  | json v => cases v <;> rfl

theorem deliver_state (receiverId : Value) (msg : Message) (ack : Value) (w : World τ) :
    ((deliver user receiverId msg ack).run (exec repo here) w).2 = typingCleared w user.id := by
  simp [deliver, Program.run_bind, clearTypingTimeout_run, perform, exec, acknowledgeWith_state]

theorem storeAndDeliver_db (receiverId : Value) (trimmed : JsString) (ack : Value)
    (w : World τ) :
    ((storeAndDeliver user receiverId trimmed ack).run (exec repo here) w).2.db =
      (repo.insert none (encryptedMessage user.id receiverId trimmed) w.db).2 := by
  cases hi : (repo.insert none (encryptedMessage user.id receiverId trimmed) w.db).1 with
  | error e => simp [storeAndDeliver, Program.attempt, perform, Program.call, exec, hi]
  | ok saved =>
    simp [storeAndDeliver, Program.attempt, perform, Program.call, exec, hi, logged,
      Program.run_bind, Program.run_tryCatch, handleMessageReceived_run, deliver_state]

theorem reportFailure_state (ack : Value) (w : World τ) :
    ((reportFailure ack).run (exec repo here) w).2 = w := by
  by_cases h : CanAcknowledge ack
  · simp [reportFailure, Program.run_bind, acknowledgeWith_run repo here h, perform, exec]
  · simp [reportFailure, acknowledgeWith_throws h]

theorem handleSendMessage_state (data ack : Value) (w : World τ) :
    ((handleSendMessage user data ack).run (exec repo here) w).2 =
      ((trySendMessage user data ack).run (exec repo here) w).2 := by
  rw [handleSendMessage, Program.run_tryCatch]
  rcases (trySendMessage user data ack).run (exec repo here) w with ⟨r, w'⟩
  cases r with
  | ok u => rfl
  | error e => exact reportFailure_state repo here ack w'

end Runs

end ChatMicroservices.SendMessageRuns

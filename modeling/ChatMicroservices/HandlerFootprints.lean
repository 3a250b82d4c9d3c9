import ChatMicroservices.SendRequestRuns

/-!
# What each handler may do

One footprint for each handler: the effects it performs, whatever the answers are. The
properties of runs that only need to know which effects occur are read off footprints.
-/

namespace ChatMicroservices.HandlerFootprints
open JavaScriptValues EffectPrograms KeyedTables MessagesTable ChatEffects MessageNotification
open SocketHandlers SendMessageRuns MessageController SendRequestRuns

section Combinators

variable {P : Op → Prop}

theorem perform_issues {op : Op} (h : P op) : (perform op).Issues P :=
  (Program.issues_call op).mpr h

theorem acknowledgeWith_issues (ack : Value) {res : AckResult} (h : P (.acknowledge res)) :
    (acknowledgeWith ack res).Issues P := by
  cases ack with
  | undefined => trivial
  | function => exact perform_issues h
  | json v => cases v <;> trivial

theorem logged_issues {p : Handler Unit} (h : p.Issues P) : (logged p).Issues P :=
  h.tryCatch fun _ => trivial

end Combinators

def TypingFootprint (userId : JsString) (data : Value) : Op → Prop
  | .hasTyping u | .clearTyping u => u = userId
  | .emit room (.typing u _) => room = data.field "receiverId" ∧ u = userId
  | .armTyping u receiverId => u = userId ∧ receiverId = data.field "receiverId"
  | _ => False

theorem clearTypingTimeout_issues {P : Op → Prop} (userId : JsString)
    (hhas : P (.hasTyping userId)) (hclear : P (.clearTyping userId)) :
    (clearTypingTimeout userId).Issues P := by
  refine Program.Issues.bind (perform_issues hhas) fun has => ?_
  cases has with
  | false => trivial
  | true => exact perform_issues hclear

theorem handleTyping_issues (userId : JsString) (data : Value) :
    (handleTyping userId data).Issues (TypingFootprint userId data) := by
  by_cases h : data.Nullish
  · simp [handleTyping, readField, Value.destructure_of_nullish h]
  · simp only [handleTyping, readField, sync, Value.destructure_of_not_nullish h, Program.bind_eq,
      Program.bind_ok]
    refine Program.Issues.bind (clearTypingTimeout_issues userId ?_ ?_) fun _ => ?_
    · rfl
    · rfl
    split
    · refine Program.Issues.bind (perform_issues ?_) fun _ => perform_issues ?_
      · exact ⟨rfl, rfl⟩
      · exact ⟨rfl, rfl⟩
    · exact perform_issues ⟨rfl, rfl⟩

theorem listener_typing_issues (user : AuthUser) (args : List Value) :
    (listener user .typing args).Issues fun op =>
      TypingFootprint user.id (argument args 0) op ∨ IsCrash op :=
  ((handleTyping_issues user.id (argument args 0)).mono fun _ h => .inl h).tryCatch fun _ =>
    perform_issues (.inr trivial)

def DeliveredFootprint : Op → Prop
  | .findOne _ | .reread _ => True
  | .update _ changes => changes.status = none ∨ changes.status = some .delivered
  | .insert id row => id ≠ none ∧ row.status = .delivered
  | .emit _ (.messageDelivered _ _) => True
  | _ => False

theorem save_issues (entity : Message) (h : entity.status = .delivered) :
    (save entity).Issues DeliveredFootprint := by
  refine Program.Issues.bind (perform_issues ?_).attempt fun stored => ?_
  · trivial
  cases stored with
  | none =>
    refine Program.Issues.bind (perform_issues ?_).attempt fun _ => trivial
    exact ⟨by simp, h⟩
  | some stored =>
    have hstatus : DeliveredFootprint (.update entity.id (changesFrom entity stored)) := by
      unfold DeliveredFootprint changesFrom differing
      by_cases hs : entity.status = stored.status
      · exact .inl (if_pos hs)
      · exact .inr ((if_neg hs).trans (congrArg some h))
    dsimp only
    split
    · trivial
    · exact (perform_issues hstatus).attempt

theorem handleMessageDelivered_issues (userId : JsString) (data : Value) :
    (handleMessageDelivered userId data).Issues DeliveredFootprint := by
  unfold handleMessageDelivered
  dsimp only
  split
  · trivial
  · refine Program.Issues.bind (perform_issues ?_).attempt fun found => ?_
    · trivial
    cases found with
    | none => trivial
    | some existing =>
      simp only [confirmDelivery]
      split
      · trivial
      · split
        · refine Program.Issues.bind (save_issues _ rfl) fun _ => perform_issues ?_
          trivial
        · exact perform_issues trivial

def ReadFootprint (userId : JsString) : Op → Prop
  | .markSeen _ receiverId => receiverId = userId
  | .emit _ (.messageRead _) => True
  | _ => False

theorem handleMarkRead_issues (userId : JsString) (data : Value) :
    (handleMarkRead userId data).Issues (ReadFootprint userId) := by
  unfold handleMarkRead
  dsimp only
  split
  · trivial
  · refine Program.Issues.bind (perform_issues ?_).attempt fun _ => perform_issues ?_
    · rfl
    · trivial

theorem markAsRead_issues (user : AuthUser) (senderId : Value) :
    (markAsRead user senderId).Issues (ReadFootprint user.id) := by
  refine Program.Issues.tryCatch ?_ fun _ => trivial
  split
  · trivial
  · refine Program.Issues.bind (perform_issues ?_).attempt fun _ => trivial
    rfl

/-- A row that either send path may insert for the user `userId`. -/
structure Sendable (userId : JsString) (row : NewMessage) : Prop where
  senderId : row.senderId = userId
  receiverId : row.receiverId ≠ .str userId
  isEncrypted : row.isEncrypted = true
  status : row.status = .notDelivered
  text : EncryptedText row.message

theorem encryptedMessage_sendable {userId : JsString} {receiverId : Value} {text : JsString}
    (hne : receiverId ≠ .json (.str userId)) (htext : EncryptedText text) :
    Sendable userId (encryptedMessage userId receiverId text) where
  senderId := rfl
  receiverId := fun h => hne (Value.eq_str_of_column h)
  isEncrypted := rfl
  status := rfl
  text := htext

/-- Sending reads at most one message, inserts sendable rows, and emits to the receiver. -/
def SendFootprint (userId : JsString) (receiverId : Value) : Op → Prop
  | .insert id row => id = none ∧ Sendable userId row
  | .emit room _ => room = receiverId
  | .findOne _ | .isOnline _ | .registerCallback | .sendRequest _ _ | .awaitCallback => True
  | .publish _ | .unhandledRejection _ | .emitToSelf _ | .acknowledge _ => True
  | .hasTyping _ | .clearTyping _ => True
  | _ => False

section Send

variable {userId : JsString} {receiverId : Value}

theorem handleMessageReceived_notifies (args : IncomingMessageNotification) :
    (handleMessageReceived args).Issues Notifies := by
  refine Program.Issues.bind (perform_issues ?_) fun online => ?_
  · trivial
  cases online with
  | true => trivial
  | false =>
    refine Program.Issues.bind (Program.Issues.tryCatch ?_ fun _ => trivial) fun receiver =>
      logged_issues (perform_issues ?_).attempt
    · refine Program.Issues.bind (Program.Issues.tryCatch ?_ fun e => perform_issues ?_)
        fun _ => perform_issues ?_
      · refine Program.Issues.bind (perform_issues ?_) fun _ => (perform_issues ?_).attempt
        · trivial
        · trivial
      · trivial
      · trivial
    · trivial

theorem handleMessageReceived_issues (args : IncomingMessageNotification) :
    (handleMessageReceived args).Issues (SendFootprint userId receiverId) :=
  (handleMessageReceived_notifies args).mono fun op hop => by cases op <;> trivial

theorem deliver_issues {P : Op → Prop} (user : AuthUser) (receiverId : Value) (msg : Message)
    (ack : Value) (hhas : P (.hasTyping user.id)) (hclear : P (.clearTyping user.id))
    (hemit : ∀ event, P (.emit receiverId event)) (hack : ∀ res, P (.acknowledge res)) :
    (deliver user receiverId msg ack).Issues P := by
  refine Program.Issues.bind (clearTypingTimeout_issues user.id hhas hclear) fun _ =>
    Program.Issues.bind (perform_issues ?_) fun _ =>
      Program.Issues.bind (perform_issues ?_) fun _ => acknowledgeWith_issues ack ?_
  · exact hemit _
  · exact hemit _
  · exact hack _

theorem resendAndDeliver_issues {P : Op → Prop} (user : AuthUser) (data : Value)
    (trimmed : JsString) (ack : Value) (hfind : P (.findOne (data.field "_id")))
    (hhas : P (.hasTyping user.id)) (hclear : P (.clearTyping user.id))
    (hemit : ∀ event, P (.emit (data.field "receiverId") event))
    (hack : ∀ res, P (.acknowledge res)) :
    (resendAndDeliver user data trimmed ack).Issues P := by
  rw [resendAndDeliver_eq]
  refine Program.Issues.bind (perform_issues hfind).attempt fun found => ?_
  cases resendable user (data.field "receiverId") found with
  | error e => exact acknowledgeWith_issues ack (hack _)
  | ok existing => exact deliver_issues user _ existing ack hhas hclear hemit hack

end Send

theorem trySendMessage_issues (user : AuthUser) (data ack : Value) :
    (trySendMessage user data ack).Issues
      (SendFootprint user.id (data.field "receiverId")) := by
  rcases trySendMessage_cases user data ack with
    ⟨-, hrun⟩ | ⟨error, -, hrun⟩ | ⟨trimmed, -, hrun⟩ | ⟨trimmed, hv, hrun⟩
  all_goals rw [hrun]
  · trivial
  · exact acknowledgeWith_issues ack trivial
  · exact resendAndDeliver_issues user data trimmed ack trivial trivial trivial (fun _ => rfl)
      fun _ => trivial
  · have hpayload := verdict_eq_store hv
    refine Program.Issues.bind (perform_issues ?_).attempt fun saved =>
      Program.Issues.bind (logged_issues (handleMessageReceived_issues _)) fun _ =>
        deliver_issues user _ saved ack trivial trivial (fun _ => rfl) fun _ => trivial
    exact ⟨rfl, encryptedMessage_sendable hpayload.receiverId_ne hpayload.encrypted⟩

/-- The `catch` block acknowledges a failure and tells the sender's own socket. -/
def FailureFootprint : Op → Prop
  | .acknowledge res => res = .fail "Failed to send message"
  | .emitToSelf _ => True
  | _ => False

theorem reportFailure_issues (ack : Value) : (reportFailure ack).Issues FailureFootprint := by
  refine Program.Issues.bind (acknowledgeWith_issues ack ?_) fun _ => perform_issues ?_
  · rfl
  · trivial

/-- Every other effect of the event is one of its `try` block. -/
theorem mem_handleSendMessage_trace {τ : Type} {repo : Repository τ} {here : Surroundings}
    {user : AuthUser} {data ack : Value} {w w' : World τ} {op : Op}
    (h : (op, w') ∈ (handleSendMessage user data ack).trace (exec repo here) w) :
    (op, w') ∈ (trySendMessage user data ack).trace (exec repo here) w ∨
      FailureFootprint op := by
  rw [handleSendMessage, Program.trace_tryCatch, List.mem_append] at h
  rcases h with h | h
  · exact .inl h
  · split at h
    · cases h
    · exact .inr ((reportFailure_issues ack).mem_trace (exec repo here) h)

section Observations

variable {τ β : Type} (repo : Repository τ) (here : Surroundings) (user : AuthUser)
  {f : Op → Option β}

theorem observed_of_issues {α : Type} {p : Handler α} (hp : p.Issues fun op => f op = none)
    (w : World τ) : (effects (p.trace (exec repo here) w)).filterMap f = [] := by
  rw [List.filterMap_eq_nil_iff]
  intro op hop
  obtain ⟨e, he, rfl⟩ := List.mem_map.mp hop
  exact hp.mem_trace (exec repo here) he

/-- What the `catch` block does not do is done in the `try` block. -/
theorem observed_handleSendMessage (hf : ∀ op, FailureFootprint op → f op = none)
    (data ack : Value) (w : World τ) :
    (effects ((handleSendMessage user data ack).trace (exec repo here) w)).filterMap f =
      (effects ((trySendMessage user data ack).trace (exec repo here) w)).filterMap f := by
  have hfailed : (reportFailure ack).Issues fun op => f op = none :=
    (reportFailure_issues ack).mono hf
  rw [handleSendMessage, Program.trace_tryCatch, effects_append, List.filterMap_append]
  rcases (trySendMessage user data ack).run (exec repo here) w with ⟨r, w'⟩
  cases r with
  | ok u => exact List.append_nil _
  | error e => rw [observed_of_issues repo here hfailed w', List.append_nil]

/-- What the delivery does not do is the insertion or belongs to the notification. -/
theorem observed_store {receiverId ack : Value} {text : JsString} {saved : Message}
    (hf : (deliver user receiverId saved ack).Issues fun op => f op = none) {w : World τ}
    (hi : (repo.insert none (encryptedMessage user.id receiverId text) w.db).1 = .ok saved) :
    (effects ((storeAndDeliver user receiverId text ack).trace (exec repo here) w)).filterMap f =
      (Op.insert none (encryptedMessage user.id receiverId text) ::
        receivedEffects here (notification user receiverId text)).filterMap f := by
  rw [storeAndDeliver_trace, hi, storeTrace, effects_cons, List.append_assoc,
    ← deliver_trace repo here, effects_append, effects_map, ← List.cons_append,
    List.filterMap_append, observed_of_issues repo here hf, List.append_nil]

end Observations

theorem handleSendMessage_issues (user : AuthUser) (data ack : Value) :
    (handleSendMessage user data ack).Issues
      (SendFootprint user.id (data.field "receiverId")) :=
  (trySendMessage_issues user data ack).tryCatch fun _ =>
    (reportFailure_issues ack).mono fun op hop => by cases op <;> trivial

theorem listener_sendMessage_issues (user : AuthUser) (args : List Value) :
    (listener user .sendMessage args).Issues
      (SendFootprint user.id ((argument args 0).field "receiverId")) :=
  (handleSendMessage_issues user (argument args 0) (argument args 1)).tryCatch fun _ =>
    perform_issues trivial

theorem sendMessage_issues (user : AuthUser) (body : Value) :
    (sendMessage user body).Issues (SendFootprint user.id (body.field "receiverId")) := by
  cases hcheck : checkBody user body with
  | error e =>
    rw [sendMessage_rejected hcheck]
    trivial
  | ok text =>
    obtain ⟨-, hreceiver, hcontent⟩ := checkBody_eq_ok.mp hcheck
    rw [sendMessage_checked hcheck]
    refine Program.Issues.tryCatch ?_ fun _ => trivial
    refine Program.Issues.bind (perform_issues ?_).attempt fun _ =>
      Program.Issues.bind (handleMessageReceived_issues _) fun _ => trivial
    exact ⟨rfl, encryptedMessage_sendable (validateReceiver_ok hreceiver)
      (validateContent_ok hcontent)⟩

end ChatMicroservices.HandlerFootprints

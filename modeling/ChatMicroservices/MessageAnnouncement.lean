import ChatMicroservices.ListenerContainment

/-!
# Announcing accepted messages

What the receiver of an accepted message learns, and what a broker outage changes. The
WebSocket path emits the message itself and also notifies an offline receiver; the REST path
only notifies, and only when the receiver is offline. The client is answered and the receiver
is sent the entity that was saved; `row` is what the columns hold of it.
-/

namespace ChatMicroservices.MessageAnnouncement
open JavaScriptValues EffectPrograms KeyedTables MessagesTable ChatEffects MessageNotification
open SocketHandlers SendMessageRuns MessageController SendRequestRuns HandlerFootprints
open ListenerContainment StoredTexts

section Outage

variable {τ : Type} (repo : Repository τ) (here : Surroundings)

/-- What a broker outage must not change for the receiver of `args`: the handler resolves,
accepted messages are stored and emitted, and nothing reaches a process hook. -/
structure Unaffected (args : IncomingMessageNotification) (w : World τ) : Prop where
  resolves : ((handleMessageReceived args).run (exec repo here) w).1 = .ok ()
  contained : Contained ((handleMessageReceived args).trace (exec repo here) w)
  accepted : ∀ user data ack trimmed saved, data.field "receiverId" = args.receiverId →
    verdict user data = .store trimmed →
    (repo.insert none (encryptedMessage user.id args.receiverId trimmed) w.db).1 = .ok saved →
    ((handleSendMessage user data ack).run (exec repo here) w).2.db =
        (repo.insert none (encryptedMessage user.id args.receiverId trimmed) w.db).2 ∧
      .emit args.receiverId (.receiveMessage (formatMessageForClient saved user.username)) ∈
        effects ((handleSendMessage user data ack).trace (exec repo here) w) ∧
      Contained ((handleSendMessage user data ack).trace (exec repo here) w)

theorem not_nullish_of_store {user : AuthUser} {data : Value} {trimmed : JsString}
    (h : verdict user data = .store trimmed) : ¬ data.Nullish := by
  intro hd
  rw [verdict_nullish user hd] at h
  cases h

/-- Whatever the broker does, an accepted message is stored. -/
theorem accepted_stored {user : AuthUser} {data ack : Value} {trimmed : JsString}
    (hv : verdict user data = .store trimmed) (w : World τ) :
    ((handleSendMessage user data ack).run (exec repo here) w).2.db =
      (repo.insert none (encryptedMessage user.id (data.field "receiverId") trimmed) w.db).2 := by
  rw [handleSendMessage_state, trySendMessage_eq user ack (not_nullish_of_store hv), hv]
  exact storeAndDeliver_db repo here user _ trimmed ack w

/-- Whatever the broker does, an accepted message is emitted to the receiver's room. -/
theorem accepted_emitted {user : AuthUser} {data : Value} (ack : Value) {trimmed : JsString}
    {saved : Message} (hv : verdict user data = .store trimmed) {w : World τ}
    (hi : (repo.insert none
      (encryptedMessage user.id (data.field "receiverId") trimmed) w.db).1 = .ok saved) :
    .emit (data.field "receiverId")
        (.receiveMessage (formatMessageForClient saved user.username)) ∈
      effects ((handleSendMessage user data ack).trace (exec repo here) w) := by
  rw [handleSendMessage, Program.trace_tryCatch,
    trySendMessage_eq user ack (not_nullish_of_store hv), hv]
  simp [afterVerdict, storeAndDeliver_trace, hi, storeTrace, deliveryEffects]

theorem unaffected_iff (args : IncomingMessageNotification) (w : World τ) :
    Unaffected repo here args w ↔ LookupWorks here args.receiverId := by
  have hreceived : Contained ((handleMessageReceived args).trace (exec repo here) w) ↔
      LookupWorks here args.receiverId := by
    rw [handleMessageReceived_trace, contained_map_iff, receivedEffects_contained_iff]
  constructor
  · intro h
    exact hreceived.mp h.contained
  · intro h
    refine ⟨by rw [handleMessageReceived_run], hreceived.mpr h, ?_⟩
    intro user data ack trimmed saved hreceiver hv hi
    rw [← hreceiver] at h hi ⊢
    refine ⟨accepted_stored repo here hv w, accepted_emitted repo here ack hv hi, ?_⟩
    rw [handleSendMessage_contained_iff]
    exact fun _ => h

end Outage

/-- With a closed channel, the lookup of an offline receiver shuts the service down. -/
theorem outage_crashes :
    ¬ Contained ((handleMessageReceived ⟨js "alice", js "alice@example.com",
      .json (.str (js "bob")), js "[Encrypted message]", true, none⟩).trace
      (exec (postgres calm) { quiet with channel := fun _ => .closed }) World.empty) := by
  decide

/-- A request to send a message, on either path. -/
inductive Submission where
  | rest (user : AuthUser) (body : Value)
  | websocket (user : AuthUser) (data ack : Value)

namespace Submission

def receiverId : Submission → Value
  | rest _ body => body.field "receiverId"
  | websocket _ data _ => data.field "receiverId"

def ViaWebSocket : Submission → Prop
  | rest _ _ => False
  | websocket _ _ _ => True

section Runs

variable {τ : Type} (repo : Repository τ) (here : Surroundings)

def trace (s : Submission) (w : World τ) : List (Op × World τ) :=
  match s with
  | rest user body => (sendMessage user body).trace (exec repo here) w
  | websocket user data ack => (handleSendMessage user data ack).trace (exec repo here) w

/-- The state of the store after the request was handled. -/
def storeAfter (s : Submission) (w : World τ) : τ :=
  match s with
  | rest user body => ((sendMessage user body).run (exec repo here) w).2.db
  | websocket user data ack => ((handleSendMessage user data ack).run (exec repo here) w).2.db

/-- The client is told that the message was newly accepted as `row`. -/
def Confirmed (s : Submission) (row : Message) (w : World τ) : Prop :=
  match s with
  | rest user body => ∃ text m, m.id = row.id ∧
      ((sendMessage user body).run (exec repo here) w).1 = .ok (.json 200 text (.message m))
  | websocket user data ack => (data.field "_id").truthy = false ∧
      .acknowledge (.ok row.id) ∈
        effects ((handleSendMessage user data ack).trace (exec repo here) w)

end Runs

/-- The message was newly accepted and `row` is its stored row. -/
def Accepted (s : Submission) (c : Conditions) (here : Surroundings) (row : Message)
    (w : World Table) : Prop :=
  s.Confirmed (postgres c) here row w ∧ row ∈ (s.storeAfter (postgres c) here w).rows

/-- The receiver is told: the message that is stored as `row` is emitted to its room, or a
notification for it is handed to a working queue. -/
def Announced {τ : Type} (s : Submission) (repo : Repository τ) (here : Surroundings)
    (row : Message) (w : World τ) : Prop :=
  (∃ m username, m.encoded toWellFormed = row ∧
    .emit s.receiverId (.receiveMessage (formatMessageForClient m username)) ∈
      effects (s.trace repo here w)) ∨
  ∃ payload, .publish payload ∈ effects (s.trace repo here w) ∧
    payload.messageType = "MESSAGE_RECEIVED" ∧ payload.userId = s.receiverId ∧
    here.channel .notifications = .working

end Submission

section Announcement

variable {τ : Type} (repo : Repository τ) (here : Surroundings) (user : AuthUser)

/-- A request that answers 200 passed the checks and stored its message. -/
theorem sendMessage_answered {body : Value} {w : World τ} {status : ℕ} {text : String}
    {row : Message}
    (h : ((sendMessage user body).run (exec repo here) w).1 =
      .ok (.json status text (.message row))) :
    ∃ trimmed, (repo.insert none
        (encryptedMessage user.id (body.field "receiverId") trimmed) w.db).1 = .ok row ∧
      effects ((sendMessage user body).trace (exec repo here) w) =
        .insert none (encryptedMessage user.id (body.field "receiverId") trimmed) ::
          receivedEffects here (notification user (body.field "receiverId") trimmed) := by
  cases hcheck : checkBody user body with
  | error e =>
    rw [sendMessage_rejected hcheck] at h
    cases h
  | ok trimmed =>
    rw [sendMessage_checked hcheck, storeAndAnswer_run] at h
    cases hi : (repo.insert none
        (encryptedMessage user.id (body.field "receiverId") trimmed) w.db).1 with
    | error e =>
      rw [hi] at h
      cases h
    | ok saved =>
      rw [hi] at h
      cases h
      exact ⟨trimmed, hi, sendMessage_stored repo here hcheck hi⟩

/-- Over REST, an online receiver is not told. -/
theorem rest_announced_iff {body : Value} {w : World τ} {status : ℕ} {text : String}
    {m row : Message} (hbroker : here.channel .notifications = .working)
    (h : ((sendMessage user body).run (exec repo here) w).1 =
      .ok (.json status text (.message m))) :
    (Submission.rest user body).Announced repo here row w ↔
      here.isOnline (body.field "receiverId") = false := by
  obtain ⟨trimmed, -, ht⟩ := sendMessage_answered repo here user h
  simp only [Submission.Announced, Submission.trace, Submission.receiverId, ht]
  by_cases hon : here.isOnline (body.field "receiverId") = true
  · simp [receivedEffects, notification, hon]
  · have hoff : here.isOnline (body.field "receiverId") = false := by simpa using hon
    simp only [hoff, iff_true]
    refine .inr ⟨published here (notification user (body.field "receiverId") trimmed), ?_,
      rfl, rfl, hbroker⟩
    simp [receivedEffects, notification, hon]

/-- Only the `try` block acknowledges success. -/
theorem acknowledged_in_try {data ack : Value} {w : World τ} {id : JsString}
    (h : .acknowledge (.ok id) ∈
      effects ((handleSendMessage user data ack).trace (exec repo here) w)) :
    .acknowledge (.ok id) ∈
      effects ((trySendMessage user data ack).trace (exec repo here) w) := by
  obtain ⟨⟨op, w'⟩, hop, rfl⟩ := List.mem_map.mp h
  rcases mem_handleSendMessage_trace hop with htry | hfail
  · exact List.mem_map_of_mem htry
  · cases hfail

/-- A message without `_id` that is acknowledged was stored. -/
theorem acknowledged_stored {data ack : Value} {w : World τ} {id : JsString}
    (hid : (data.field "_id").truthy = false)
    (h : .acknowledge (.ok id) ∈
      effects ((handleSendMessage user data ack).trace (exec repo here) w)) :
    ∃ trimmed saved, verdict user data = .store trimmed ∧
      (repo.insert none
        (encryptedMessage user.id (data.field "receiverId") trimmed) w.db).1 = .ok saved ∧
      saved.id = id := by
  replace h := acknowledged_in_try repo here user h
  rcases trySendMessage_cases user data ack with
    ⟨-, hrun⟩ | ⟨error, -, hrun⟩ | ⟨trimmed, hv, hrun⟩ | ⟨trimmed, hv, hrun⟩
  · rw [hrun] at h
    cases h
  · rw [hrun, acknowledgeWith_trace, effects_map] at h
    cases mem_ackEffects h
  · simp [verdict_resend_id hv] at hid
  · rw [hrun, storeAndDeliver_trace] at h
    cases hi : (repo.insert none
        (encryptedMessage user.id (data.field "receiverId") trimmed) w.db).1 with
    | error e => simp [hi, storeTrace] at h
    | ok saved =>
      refine ⟨trimmed, saved, hv, hi, ?_⟩
      simp only [hi, storeTrace, effects_cons, effects_append, effects_map, List.mem_cons,
        List.mem_append, reduceCtorEq, false_or, deliveryEffects] at h
      rcases h with (h | h) | h
      · exact (receivedEffects_notify here h).elim
      · obtain ⟨⟨op, w'⟩, hop, rfl⟩ := List.mem_map.mp h
        rcases mem_clearingTrace hop with hop | hop <;> cases hop
      · simp only [List.not_mem_nil, false_or] at h
        exact (AckResult.ok.inj (Op.acknowledge.inj (mem_ackEffects h))).symm

end Announcement

/-- An accepted message is announced unless it came over REST while its receiver was online. -/
theorem announced_iff (s : Submission) (c : Conditions) (here : Surroundings) (row : Message)
    (w : World Table) (hbroker : ∀ q, here.channel q = .working)
    (h : s.Accepted c here row w) :
    s.Announced (postgres c) here row w ↔
      s.ViaWebSocket ∨ here.isOnline s.receiverId = false := by
  obtain ⟨hconfirmed, hrow⟩ := h
  cases s with
  | rest user body =>
    obtain ⟨text, m, -, ht⟩ := hconfirmed
    rw [rest_announced_iff (postgres c) here user (hbroker .notifications) ht]
    simp [Submission.ViaWebSocket, Submission.receiverId]
  | websocket user data ack =>
    obtain ⟨hid, hack⟩ := hconfirmed
    obtain ⟨trimmed, saved, hv, hi, hkey⟩ :=
      acknowledged_stored (postgres c) here user hid hack
    have hsaved : saved.encoded toWellFormed ∈ (((handleSendMessage user data ack).run
        (exec (postgres c) here) w).2.db).rows := by
      rw [accepted_stored (postgres c) here hv w]
      exact statements_insert_mem hi
    have hencoded : saved.encoded toWellFormed = row :=
      KeyedTable.eq_of_key_eq _ hsaved hrow hkey
    refine iff_of_true (.inl ⟨saved, user.username, hencoded, ?_⟩) (.inl trivial)
    exact accepted_emitted (postgres c) here ack hv hi

/-- The smallest envelope that both send paths accept. -/
def envelope : JsString := js "\x7b\"__encrypted\":true,\"body\":\"\"\x7d"

def receiver : JsString := js "7d444840-9dc0-41d1-b245-5ffdce74fad2"

def restRequest : Submission :=
  .rest alice (.json (.obj [(js "receiverId", .str receiver), (js "message", .str envelope)]))

/-- The row that `restRequest` stores in an empty table. -/
def storedRow : Message :=
  (encryptedMessage alice.id (.json (.str receiver)) envelope).toRow (js "m1") 0

theorem announced_iff_quiet :
    restRequest.Announced (postgres calm) quiet storedRow World.empty ↔
      restRequest.ViaWebSocket ∨ quiet.isOnline restRequest.receiverId = false :=
  announced_iff restRequest calm quiet storedRow World.empty (fun _ => rfl)
    ⟨⟨"Message sent successfully", storedRow, rfl, by decide +kernel⟩, by decide +kernel⟩

/-- Everybody is online. -/
def everybodyOnline : Surroundings := { quiet with isOnline := fun _ => true }

/-- The REST request of an online receiver is accepted and announced to nobody. -/
theorem unannounced :
    restRequest.Accepted calm everybodyOnline storedRow World.empty ∧
      (∀ q, everybodyOnline.channel q = .working) ∧
      ¬ restRequest.Announced (postgres calm) everybodyOnline storedRow World.empty := by
  have hanswer : ((sendMessage alice (.json (.obj [(js "receiverId", .str receiver),
      (js "message", .str envelope)]))).run (exec (postgres calm) everybodyOnline)
        World.empty).1 = .ok (.json 200 "Message sent successfully" (.message storedRow)) := by
    decide +kernel
  refine ⟨⟨⟨_, storedRow, rfl, hanswer⟩, by decide +kernel⟩, fun _ => rfl, ?_⟩
  rw [restRequest, rest_announced_iff (postgres calm) everybodyOnline alice rfl hanswer]
  decide

end ChatMicroservices.MessageAnnouncement
